/-
Module: TavilyHikari.Store.SubjectKeyBreakages
Purpose: `subject_key_breakages` (`store/mod.rs`): which API keys broke in the hands of
  which user or token, with one row for each month.
Trusted boundary: human-reviewed spec
Main exports: SubjectKeyBreakage, KeyBreak, upsertSubjectKeyBreakageTx, applyBreakages
-/
import TavilyHikari.Library.Calendar
import TavilyHikari.Store.UsageBuckets

namespace TavilyHikari.Store

open Library

/-- Primary key of `subject_key_breakages`. -/
structure SubjectKeyBreakageKey where
  subjectKind : String
  subjectId : String
  keyId : String
  monthStart : Int
deriving DecidableEq, Repr

structure SubjectKeyBreakage where
  createdAt : Int
  updatedAt : Int
  latestBreakAt : Int
  keyStatus : String
  reasonCode : Option String
  reasonSummary : Option String
  source : String
  breakerTokenId : Option String
  breakerUserId : Option String
  breakerUserDisplayName : Option String
  manualActorDisplayName : Option String
deriving DecidableEq, Repr

/-- The arguments of one `upsert_subject_key_breakage_tx`. -/
structure KeyBreak where
  subjectKind : String
  subjectId : String
  keyId : String
  breakAt : Int
  keyStatus : String
  reasonCode : Option String
  reasonSummary : Option String
  source : String
  breakerTokenId : Option String
  breakerUserId : Option String
  breakerUserDisplayName : Option String
  manualActorDisplayName : Option String
deriving DecidableEq, Repr

/-- The month of a break. The clock stands in for a time `chrono` cannot represent. -/
def breakMonthStart (now : UtcTimestamp) (breakAt : Int) : Int :=
  startOfMonthTs ((timestampOpt breakAt).getD now).secs

namespace KeyBreak

def rowKey (event : KeyBreak) (now : UtcTimestamp) : SubjectKeyBreakageKey where
  subjectKind := event.subjectKind
  subjectId := event.subjectId
  keyId := event.keyId
  monthStart := breakMonthStart now event.breakAt

/-- The `VALUES` of the insert. -/
def inserted (event : KeyBreak) : SubjectKeyBreakage where
  createdAt := event.breakAt
  updatedAt := event.breakAt
  latestBreakAt := event.breakAt
  keyStatus := event.keyStatus
  reasonCode := event.reasonCode
  reasonSummary := event.reasonSummary
  source := event.source
  breakerTokenId := event.breakerTokenId
  breakerUserId := event.breakerUserId
  breakerUserDisplayName := event.breakerUserDisplayName
  manualActorDisplayName := event.manualActorDisplayName

end KeyBreak

/-- `DO UPDATE SET`, column by column. `updated_at` is the one column without a `CASE`. -/
def SubjectKeyBreakage.merge (excluded stored : SubjectKeyBreakage) : SubjectKeyBreakage where
  createdAt := stored.createdAt
  updatedAt := excluded.updatedAt
  latestBreakAt := max stored.latestBreakAt excluded.latestBreakAt
  keyStatus :=
    if excluded.latestBreakAt ≥ stored.latestBreakAt then excluded.keyStatus
    else stored.keyStatus
  reasonCode :=
    if excluded.latestBreakAt ≥ stored.latestBreakAt then excluded.reasonCode
    else stored.reasonCode
  reasonSummary :=
    if excluded.latestBreakAt ≥ stored.latestBreakAt then excluded.reasonSummary
    else stored.reasonSummary
  source :=
    if excluded.latestBreakAt ≥ stored.latestBreakAt then excluded.source
    else stored.source
  breakerTokenId :=
    if excluded.latestBreakAt ≥ stored.latestBreakAt then excluded.breakerTokenId
    else stored.breakerTokenId
  breakerUserId :=
    if excluded.latestBreakAt ≥ stored.latestBreakAt then excluded.breakerUserId
    else stored.breakerUserId
  breakerUserDisplayName :=
    if excluded.latestBreakAt ≥ stored.latestBreakAt then excluded.breakerUserDisplayName
    else stored.breakerUserDisplayName
  manualActorDisplayName :=
    if excluded.latestBreakAt ≥ stored.latestBreakAt then excluded.manualActorDisplayName
    else stored.manualActorDisplayName

abbrev SubjectKeyBreakages := KeyedTable SubjectKeyBreakageKey SubjectKeyBreakage

def upsertSubjectKeyBreakageTx (now : UtcTimestamp) (event : KeyBreak)
    (t : SubjectKeyBreakages) : SubjectKeyBreakages :=
  t.upsert (event.rowKey now) event.inserted event.inserted.merge

/-- One call: the clock it reads, and its arguments. -/
structure BreakageCall where
  now : UtcTimestamp
  event : KeyBreak
deriving DecidableEq, Repr

def BreakageCall.rowKey (call : BreakageCall) : SubjectKeyBreakageKey :=
  call.event.rowKey call.now

/-- The calls one after the other. -/
def applyBreakages (calls : List BreakageCall) (t : SubjectKeyBreakages) :
    SubjectKeyBreakages :=
  calls.foldl (fun t call => upsertSubjectKeyBreakageTx call.now call.event t) t

end TavilyHikari.Store
