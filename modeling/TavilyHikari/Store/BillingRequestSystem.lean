/-
Module: TavilyHikari.Store.BillingRequestSystem
Purpose: Billable requests over one database: `lock_token_billing` with its sorted
  subjects and the replay of pending charges, the precheck, the pending record of
  what the upstream charged, and its settlement (`tavily_proxy/mod.rs`,
  `server/proxy.rs`). One statement or transaction a step, of any request.
Trusted boundary: human-reviewed spec (a lease is taken only while no other request
  holds the subject; requests of the open development mode are not checked and are
  left out)
Main exports: BillingRequest, BillingRequestState, BillingRequestAction,
  billingRequestSystem, recordedInWindow
-/
import Mathlib.Data.String.Basic
import TavilyHikari.Store.BillingLedgerSystem
import TavilyHikari.Store.QuotaPrecheck

namespace TavilyHikari.Store

open Library

/-! ### The windows -/

/-- Whether the window at `now` counts a charge of time `ts`. -/
def QuotaWindow.counts (now : Int) : QuotaWindow → Int → Bool
  | .hour, ts => minuteBucket ts ≥ hourWindowStart now
  | .day, ts => hourBucket ts ≥ dayWindowStart now
  | .month, ts => startOfMonthTs ts = startOfMonthTs now

/-- The row is recorded for the subject, charged or still pending. -/
def AuthTokenLog.RecordedFor (row : AuthTokenLog) (subject : QuotaSubject) : Prop :=
  (row.billingState = billingStatePending ∨ row.billingState = billingStateCharged) ∧
    0 < row.credits ∧ row.billingSubject = some subject.billingSubject

instance (row : AuthTokenLog) (subject : QuotaSubject) : Decidable (row.RecordedFor subject) :=
  inferInstanceAs (Decidable (_ ∧ _ ∧ _))

namespace BillingDb

/-- All credits recorded for a subject at the times that `counts` selects. -/
def recordedWhere (db : BillingDb) (subject : QuotaSubject) (counts : Int → Bool) : Int :=
  db.authTokenLogs.total fun row =>
    if row.RecordedFor subject ∧ counts row.createdAt.secs then row.credits else 0

/-- The window total of a subject, pending charges included. -/
def recordedInWindow (db : BillingDb) (subject : QuotaSubject) (window : QuotaWindow)
    (now : Int) : Int :=
  db.recordedWhere subject (window.counts now)

end BillingDb

/-! ### Requests -/

/-- Where a request is. The times are those of its snapshot, the counts what the
snapshot has summed up so far. -/
inductive BillingPhase where
  /-- The current subject is known, the pending subjects are not. -/
  | arrived
  /-- In the loop over the subjects that are still to be locked. -/
  | locking (subjects : List String)
  /-- Has the lease of a subject and is about to list its pending charges. -/
  | listing (subject : String) (subjects : List String)
  | reconciling (subject : String) (pending : List Int) (retryLaterAttempts : Nat)
      (subjects : List String)
  /-- `lock_token_billing` has returned. -/
  | locked
  | summingHour (now : Int)
  | summingDay (now hourlyUsed : Int)
  | selectingMonth (now hourlyUsed dailyUsed : Int)
  /-- Has seen a row of an earlier month and is about to reset it. -/
  | rollingMonth (now hourlyUsed dailyUsed : Int)
  /-- The precheck has passed; the upstream is at work. -/
  | passed
  /-- The charge is recorded as pending. -/
  | recorded (logId : Int)
  | finished
deriving DecidableEq, Repr

/-- The subject that the request is locking and reconciling. -/
def BillingPhase.leased : BillingPhase → List String
  | .listing subject _ => [subject]
  | .reconciling subject _ _ _ => [subject]
  | _ => []

structure BillingRequest where
  tokenId : String
  /-- `current_subject`. -/
  subject : QuotaSubject
  reservedBillableTotal : Int
  /-- The guards of the subjects that are reconciled. -/
  held : List String
  phase : BillingPhase
  /-- The credits it has recorded. -/
  observed : Option Int
deriving DecidableEq, Repr

/-- The subjects whose lease the request holds. -/
def BillingRequest.leases (request : BillingRequest) : List String :=
  request.held ++ request.phase.leased

/-- The request ends, by its answer, by an error or by a crash, and its guards are
dropped. -/
def BillingRequest.finish (request : BillingRequest) : BillingRequest :=
  { request with held := [], phase := .finished }

structure BillingRequestState where
  clock : UtcTimestamp
  db : BillingDb
  requests : List BillingRequest

inductive BillingRequestAction where
  /-- The clock moves on to a later time. -/
  | tick (clock : UtcTimestamp)
  /-- A request arrives; `billing_subject_for_token` has named its subject. -/
  | arrive (tokenId : String) (subject : QuotaSubject) (reservedBillableTotal : Int)
  /-- A request runs its next statement; a transaction breaks after `healthy`
  statements. -/
  | advance (number : Nat) (healthy : Option Nat)
  /-- The upstream has answered and the charge is recorded as pending. -/
  | record (number : Nat) (attempt : PendingBillingAttempt)
  | leave (number : Nat)
  /-- Anybody replays a pending charge. -/
  | replay (logId : Int) (healthy : Option Nat)
  | annotate (logId : Int) (message : String)
deriving Repr

namespace BillingRequestState

/-- The lease of the subject is free. -/
def leaseFree (s : BillingRequestState) (subject : String) : Bool :=
  s.requests.all fun request => subject ∉ request.leases

/-- The subjects of `lock_token_billing`, sorted and without repetitions. -/
def lockOrder (db : BillingDb) (tokenId : String) (subject : QuotaSubject) : List String :=
  ((listPendingBillingSubjectsForToken db tokenId ++
    [subject.billingSubject]).insertionSort (· ≤ ·)).dedup

/-- The body of the loop in `reconcile_pending_billing_for_subject`. -/
def reconcile (env : BillingEnv) (db : BillingDb) (request : BillingRequest)
    (healthy : Option Nat) (subject : String) (logId : Int) (pending : List Int)
    (retryLaterAttempts : Nat) (subjects : List String) : BillingDb × BillingRequest :=
  match applyPendingBillingLog env logId healthy db with
  | (.ok .charged, db) =>
      (db, { request with phase := .reconciling subject pending 0 subjects })
  | (.ok .alreadySettled, db) =>
      (db, { request with phase := .reconciling subject pending 0 subjects })
  | (.ok .retryLater, db) =>
      if retryLaterAttempts + 1 ≥ 2 then
        let message :=
          s!"pending billing claim miss for auth_token_logs.id={logId}; " ++
            "blocking request until replay succeeds"
        (annotatePendingBillingLog db logId message, request.finish)
      else
        (db, { request with
          phase := .reconciling subject (logId :: pending) (retryLaterAttempts + 1) subjects })
  | (.error _, db) => (db, request.finish)

/-- What `proxy_handler` does with a complete snapshot. -/
def precheck (limits : QuotaLimits) (request : BillingRequest)
    (hourlyUsed dailyUsed monthlyUsed : Int) : BillingRequest :=
  let verdict :=
    TokenQuotaVerdict.new hourlyUsed limits.hourlyLimit dailyUsed limits.dailyLimit monthlyUsed
      limits.monthlyLimit
  if precheckBlocks verdict request.reservedBillableTotal then request.finish
  else { request with phase := .passed }

/-- The statement that a request runs next, with what becomes of the request. -/
def advance (localDayBucketStartUtcTs : Int → Int) (limits : QuotaSubject → QuotaLimits)
    (s : BillingRequestState) (request : BillingRequest) (healthy : Option Nat) :
    Option (BillingDb × BillingRequest) :=
  let env := { now := s.clock, localDayBucketStartUtcTs }
  match request.phase with
  | .arrived =>
      some (s.db,
        { request with phase := .locking (lockOrder s.db request.tokenId request.subject) })
  | .locking [] =>
      -- The guards of the other subjects are dropped.
      if request.subject.billingSubject ∈ request.held then
        some (s.db, { request with held := [request.subject.billingSubject], phase := .locked })
      else some (s.db, request.finish)
  | .locking (subject :: subjects) =>
      if s.leaseFree subject then
        some (s.db, { request with phase := .listing subject subjects })
      else none
  | .listing subject subjects =>
      some (s.db,
        { request with
          phase := .reconciling subject (listPendingBillingLogIds s.db subject) 0 subjects })
  | .reconciling subject [] _ subjects =>
      some (s.db, { request with held := request.held ++ [subject], phase := .locking subjects })
  | .reconciling subject (logId :: pending) retryLaterAttempts subjects =>
      some (reconcile env s.db request healthy subject logId pending retryLaterAttempts subjects)
  | .locked => some (s.db, { request with phase := .summingHour s.clock.secs })
  | .summingHour now =>
      let hourlyUsed :=
        sumUsageBuckets s.db.usageBuckets request.subject .minute (hourWindowStart now)
      some (s.db, { request with phase := .summingDay now hourlyUsed })
  | .summingDay now hourlyUsed =>
      let dailyUsed := sumUsageBuckets s.db.usageBuckets request.subject .hour (dayWindowStart now)
      some (s.db, { request with phase := .selectingMonth now hourlyUsed dailyUsed })
  | .selectingMonth now hourlyUsed dailyUsed =>
      match s.db.monthlyQuota.find request.subject with
      | none => some (s.db, precheck (limits request.subject) request hourlyUsed dailyUsed 0)
      | some stored =>
          if stored.monthStart < startOfMonthTs now then
            some (s.db, { request with phase := .rollingMonth now hourlyUsed dailyUsed })
          else
            some (s.db,
              precheck (limits request.subject) request hourlyUsed dailyUsed stored.monthCount)
  | .rollingMonth now hourlyUsed dailyUsed =>
      some
        ({ s.db with
            monthlyQuota := resetMonth s.db.monthlyQuota request.subject (startOfMonthTs now) },
          precheck (limits request.subject) request hourlyUsed dailyUsed 0)
  | .passed => none
  | .recorded logId =>
      some ((applyPendingBillingLog env logId healthy s.db).2, request.finish)
  | .finished => none

def step (localDayBucketStartUtcTs : Int → Int) (limits : QuotaSubject → QuotaLimits)
    (s : BillingRequestState) : BillingRequestAction → Option BillingRequestState
  | .tick clock => if s.clock.secs ≤ clock.secs then some { s with clock } else none
  | .arrive tokenId subject reservedBillableTotal =>
      some
        { s with
          requests :=
            s.requests ++
              [{ tokenId, subject, reservedBillableTotal, held := [], phase := .arrived,
                 observed := none }] }
  | .advance number healthy =>
      match s.requests[number]? with
      | none => none
      | some request =>
          (s.advance localDayBucketStartUtcTs limits request healthy).map fun next =>
            { s with db := next.1, requests := s.requests.set number next.2 }
  | .record number attempt =>
      match s.requests[number]? with
      | none => none
      | some request =>
          -- Only credits that cost something are recorded, and for the locked subject.
          if request.phase = .passed ∧ 0 < attempt.businessCredits ∧
              attempt.billingSubject = request.subject.billingSubject then
            let (logId, db) := insertTokenLogPendingBilling s.db attempt s.clock
            some
              { s with
                db
                requests :=
                  s.requests.set number
                    { request with
                      phase := .recorded logId
                      observed := some attempt.businessCredits } }
          else none
  | .leave number => some { s with requests := s.requests.modify number BillingRequest.finish }
  | .replay logId healthy =>
      let env := { now := s.clock, localDayBucketStartUtcTs }
      some { s with db := (applyPendingBillingLog env logId healthy s.db).2 }
  | .annotate logId message => some { s with db := annotatePendingBillingLog s.db logId message }

end BillingRequestState

def billingRequestSystem (localDayBucketStartUtcTs : Int → Int)
    (limits : QuotaSubject → QuotaLimits) :
    TransitionSystem BillingRequestState BillingRequestAction where
  step := BillingRequestState.step localDayBucketStartUtcTs limits

/-! ### What the precheck is for -/

/-- Every request that has passed the precheck has room for its reservation, with
all credits recorded so far. -/
def PassedWithinLimits (limits : QuotaSubject → QuotaLimits) (s : BillingRequestState) : Prop :=
  ∀ request ∈ s.requests, request.phase = .passed → ∀ window,
    s.db.recordedInWindow request.subject window s.clock.secs +
      reservation request.reservedBillableTotal ≤ (limits request.subject).limit window

/-- No window total is past its limit by more than what a single request was
charged over its reservation. -/
def TotalsBounded (limits : QuotaSubject → QuotaLimits) (s : BillingRequestState) : Prop :=
  ∀ subject window,
    s.db.recordedInWindow subject window s.clock.secs ≤ max ((limits subject).limit window) 0 ∨
      ∃ request ∈ s.requests, ∃ credits, request.subject = subject ∧
        request.observed = some credits ∧
        s.db.recordedInWindow subject window s.clock.secs ≤
          (limits subject).limit window +
            (credits - reservation request.reservedBillableTotal)

end TavilyHikari.Store
