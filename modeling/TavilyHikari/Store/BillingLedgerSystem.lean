/-
Module: TavilyHikari.Store.BillingLedgerSystem
Purpose: Everybody who records, settles and annotates charges, one committed or
  abandoned transaction a step, and what the counters should hold according to
  the charged rows of the log.
Trusted boundary: none
Main exports: LedgerState, LedgerAction, ledgerSystem, chargedInBucket,
  chargedInMonth, chargedTotal, LedgerExact, timesCharged
-/
import TavilyHikari.Library.TransitionSystem
import TavilyHikari.Store.PendingBilling

namespace TavilyHikari.Store

open Library

structure LedgerState where
  clock : UtcTimestamp
  db : BillingDb

inductive LedgerAction where
  /-- The clock moves on to a later time. -/
  | tick (clock : UtcTimestamp)
  /-- `record_pending_billing_attempt`. -/
  | record (attempt : PendingBillingAttempt)
  /-- One call of `apply_pending_billing_log`, by whoever settles, replays or
  retries; it breaks after `healthy` statements. -/
  | apply (logId : Int) (healthy : Option Nat)
  /-- `annotate_pending_billing_attempt`. -/
  | annotate (logId : Int) (message : String)
deriving Repr

namespace LedgerState

def step (localDayBucketStartUtcTs : Int → Int) (s : LedgerState) :
    LedgerAction → Option LedgerState
  | .tick clock =>
      if s.clock.secs ≤ clock.secs then some { s with clock } else none
  | .record attempt =>
      some { s with db := (insertTokenLogPendingBilling s.db attempt s.clock).2 }
  | .apply logId healthy =>
      let env := { now := s.clock, localDayBucketStartUtcTs }
      some { s with db := (applyPendingBillingLog env logId healthy s.db).2 }
  | .annotate logId message =>
      some { s with db := annotatePendingBillingLog s.db logId message }

end LedgerState

def ledgerSystem (localDayBucketStartUtcTs : Int → Int) :
    TransitionSystem LedgerState LedgerAction where
  step := LedgerState.step localDayBucketStartUtcTs

/-! ### What the log says the counters hold -/

/-- The row is charged, for something, to the subject. -/
def AuthTokenLog.ChargedTo (row : AuthTokenLog) (subject : QuotaSubject) : Prop :=
  row.billingState = billingStateCharged ∧ 0 < row.credits ∧
    row.billingSubject = some subject.billingSubject

instance (row : AuthTokenLog) (subject : QuotaSubject) : Decidable (row.ChargedTo subject) :=
  inferInstanceAs (Decidable (_ ∧ _ ∧ _))

/-- Where a charge at `ts` is counted. -/
def Granularity.bucketOf (ts : Int) : Granularity → Option Int
  | .minute => some (minuteBucket ts)
  | .hour => some (hourBucket ts)
  | .requestMinute => none

namespace BillingDb

/-- All credits of the charged rows of a subject that `counts` selects. -/
def chargedWhere (db : BillingDb) (subject : QuotaSubject) (counts : Int → Bool) : Int :=
  db.authTokenLogs.total fun row =>
    if row.ChargedTo subject ∧ counts row.createdAt.secs then row.credits else 0

/-- Credits of the charged rows that were created in a bucket. -/
def chargedInBucket (db : BillingDb) (key : UsageBucketKey) : Int :=
  db.chargedWhere key.subject fun ts => key.granularity.bucketOf ts = some key.bucketStart

/-- Credits of the charged rows that were created in a month. -/
def chargedInMonth (db : BillingDb) (subject : QuotaSubject) (monthStart : Int) : Int :=
  db.chargedWhere subject fun ts => startOfMonthTs ts = monthStart

/-- Credits of the charged rows that were created in a bucket from `atLeast` on. -/
def chargedFrom (db : BillingDb) (subject : QuotaSubject) (granularity : Granularity)
    (atLeast : Int) : Int :=
  db.chargedWhere subject fun ts =>
    (granularity.bucketOf ts).any fun bucketStart => bucketStart ≥ atLeast

/-- All charged credits of a subject. -/
def chargedTotal (db : BillingDb) (subject : QuotaSubject) : Int :=
  db.chargedWhere subject fun _ => true

/-- The stored month of the subject, if any, is not later. -/
def MonthNotPast (db : BillingDb) (subject : QuotaSubject) (monthStart : Int) : Prop :=
  ∀ stored, db.monthlyQuota.find subject = some stored → stored.monthStart ≤ monthStart

/-- The counters hold what the charged rows add up to: every minute and hour
bucket, their sums over all time and from any bucket on, and the counter of every
month that is not already past. -/
structure LedgerExact (db : BillingDb) : Prop where
  buckets : ∀ key, key.granularity ≠ .requestMinute →
    usageIn db.usageBuckets key = db.chargedInBucket key
  minutes : ∀ subject, subjectUsage db.usageBuckets subject .minute = db.chargedTotal subject
  hours : ∀ subject, subjectUsage db.usageBuckets subject .hour = db.chargedTotal subject
  windows : ∀ subject granularity atLeast, granularity ≠ .requestMinute →
    sumUsageBuckets db.usageBuckets subject granularity atLeast =
      db.chargedFrom subject granularity atLeast
  month : ∀ subject monthStart, db.MonthNotPast subject monthStart →
    countIn db.monthlyQuota subject monthStart = db.chargedInMonth subject monthStart

/-- The state of a row, `none` without the row. -/
def billingState? (db : BillingDb) (logId : Int) : Option String :=
  (db.authTokenLogs.find logId).map AuthTokenLog.billingState

end BillingDb

/-- How often a run takes a row from pending to charged. -/
def timesCharged (system : TransitionSystem LedgerState LedgerAction) (logId : Int) :
    LedgerState → List LedgerAction → Nat
  | _, [] => 0
  | s, action :: rest =>
      match system.step s action with
      | none => 0
      | some s' =>
          (if s.db.billingState? logId = some billingStatePending ∧
              s'.db.billingState? logId = some billingStateCharged then 1 else 0) +
            timesCharged system logId s' rest

end TavilyHikari.Store
