/-
Module: TavilyHikari.Store.MonthlyQuotaSystem
Purpose: Readers and chargers of the monthly counters side by side, one SQL
  statement a step. A reader keeps the month it was called in and the stale
  subjects its SELECT returned, and resets them one by one at any later time.
Trusted boundary: none
Main exports: MonthlyQuotaState, MonthlyQuotaAction, monthlyQuotaSystem,
  MonthCounterExact, ResetFindsNothingCurrent
-/
import TavilyHikari.Library.TransitionSystem
import TavilyHikari.Store.MonthlyQuota

namespace TavilyHikari.Store

open Library

/-- A reader between its SELECT and its last UPDATE. -/
structure MonthlyReader where
  currentMonthStart : Int
  stale : List QuotaSubject
deriving DecidableEq, Repr

/-- A charge that has been applied to a monthly counter. -/
structure MonthlyCharge where
  subject : QuotaSubject
  chargedAt : Int
  credits : Int
deriving DecidableEq, Repr

/-- The monthly tables with everybody who works on them. `charges` is the
history of the run, which no statement reads. -/
structure MonthlyQuotaState where
  clock : Int
  quota : MonthlyQuotaTable
  readers : List MonthlyReader
  charges : List MonthlyCharge

inductive MonthlyQuotaAction where
  /-- The clock advances. -/
  | tick (seconds : Nat)
  /-- A reader called at `calledAt` runs its SELECT. -/
  | select (calledAt : Int) (subjects : List QuotaSubject)
  /-- The reader at this position runs its next UPDATE. -/
  | reset (reader : Nat)
  /-- The upsert of a charge whose month was computed from `chargedAt`:
  `apply_pending_billing_log` takes it from the log row, and
  `increment_monthly_quota_by` from the call. -/
  | charge (subject : QuotaSubject) (chargedAt credits : Int)
deriving Repr

namespace MonthlyQuotaState

/-- Start of the month the clock is in. -/
def currentMonthStart (s : MonthlyQuotaState) : Int := startOfMonthTs s.clock

/-- One statement. Times that callers read off the clock are not in the
future. -/
def step (s : MonthlyQuotaState) : MonthlyQuotaAction → Option MonthlyQuotaState
  | .tick seconds => some { s with clock := s.clock + seconds }
  | .select calledAt subjects =>
      if calledAt ≤ s.clock then
        let currentMonthStart := startOfMonthTs calledAt
        let stale := staleSubjects (selectMonthRows s.quota subjects) currentMonthStart
        some { s with readers := s.readers ++ [{ currentMonthStart, stale }] }
      else none
  | .reset reader =>
      match s.readers[reader]? with
      | some { currentMonthStart, stale := subject :: stale } =>
          some
            { s with
              quota := resetMonth s.quota subject currentMonthStart
              readers := s.readers.set reader { currentMonthStart, stale } }
      | _ => none
  | .charge subject chargedAt credits =>
      if chargedAt ≤ s.clock ∧ 0 < credits then
        some
          { s with
            quota := chargeMonth s.quota subject (startOfMonthTs chargedAt) credits
            charges := { subject, chargedAt, credits } :: s.charges }
      else none

end MonthlyQuotaState

def monthlyQuotaSystem : TransitionSystem MonthlyQuotaState MonthlyQuotaAction where
  step := MonthlyQuotaState.step

/-- All credits charged to a subject with a charge time in the month. -/
def chargedIn (charges : List MonthlyCharge) (subject : QuotaSubject)
    (monthStart : Int) : Int :=
  ((charges.filter fun charge =>
      charge.subject = subject ∧ startOfMonthTs charge.chargedAt = monthStart).map
    MonthlyCharge.credits).sum

/-- Where the stored month is the current one, the stored count is what was
charged in it. -/
def MonthCounterExact (s : MonthlyQuotaState) : Prop :=
  ∀ subject stored, s.quota.find subject = some stored →
    stored.monthStart = s.currentMonthStart →
    stored.monthCount = chargedIn s.charges subject s.currentMonthStart

/-- The next UPDATE of a reader does not meet a row that already counts the
current month: no charge has come between its SELECT and this UPDATE. -/
def ResetFindsNothingCurrent (s : MonthlyQuotaState) : MonthlyQuotaAction → Prop
  | .reset reader =>
      ∀ pending subject rest, s.readers[reader]? = some pending →
        pending.stale = subject :: rest →
        ∀ stored, s.quota.find subject = some stored →
          stored.monthStart = s.currentMonthStart → stored.monthCount = 0
  | _ => True

namespace MonthlyQuotaState

/-- Nothing in the state is from the future, and the table holds what was
charged in the current month. -/
structure Consistent (s : MonthlyQuotaState) : Prop where
  charges_past : ∀ charge ∈ s.charges, charge.chargedAt ≤ s.clock
  rows_past : ∀ subject stored, s.quota.find subject = some stored →
    stored.monthStart ≤ s.currentMonthStart
  readers_past : ∀ reader ∈ s.readers, reader.currentMonthStart ≤ s.currentMonthStart
  exact : ∀ subject,
    countIn s.quota subject s.currentMonthStart =
      chargedIn s.charges subject s.currentMonthStart

/-- An empty store at the time `clock`. -/
def fresh (clock : Int) : MonthlyQuotaState :=
  { clock, quota := .empty, readers := [], charges := [] }

end MonthlyQuotaState

end TavilyHikari.Store
