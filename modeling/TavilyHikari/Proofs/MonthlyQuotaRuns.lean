/-
Module: TavilyHikari.Proofs.MonthlyQuotaRuns
Purpose: When the monthly counter keeps every charge. The invariant is that the
  table holds, for the current month, what was charged in it; the only step that
  can break it is the unconditional UPDATE of a reader.
Trusted boundary: none
Main exports: monthCounter_exact_along_safe_resets, monthCounter_loses_charge
-/
import TavilyHikari.Store.MonthlyQuotaSystem

namespace TavilyHikari.Store

open Library

@[simp] theorem chargedIn_nil (subject : QuotaSubject) (monthStart : Int) :
    chargedIn [] subject monthStart = 0 := rfl

theorem chargedIn_cons (charge : MonthlyCharge) (charges : List MonthlyCharge)
    (subject : QuotaSubject) (monthStart : Int) :
    chargedIn (charge :: charges) subject monthStart =
      (if charge.subject = subject ∧ startOfMonthTs charge.chargedAt = monthStart then
        charge.credits else 0) + chargedIn charges subject monthStart := by
  simp only [chargedIn, List.filter_cons, decide_eq_true_eq]
  split
  · simp
  · simp

/-- Nothing has been charged in a month that has not begun. -/
theorem chargedIn_future {charges : List MonthlyCharge} {clock monthStart : Int}
    (past : ∀ charge ∈ charges, charge.chargedAt ≤ clock)
    (future : startOfMonthTs clock < monthStart) (subject : QuotaSubject) :
    chargedIn charges subject monthStart = 0 := by
  induction charges with
  | nil => rfl
  | cons charge charges ih =>
      have bound := startOfMonthTs_mono (past charge List.mem_cons_self)
      rw [chargedIn_cons, if_neg (by omega),
        ih fun other member => past other (List.mem_cons_of_mem _ member)]
      rfl

namespace MonthlyQuotaState

theorem Consistent.fresh (clock : Int) : (MonthlyQuotaState.fresh clock).Consistent where
  charges_past := by simp [MonthlyQuotaState.fresh]
  rows_past := by simp [MonthlyQuotaState.fresh]
  readers_past := by simp [MonthlyQuotaState.fresh]
  exact := by simp [MonthlyQuotaState.fresh, countIn]

/-- The table and the history agree on the current month in particular where
the row is of that month. -/
theorem Consistent.counterExact {s : MonthlyQuotaState} (consistent : s.Consistent) :
    MonthCounterExact s := by
  intro subject stored found current
  rw [← consistent.exact subject, countIn_of_find found, if_pos current]

theorem Consistent.tick {s : MonthlyQuotaState} (consistent : s.Consistent)
    (seconds : Nat) : ({ s with clock := s.clock + seconds } : MonthlyQuotaState).Consistent := by
  have later : s.currentMonthStart ≤ startOfMonthTs (s.clock + seconds) :=
    startOfMonthTs_mono (by omega)
  refine ⟨?_, ?_, ?_, ?_⟩
  · intro charge member
    exact (consistent.charges_past charge member).trans (by simp)
  · intro subject stored found
    exact (consistent.rows_past subject stored found).trans later
  · intro reader member
    exact (consistent.readers_past reader member).trans later
  · intro subject
    rcases later.eq_or_lt with same | rolled
    · simp only [currentMonthStart] at same ⊢
      rw [← same]
      exact consistent.exact subject
    · -- In a month that has just begun both sides are still zero.
      have unrolled : countIn s.quota subject (startOfMonthTs (s.clock + seconds)) = 0 := by
        cases found : s.quota.find subject with
        | none => exact countIn_of_none found _
        | some stored =>
            have bound := consistent.rows_past subject stored found
            rw [countIn_of_find found, if_neg (by omega)]
      exact unrolled.trans
        (chargedIn_future consistent.charges_past rolled subject).symm

theorem Consistent.select {s : MonthlyQuotaState} (consistent : s.Consistent)
    {reader : MonthlyReader} (past : reader.currentMonthStart ≤ s.currentMonthStart) :
    ({ s with readers := s.readers ++ [reader] } : MonthlyQuotaState).Consistent := by
  refine ⟨consistent.charges_past, consistent.rows_past, ?_, consistent.exact⟩
  intro other member
  rcases List.mem_append.1 member with old | new
  · exact consistent.readers_past other old
  · rw [List.mem_singleton.1 new]
    exact past

theorem Consistent.charge {s : MonthlyQuotaState} (consistent : s.Consistent)
    (subject : QuotaSubject) {chargedAt : Int} (credits : Int)
    (past : chargedAt ≤ s.clock) :
    ({ s with
        quota := chargeMonth s.quota subject (startOfMonthTs chargedAt) credits
        charges := { subject, chargedAt, credits } :: s.charges } :
      MonthlyQuotaState).Consistent := by
  have month : startOfMonthTs chargedAt ≤ s.currentMonthStart := startOfMonthTs_mono past
  refine ⟨?_, ?_, consistent.readers_past, ?_⟩
  · intro charge member
    rcases List.mem_cons.1 member with new | old
    · rw [new]
      exact past
    · exact consistent.charges_past charge old
  · intro other stored found
    by_cases same : other = subject
    · subst same
      simp only [find_chargeMonth_self, Option.some.injEq] at found
      subst found
      cases before : s.quota.find other with
      | none => exact month
      | some old =>
          have bound := consistent.rows_past other old before
          simp only [Option.elim_some, MonthlyQuotaRow.charge_monthStart]
          exact max_le bound month
    · simp only [find_chargeMonth_of_ne _ same] at found
      exact consistent.rows_past other stored found
  · intro other
    have before := consistent.exact other
    have rows := consistent.rows_past other
    simp only [currentMonthStart] at month before rows ⊢
    rw [chargedIn_cons]
    by_cases same : other = subject
    · subst same
      rcases month.eq_or_lt with current | earlier
      · rw [← current] at before rows ⊢
        rw [countIn_chargeMonth_of_le _ _ _ _ rows, before, if_pos ⟨rfl, rfl⟩, Int.add_comm]
      · rw [countIn_chargeMonth_of_lt _ _ _ earlier, before,
          if_neg fun both => Int.ne_of_lt earlier both.2, Int.zero_add]
    · rw [countIn_chargeMonth_of_ne _ same, before, if_neg fun both => same both.1.symm,
        Int.zero_add]

/-- A reset that finds nothing of the current month takes nothing away. -/
theorem Consistent.reset {s : MonthlyQuotaState} (consistent : s.Consistent)
    {reader : Nat} {monthStart : Int} {subject : QuotaSubject} {rest : List QuotaSubject}
    (pending : s.readers[reader]? = some ⟨monthStart, subject :: rest⟩)
    (nothing : countIn s.quota subject s.currentMonthStart = 0) :
    ({ s with
        quota := resetMonth s.quota subject monthStart
        readers := s.readers.set reader ⟨monthStart, rest⟩ } :
      MonthlyQuotaState).Consistent := by
  have member := List.mem_of_getElem? pending
  have month : monthStart ≤ s.currentMonthStart := consistent.readers_past _ member
  refine ⟨consistent.charges_past, ?_, ?_, ?_⟩
  · intro other stored found
    by_cases same : other = subject
    · subst same
      simp only [find_resetMonth_self, Option.map_eq_some_iff] at found
      obtain ⟨_, _, rfl⟩ := found
      exact month
    · simp only [find_resetMonth_of_ne _ same] at found
      exact consistent.rows_past other stored found
  · intro other listed
    rcases List.mem_or_eq_of_mem_set listed with old | new
    · exact consistent.readers_past other old
    · rw [new]
      exact month
  · intro other
    have before := consistent.exact other
    simp only [currentMonthStart] at nothing before ⊢
    by_cases same : other = subject
    · subst same
      rw [countIn_resetMonth_self, ← before, nothing]
    · rw [countIn_resetMonth_of_ne _ same, before]

/-- What the condition on a reset says about the table. -/
theorem countIn_eq_zero_of_resetFindsNothingCurrent {s : MonthlyQuotaState}
    {reader : Nat} {monthStart : Int} {subject : QuotaSubject} {rest : List QuotaSubject}
    (pending : s.readers[reader]? = some ⟨monthStart, subject :: rest⟩)
    (safe : ResetFindsNothingCurrent s (.reset reader)) :
    countIn s.quota subject s.currentMonthStart = 0 := by
  cases found : s.quota.find subject with
  | none => exact countIn_of_none found _
  | some stored =>
      rw [countIn_of_find found]
      split
      · rename_i current
        exact safe _ subject rest pending rfl stored found current
      · rfl

/-- One step: every statement but an unsafe reset keeps the table and the
history together. -/
theorem Consistent.step {s s' : MonthlyQuotaState} {action : MonthlyQuotaAction}
    (consistent : s.Consistent) (safe : ResetFindsNothingCurrent s action)
    (taken : monthlyQuotaSystem.step s action = some s') : s'.Consistent := by
  cases action with
  | tick seconds =>
      cases taken
      exact consistent.tick seconds
  | select calledAt subjects =>
      simp only [monthlyQuotaSystem, MonthlyQuotaState.step, Option.ite_none_right_eq_some,
        Option.some.injEq] at taken
      obtain ⟨past, rfl⟩ := taken
      exact consistent.select (startOfMonthTs_mono past)
  | reset reader =>
      simp only [monthlyQuotaSystem, MonthlyQuotaState.step] at taken
      split at taken
      · rename_i monthStart subject rest pending
        cases taken
        exact consistent.reset pending
          (countIn_eq_zero_of_resetFindsNothingCurrent pending safe)
      · cases taken
  | charge subject chargedAt credits =>
      simp only [monthlyQuotaSystem, MonthlyQuotaState.step, Option.ite_none_right_eq_some,
        Option.some.injEq] at taken
      obtain ⟨⟨past, _⟩, rfl⟩ := taken
      exact consistent.charge subject credits past

/-- A reset into the current month that meets charges of it loses them. -/
theorem Consistent.reset_loses {s s' : MonthlyQuotaState} {reader : Nat}
    {pending : MonthlyReader} (consistent : s.Consistent)
    (listed : s.readers[reader]? = some pending)
    (current : pending.currentMonthStart = s.currentMonthStart)
    (unsafeReset : ¬ ResetFindsNothingCurrent s (.reset reader))
    (taken : monthlyQuotaSystem.step s (.reset reader) = some s') :
    ¬ MonthCounterExact s' := by
  obtain ⟨monthStart, stale⟩ := pending
  simp only [monthlyQuotaSystem, MonthlyQuotaState.step, listed] at taken
  cases stale with
  | nil => cases taken
  | cons subject rest =>
      cases taken
      intro kept
      apply unsafeReset
      intro pending' subject' rest' listed' stale' stored found counted
      rw [listed] at listed'
      cases listed'
      cases stale'
      -- The row now says zero, while the history still holds the old count.
      have zero := kept subject ⟨monthStart, 0⟩ (by simp [found]) current
      have before := consistent.exact subject
      rw [countIn_of_find found, if_pos counted] at before
      exact before.trans zero.symm

end MonthlyQuotaState

/-! ### Runs -/

/-- In every run in which no reader resets a row that already counts the current
month, the counter is exact after every step. Conversely a reset into the
current month that does meet such a row makes the counter wrong at once. -/
theorem monthCounter_exact_along_safe_resets {s : MonthlyQuotaState}
    (consistent : s.Consistent) (actions : List MonthlyQuotaAction)
    (safe : monthlyQuotaSystem.Guarded ResetFindsNothingCurrent s actions) :
    monthlyQuotaSystem.AlongRun MonthCounterExact s actions ∧
      ∀ t t' reader pending, monthlyQuotaSystem.run s actions = some t →
        t.readers[reader]? = some pending →
        pending.currentMonthStart = t.currentMonthStart →
        ¬ ResetFindsNothingCurrent t (.reset reader) →
        monthlyQuotaSystem.step t (.reset reader) = some t' →
        ¬ MonthCounterExact t' := by
  have along :=
    monthlyQuotaSystem.alongRun_of_guarded
      (fun _ _ _ consistent safe taken => consistent.step safe taken) consistent safe
  refine ⟨along.mono _ fun _ consistent => consistent.counterExact, ?_⟩
  intro t t' reader pending ran listed current unsafeReset taken
  exact (along.last _ ran).reset_loses listed current unsafeReset taken

/-- A dashboard reads in February while the row is still of January, a request
is charged, and the dashboard then runs its UPDATE. -/
def lostChargeRun : List MonthlyQuotaAction :=
  [.charge (.token "t") 0 1, .tick 2678400, .select 2678400 [.token "t"],
    .charge (.token "t") 2678400 5, .reset 0]

theorem monthCounter_loses_charge :
    ¬ monthlyQuotaSystem.AlongRun MonthCounterExact (.fresh 0) lostChargeRun := by
  intro along
  have ran : ∃ s', monthlyQuotaSystem.run (.fresh 0) lostChargeRun = some s' ∧
      s'.quota.find (.token "t") = some ⟨2678400, 0⟩ ∧
      s'.currentMonthStart = 2678400 ∧
      chargedIn s'.charges (.token "t") 2678400 = 5 := by
    refine ⟨_, rfl, ?_, ?_, ?_⟩ <;> decide
  obtain ⟨s', ran, found, month, charged⟩ := ran
  have counted := along.last _ ran (.token "t") _ found month.symm
  rw [month, charged] at counted
  cases counted

/-- The same schedule with the UPDATE before the charge. -/
def keptChargeRun : List MonthlyQuotaAction :=
  [.charge (.token "t") 0 1, .tick 2678400, .select 2678400 [.token "t"], .reset 0,
    .charge (.token "t") 2678400 5]

theorem keptChargeRun_safe :
    monthlyQuotaSystem.Guarded ResetFindsNothingCurrent (.fresh 0) keptChargeRun := by
  refine fun s₁ charged => ⟨trivial, fun s₂ ticked => ⟨trivial, fun s₃ selected =>
    ⟨trivial, fun s₄ taken => ⟨?_, fun s₅ again => ⟨trivial, trivial⟩⟩⟩⟩⟩
  cases charged
  cases ticked
  cases selected
  intro pending subject rest listed stale stored found current
  cases listed
  cases stale
  cases found
  cases current

theorem monthCounter_exact_along_keptChargeRun :
    monthlyQuotaSystem.AlongRun MonthCounterExact (.fresh 0) keptChargeRun :=
  (monthCounter_exact_along_safe_resets (MonthlyQuotaState.Consistent.fresh 0) keptChargeRun
    keptChargeRun_safe).1

end TavilyHikari.Store
