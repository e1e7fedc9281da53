/-
Module: TavilyHikari.Proofs.QuotaVerdict
Purpose: The decisions that are taken from a quota verdict and the windows that it names agree
  with the usage and the limits that it was made of.
Trusted boundary: none
Main exports: ExceededBy, UsedUp, quotaVerdict_coherent
-/
import TavilyHikari.Store.QuotaPrecheck

namespace TavilyHikari.Store

open Library

/-- The usage and the credits together are more than the limit, all of them exact. -/
def ExceededBy (used : QuotaWindow → Int) (limits : QuotaLimits) (delta : Int)
    (window : QuotaWindow) : Prop :=
  max 0 (limits.limit window) < max 0 (used window) + delta

/-- The usage has reached the limit. -/
def UsedUp (used : QuotaWindow → Int) (limits : QuotaLimits) (window : QuotaWindow) : Prop :=
  max 0 (limits.limit window) ≤ max 0 (used window)

/-- The longest window that satisfies `p`. -/
def longestWindow (p : QuotaWindow → Prop) [DecidablePred p] : Option QuotaWindow :=
  if p .month then some .month
  else if p .day then some .day
  else if p .hour then some .hour
  else none

theorem longestWindow_spec (p : QuotaWindow → Prop) [DecidablePred p] :
    (∀ window, longestWindow p = some window → p window) ∧
      (longestWindow p = none → ∀ window, ¬p window) := by
  unfold longestWindow
  constructor
  · intro window named
    split at named
    · cases named
      assumption
    · split at named
      · cases named
        assumption
      · split at named
        · cases named
          assumption
        · cases named
  · intro unnamed window
    split at unnamed
    · cases unnamed
    · split at unnamed
      · cases unnamed
      · split at unnamed
        · cases unnamed
        · cases window with
          | month => assumption
          | day => assumption
          | hour => assumption

namespace TokenQuotaVerdict

/-- The verdict on the usage of the windows. -/
def of (used : QuotaWindow → Int) (limits : QuotaLimits) : TokenQuotaVerdict :=
  .new (used .hour) limits.hourlyLimit (used .day) limits.dailyLimit (used .month)
    limits.monthlyLimit

def used (verdict : TokenQuotaVerdict) : QuotaWindow → Int
  | .hour => verdict.hourlyUsed
  | .day => verdict.dailyUsed
  | .month => verdict.monthlyUsed

def limit (verdict : TokenQuotaVerdict) : QuotaWindow → Int
  | .hour => verdict.hourlyLimit
  | .day => verdict.dailyLimit
  | .month => verdict.monthlyLimit

variable {use : QuotaWindow → Int} {limits : QuotaLimits} {delta : Int} {window : QuotaWindow}

theorem used_of (use : QuotaWindow → Int) (limits : QuotaLimits) (window : QuotaWindow) :
    (of use limits).used window = min (max (use window) 0) (max (limits.limit window) 0) := by
  cases window <;> rfl

theorem limit_of (use : QuotaWindow → Int) (limits : QuotaLimits) (window : QuotaWindow) :
    (of use limits).limit window = max (limits.limit window) 0 := by
  cases window <;> rfl

/-- What is shown as used is at the limit when the usage is. -/
theorem limit_le_used_iff :
    (of use limits).limit window ≤ (of use limits).used window ↔ UsedUp use limits window := by
  rw [limit_of, used_of, UsedUp]
  omega

/-- Below the largest integer neither the clamp nor the saturation hides an excess. -/
theorem limit_lt_saturatingAdd_iff (below : limits.limit window < i64Max) (positive : 0 < delta) :
    (of use limits).limit window < saturatingAdd ((of use limits).used window) delta ↔
      ExceededBy use limits delta window := by
  rw [limit_of, used_of, ← not_le, saturatingAdd_le_iff, ExceededBy]
  · omega
  · simp only [i64Min]
    omega
  · simp only [i64Max] at below ⊢
    omega

theorem exceededBy_of_usedUp (positive : 0 < delta) (usedUp : UsedUp use limits window) :
    ExceededBy use limits delta window := by
  unfold UsedUp at usedUp
  unfold ExceededBy
  omega

/-! ### The windows that a verdict names -/

theorem usedUp_of_exceededWindow (exceeded : (of use limits).exceededWindow = some window) :
    UsedUp use limits window := by
  have months : limits.limit .month = limits.monthlyLimit := rfl
  have days : limits.limit .day = limits.dailyLimit := rfl
  have hours : limits.limit .hour = limits.hourlyLimit := rfl
  unfold of TokenQuotaVerdict.new at exceeded
  simp only [Bool.or_eq_true, decide_eq_true_eq] at exceeded
  split at exceeded
  · rename_i month
    cases exceeded
    rw [UsedUp, months]
    omega
  · split at exceeded
    · rename_i day
      cases exceeded
      rw [UsedUp, days]
      omega
    · split at exceeded
      · rename_i hour
        cases exceeded
        rw [UsedUp, hours]
        omega
      · cases exceeded

theorem exceededWindow_isSome_iff :
    (of use limits).exceededWindow.isSome = true ↔ (of use limits).allowed = false := by
  unfold of TokenQuotaVerdict.new
  simp only
  split
  · rename_i month
    rw [month]
    simp
  · rename_i month
    split
    · rename_i day
      rw [day]
      simp
    · rename_i day
      split
      · rename_i hour
        rw [hour]
        simp
      · rename_i hour
        rw [Bool.not_eq_true] at month day hour
        rw [month, day, hour]
        simp

theorem effectiveWindow_eq (verdict : TokenQuotaVerdict) :
    verdict.effectiveWindow = (verdict.exceededWindow <|>
      longestWindow fun window => verdict.limit window ≤ verdict.used window) := by
  unfold effectiveWindow
  cases verdict.exceededWindow <;> rfl

theorem projectedWindow_eq (verdict : TokenQuotaVerdict) (positive : 0 < delta) :
    verdict.projectedWindow delta = (verdict.effectiveWindow <|>
      longestWindow fun window =>
        verdict.limit window < saturatingAdd (verdict.used window) delta) := by
  unfold projectedWindow
  cases verdict.effectiveWindow with
  | some window => rfl
  | none =>
      simp only [if_pos positive]
      rfl

/-- The window of a verdict is used up, and there is one if any window is. -/
theorem effectiveWindow_spec (use : QuotaWindow → Int) (limits : QuotaLimits) :
    (∀ window, (of use limits).effectiveWindow = some window → UsedUp use limits window) ∧
      ((of use limits).effectiveWindow = none → ∀ window, ¬UsedUp use limits window) := by
  rw [effectiveWindow_eq]
  obtain ⟨named, unnamed⟩ := longestWindow_spec fun window =>
    (of use limits).limit window ≤ (of use limits).used window
  cases exceeded : (of use limits).exceededWindow with
  | some first =>
      refine ⟨?_, fun none => by cases none⟩
      intro window same
      cases same
      exact usedUp_of_exceededWindow exceeded
  | none =>
      constructor
      · intro window same
        exact limit_le_used_iff.1 (named window same)
      · intro none window usedUp
        exact unnamed none window (limit_le_used_iff.2 usedUp)

/-- The window of a reservation is exceeded by it, and there is one if any window is. -/
theorem projectedWindow_spec (below : ∀ window, limits.limit window < i64Max)
    (positive : 0 < delta) :
    (∀ window, (of use limits).projectedWindow delta = some window →
        ExceededBy use limits delta window) ∧
      ((of use limits).projectedWindow delta = none →
        ∀ window, ¬ExceededBy use limits delta window) := by
  rw [projectedWindow_eq _ positive]
  obtain ⟨effective, _⟩ := effectiveWindow_spec use limits
  obtain ⟨named, unnamed⟩ := longestWindow_spec fun window =>
    (of use limits).limit window < saturatingAdd ((of use limits).used window) delta
  cases first : (of use limits).effectiveWindow with
  | some window =>
      refine ⟨?_, fun none => by cases none⟩
      intro other same
      cases same
      exact exceededBy_of_usedUp positive (effective window first)
  | none =>
      constructor
      · intro window same
        exact (limit_lt_saturatingAdd_iff (below window) positive).1 (named window same)
      · intro none window exceeded
        exact unnamed none window ((limit_lt_saturatingAdd_iff (below window) positive).2 exceeded)

/-- The figures quoted to the client are those of the window that is named. -/
theorem quotaWindowStats_of_named {verdict : TokenQuotaVerdict}
    (named : verdict.windowNameForDelta delta = some window.asStr) :
    quotaWindowStats verdict delta = (verdict.limit window, verdict.used window) := by
  unfold quotaWindowStats
  rw [named]
  cases window <;> rfl

/-! ### The decisions -/

theorem quotaExhaustedNow_iff :
    quotaExhaustedNow (of use limits) = true ↔ ∃ window, UsedUp use limits window := by
  have windows : quotaExhaustedNow (of use limits) = true ↔
      ∃ window, (of use limits).limit window ≤ (of use limits).used window := by
    unfold quotaExhaustedNow
    simp only [Bool.or_eq_true, decide_eq_true_eq]
    constructor
    · rintro ((hour | day) | month)
      · exact ⟨.hour, hour⟩
      · exact ⟨.day, day⟩
      · exact ⟨.month, month⟩
    · rintro ⟨window, reached⟩
      cases window with
      | hour => exact Or.inl (Or.inl reached)
      | day => exact Or.inl (Or.inr reached)
      | month => exact Or.inr reached
  rw [windows]
  exact exists_congr fun window => limit_le_used_iff

theorem quotaWouldExceed_iff (below : ∀ window, limits.limit window < i64Max) :
    quotaWouldExceed (of use limits) delta = true ↔
      0 < delta ∧ ∃ window, ExceededBy use limits delta window := by
  unfold quotaWouldExceed
  by_cases positive : 0 < delta
  · have windows : (∃ window, ExceededBy use limits delta window) ↔ ∃ window,
        (of use limits).limit window < saturatingAdd ((of use limits).used window) delta :=
      exists_congr fun window => (limit_lt_saturatingAdd_iff (below window) positive).symm
    rw [if_neg (not_le.2 positive), windows]
    simp only [Bool.or_eq_true, decide_eq_true_eq]
    constructor
    · rintro ((hour | day) | month)
      · exact ⟨positive, .hour, hour⟩
      · exact ⟨positive, .day, day⟩
      · exact ⟨positive, .month, month⟩
    · rintro ⟨_, window, exceeded⟩
      cases window with
      | hour => exact Or.inl (Or.inl exceeded)
      | day => exact Or.inl (Or.inr exceeded)
      | month => exact Or.inr exceeded
  · rw [if_pos (not_lt.1 positive)]
    simp [positive]

end TokenQuotaVerdict

open TokenQuotaVerdict in
/-- The decisions and the named windows agree with the exact usage. -/
theorem quotaVerdict_coherent (use : QuotaWindow → Int) (limits : QuotaLimits)
    (below : ∀ window, limits.limit window < i64Max) (delta : Int) :
    let verdict := TokenQuotaVerdict.new (use .hour) limits.hourlyLimit (use .day)
      limits.dailyLimit (use .month) limits.monthlyLimit
    (quotaWouldExceed verdict delta = true ↔
        0 < delta ∧ ∃ window, ExceededBy use limits delta window) ∧
      (quotaWouldExceed verdict delta = true → ∃ window,
        verdict.windowNameForDelta delta = some window.asStr ∧
          ExceededBy use limits delta window) ∧
      (quotaExhaustedNow verdict = true ↔ verdict.windowName.isSome = true) ∧
      (∀ name, verdict.windowName = some name → ∃ window,
        name = window.asStr ∧ UsedUp use limits window) ∧
      (verdict.allowed = false → quotaExhaustedNow verdict = true) := by
  intro verdict
  have made : verdict = of use limits := rfl
  rw [made]
  obtain ⟨named, unnamed⟩ := effectiveWindow_spec use limits
  have exhausted : quotaExhaustedNow (of use limits) = true ↔
      (of use limits).effectiveWindow.isSome = true := by
    rw [quotaExhaustedNow_iff]
    constructor
    · rintro ⟨window, usedUp⟩
      cases effective : (of use limits).effectiveWindow with
      | none => exact absurd usedUp (unnamed effective window)
      | some first => rfl
    · intro isSome
      obtain ⟨window, effective⟩ := Option.isSome_iff_exists.1 isSome
      exact ⟨window, named window effective⟩
  refine ⟨quotaWouldExceed_iff below, ?_, ?_, ?_, ?_⟩
  · intro exceeds
    obtain ⟨positive, window, exceeded⟩ := (quotaWouldExceed_iff below).1 exceeds
    obtain ⟨projected, unprojected⟩ := @projectedWindow_spec use limits delta below positive
    cases first : (of use limits).projectedWindow delta with
    | none => exact absurd exceeded (unprojected first window)
    | some other =>
        refine ⟨other, ?_, projected other first⟩
        unfold windowNameForDelta
        rw [first]
        rfl
  · unfold windowName
    rw [exhausted, Option.isSome_map]
  · intro name isName
    obtain ⟨window, effective, rfl⟩ := Option.map_eq_some_iff.1 isName
    exact ⟨window, rfl, named window effective⟩
  · intro refused
    rw [exhausted, effectiveWindow_eq]
    obtain ⟨window, exceeded⟩ :=
      Option.isSome_iff_exists.1 (exceededWindow_isSome_iff.2 refused)
    rw [exceeded]
    rfl

/-- A use above the limit by a reservation of one credit, and a use below zero. -/
theorem quotaVerdict_coherent_day :
    quotaWouldExceed (.new (-3) 10 20 20 7 30) 1 = true ∧
      TokenQuotaVerdict.windowNameForDelta (.new (-3) 10 20 20 7 30) 1 = some "day" ∧
      ∃ window, ExceededBy (fun window => match window with
        | .hour => -3
        | .day => 20
        | .month => 7) ⟨10, 20, 30⟩ 1 window := by
  have below : ∀ window, (QuotaLimits.mk 10 20 30).limit window < i64Max := by
    intro window
    cases window <;> decide
  have facts := quotaVerdict_coherent (fun window => match window with
    | .hour => -3
    | .day => 20
    | .month => 7) ⟨10, 20, 30⟩ below 1
  exact ⟨by decide, by decide, (facts.1.1 (by decide)).2⟩

end TavilyHikari.Store
