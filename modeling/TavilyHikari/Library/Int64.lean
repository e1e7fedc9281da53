/-
Module: TavilyHikari.Library.Int64
Purpose: The arithmetic of 64-bit signed integers, which stops at the ends of the
  range or wraps around, on unbounded integers.
Trusted boundary: human-reviewed spec (`saturating_add`, overflow of a release
  build)
Main exports: i64Min, i64Max, saturatingAdd, wrapI64, saturatingAdd_le_iff,
  foldl_saturatingAdd, SumsInRange, one_le_foldl_saturatingAdd,
  foldl_saturatingAdd_eq
-/
import Mathlib.Algebra.Order.BigOperators.Group.List
import Mathlib.Algebra.Order.Ring.Int

namespace TavilyHikari.Library

def i64Min : Int := -9223372036854775808

def i64Max : Int := 9223372036854775807

/-- The nearest value of the range. -/
def saturate (a : Int) : Int := max i64Min (min i64Max a)

/-- `i64::saturating_add`. -/
def saturatingAdd (a b : Int) : Int := saturate (a + b)

/-- `i64::saturating_sub`. -/
def saturatingSub (a b : Int) : Int := saturate (a - b)

/-- The value of the range that an overflowing result wraps around to. -/
def wrapI64 (a : Int) : Int := (a - i64Min) % 18446744073709551616 + i64Min

/-- A result of the range; where it overflows, a build with overflow checks panics. -/
def checkI64 (a : Int) : Option Int := if i64Min ≤ a ∧ a ≤ i64Max then some a else none

theorem toInt_le_i64Max (a : Int64) : a.toInt ≤ i64Max := by
  have bound := a.toInt_lt
  simp only [i64Max]
  omega

/-- Below the upper end a saturated sum compares like the sum. -/
theorem saturatingAdd_le_iff {a b bound : Int} (lower : i64Min ≤ bound) (upper : bound < i64Max) :
    saturatingAdd a b ≤ bound ↔ a + b ≤ bound := by
  simp only [saturatingAdd, saturate]
  omega

/-- Adding up what is not negative stops at the upper end. -/
theorem foldl_saturatingAdd {values : List Int} (nonneg : ∀ value ∈ values, 0 ≤ value)
    {start : Int} (lower : 0 ≤ start) (upper : start ≤ i64Max) :
    values.foldl saturatingAdd start = min i64Max (start + values.sum) := by
  induction values generalizing start with
  | nil => simp [upper]
  | cons value values ih =>
      have first : 0 ≤ value := nonneg value List.mem_cons_self
      have rest : 0 ≤ values.sum :=
        List.sum_nonneg fun v member => nonneg v (List.mem_cons_of_mem _ member)
      have step : saturatingAdd start value = min i64Max (start + value) := by
        simp only [saturatingAdd, saturate, i64Min, i64Max]
        omega
      rw [List.foldl_cons, ih (fun v member => nonneg v (List.mem_cons_of_mem _ member)),
        step, List.sum_cons]
      · simp only [i64Max] at upper ⊢
        omega
      · rw [step]
        simp only [i64Max]
        omega
      · rw [step]
        exact min_le_left _ _

/-- What starts positive stays so. -/
theorem one_le_foldl_saturatingAdd {values : List Int} (positive : ∀ value ∈ values, 1 ≤ value)
    {start : Int} (lower : 1 ≤ start) : 1 ≤ values.foldl saturatingAdd start := by
  induction values generalizing start with
  | nil => exact lower
  | cons value values ih =>
      have first : 1 ≤ value := positive value List.mem_cons_self
      apply ih fun v member => positive v (List.mem_cons_of_mem _ member)
      simp only [saturatingAdd, saturate, i64Min, i64Max]
      omega

/-- Positive values add up to nothing only where there are none. -/
theorem foldl_saturatingAdd_pos {values : List Int} (positive : ∀ value ∈ values, 1 ≤ value) :
    0 ≤ values.foldl saturatingAdd 0 ∧ (1 ≤ values.foldl saturatingAdd 0 ↔ values ≠ []) := by
  cases values with
  | nil => exact ⟨le_refl 0, by simp⟩
  | cons value values =>
      have first : 1 ≤ value := positive value List.mem_cons_self
      have started : 1 ≤ saturatingAdd 0 value := by
        simp only [saturatingAdd, saturate, i64Min, i64Max]
        omega
      have all : 1 ≤ (value :: values).foldl saturatingAdd 0 :=
        one_le_foldl_saturatingAdd (fun v member => positive v (List.mem_cons_of_mem _ member))
          started
      exact ⟨by omega, fun _ => List.cons_ne_nil _ _, fun _ => all⟩

/-- A saturated sum of what is not negative is positive where a term is. -/
theorem one_le_saturatingAdd_iff {a b : Int} (first : 0 ≤ a) (second : 0 ≤ b) :
    0 ≤ saturatingAdd a b ∧ (1 ≤ saturatingAdd a b ↔ 1 ≤ a ∨ 1 ≤ b) := by
  simp only [saturatingAdd, saturate, i64Min, i64Max]
  omega

/-! ### Results that overflow -/

theorem wrapI64_of_bounds {a : Int} (lower : i64Min ≤ a) (upper : a ≤ i64Max) : wrapI64 a = a := by
  simp only [wrapI64, i64Min, i64Max] at *
  omega

/-- Past the upper end by less than its length, a result wraps around once. -/
theorem wrapI64_of_past {a : Int} (past : i64Max < a) (near : a ≤ i64Max + i64Max) :
    wrapI64 a = a - 18446744073709551616 := by
  simp only [wrapI64, i64Min, i64Max] at *
  omega

theorem checkI64_eq_some_iff {a b : Int} :
    checkI64 a = some b ↔ (i64Min ≤ a ∧ a ≤ i64Max) ∧ a = b := by
  rw [checkI64, Option.ite_none_right_eq_some, Option.some.injEq]

/-- What does not overflow does not wrap around. -/
theorem wrapI64_of_checkI64 {a b : Int} (checked : checkI64 a = some b) : wrapI64 a = b := by
  obtain ⟨⟨lower, upper⟩, rfl⟩ := checkI64_eq_some_iff.1 checked
  exact wrapI64_of_bounds lower upper

/-! ### Sums in any order -/

/-- In whatever order the values are added, no partial sum leaves the range. -/
def SumsInRange (values : List Int) : Prop :=
  ∀ order : List Int, order.Perm values → ∀ front, front <+: order →
    i64Min ≤ front.sum ∧ front.sum ≤ i64Max

theorem sumsInRange_iff {values : List Int} (nonneg : ∀ value ∈ values, 0 ≤ value) :
    SumsInRange values ↔ values.sum ≤ i64Max := by
  constructor
  · intro inRange
    exact (inRange values (List.Perm.refl values) values (List.prefix_refl values)).2
  · intro small order perm front before
    obtain ⟨back, whole⟩ := before
    have split : front.sum + back.sum = values.sum := by
      rw [← perm.sum_eq, ← whole, List.sum_append]
    have known : ∀ value ∈ front ++ back, 0 ≤ value := by
      intro value member
      rw [whole] at member
      exact nonneg value (perm.mem_iff.mp member)
    have front_nonneg : 0 ≤ front.sum :=
      List.sum_nonneg fun value member => known value (List.mem_append_left back member)
    have back_nonneg : 0 ≤ back.sum :=
      List.sum_nonneg fun value member => known value (List.mem_append_right front member)
    have bottom : i64Min ≤ 0 := by decide
    exact ⟨by omega, by omega⟩

/-! ### Saturation step by step -/

theorem saturate_bounds (a : Int) : i64Min ≤ saturate a ∧ saturate a ≤ i64Max := by
  simp only [saturate, i64Min, i64Max]
  omega

theorem saturate_of_bounds {a : Int} (lower : i64Min ≤ a) (upper : a ≤ i64Max) :
    saturate a = a := by
  simp only [saturate]
  omega

/-- One saturated step, by where it leads from the two ends of the range. -/
theorem saturate_between {start : Int} (lower : i64Min ≤ start) (upper : start ≤ i64Max)
    (value : Int) :
    saturate (start + value) =
      max (saturate (i64Min + value)) (min (saturate (i64Max + value)) (start + value)) := by
  simp only [saturate, i64Min, i64Max] at *
  omega

theorem foldl_saturatingAdd_mono (values : List Int) {a b : Int} (le : a ≤ b) :
    values.foldl saturatingAdd a ≤ values.foldl saturatingAdd b := by
  induction values generalizing a b with
  | nil => exact le
  | cons value values ih =>
      apply ih
      simp only [saturatingAdd, saturate]
      omega

theorem foldl_saturatingAdd_bounds (values : List Int) {start : Int} (lower : i64Min ≤ start)
    (upper : start ≤ i64Max) :
    i64Min ≤ values.foldl saturatingAdd start ∧ values.foldl saturatingAdd start ≤ i64Max := by
  induction values generalizing start with
  | nil => exact ⟨lower, upper⟩
  | cons value values ih =>
      exact ih (saturate_bounds (start + value)).1 (saturate_bounds (start + value)).2

/-- Adding up step by step is one addition between two bounds: where the walk from the lower end of
the range comes to, and where that from the upper end does. -/
theorem foldl_saturatingAdd_eq (values : List Int) {start : Int} (lower : i64Min ≤ start)
    (upper : start ≤ i64Max) :
    values.foldl saturatingAdd start =
      max (values.foldl saturatingAdd i64Min)
        (min (values.foldl saturatingAdd i64Max) (start + values.sum)) := by
  induction values generalizing start with
  | nil =>
      rw [List.foldl_nil, List.foldl_nil, List.foldl_nil, List.sum_nil]
      omega
  | cons value values ih =>
      have ordered : values.foldl saturatingAdd i64Min ≤ values.foldl saturatingAdd i64Max :=
        foldl_saturatingAdd_mono values (by simp only [i64Min, i64Max]; omega)
      have step (a : Int) : values.foldl saturatingAdd (saturatingAdd a value) =
          max (values.foldl saturatingAdd i64Min)
            (min (values.foldl saturatingAdd i64Max) (saturate (a + value) + values.sum)) :=
        ih (saturate_bounds (a + value)).1 (saturate_bounds (a + value)).2
      rw [List.foldl_cons, List.foldl_cons, List.foldl_cons, List.sum_cons, step, step, step,
        saturate_between lower upper value]
      generalize saturate (i64Min + value) = lowest
      generalize saturate (i64Max + value) = highest
      have atEnd : max lowest (min highest (start + value)) + values.sum =
          max (lowest + values.sum) (min (highest + values.sum) (start + (value + values.sum))) := by
        omega
      rw [atEnd]
      omega

/-- Where no sum on the way leaves the range, only the last one is cut off. -/
theorem foldl_saturatingAdd_of_partialSums {values : List Int} {start : Int}
    (bounded : ∀ front, front <+: values → front ≠ values →
      i64Min ≤ start + front.sum ∧ start + front.sum ≤ i64Max)
    (nonempty : values ≠ []) :
    values.foldl saturatingAdd start = saturate (start + values.sum) := by
  induction values generalizing start with
  | nil => exact absurd rfl nonempty
  | cons value values ih =>
      rw [List.foldl_cons, List.sum_cons, ← Int.add_assoc]
      cases values with
      | nil => rw [List.foldl_nil, List.sum_nil, Int.add_zero, saturatingAdd]
      | cons next values =>
          have first := bounded [value] (by simp) (by simp)
          rw [List.sum_singleton] at first
          rw [saturatingAdd, saturate_of_bounds first.1 first.2]
          apply ih _ (List.cons_ne_nil next values)
          intro front isFront other
          have longer := bounded (value :: front) (List.cons_prefix_cons.2 ⟨rfl, isFront⟩)
            fun same => other (List.cons.inj same).2
          rw [List.sum_cons, ← Int.add_assoc] at longer
          exact longer

end TavilyHikari.Library
