/-
Module: TavilyHikari.Library.Sums
Purpose: Integer sums over lists: sums under a condition, comparison of sums term
  by term, and sums taken group by group.
Trusted boundary: none
Main exports: sum_map_filter, sum_map_le_iff, one_le_sum_iff, sum_map_groups,
  countP_set_le, countP_set_le_add
-/
import Mathlib.Data.List.Nodup
import Mathlib.Algebra.BigOperators.Group.List.Basic
import Mathlib.Algebra.Order.BigOperators.Group.List
import Mathlib.Algebra.Order.Ring.Int

namespace TavilyHikari.Library

universe u v

variable {α : Type u} {κ : Type v}

/-- A sum over the elements a condition selects, as a sum over all of them. -/
theorem sum_map_filter (l : List α) (p : α → Bool) (f : α → Int) :
    ((l.filter p).map f).sum = (l.map fun a => if p a then f a else 0).sum := by
  induction l with
  | nil => rfl
  | cons a l ih => cases chosen : p a <;> simp [chosen, ih]

theorem sum_map_add (l : List α) (f g : α → Int) :
    (l.map fun a => f a + g a).sum = (l.map f).sum + (l.map g).sum := by
  induction l with
  | nil => rfl
  | cons a l ih =>
      simp only [List.map_cons, List.sum_cons, ih]
      omega

theorem sum_map_congr {l : List α} {f g : α → Int} (same : ∀ a ∈ l, f a = g a) :
    (l.map f).sum = (l.map g).sum := by
  rw [List.map_congr_left same]

/-- A sum over what a partial function makes of the elements. -/
theorem sum_map_filterMap {β : Type v} (l : List α) (f : α → Option β) (g : β → Int) :
    ((l.filterMap f).map g).sum = (l.map fun a => (f a).elim 0 g).sum := by
  induction l with
  | nil => rfl
  | cons a l ih => cases made : f a <;> simp [made, ih]

/-- A sum is at most another one that is larger term by term, and equal to it
only where every term is. -/
theorem sum_map_le_iff {l : List α} {f g : α → Int} (le : ∀ a ∈ l, f a ≤ g a) :
    (l.map f).sum ≤ (l.map g).sum ∧
      ((l.map f).sum = (l.map g).sum ↔ ∀ a ∈ l, f a = g a) := by
  induction l with
  | nil => simp
  | cons a l ih =>
      obtain ⟨below, same⟩ := ih fun b member => le b (List.mem_cons_of_mem _ member)
      have here := le a List.mem_cons_self
      simp only [List.map_cons, List.sum_cons, List.forall_mem_cons]
      refine ⟨by omega, ?_⟩
      constructor
      · intro equal
        exact ⟨by omega, same.1 (by omega)⟩
      · rintro ⟨first, rest⟩
        have tail := same.2 rest
        omega

/-- Where one element is replaced, no more are counted if what is counted after was counted
before. -/
theorem countP_set_le {l : List α} {i : Nat} {old new : α} {p q : α → Bool}
    (there : l[i]? = some old) (implies : ∀ a, p a = true → q a = true)
    (replaced : p new = true → q old = true) : (l.set i new).countP p ≤ l.countP q := by
  induction l generalizing i with
  | nil => cases there
  | cons a l ih =>
      cases i with
      | zero =>
          cases there
          have rest := List.countP_mono_left (l := l) fun a _ => implies a
          rw [List.set_cons_zero, List.countP_cons, List.countP_cons]
          by_cases counted : p new = true
          · rw [if_pos counted, if_pos (replaced counted)]
            exact Nat.add_le_add_right rest 1
          · rw [if_neg counted]
            exact Nat.le_trans rest (Nat.le_add_right _ _)
      | succ i =>
          have rest := ih there
          rw [List.set_cons_succ, List.countP_cons, List.countP_cons]
          by_cases counted : p a = true
          · rw [if_pos counted, if_pos (implies a counted)]
            exact Nat.add_le_add_right rest 1
          · rw [if_neg counted]
            exact Nat.le_trans rest (Nat.le_add_right _ _)

/-- Where one element is replaced, at most one more is counted. -/
theorem countP_set_le_add {l : List α} {i : Nat} (inside : i < l.length) (new : α)
    (p : α → Bool) : (l.set i new).countP p ≤ l.countP p + if p new = true then 1 else 0 := by
  rw [List.countP_set inside]
  exact Nat.add_le_add_right (Nat.sub_le _ _) _

/-- A sum of what is not negative is positive where one term is. -/
theorem one_le_sum_iff {l : List Int} (nonneg : ∀ a ∈ l, 0 ≤ a) :
    1 ≤ l.sum ↔ ∃ a ∈ l, 1 ≤ a := by
  induction l with
  | nil => simp
  | cons a l ih =>
      have first := nonneg a List.mem_cons_self
      have later : ∀ b ∈ l, 0 ≤ b := fun b member => nonneg b (List.mem_cons_of_mem _ member)
      have rest : 0 ≤ l.sum := List.sum_nonneg later
      simp only [List.sum_cons, List.mem_cons, exists_eq_or_imp, ← ih later]
      omega

variable [DecidableEq κ]

/-- One term, looked for in every group. -/
theorem sum_map_ite_eq {keys : List κ} (distinct : keys.Nodup) (k : κ) (x : Int) :
    (keys.map fun key => if k = key then x else 0).sum = if k ∈ keys then x else 0 := by
  induction keys with
  | nil => rfl
  | cons key keys ih =>
      simp only [List.nodup_cons] at distinct
      simp only [List.map_cons, List.sum_cons, ih distinct.2, List.mem_cons]
      by_cases same : k = key
      · subst same
        simp [distinct.1]
      · simp [same]

/-- The sums of the groups of distinct keys add up to the sum over all elements
whose key is among them. -/
theorem sum_map_groups {keys : List κ} (distinct : keys.Nodup) (key : α → κ)
    (f : α → Int) (l : List α) :
    (keys.map fun k => ((l.filter fun a => key a = k).map f).sum).sum =
      (l.map fun a => if key a ∈ keys then f a else 0).sum := by
  induction l with
  | nil => simp
  | cons a l ih =>
      have split : ∀ k, (((a :: l).filter fun b => key b = k).map f).sum =
          (if key a = k then f a else 0) + ((l.filter fun b => key b = k).map f).sum := by
        intro k
        by_cases same : key a = k <;> simp [same]
      simp only [split, sum_map_add, ih, sum_map_ite_eq distinct, List.map_cons, List.sum_cons]

end TavilyHikari.Library
