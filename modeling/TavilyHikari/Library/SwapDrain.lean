/-
Module: TavilyHikari.Library.SwapDrain
Purpose: The loop that walks an array and takes out what meets a condition with
  `swap_remove`, so that the last element moves to the place that is walked next.
Trusted boundary: human-reviewed spec (the meaning of the loop)
Main exports: swapDrain, swapDrain_kept_perm, swapDrain_taken_perm
-/
import Mathlib.Data.List.Basic

namespace TavilyHikari.Library

universe u

variable {α : Type u} (due : α → Bool)

/-- What stays and what is taken, in the order of the walk, in at most `rounds` rounds. -/
def swapDrainRounds : Nat → List α → List α × List α
  | 0, rest => (rest, [])
  | _ + 1, [] => ([], [])
  | rounds + 1, x :: rest =>
      if due x then
        match rest.getLast? with
        | none => ([], [x])
        | some last =>
            let (kept, taken) := swapDrainRounds rounds (last :: rest.dropLast)
            (kept, x :: taken)
      else
        let (kept, taken) := swapDrainRounds rounds rest
        (x :: kept, taken)

/-- Every round takes an element or leaves it behind. -/
def swapDrain (xs : List α) : List α × List α := swapDrainRounds due xs.length xs

theorem last_cons_dropLast_perm {rest : List α} {last : α} (ends : rest.getLast? = some last) :
    (last :: rest.dropLast).Perm rest := by
  obtain ⟨front, rfl⟩ := List.getLast?_eq_some_iff.1 ends
  rw [List.dropLast_concat]
  exact (List.perm_append_singleton last front).symm

theorem swapDrainRounds_perm {rounds : Nat} {xs : List α} (enough : xs.length ≤ rounds) :
    (swapDrainRounds due rounds xs).1.Perm (xs.filter fun x => !due x) ∧
      (swapDrainRounds due rounds xs).2.Perm (xs.filter due) := by
  induction rounds generalizing xs with
  | zero =>
      obtain rfl : xs = [] := List.length_eq_zero_iff.1 (Nat.le_zero.1 enough)
      exact ⟨.refl _, .refl _⟩
  | succ rounds ih =>
      cases xs with
      | nil => exact ⟨.refl _, .refl _⟩
      | cons x rest =>
          rw [List.length_cons, Nat.succ_le_succ_iff] at enough
          cases taken : due x with
          | false =>
              obtain ⟨kept, drained⟩ := ih enough
              simp only [swapDrainRounds, taken, Bool.false_eq_true, if_false, List.filter_cons,
                Bool.not_false, if_true]
              exact ⟨kept.cons x, drained⟩
          | true =>
              simp only [swapDrainRounds, taken, if_true, List.filter_cons, Bool.not_true,
                Bool.false_eq_true, if_false]
              cases ends : rest.getLast? with
              | none =>
                  rw [List.getLast?_eq_none_iff] at ends
                  subst ends
                  exact ⟨.refl _, .refl _⟩
              | some last =>
                  have moved := last_cons_dropLast_perm ends
                  obtain ⟨kept, drained⟩ := ih (moved.length_eq ▸ enough)
                  exact ⟨kept.trans (moved.filter _), (drained.trans (moved.filter _)).cons x⟩

theorem swapDrain_kept_perm (xs : List α) :
    (swapDrain due xs).1.Perm (xs.filter fun x => !due x) :=
  (swapDrainRounds_perm due (Nat.le_refl _)).1

theorem swapDrain_taken_perm (xs : List α) : (swapDrain due xs).2.Perm (xs.filter due) :=
  (swapDrainRounds_perm due (Nat.le_refl _)).2

end TavilyHikari.Library
