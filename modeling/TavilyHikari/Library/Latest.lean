/-
Module: TavilyHikari.Library.Latest
Purpose: Registers that keep the value with the latest stamp among those written to them,
  in whatever order they are written.
Trusted boundary: none
Main exports: later, foldl_later_eq
-/
import Mathlib.Order.Lattice

namespace TavilyHikari.Library

universe u v

variable {α : Type u} {τ : Type v} [LinearOrder τ]

/-- The value a register holds after `new` is written over `stored`. A write of the same
stamp is taken. -/
def later (stamp : α → τ) (stored new : α) : α :=
  if stamp stored ≤ stamp new then new else stored

theorem later_eq_or (stamp : α → τ) (stored new : α) :
    later stamp stored new = stored ∨ later stamp stored new = new := by
  unfold later
  split
  · exact Or.inr rfl
  · exact Or.inl rfl

/-- A value that is later than every other one written is what the register holds in the
end. -/
theorem foldl_later_eq {stamp : α → τ} {latest : α} {written : List α} :
    ∀ {stored : α}, latest ∈ stored :: written →
      (∀ a ∈ stored :: written, a ≠ latest → stamp a < stamp latest) →
      written.foldl (later stamp) stored = latest := by
  induction written with
  | nil =>
      intro stored member _
      exact (List.mem_singleton.mp member).symm
  | cons new written ih =>
      intro stored member isLatest
      have step : latest ∈ later stamp stored new :: written := by
        cases List.mem_cons.mp member with
        | inl first =>
            subst first
            by_cases same : new = latest
            · subst same
              simp [later]
            · have below := isLatest new (by simp) same
              simp [later, not_le.mpr below]
        | inr rest =>
            cases List.mem_cons.mp rest with
            | inl second =>
                subst second
                by_cases same : stored = latest
                · subst same
                  simp [later]
                · have below := isLatest stored (by simp) same
                  simp [later, le_of_lt below]
            | inr rest => exact List.mem_cons_of_mem _ rest
      apply ih step
      intro a isWritten other
      apply isLatest a _ other
      cases List.mem_cons.mp isWritten with
      | inl held =>
          cases later_eq_or stamp stored new with
          | inl kept => simp [held, kept]
          | inr replaced => simp [held, replaced]
      | inr rest => simp [rest]

end TavilyHikari.Library
