/-
Module: TavilyHikari.Library.Ranks
Purpose: The rank of an element among the elements of a list, and two sorted lists paired
  element by element: what is paired has one rank.
Trusted boundary: none
Main exports: rank, rank_perm, rank_of_getElem?, getElem?_rank, mem_zip_iff_rank
-/
import Mathlib.Data.List.Sort

namespace TavilyHikari.Library

universe u v

variable {α : Type u} {β : Type v}

/-- How many elements of the list come before `a`. -/
def rank (before : α → α → Prop) [DecidableRel before] (l : List α) (a : α) : Nat :=
  l.countP fun b => before b a

variable {before : α → α → Prop} [DecidableRel before] {below : β → β → Prop}
  [DecidableRel below]

theorem rank_perm {l m : List α} (same : l.Perm m) (a : α) :
    rank before l a = rank before m a :=
  same.countP_eq _

/-- Where a list is sorted, ranks are positions. -/
theorem rank_of_getElem? {l : List α} (sorted : l.Pairwise before)
    (asymm : ∀ a b, before a b → ¬ before b a) {k : Nat} {a : α} (here : l[k]? = some a) :
    rank before l a = k := by
  induction l generalizing k with
  | nil => simp at here
  | cons first rest ih =>
      rw [List.pairwise_cons] at sorted
      cases k with
      | zero =>
          rw [List.getElem?_cons_zero, Option.some.injEq] at here
          subst here
          unfold rank
          rw [List.countP_eq_zero]
          intro b member
          rcases List.mem_cons.1 member with rfl | later
          · simpa using fun self => asymm b b self self
          · simpa using asymm first b (sorted.1 b later)
      | succ k =>
          rw [List.getElem?_cons_succ] at here
          have later : before first a := sorted.1 a (List.mem_of_getElem? here)
          have found := ih sorted.2 here
          unfold rank at found ⊢
          rw [List.countP_cons, found, if_pos (by simpa using later)]

theorem getElem?_rank {l : List α} (sorted : l.Pairwise before)
    (asymm : ∀ a b, before a b → ¬ before b a) {a : α} (member : a ∈ l) :
    l[rank before l a]? = some a := by
  obtain ⟨k, here⟩ := List.mem_iff_getElem?.1 member
  rw [rank_of_getElem? sorted asymm here]
  exact here

/-- Two sorted lists pair what has one rank in both. -/
theorem mem_zip_iff_rank {l : List α} {m : List β} (sorted : l.Pairwise before)
    (asymm : ∀ a b, before a b → ¬ before b a) (sorted' : m.Pairwise below)
    (asymm' : ∀ a b, below a b → ¬ below b a) {a : α} {b : β} :
    (a, b) ∈ l.zip m ↔ a ∈ l ∧ b ∈ m ∧ rank before l a = rank below m b := by
  rw [List.mem_iff_getElem?]
  simp only [List.getElem?_zip_eq_some]
  constructor
  · rintro ⟨k, left, right⟩
    refine ⟨List.mem_of_getElem? left, List.mem_of_getElem? right, ?_⟩
    rw [rank_of_getElem? sorted asymm left, rank_of_getElem? sorted' asymm' right]
  · rintro ⟨left, right, same⟩
    refine ⟨rank before l a, getElem?_rank sorted asymm left, ?_⟩
    rw [same]
    exact getElem?_rank sorted' asymm' right

end TavilyHikari.Library
