/-
Module: TavilyHikari.Library.WaitsFor
Purpose: Agents that queue at locks, where the first of a queue has the lock, and the relation
  that says who waits for whom: it has no cycle where every agent takes its locks in an order.
Trusted boundary: none
Main exports: WaitsAt, WaitsFor, waitsFor_acyclic
-/
import Mathlib.Data.List.Nodup
import Mathlib.Logic.Relation

namespace TavilyHikari.Library

universe u v

variable {Lock : Type u} {Agent : Type v} {queue : Lock → List Agent}

/-- In the queue of the lock the second agent stands before the first one. -/
def WaitsAt (queue : Lock → List Agent) (lock : Lock) (a b : Agent) : Prop :=
  ∃ i j : Nat, i < j ∧ (queue lock)[i]? = some b ∧ (queue lock)[j]? = some a

def WaitsFor (queue : Lock → List Agent) (a b : Agent) : Prop := ∃ lock, WaitsAt queue lock a b

theorem place_unique {agents : List Agent} (distinct : agents.Nodup) {i j : Nat} {a : Agent}
    (first : agents[i]? = some a) (second : agents[j]? = some a) : i = j := by
  obtain ⟨inside, _⟩ := List.getElem?_eq_some_iff.1 first
  exact (List.getElem?_inj inside distinct).1 (first.trans second.symm)

theorem WaitsAt.mem_left {lock : Lock} {a b : Agent} (waits : WaitsAt queue lock a b) :
    a ∈ queue lock := by
  obtain ⟨i, j, _, _, here⟩ := waits
  exact List.mem_of_getElem? here

theorem WaitsAt.mem_right {lock : Lock} {a b : Agent} (waits : WaitsAt queue lock a b) :
    b ∈ queue lock := by
  obtain ⟨i, j, _, ahead, _⟩ := waits
  exact List.mem_of_getElem? ahead

/-- An agent that has the lock does not wait for it. -/
theorem WaitsAt.not_head {lock : Lock} {a b : Agent} (waits : WaitsAt queue lock a b)
    (distinct : (queue lock).Nodup) : (queue lock).head? ≠ some a := by
  obtain ⟨i, j, before, _, here⟩ := waits
  intro head
  rw [List.head?_eq_getElem?] at head
  have first := place_unique distinct head here
  omega

theorem WaitsAt.trans {lock : Lock} {a b c : Agent} (one : WaitsAt queue lock a b)
    (two : WaitsAt queue lock b c) (distinct : (queue lock).Nodup) : WaitsAt queue lock a c := by
  obtain ⟨i, j, before, middle, here⟩ := one
  obtain ⟨i', j', before', ahead, middle'⟩ := two
  have same := place_unique distinct middle middle'
  exact ⟨i', j, by omega, ahead, here⟩

theorem WaitsAt.irrefl {lock : Lock} {a : Agent} (distinct : (queue lock).Nodup) :
    ¬WaitsAt queue lock a a := by
  rintro ⟨i, j, before, ahead, here⟩
  have same := place_unique distinct ahead here
  omega

/-- Where an agent waits only for a lock that comes after all its others, a chain of waiting
agents goes up the locks, or moves forward in one queue. -/
theorem waitsFor_ascends {before : Lock → Lock → Prop}
    (later : ∀ one two three, before one two → before two three → before one three)
    (distinct : ∀ lock, (queue lock).Nodup)
    (ordered : ∀ a b one two, a ∈ queue one → WaitsAt queue two a b → one = two ∨ before one two)
    {a b : Agent} (chain : Relation.TransGen (WaitsFor queue) a b) :
    ∃ one two next, WaitsAt queue one a next ∧ b ∈ queue two ∧
      (before one two ∨ one = two ∧ WaitsAt queue one a b) := by
  induction chain with
  | single waits =>
      obtain ⟨lock, waits⟩ := waits
      exact ⟨lock, lock, _, waits, waits.mem_right, Or.inr ⟨rfl, waits⟩⟩
  | tail _ waits ih =>
      obtain ⟨one, two, next, started, there, place⟩ := ih
      obtain ⟨three, waits⟩ := waits
      refine ⟨one, three, next, started, waits.mem_right, ?_⟩
      rcases ordered _ _ two three there waits with rfl | up
      · rcases place with higher | ⟨rfl, ahead⟩
        · exact Or.inl higher
        · exact Or.inr ⟨rfl, ahead.trans waits (distinct one)⟩
      · rcases place with higher | ⟨rfl, _⟩
        · exact Or.inl (later one two three higher up)
        · exact Or.inl up

/-- Then nobody waits for themselves, over any number of others. -/
theorem waitsFor_acyclic {before : Lock → Lock → Prop} (irrefl : ∀ lock, ¬before lock lock)
    (later : ∀ one two three, before one two → before two three → before one three)
    (distinct : ∀ lock, (queue lock).Nodup)
    (ordered : ∀ a b one two, a ∈ queue one → WaitsAt queue two a b → one = two ∨ before one two)
    (a : Agent) : ¬Relation.TransGen (WaitsFor queue) a a := by
  intro cycle
  obtain ⟨one, two, next, waits, there, place⟩ := waitsFor_ascends later distinct ordered cycle
  rcases place with higher | ⟨rfl, ahead⟩
  · rcases ordered a next two one there waits with rfl | up
    · exact irrefl _ higher
    · exact irrefl one (later one two one higher up)
  · exact WaitsAt.irrefl (distinct one) ahead

end TavilyHikari.Library
