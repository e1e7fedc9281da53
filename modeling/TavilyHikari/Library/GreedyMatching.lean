/-
Module: TavilyHikari.Library.GreedyMatching
Purpose: Sources matched one after another, each with the first of its candidates that fits and
  that no source before it has taken; and when that is the first that fits at all.
Trusted boundary: none
Main exports: firstFree, greedyMatch, mem_greedyMatch, nodup_greedyMatch,
  greedyMatch_eq_filterMap, find?_insertionSort
-/
import Mathlib.Data.List.Sort

namespace TavilyHikari.Library

universe u v w

variable {α : Type u} {β : Type v} {κ : Type w} [DecidableEq κ]

section

variable (key : β → κ) (candidates : α → List β) (fits : α → β → Bool)

/-- The first candidate that fits and is not taken. -/
def firstFree (taken : List κ) (a : α) : Option β :=
  (candidates a).find? fun b => key b ∉ taken && fits a b

/-- The matches, in the order of their sources. -/
def greedyMatch : List κ → List α → List (α × β)
  | _, [] => []
  | taken, a :: rest =>
      match firstFree key candidates fits taken a with
      | none => greedyMatch taken rest
      | some b => (a, b) :: greedyMatch (key b :: taken) rest

end

variable {key : β → κ} {candidates : α → List β} {fits : α → β → Bool}

theorem firstFree_eq_some {taken : List κ} {a : α} {b : β}
    (found : firstFree key candidates fits taken a = some b) :
    b ∈ candidates a ∧ key b ∉ taken ∧ fits a b = true := by
  have test := List.find?_some found
  rw [Bool.and_eq_true, decide_eq_true_eq] at test
  exact ⟨List.mem_of_find?_eq_some found, test⟩

/-- A candidate that is found stays the first one while it is not taken. -/
theorem firstFree_of_notMem {taken : List κ} {a : α}
    (free : ∀ b, firstFree key candidates fits [] a = some b → key b ∉ taken) :
    firstFree key candidates fits taken a = firstFree key candidates fits [] a := by
  cases first : firstFree key candidates fits [] a with
  | none =>
      rw [firstFree, List.find?_eq_none] at first ⊢
      intro b member test
      rw [Bool.and_eq_true] at test
      exact first b member (by simpa using test.2)
  | some b =>
      have notTaken := free b first
      rw [firstFree, List.find?_eq_some_iff_append] at first ⊢
      obtain ⟨test, before, after, split, none⟩ := first
      refine ⟨by simpa [notTaken] using test, before, after, split, ?_⟩
      intro c member
      have fails := none c member
      simp only [List.not_mem_nil, not_false_eq_true, decide_true, Bool.true_and] at fails
      simp only [Bool.not_and, fails, Bool.or_true]

theorem greedyMatch_of_none {taken : List κ} {a : α} (rest : List α)
    (found : firstFree key candidates fits taken a = none) :
    greedyMatch key candidates fits taken (a :: rest) =
      greedyMatch key candidates fits taken rest := by
  rw [greedyMatch, found]

theorem greedyMatch_of_some {taken : List κ} {a : α} {b : β} (rest : List α)
    (found : firstFree key candidates fits taken a = some b) :
    greedyMatch key candidates fits taken (a :: rest) =
      (a, b) :: greedyMatch key candidates fits (key b :: taken) rest := by
  rw [greedyMatch, found]

theorem mem_greedyMatch {taken : List κ} {sources : List α} {a : α} {b : β}
    (member : (a, b) ∈ greedyMatch key candidates fits taken sources) :
    a ∈ sources ∧ b ∈ candidates a ∧ key b ∉ taken ∧ fits a b = true := by
  induction sources generalizing taken with
  | nil => cases member
  | cons source rest ih =>
      cases found : firstFree key candidates fits taken source with
      | none =>
          rw [greedyMatch_of_none rest found] at member
          have later := ih member
          exact ⟨List.mem_cons_of_mem _ later.1, later.2⟩
      | some c =>
          rw [greedyMatch_of_some rest found] at member
          rcases List.mem_cons.1 member with here | rest
          · cases here
            exact ⟨List.mem_cons_self, firstFree_eq_some found⟩
          · obtain ⟨among, candidate, free, fitting⟩ := ih rest
            exact ⟨List.mem_cons_of_mem _ among, candidate,
              fun before => free (List.mem_cons_of_mem _ before), fitting⟩

/-- No candidate is taken twice. -/
theorem nodup_greedyMatch (taken : List κ) (sources : List α) :
    ((greedyMatch key candidates fits taken sources).map fun pair => key pair.2).Nodup := by
  induction sources generalizing taken with
  | nil => exact List.nodup_nil
  | cons source rest ih =>
      cases found : firstFree key candidates fits taken source with
      | none =>
          rw [greedyMatch_of_none rest found]
          exact ih taken
      | some b =>
          rw [greedyMatch_of_some rest found, List.map_cons, List.nodup_cons]
          refine ⟨?_, ih (key b :: taken)⟩
          intro again
          obtain ⟨⟨a, c⟩, member, same⟩ := List.mem_map.1 again
          exact (mem_greedyMatch member).2.2.1 (same ▸ List.mem_cons_self)

/-- Where no two sources have one first candidate, nothing that is taken matters. -/
theorem greedyMatch_eq_filterMap {taken : List κ} {sources : List α}
    (free : ∀ a ∈ sources, ∀ b, firstFree key candidates fits [] a = some b → key b ∉ taken)
    (apart : sources.Pairwise fun one two => ∀ b c, firstFree key candidates fits [] one = some b →
      firstFree key candidates fits [] two = some c → key b ≠ key c) :
    greedyMatch key candidates fits taken sources =
      sources.filterMap fun a => (firstFree key candidates fits [] a).map fun b => (a, b) := by
  induction sources generalizing taken with
  | nil => rfl
  | cons source rest ih =>
      rw [List.pairwise_cons] at apart
      have same := firstFree_of_notMem (free source List.mem_cons_self)
      cases first : firstFree key candidates fits [] source with
      | none =>
          rw [greedyMatch_of_none rest (same.trans first),
            List.filterMap_cons_none (by rw [first]; rfl)]
          exact ih (fun a member => free a (List.mem_cons_of_mem _ member)) apart.2
      | some b =>
          rw [greedyMatch_of_some rest (same.trans first),
            List.filterMap_cons_some (by rw [first]; rfl)]
          congr 1
          apply ih _ apart.2
          intro a member c found
          rw [List.mem_cons, not_or]
          exact ⟨(apart.1 a member b c first found).symm,
            free a (List.mem_cons_of_mem _ member) c found⟩

/-- The first in a sorted list that passes a test comes before all that do. -/
theorem find?_insertionSort {r : β → β → Prop} [DecidableRel r] [Std.Total r] [IsTrans β r]
    {p : β → Bool} {l : List β} {b : β} (found : (l.insertionSort r).find? p = some b) :
    ∀ c ∈ l, p c = true → r b c := by
  have sorted := List.pairwise_insertionSort r l
  obtain ⟨_, before, after, split, fails⟩ := List.find?_eq_some_iff_append.1 found
  intro c member passes
  rw [← List.mem_insertionSort r, split, List.mem_append, List.mem_cons] at member
  rw [split, List.pairwise_append, List.pairwise_cons] at sorted
  rcases member with earlier | same | later
  · have fails := fails c earlier
    rw [passes] at fails
    cases fails
  · rcases Std.Total.total (r := r) b c with le | le
    · exact le
    · exact same ▸ le
  · exact sorted.2.1.1 c later

end TavilyHikari.Library
