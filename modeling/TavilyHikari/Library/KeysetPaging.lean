/-
Module: TavilyHikari.Library.KeysetPaging
Purpose: Paging through a list by a key of the last row seen, where the list may be in another
  order than the keys: the pages are the list exactly where the two orders agree at every cut.
Trusted boundary: none
Main exports: walkPages, CutsAgree, walkPages_perm_iff
-/
import Mathlib.Data.List.Nodup
import Mathlib.Data.List.Perm.Basic
import Mathlib.Order.Lattice

namespace TavilyHikari.Library

universe u v

variable {α : Type u} {ι : Type v} [LinearOrder ι] (key : α → ι) (limit : Nat)

/-- The rows of so many calls, each for the first rows under the key of the last row before,
until a page is empty. -/
def walkPages : Nat → List α → List α
  | 0, _ => []
  | calls + 1, rows =>
      match (rows.take limit).getLast? with
      | none => []
      | some last =>
          rows.take limit ++ walkPages calls (rows.filter fun row => key row < key last)

/-- At the end of every page of the list the rows after it are those with smaller keys. -/
def CutsAgree (rows : List α) : Prop :=
  ∀ front last rest, rows = front ++ last :: rest → limit ∣ front.length + 1 ∨ rest = [] →
    (∀ row ∈ front, key last < key row) ∧ ∀ row ∈ rest, key row < key last

variable {key limit} {rows : List α}

theorem walkPages_subset {calls : Nat} {row : α} (seen : row ∈ walkPages key limit calls rows) :
    row ∈ rows := by
  induction calls generalizing rows with
  | zero => cases seen
  | succ calls ih =>
      rw [walkPages] at seen
      split at seen
      · cases seen
      · rcases List.mem_append.1 seen with here | later
        · exact List.mem_of_mem_take here
        · exact (List.mem_filter.1 (ih later)).1

/-- The first row is on the first page. -/
theorem head_mem_walkPages (positive : 0 < limit) {calls : Nat} {row : α} {rest : List α} :
    row ∈ walkPages key limit (calls + 1) (row :: rest) := by
  obtain ⟨n, rfl⟩ := Nat.exists_eq_succ_of_ne_zero positive.ne'
  rw [walkPages, List.take_succ_cons, List.getLast?_cons]
  exact List.mem_append_left _ List.mem_cons_self

/-- A list that is not empty is its first page, up to the last row of it, and the rest. -/
theorem exists_firstPage (positive : 0 < limit) (nonempty : rows ≠ []) :
    ∃ front last rest, rows = front ++ last :: rest ∧ rows.take limit = front ++ [last] ∧
      front.length + 1 ≤ limit ∧ (front.length + 1 = limit ∨ rest = []) := by
  have page : rows.take limit ≠ [] := by
    rw [Ne, List.take_eq_nil_iff]
    rintro (none | none)
    · exact positive.ne' none
    · exact nonempty none
  have parts := List.dropLast_append_getLast page
  have count := congrArg List.length parts
  rw [List.length_append, List.length_singleton, List.length_take] at count
  refine ⟨(rows.take limit).dropLast, (rows.take limit).getLast page, rows.drop limit, ?_,
    parts.symm, by omega, ?_⟩
  · rw [List.append_cons, parts, List.take_append_drop]
  · rw [List.drop_eq_nil_iff]
    omega

/-- The cuts of a list are the end of its first page and the cuts of what comes after it. -/
theorem cutsAgree_iff_firstPage {front rest : List α} {last : α}
    (fits : front.length + 1 ≤ limit) (full : front.length + 1 = limit ∨ rest = []) :
    CutsAgree key limit (front ++ last :: rest) ↔
      ((∀ row ∈ front, key last < key row) ∧ ∀ row ∈ rest, key row < key last) ∧
        CutsAgree key limit rest := by
  constructor
  · intro agree
    have cut : limit ∣ front.length + 1 ∨ rest = [] := by
      rcases full with whole | none
      · exact .inl ⟨1, by omega⟩
      · exact .inr none
    refine ⟨agree front last rest rfl cut, ?_⟩
    intro front' last' rest' split cut
    have whole : front.length + 1 = limit := by
      refine full.resolve_right fun none => ?_
      rw [none] at split
      cases front' <;> cases split
    have later := agree (front ++ last :: front') last' rest' (by simp [split]) ?_
    · exact ⟨fun row member => later.1 row (by simp [member]), later.2⟩
    · refine cut.imp_left fun divides => ?_
      have sum : (front ++ last :: front').length + 1 = limit + (front'.length + 1) := by
        simp only [List.length_append, List.length_cons]
        omega
      rw [sum]
      exact Nat.dvd_add (Nat.dvd_refl limit) divides
  · rintro ⟨⟨above, below⟩, agree⟩ front' last' rest' split cut
    rcases List.append_eq_append_iff.1 split with ⟨between, rfl, tail⟩ | ⟨between, rfl, tail⟩
    · cases between with
      | nil =>
          cases tail
          simpa using ⟨above, below⟩
      | cons first between =>
          -- A cut after the first page is one of the rest, and below all of the page.
          cases tail
          have whole : front.length + 1 = limit := full.resolve_right (by simp)
          have under := below last' (by simp)
          have later := agree between last' rest' rfl ?_
          · refine ⟨fun row member => ?_, later.2⟩
            rcases List.mem_append.1 member with early | here
            · exact under.trans (above row early)
            · rcases List.mem_cons.1 here with rfl | late
              · exact under
              · exact later.1 row late
          · refine cut.imp_left fun divides => ?_
            have sum : (front ++ last :: between).length + 1 = limit + (between.length + 1) := by
              simp only [List.length_append, List.length_cons]
              omega
            rw [sum] at divides
            exact (Nat.dvd_add_right (Nat.dvd_refl limit)).1 divides
    · cases between with
      | nil =>
          cases tail
          rw [List.append_nil] at above
          exact ⟨above, below⟩
      | cons first between =>
          -- No page ends before the first one does.
          cases tail
          rw [List.length_append, List.length_cons] at fits
          rcases cut with divides | none
          · have small := Nat.le_of_dvd (Nat.succ_pos _) divides
            omega
          · simp at none

/-- What the next call selects from is the rest, where the cut agrees. -/
theorem filter_eq_rest {front rest : List α} {last : α}
    (above : ∀ row ∈ front, key last < key row) (below : ∀ row ∈ rest, key row < key last) :
    ((front ++ last :: rest).filter fun row => key row < key last) = rest := by
  rw [List.filter_append, List.filter_eq_nil_iff.2, List.nil_append, List.filter_cons_of_neg,
    List.filter_eq_self]
  · intro row member
    exact decide_eq_true (below row member)
  · simp
  · intro row member
    simpa using (above row member).le

/-- A row of a page that is under its end comes back on the next one. -/
theorem walkPages_filter_not_perm (positive : 0 < limit) {calls : Nat} (some : 0 < calls)
    {front rest : List α} {last row : α}
    (apart : ∀ a ∈ front.map key, ∀ b ∈ key last :: rest.map key, a ≠ b) (member : row ∈ front)
    (under : key row < key last) :
    ¬(walkPages key limit calls
      ((front ++ last :: rest).filter fun row => key row < key last)).Perm rest := by
  intro seen
  obtain ⟨more, rfl⟩ := Nat.exists_eq_succ_of_ne_zero some.ne'
  cases again : front.filter fun row => key row < key last with
  | nil =>
      have kept : row ∈ front.filter fun row => key row < key last :=
        List.mem_filter.2 ⟨member, decide_eq_true under⟩
      rw [again] at kept
      cases kept
  | cons first others =>
      rw [List.filter_append, again, List.cons_append] at seen
      have returned := seen.mem_iff.1 (head_mem_walkPages positive)
      have early : first ∈ front := by
        have kept : first ∈ front.filter fun row => key row < key last := by
          rw [again]
          exact List.mem_cons_self
        exact (List.mem_filter.1 kept).1
      exact apart _ (List.mem_map_of_mem early) _
        (List.mem_cons_of_mem _ (List.mem_map_of_mem returned)) rfl

/-- Over enough calls every row is seen exactly once where the cuts agree, and nowhere else. -/
theorem walkPages_perm_iff (positive : 0 < limit) {calls : Nat} (enough : rows.length < calls)
    (distinct : (rows.map key).Nodup) :
    (walkPages key limit calls rows).Perm rows ↔ CutsAgree key limit rows := by
  induction calls generalizing rows with
  | zero => cases enough
  | succ calls ih =>
      by_cases empty : rows = []
      · subst empty
        refine iff_of_true (by simp [walkPages]) ?_
        intro front last rest split
        cases front <;> cases split
      · obtain ⟨front, last, rest, rfl, page, fits, full⟩ := exists_firstPage positive empty
        rw [walkPages, page, List.getLast?_concat]
        simp only
        have next (seen : List α) :
            (front ++ [last] ++ seen).Perm (front ++ last :: rest) ↔ seen.Perm rest := by
          rw [List.append_cons front last rest]
          exact List.perm_append_left_iff _
        rw [cutsAgree_iff_firstPage fits full, next]
        rw [List.length_append, List.length_cons] at enough
        rw [List.map_append, List.map_cons, List.nodup_append, List.nodup_cons] at distinct
        obtain ⟨-, ⟨lastNew, restDistinct⟩, apart⟩ := distinct
        have later := ih (by omega) restDistinct
        constructor
        · intro seen
          have below : ∀ row ∈ rest, key row < key last := by
            intro row member
            have selected := walkPages_subset (seen.mem_iff.2 member)
            exact of_decide_eq_true (List.mem_filter.1 selected).2
          have above : ∀ row ∈ front, key last < key row := by
            intro row member
            by_contra notAbove
            have other := apart _ (List.mem_map_of_mem member) _ List.mem_cons_self
            have under := lt_of_le_of_ne (not_lt.1 notAbove) other
            exact absurd seen (walkPages_filter_not_perm positive (by omega) apart member under)
          rw [filter_eq_rest above below] at seen
          exact ⟨⟨above, below⟩, later.1 seen⟩
        · rintro ⟨⟨above, below⟩, agree⟩
          rw [filter_eq_rest above below]
          exact later.2 agree

end TavilyHikari.Library
