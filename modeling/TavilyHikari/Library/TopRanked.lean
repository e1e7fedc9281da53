/-
Module: TavilyHikari.Library.TopRanked
Purpose: The highest-ranked elements of a finite set, and a store that keeps no others:
  each step ranks one element anew and forgets what falls behind. What was forgotten is
  never missed, as long as ranks only rise.
Trusted boundary: none
Main exports: TopRanked, TopRanked.unique, TopRanked.insert, TopRanked.insert_stale,
  topRanked_take
-/
import Mathlib.Data.Finset.Card
import Mathlib.Data.Finset.Dedup
import Mathlib.Order.Defs.LinearOrder

namespace TavilyHikari.Library

universe u v

variable {κ : Type u} {ρ : Type v} [LinearOrder ρ]

/-- `kept` are the `limit` elements of `all` with the highest ranks, or all of them where
there are no more. -/
structure TopRanked (limit : Nat) (rank : κ → ρ) (all kept : Finset κ) : Prop where
  subset : kept ⊆ all
  card : kept.card = min limit all.card
  above : ∀ k ∈ kept, ∀ other ∈ all, other ∉ kept → rank other < rank k

namespace TopRanked

variable {limit : Nat} {rank rank' : κ → ρ} {all kept : Finset κ}

theorem empty (limit : Nat) (rank : κ → ρ) : TopRanked limit rank ∅ ∅ where
  subset := Finset.Subset.refl ∅
  card := by simp
  above k member := absurd member (Finset.notMem_empty k)

theorem congr (top : TopRanked limit rank all kept)
    (same : ∀ k ∈ all, rank' k = rank k) : TopRanked limit rank' all kept where
  subset := top.subset
  card := top.card
  above := by
    intro k member other among forgotten
    rw [same k (top.subset member), same other among]
    exact top.above k member other among forgotten

/-- Where something was forgotten, the limit was reached. -/
theorem card_of_forgotten (top : TopRanked limit rank all kept) {k : κ} (among : k ∈ all)
    (forgotten : k ∉ kept) : kept.card = limit := by
  have fewer : kept.card < all.card :=
    Finset.card_lt_card (Finset.ssubset_iff_subset_ne.mpr
      ⟨top.subset, fun same => forgotten (same ▸ among)⟩)
  have card := top.card
  omega

/-- Two sets of the same size that differ leave something out each. -/
theorem exists_notMem_of_card_eq {kept kept' : Finset κ} (sameCard : kept.card = kept'.card)
    {k : κ} (member : k ∈ kept') (other : k ∉ kept) : ∃ lost ∈ kept, lost ∉ kept' := by
  by_contra none
  have subset : kept ⊆ kept' := by
    intro x isKept
    by_contra missing
    exact none ⟨x, isKept, missing⟩
  exact other (Finset.eq_of_subset_of_card_le subset (le_of_eq sameCard.symm) ▸ member)

theorem unique {kept' : Finset κ} (top : TopRanked limit rank all kept)
    (top' : TopRanked limit rank all kept') : kept = kept' := by
  have sameCard : kept.card = kept'.card := top.card.trans top'.card.symm
  apply Finset.eq_of_subset_of_card_le _ (le_of_eq sameCard.symm)
  intro k member
  by_contra missing
  obtain ⟨lost, isKept, absent⟩ := exists_notMem_of_card_eq sameCard.symm member missing
  have below := top.above k member lost (top'.subset isKept) absent
  have above := top'.above lost isKept k (top.subset member) missing
  exact lt_asymm below above

variable [DecidableEq κ] {entered : κ}

/-- One element is ranked anew, no lower than before; the best of it and of what was kept
are the best of all. -/
theorem insert {kept' : Finset κ} (top : TopRanked limit rank all kept)
    (others : ∀ k ∈ all, k ≠ entered → rank' k = rank k)
    (rises : entered ∈ all → rank entered ≤ rank' entered)
    (top' : TopRanked limit rank' (insert entered kept) kept') :
    TopRanked limit rank' (insert entered all) kept' := by
  have rankLe : ∀ k ∈ all, rank k ≤ rank' k := by
    intro k among
    by_cases same : k = entered
    · subst same
      exact rises among
    · exact le_of_eq (others k among same).symm
  have subset := Finset.insert_subset_insert entered top.subset
  refine { subset := top'.subset.trans subset, card := ?_, above := ?_ }
  · by_cases full : all ⊆ kept
    · rw [Finset.Subset.antisymm full top.subset]
      exact top'.card
    · obtain ⟨missing, among, forgotten⟩ := Finset.not_subset.mp full
      have reached := top.card_of_forgotten among forgotten
      have atLeast := Finset.card_le_card (Finset.subset_insert entered kept)
      have more := Finset.card_le_card subset
      have card := top'.card
      omega
  · intro k member other among forgotten
    by_cases offered : other ∈ Insert.insert entered kept
    · exact top'.above k member other offered forgotten
    · have apart : other ≠ entered := fun same => offered (same ▸ Finset.mem_insert_self ..)
      have old : other ∈ all := Finset.mem_of_mem_insert_of_ne among apart
      have unkept : other ∉ kept := fun isKept => offered (Finset.mem_insert_of_mem isKept)
      rw [others other old apart]
      by_cases stayed : k ∈ kept
      · exact lt_of_lt_of_le (top.above k stayed other old unkept)
          (rankLe k (top.subset stayed))
      · -- `k` is the new one, and took the place of one that was above `other`
        have isEntered : k = entered :=
          (Finset.mem_insert.mp (top'.subset member)).resolve_right stayed
        have grown : (Insert.insert entered kept).card = kept.card + 1 :=
          Finset.card_insert_of_notMem (isEntered ▸ stayed)
        have sameCard : kept.card = kept'.card := by
          have reached := top.card_of_forgotten old unkept
          have card := top'.card
          omega
        obtain ⟨lost, wasKept, dropped⟩ := exists_notMem_of_card_eq sameCard member stayed
        calc rank other < rank lost := top.above lost wasKept other old unkept
          _ ≤ rank' lost := rankLe lost (top.subset wasKept)
          _ < rank' k := top'.above k member lost (Finset.mem_insert_of_mem wasKept) dropped

/-- A forgotten element that comes back with a rank it had already reached is forgotten
again. -/
theorem insert_stale {kept' : Finset κ} (top : TopRanked limit rank all kept)
    (among : entered ∈ all) (forgotten : entered ∉ kept)
    (others : ∀ k ∈ kept, rank' k = rank k) (stale : rank' entered ≤ rank entered)
    (top' : TopRanked limit rank' (Insert.insert entered kept) kept') : kept' = kept := by
  have sameCard : kept.card = kept'.card := by
    have reached := top.card_of_forgotten among forgotten
    have grown := Finset.card_insert_of_notMem forgotten
    have card := top'.card
    omega
  apply Finset.eq_of_subset_of_card_le _ (le_of_eq sameCard)
  intro k member
  by_contra missing
  have isEntered : k = entered :=
    (Finset.mem_insert.mp (top'.subset member)).resolve_right missing
  subst isEntered
  obtain ⟨lost, wasKept, dropped⟩ := exists_notMem_of_card_eq sameCard member missing
  have below := top'.above k member lost (Finset.mem_insert_of_mem wasKept) dropped
  have above := top.above lost wasKept k among forgotten
  rw [others lost wasKept] at below
  exact lt_irrefl _ (lt_trans above (lt_of_lt_of_le below stale))

end TopRanked

/-- The first elements of a list in falling order are the highest-ranked ones. -/
theorem topRanked_take [DecidableEq κ] {rank : κ → ρ} (limit : Nat) {l : List κ}
    (falling : l.Pairwise fun a b => rank b < rank a) :
    TopRanked limit rank l.toFinset (l.take limit).toFinset := by
  have distinct : l.Nodup := falling.imp fun below same => absurd below (by simp [same])
  refine { subset := ?_, card := ?_, above := ?_ }
  · intro k member
    exact List.mem_toFinset.mpr (List.mem_of_mem_take (List.mem_toFinset.mp member))
  · rw [List.toFinset_card_of_nodup distinct,
      List.toFinset_card_of_nodup (distinct.sublist (List.take_sublist limit l)),
      List.length_take]
  · intro k member other among forgotten
    rw [List.mem_toFinset] at member among forgotten
    rw [← List.take_append_drop limit l] at among falling
    have dropped : other ∈ l.drop limit := (List.mem_append.mp among).resolve_left forgotten
    exact (List.pairwise_append.mp falling).2.2 k member other dropped

end TavilyHikari.Library
