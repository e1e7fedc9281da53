/-
Module: TavilyHikari.Proofs.AccountQuota
Purpose: When the effective limits of an account are the exact sums of its base limits and the
  deltas of its tags, so that the order of the tags is of no account.
Trusted boundary: none
Main exports: AccountLimit, exactLimit, KeepsExact, effectiveLimits_exact_iff
-/
import TavilyHikari.Store.AccountQuota

namespace TavilyHikari.Store

open Library

/-- The four limits of an account. -/
inductive AccountLimit where
  | hourlyAny
  | hourly
  | daily
  | monthly
deriving DecidableEq, Repr

def AccountQuotaLimits.get (limits : AccountQuotaLimits) : AccountLimit → Int
  | .hourlyAny => limits.hourlyAnyLimit
  | .hourly => limits.hourlyLimit
  | .daily => limits.dailyLimit
  | .monthly => limits.monthlyLimit

def UserTagEffect.delta (effect : UserTagEffect) : AccountLimit → Int
  | .hourlyAny => effect.hourlyAnyDelta
  | .hourly => effect.hourlyDelta
  | .daily => effect.dailyDelta
  | .monthly => effect.monthlyDelta

/-- What the tags add to the limit, in the order of the bindings. -/
def tagDeltas (limit : AccountLimit) (tags : List UserTagBindingRecord) : List Int :=
  tags.map fun binding => binding.tag.effect.delta limit

/-- The base and all deltas, added up exactly and clamped once. -/
def exactSum (base : AccountQuotaLimits) (tags : List UserTagBindingRecord)
    (limit : AccountLimit) : Int :=
  max 0 (saturate (base.get limit + (tagDeltas limit tags).sum))

def exactLimit (base : AccountQuotaLimits) (tags : List UserTagBindingRecord)
    (limit : AccountLimit) : Int :=
  if tags.any fun binding => binding.tag.isBlockAll then 0 else exactSum base tags limit

/-- What the saturation cuts off on the way does not matter: the deltas still lead from the lower
end of the range no further than to the exact limit, and from the upper end as far. -/
def NothingCutOff (base : AccountQuotaLimits) (tags : List UserTagBindingRecord)
    (limit : AccountLimit) : Prop :=
  (tagDeltas limit tags).foldl saturatingAdd i64Min ≤ exactSum base tags limit ∧
    (exactSum base tags limit = 0 ∨
      exactSum base tags limit ≤ (tagDeltas limit tags).foldl saturatingAdd i64Max)

/-- The limit does not depend on the deltas, or they lose nothing. -/
def KeepsExact (base : AccountQuotaLimits) (tags : List UserTagBindingRecord)
    (limit : AccountLimit) : Prop :=
  (tags.any fun binding => binding.tag.isBlockAll) = true ∨ NothingCutOff base tags limit

/-! ### The fold over the tags -/

theorem get_applyTag {limits : AccountQuotaLimits} {binding : UserTagBindingRecord}
    (counts : binding.tag.isBlockAll = false) (limit : AccountLimit) :
    (applyTag limits binding).get limit =
      saturatingAdd (limits.get limit) (binding.tag.effect.delta limit) := by
  unfold applyTag
  rw [counts]
  cases limit <;> rfl

theorem get_foldl_applyTag {tags : List UserTagBindingRecord} (base : AccountQuotaLimits)
    (counts : ∀ binding ∈ tags, binding.tag.isBlockAll = false) (limit : AccountLimit) :
    (tags.foldl applyTag base).get limit =
      (tagDeltas limit tags).foldl saturatingAdd (base.get limit) := by
  induction tags generalizing base with
  | nil => rfl
  | cons binding tags ih =>
      rw [List.foldl_cons, ih _ fun other member => counts other (List.mem_cons_of_mem _ member),
        get_applyTag (counts binding List.mem_cons_self)]
      rfl

theorem get_clampedNonNegative (limits : AccountQuotaLimits) (limit : AccountLimit) :
    limits.clampedNonNegative.get limit = max 0 (limits.get limit) := by
  cases limit <;> exact Int.max_comm _ _

theorem effective_of_blockAll {base : AccountQuotaLimits} {tags : List UserTagBindingRecord}
    (blocks : (tags.any fun binding => binding.tag.isBlockAll) = true) (limit : AccountLimit) :
    (buildAccountQuotaResolution base tags).effective.get limit = 0 := by
  unfold buildAccountQuotaResolution
  simp only [blocks, if_true]
  cases limit <;> rfl

theorem effective_of_deltas {base : AccountQuotaLimits} {tags : List UserTagBindingRecord}
    (counts : (tags.any fun binding => binding.tag.isBlockAll) = false) (limit : AccountLimit) :
    (buildAccountQuotaResolution base tags).effective.get limit =
      max 0 ((tagDeltas limit tags).foldl saturatingAdd (base.get limit)) := by
  have none : ∀ binding ∈ tags, binding.tag.isBlockAll = false := by
    intro binding member
    exact Bool.not_eq_true _ ▸ List.any_eq_false.1 counts binding member
  unfold buildAccountQuotaResolution
  simp only [counts, Bool.false_eq_true, if_false]
  rw [get_clampedNonNegative, get_foldl_applyTag base none]

/-! ### The exact limits -/

/-- With no sum on the way out of the range nothing is lost. -/
theorem nothingCutOff_of_partialSums {base : AccountQuotaLimits} {tags : List UserTagBindingRecord}
    {limit : AccountLimit} (inRange : i64Min ≤ base.get limit ∧ base.get limit ≤ i64Max)
    (bounded : ∀ front, front <+: tagDeltas limit tags → front ≠ tagDeltas limit tags →
      i64Min ≤ base.get limit + front.sum ∧ base.get limit + front.sum ≤ i64Max) :
    NothingCutOff base tags limit := by
  have ends := foldl_saturatingAdd_eq (tagDeltas limit tags) inRange.1 inRange.2
  have walked : (tagDeltas limit tags).foldl saturatingAdd (base.get limit) =
      saturate (base.get limit + (tagDeltas limit tags).sum) := by
    by_cases empty : tagDeltas limit tags = []
    · rw [empty, List.foldl_nil, List.sum_nil, Int.add_zero, saturate_of_bounds inRange.1 inRange.2]
    · exact foldl_saturatingAdd_of_partialSums bounded empty
  rw [walked] at ends
  have ordered : (tagDeltas limit tags).foldl saturatingAdd i64Min ≤
      (tagDeltas limit tags).foldl saturatingAdd i64Max :=
    foldl_saturatingAdd_mono _ (by simp only [i64Min, i64Max]; omega)
  unfold NothingCutOff exactSum
  omega

theorem exactLimit_perm (base : AccountQuotaLimits) {tags others : List UserTagBindingRecord}
    (same : others.Perm tags) (limit : AccountLimit) :
    exactLimit base others limit = exactLimit base tags limit := by
  have blocks : (others.any fun binding => binding.tag.isBlockAll) =
      tags.any fun binding => binding.tag.isBlockAll := same.any_eq
  have sums : (tagDeltas limit others).sum = (tagDeltas limit tags).sum := (same.map _).sum_eq
  unfold exactLimit exactSum
  rw [blocks, sums]

theorem effectiveLimit_eq_exactLimit_iff {base : AccountQuotaLimits}
    {tags : List UserTagBindingRecord} {limit : AccountLimit}
    (inRange : i64Min ≤ base.get limit ∧ base.get limit ≤ i64Max) :
    (buildAccountQuotaResolution base tags).effective.get limit = exactLimit base tags limit ↔
      KeepsExact base tags limit := by
  unfold exactLimit KeepsExact
  cases blocks : tags.any fun binding => binding.tag.isBlockAll with
  | true =>
      rw [effective_of_blockAll blocks, if_pos rfl]
      exact iff_of_true rfl (Or.inl rfl)
  | false =>
      rw [effective_of_deltas blocks, if_neg Bool.false_ne_true]
      have ends := foldl_saturatingAdd_eq (tagDeltas limit tags) inRange.1 inRange.2
      have ordered : (tagDeltas limit tags).foldl saturatingAdd i64Min ≤
          (tagDeltas limit tags).foldl saturatingAdd i64Max :=
        foldl_saturatingAdd_mono _ (by simp only [i64Min, i64Max]; omega)
      have upper : (tagDeltas limit tags).foldl saturatingAdd i64Max ≤ i64Max :=
        (foldl_saturatingAdd_bounds _ (by simp only [i64Min, i64Max]; omega) le_rfl).2
      have whole := saturate_bounds (base.get limit + (tagDeltas limit tags).sum)
      rw [ends]
      unfold NothingCutOff exactSum
      simp only [saturate, i64Min, i64Max, Bool.false_eq_true, false_or] at *
      omega

/-- Each effective limit is in the range of a limit; it is the exact one if and only if the
saturation has cut off nothing that matters; and where that holds of two orders of the same
bindings, both give the same limit. -/
theorem effectiveLimits_exact_iff (base : AccountQuotaLimits) (tags : List UserTagBindingRecord)
    (inRange : ∀ limit, i64Min ≤ base.get limit ∧ base.get limit ≤ i64Max) (limit : AccountLimit) :
    (0 ≤ (buildAccountQuotaResolution base tags).effective.get limit ∧
        (buildAccountQuotaResolution base tags).effective.get limit ≤ i64Max) ∧
      ((buildAccountQuotaResolution base tags).effective.get limit = exactLimit base tags limit ↔
        KeepsExact base tags limit) ∧
      ∀ others : List UserTagBindingRecord, others.Perm tags → KeepsExact base tags limit →
        KeepsExact base others limit →
          (buildAccountQuotaResolution base others).effective.get limit =
            (buildAccountQuotaResolution base tags).effective.get limit := by
  refine ⟨?_, effectiveLimit_eq_exactLimit_iff (inRange limit), ?_⟩
  · cases blocks : tags.any fun binding => binding.tag.isBlockAll with
    | true =>
        rw [effective_of_blockAll blocks]
        exact ⟨le_rfl, by simp only [i64Max]; omega⟩
    | false =>
        rw [effective_of_deltas blocks]
        have bounds := foldl_saturatingAdd_bounds (tagDeltas limit tags) (inRange limit).1
          (inRange limit).2
        exact ⟨le_max_left _ _, max_le (by simp only [i64Max]; omega) bounds.2⟩
  · intro others same keeps keepsOther
    rw [(effectiveLimit_eq_exactLimit_iff (inRange limit)).2 keeps,
      (effectiveLimit_eq_exactLimit_iff (inRange limit)).2 keepsOther, exactLimit_perm base same]

/-- A tag that adds to a limit. -/
def deltaTag (name : String) (delta : Int) : UserTagBindingRecord where
  source := userTagSourceManual
  tag :=
    { id := name, name, displayName := name, icon := none, systemKey := none
      effect :=
        { effectKind := userTagEffectQuotaDelta, hourlyAnyDelta := delta, hourlyDelta := 0
          dailyDelta := 0, monthlyDelta := 0 } }

def plainLimits (hourlyAnyLimit : Int) : AccountQuotaLimits :=
  { hourlyAnyLimit, hourlyLimit := 10, dailyLimit := 20, monthlyLimit := 30
    inheritsDefaults := false }

theorem effectiveLimits_exact_iff_small :
    (∀ limit, i64Min ≤ (plainLimits 5).get limit ∧ (plainLimits 5).get limit ≤ i64Max) ∧
      (buildAccountQuotaResolution (plainLimits 5)
        [deltaTag "up" 7, deltaTag "down" (-9)]).effective.get .hourlyAny =
          exactLimit (plainLimits 5) [deltaTag "up" 7, deltaTag "down" (-9)] .hourlyAny := by
  have inRange : ∀ limit, i64Min ≤ (plainLimits 5).get limit ∧
      (plainLimits 5).get limit ≤ i64Max := by
    intro limit
    cases limit <;> decide
  have facts := effectiveLimits_exact_iff (plainLimits 5)
    [deltaTag "up" 7, deltaTag "down" (-9)] inRange .hourlyAny
  exact ⟨inRange, facts.2.1.2 (Or.inr ⟨by decide, Or.inr (by decide)⟩)⟩

/-- A tag of `i64::MAX` and one that takes it back leave the limit at 0 in the one order and at its
base in the other. -/
theorem effectiveLimits_byOrder :
    (buildAccountQuotaResolution (plainLimits 5)
        [deltaTag "a" i64Max, deltaTag "b" (-i64Max)]).effective.get .hourlyAny = 0 ∧
      (buildAccountQuotaResolution (plainLimits 5)
        [deltaTag "b" (-i64Max), deltaTag "a" i64Max]).effective.get .hourlyAny = 5 ∧
      exactLimit (plainLimits 5) [deltaTag "a" i64Max, deltaTag "b" (-i64Max)] .hourlyAny = 5 := by
  decide

end TavilyHikari.Store
