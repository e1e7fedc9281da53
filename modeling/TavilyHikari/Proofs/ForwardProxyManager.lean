/-
Module: TavilyHikari.Proofs.ForwardProxyManager
Purpose: What the operations of the forward-proxy manager do, one lemma for each: the
  rescue of non-positive weights, the refresh of the runtime entries and the ranking.
Trusted boundary: none
Main exports: rescued, ensureNonZeroWeight_eq, rescued_spec, find_ensureNonZeroWeight,
  mem_rankCandidates_iff, rankCandidates_eq_nil_iff, find_refreshRuntime
-/
import Mathlib.Tactic.Linarith
import TavilyHikari.ForwardProxy.Manager

namespace TavilyHikari.ForwardProxy

open Library

namespace ForwardProxyManager

variable {manager : ForwardProxyManager}

/-! ### Endpoints by key -/

theorem endpoint_of_find {key : String} {e : ForwardProxyEndpoint}
    (found : manager.endpoint key = some e) : e ∈ manager.endpoints ∧ e.key = key :=
  ⟨List.mem_of_find?_eq_some found, by simpa using List.find?_some found⟩

theorem mem_selectableEndpointKeys {key : String} :
    key ∈ manager.selectableEndpointKeys ↔
      ∃ e ∈ manager.endpoints, e.key = key ∧ e.isSelectable = true := by
  simp only [selectableEndpointKeys, List.mem_map, List.mem_filter]
  constructor
  · rintro ⟨e, ⟨member, selectable⟩, same⟩
    exact ⟨e, member, same, selectable⟩
  · rintro ⟨e, member, same, selectable⟩
    exact ⟨e, ⟨member, selectable⟩, same⟩

/-! ### The rescue of non-positive weights -/

theorem hasPositiveWeight_iff :
    manager.hasPositiveWeight = true ↔ ∃ key entry, manager.runtime.find key = some entry ∧
      key ∈ manager.selectableEndpointKeys ∧ 0 < entry.weight := by
  simp [hasPositiveWeight, KeyedTable.existsWhere_eq_true_iff]

theorem mem_rescueCandidates {key : String} {entry : ForwardProxyRuntimeState} :
    (key, entry) ∈ manager.rescueCandidates ↔
      manager.runtime.find key = some entry ∧ key ∈ manager.selectableEndpointKeys := by
  simp [rescueCandidates, KeyedTable.find_eq_some_iff]

/-- The key whose entry `ensure_non_zero_weight` gives the recovery weight. -/
def rescued (manager : ForwardProxyManager) : Option String :=
  if manager.hasPositiveWeight then none else manager.rescueCandidates.head?.map Prod.fst

/-- The write of the recovery weight. -/
def withRecoveryWeight (manager : ForwardProxyManager) (key : String) : ForwardProxyManager :=
  { manager with
    runtime := manager.runtime.modify key fun entry =>
      { entry with weight := forwardProxyProbeRecoveryWeight } }

theorem ensureNonZeroWeight_eq :
    manager.ensureNonZeroWeight = manager.rescued.elim manager manager.withRecoveryWeight := by
  unfold ensureNonZeroWeight rescued
  cases positive : manager.hasPositiveWeight with
  | true => rfl
  | false =>
      simp only [Bool.false_eq_true, if_false]
      cases candidates : manager.rescueCandidates with
      | nil => rfl
      | cons row rest =>
          obtain ⟨key, entry⟩ := row
          have member : (key, entry) ∈ manager.rescueCandidates := by simp [candidates]
          obtain ⟨found, selectable⟩ := mem_rescueCandidates.1 member
          -- Without a positive weight the first candidate needs the rescue.
          have weight : entry.weight ≤ 0 := by
            by_contra large
            have : manager.hasPositiveWeight = true :=
              hasPositiveWeight_iff.2 ⟨key, entry, found, selectable, not_le.1 large⟩
            rw [positive] at this
            cases this
          simp [rescueFirst, weight, withRecoveryWeight]

/-- The rescued entry is that of a selectable endpoint, and no other has a larger weight. -/
theorem rescued_spec {key : String} (target : manager.rescued = some key) :
    key ∈ manager.selectableEndpointKeys ∧ manager.hasPositiveWeight = false ∧
      ∃ entry, manager.runtime.find key = some entry ∧
        ∀ other ∈ manager.selectableEndpointKeys, ∀ entry',
          manager.runtime.find other = some entry' → entry'.weight ≤ entry.weight := by
  unfold rescued at target
  cases positive : manager.hasPositiveWeight with
  | true => simp [positive] at target
  | false =>
      simp only [positive, Bool.false_eq_true, if_false, Option.map_eq_some_iff] at target
      obtain ⟨⟨first, entry⟩, head, same⟩ := target
      cases same
      obtain ⟨rest, candidates⟩ := List.head?_eq_some_iff.1 head
      have member : (first, entry) ∈ manager.rescueCandidates := by simp [candidates]
      obtain ⟨found, selectable⟩ := mem_rescueCandidates.1 member
      refine ⟨selectable, rfl, entry, found, fun other candidate entry' there => ?_⟩
      have sorted : manager.rescueCandidates.Pairwise
          fun lhs rhs => rhs.2.weight ≤ lhs.2.weight := by
        have total : Std.Total fun lhs rhs : String × ForwardProxyRuntimeState =>
            rhs.2.weight ≤ lhs.2.weight := ⟨fun lhs rhs => le_total _ _⟩
        have trans : IsTrans (String × ForwardProxyRuntimeState) fun lhs rhs =>
            rhs.2.weight ≤ lhs.2.weight := ⟨fun _ _ _ one two => two.trans one⟩
        exact List.pairwise_insertionSort _ _
      have last : (other, entry') ∈ manager.rescueCandidates :=
        mem_rescueCandidates.2 ⟨there, candidate⟩
      rw [candidates] at sorted last
      rcases List.mem_cons.1 last with same | later
      · cases same
        exact le_refl _
      · exact (List.pairwise_cons.1 sorted).1 _ later

@[simp] theorem withRecoveryWeight_endpoints (key : String) :
    (manager.withRecoveryWeight key).endpoints = manager.endpoints := rfl

@[simp] theorem ensureNonZeroWeight_endpoints :
    manager.ensureNonZeroWeight.endpoints = manager.endpoints := by
  rw [ensureNonZeroWeight_eq]
  cases manager.rescued <;> rfl

@[simp] theorem ensureNonZeroWeight_settings :
    manager.ensureNonZeroWeight.settings = manager.settings := by
  rw [ensureNonZeroWeight_eq]
  cases manager.rescued <;> rfl

theorem find_ensureNonZeroWeight (key : String) :
    manager.ensureNonZeroWeight.runtime.find key =
      (manager.runtime.find key).map fun entry =>
        if manager.rescued = some key then
          { entry with weight := forwardProxyProbeRecoveryWeight }
        else entry := by
  rw [ensureNonZeroWeight_eq]
  cases target : manager.rescued with
  | none => simp
  | some other =>
      by_cases same : key = other
      · subst same
        simp [withRecoveryWeight]
      · simp [withRecoveryWeight, KeyedTable.find_modify_of_ne _ same, Ne.symm same]

/-- The rescue leaves every entry available or not, as it was. -/
theorem available_ensureNonZeroWeight (key : String) :
    (manager.ensureNonZeroWeight.runtime.find key).map ForwardProxyRuntimeState.available =
      (manager.runtime.find key).map ForwardProxyRuntimeState.available := by
  rw [find_ensureNonZeroWeight, Option.map_map]
  congr 1
  funext entry
  simp only [Function.comp_apply]
  split <;> rfl

/-- The rescued entry has a positive weight. -/
theorem hasPositiveWeight_of_rescued {key : String} (target : manager.rescued = some key) :
    manager.ensureNonZeroWeight.hasPositiveWeight = true := by
  obtain ⟨selectable, -, entry, found, -⟩ := rescued_spec target
  refine hasPositiveWeight_iff.2
    ⟨key, { entry with weight := forwardProxyProbeRecoveryWeight }, ?_, ?_, ?_⟩
  · rw [find_ensureNonZeroWeight, found, Option.map_some, if_pos target]
  · rw [mem_selectableEndpointKeys, ensureNonZeroWeight_endpoints, ← mem_selectableEndpointKeys]
    exact selectable
  · norm_num [forwardProxyProbeRecoveryWeight]

/-- A second rescue changes nothing. -/
theorem ensureNonZeroWeight_idem (manager : ForwardProxyManager) :
    manager.ensureNonZeroWeight.ensureNonZeroWeight = manager.ensureNonZeroWeight := by
  have settled : manager.ensureNonZeroWeight.rescued = none := by
    cases target : manager.rescued with
    | none =>
        rw [ensureNonZeroWeight_eq, target]
        exact target
    | some key => rw [rescued, hasPositiveWeight_of_rescued target, if_pos rfl]
  rw [ensureNonZeroWeight_eq, settled]
  rfl

/-! ### The refresh of runtime entries -/

theorem find_refreshRuntime {endpoints : List ForwardProxyEndpoint}
    (distinct : (endpoints.map ForwardProxyEndpoint.key).Nodup)
    (runtime : KeyedTable String ForwardProxyRuntimeState) {e : ForwardProxyEndpoint}
    (member : e ∈ endpoints) :
    (refreshRuntime endpoints runtime).find e.key =
      some ((runtime.find e.key).elim (.defaultForEndpoint e) (.refreshed e)) := by
  apply KeyedTable.find_upsertAll_of_mem
  · simpa [Function.comp_def] using distinct
  · exact List.mem_map.2 ⟨e, member, rfl⟩

/-- After a refresh an endpoint is available when it is selectable. -/
theorem available_refreshRuntime {endpoints : List ForwardProxyEndpoint}
    (distinct : (endpoints.map ForwardProxyEndpoint.key).Nodup)
    (runtime : KeyedTable String ForwardProxyRuntimeState) {e : ForwardProxyEndpoint}
    (member : e ∈ endpoints) :
    ((refreshRuntime endpoints runtime).find e.key).map ForwardProxyRuntimeState.available =
      some e.isSelectable := by
  rw [find_refreshRuntime distinct runtime member]
  cases runtime.find e.key <;> rfl

/-! ### Ranking -/

variable {stableHash : String → UInt64} {subject : String} {exclude : List String}
  {allowDirect : Bool} {limit : Nat}

/-- The endpoints that may be ranked. -/
def Rankable (manager : ForwardProxyManager) (exclude : List String) (allowDirect : Bool)
    (e : ForwardProxyEndpoint) : Prop :=
  e ∈ manager.endpoints ∧ e.isSelectable = true ∧ (allowDirect = true ∨ e.isDirect = false) ∧
    e.key ∉ exclude ∧
    ∃ entry, manager.runtime.find e.key = some entry ∧ entry.available = true

theorem scoredCandidate_eq_some {seed : UInt64} {e e' : ForwardProxyEndpoint} {score : ℚ}
    (candidate : manager.scoredCandidate stableHash seed exclude allowDirect e = some (score, e')) :
    e' = e ∧ e.isSelectable = true ∧ (allowDirect = true ∨ e.isDirect = false) ∧
      e.key ∉ exclude ∧
      ∃ entry, manager.runtime.find e.key = some entry ∧ entry.available = true := by
  unfold scoredCandidate at candidate
  split at candidate
  · rename_i allowed
    obtain ⟨entry, found, same⟩ := Option.bind_eq_some_iff.1 candidate
    split at same
    · rename_i available
      cases same
      obtain ⟨selectable, direct, included⟩ := allowed
      exact ⟨rfl, selectable, by simpa using direct, included, entry, found, available⟩
    · cases same
  · cases candidate

theorem scoredCandidate_of_rankable (stableHash : String → UInt64) (seed : UInt64)
    {e : ForwardProxyEndpoint} (rankable : manager.Rankable exclude allowDirect e) :
    ∃ score, manager.scoredCandidate stableHash seed exclude allowDirect e = some (score, e) := by
  obtain ⟨_, selectable, direct, included, entry, found, available⟩ := rankable
  refine ⟨candidateScore stableHash seed e entry, ?_⟩
  have allowed : allowDirect = true ∨ ¬e.isDirect = true := by simpa using direct
  rw [scoredCandidate, if_pos ⟨selectable, allowed, included⟩, found, Option.bind_some,
    if_pos available]

theorem rankable_of_mem_rankCandidates {e : ForwardProxyEndpoint}
    (member : e ∈ manager.rankCandidatesForSubject stableHash subject exclude allowDirect limit) :
    manager.Rankable exclude allowDirect e := by
  simp only [rankCandidatesForSubject, List.mem_map] at member
  obtain ⟨⟨score, e'⟩, taken, same⟩ := member
  cases same
  have candidate := List.mem_of_mem_take taken
  rw [List.mem_insertionSort, List.mem_filterMap] at candidate
  obtain ⟨e, there, scored⟩ := candidate
  obtain ⟨rfl, selectable, direct, included, available⟩ := scoredCandidate_eq_some scored
  exact ⟨there, selectable, direct, included, available⟩

/-- With a limit no smaller than the number of endpoints all of them are ranked. -/
theorem mem_rankCandidates_iff {e : ForwardProxyEndpoint}
    (large : manager.endpoints.length ≤ limit) :
    e ∈ manager.rankCandidatesForSubject stableHash subject exclude allowDirect limit ↔
      manager.Rankable exclude allowDirect e := by
  constructor
  · exact rankable_of_mem_rankCandidates
  · intro rankable
    simp only [rankCandidatesForSubject, List.mem_map]
    obtain ⟨score, scored⟩ := scoredCandidate_of_rankable stableHash (stableHash subject) rankable
    refine ⟨(score, e), ?_, rfl⟩
    rw [List.take_of_length_le]
    · rw [List.mem_insertionSort, List.mem_filterMap]
      exact ⟨e, rankable.1, scored⟩
    · rw [List.length_insertionSort]
      exact (List.length_filterMap_le _ _).trans (large.trans (Nat.le_max_left _ _))

/-- The ranking is empty only when nothing is rankable, whatever the limit. -/
theorem rankCandidates_ne_nil {e : ForwardProxyEndpoint}
    (rankable : manager.Rankable exclude allowDirect e) :
    manager.rankCandidatesForSubject stableHash subject exclude allowDirect limit ≠ [] := by
  obtain ⟨score, scored⟩ := scoredCandidate_of_rankable stableHash (stableHash subject) rankable
  have member : (score, e) ∈ manager.endpoints.filterMap
      (manager.scoredCandidate stableHash (stableHash subject) exclude allowDirect) :=
    List.mem_filterMap.2 ⟨e, rankable.1, scored⟩
  simp only [rankCandidatesForSubject, ne_eq, List.map_eq_nil_iff, List.take_eq_nil_iff]
  rintro (none | empty)
  · omega
  · rw [← List.length_eq_zero_iff, List.length_insertionSort, List.length_eq_zero_iff] at empty
    rw [empty] at member
    cases member

end ForwardProxyManager

end TavilyHikari.ForwardProxy
