/-
Module: TavilyHikari.Proofs.StrandedEndpoints
Purpose: In which runs of the forward-proxy manager every selectable endpoint is ranked or
  a candidate of the probe, and the failures that strand an endpoint.
Trusted boundary: none
Main exports: NoneStranded, Tracked, KeepsServing, noneStranded_alongRun
-/
import TavilyHikari.ForwardProxy.ManagerSystem
import TavilyHikari.Proofs.ForwardProxyEndpoints
import TavilyHikari.Proofs.ForwardProxyManager

namespace TavilyHikari.ForwardProxy

open Library

namespace ForwardProxyManager

variable {manager : ForwardProxyManager} {parsers : ProxyParsers}

/-- The endpoint is ranked when nothing limits the ranking, or the probe may select it. -/
def Served (stableHash : String → UInt64) (manager : ForwardProxyManager)
    (e : ForwardProxyEndpoint) : Prop :=
  (∀ subject limit, manager.endpoints.length ≤ limit →
      e ∈ manager.rankCandidatesForSubject stableHash subject [] true limit) ∨
    ∃ entry, (e.key, entry) ∈ manager.probeCandidates

/-- Every selectable endpoint is served. -/
def NoneStranded (stableHash : String → UInt64) (manager : ForwardProxyManager) : Prop :=
  ∀ e ∈ manager.endpoints, e.isSelectable = true → manager.Served stableHash e

/-- What a failure may do: take the weight of its endpoint down to 0 or below and, if then no
selectable endpoint has a positive weight, leave the rescue to another one that is
flagged available. -/
def FailureTolerated (manager : ForwardProxyManager) (proxyKey : String)
    (latencyMs : Option ℚ) : Prop :=
  (∀ entry, manager.runtime.find proxyKey = some entry →
      entry.weight ≤ failurePenalty entry.consecutiveFailures) ∧
    ∀ target, (manager.scoreAttempt proxyKey false latencyMs).rescued = some target →
      target ≠ proxyKey ∧
        ∃ entry, manager.runtime.find target = some entry ∧ entry.available = true

/-- The steps that strand nothing: all but the failures of selectable endpoints that are not
tolerated. -/
def KeepsServing (manager : ForwardProxyManager) : ManagerAction → Prop
  | .recordAttempt proxyKey false latencyMs =>
      proxyKey ∈ manager.selectableEndpointKeys → manager.FailureTolerated proxyKey latencyMs
  | _ => True

/-! ### What is tracked of an endpoint -/

/-- The flag of the endpoint is set, or its weight makes it penalized. -/
def Usable (manager : ForwardProxyManager) : Prop :=
  ∀ e ∈ manager.endpoints, e.isSelectable = true →
    ∃ entry, manager.runtime.find e.key = some entry ∧
      (entry.available = true ∨ entry.weight ≤ 0)

/-- Every selectable endpoint is flagged available. -/
def AllFlagged (manager : ForwardProxyManager) : Prop :=
  ∀ e ∈ manager.endpoints, e.isSelectable = true →
    ∃ entry, manager.runtime.find e.key = some entry ∧ entry.available = true

/-- What every operation keeps: one runtime entry for each endpoint, and a rescue is due
only while all flags are set. -/
structure Tracked (manager : ForwardProxyManager) : Prop where
  distinct : (manager.endpoints.map ForwardProxyEndpoint.key).Nodup
  keyed : DirectKeyed manager.endpoints
  present : ∀ e ∈ manager.endpoints, (manager.runtime.find e.key).isSome = true
  settled : manager.hasPositiveWeight = true ∨ manager.AllFlagged

theorem AllFlagged.usable (flagged : manager.AllFlagged) : manager.Usable := by
  intro e member selectable
  obtain ⟨entry, found, available⟩ := flagged e member selectable
  exact ⟨entry, found, Or.inl available⟩

theorem mem_probeCandidates {key : String} {entry : ForwardProxyRuntimeState} :
    (key, entry) ∈ manager.probeCandidates ↔
      manager.runtime.find key = some entry ∧ entry.weight ≤ 0 ∧
        key ∈ manager.selectableEndpointKeys := by
  simp [probeCandidates, KeyedTable.find_eq_some_iff, ForwardProxyRuntimeState.isPenalized]

theorem served_iff {stableHash : String → UInt64} {e : ForwardProxyEndpoint}
    (member : e ∈ manager.endpoints) (selectable : e.isSelectable = true) :
    manager.Served stableHash e ↔ ∃ entry, manager.runtime.find e.key = some entry ∧
      (entry.available = true ∨ entry.weight ≤ 0) := by
  constructor
  · rintro (ranked | ⟨entry, candidate⟩)
    · have rankable := rankable_of_mem_rankCandidates (ranked "" _ le_rfl)
      obtain ⟨_, _, _, _, entry, found, available⟩ := rankable
      exact ⟨entry, found, Or.inl available⟩
    · obtain ⟨found, weight, _⟩ := mem_probeCandidates.1 candidate
      exact ⟨entry, found, Or.inr weight⟩
  · rintro ⟨entry, found, available | weight⟩
    · refine Or.inl fun subject limit large => (mem_rankCandidates_iff large).2 ?_
      exact ⟨member, selectable, Or.inl rfl, by simp, entry, found, available⟩
    · refine Or.inr ⟨entry, mem_probeCandidates.2 ⟨found, weight, ?_⟩⟩
      exact mem_selectableEndpointKeys.2 ⟨e, member, rfl, selectable⟩

theorem noneStranded_iff {stableHash : String → UInt64} :
    manager.NoneStranded stableHash ↔ manager.Usable := by
  constructor
  · intro served e member selectable
    exact (served_iff member selectable).1 (served e member selectable)
  · intro usable e member selectable
    exact (served_iff member selectable).2 (usable e member selectable)

/-! ### Operations that leave endpoints and entries alone -/

/-- Both managers have the same endpoints, and find the same entries. -/
def SameEntries (manager manager' : ForwardProxyManager) : Prop :=
  manager'.endpoints = manager.endpoints ∧
    ∀ key, manager'.runtime.find key = manager.runtime.find key

variable {manager' : ForwardProxyManager}

theorem SameEntries.usable (same : SameEntries manager manager') (usable : manager.Usable) :
    manager'.Usable := by
  obtain ⟨endpoints, entries⟩ := same
  intro e member selectable
  rw [endpoints] at member
  rw [entries]
  exact usable e member selectable

theorem SameEntries.allFlagged (same : SameEntries manager manager')
    (flagged : manager.AllFlagged) : manager'.AllFlagged := by
  obtain ⟨endpoints, entries⟩ := same
  intro e member selectable
  rw [endpoints] at member
  rw [entries]
  exact flagged e member selectable

theorem SameEntries.hasPositiveWeight (same : SameEntries manager manager')
    (positive : manager.hasPositiveWeight = true) : manager'.hasPositiveWeight = true := by
  obtain ⟨endpoints, entries⟩ := same
  obtain ⟨key, entry, found, selectable, weight⟩ := hasPositiveWeight_iff.1 positive
  refine hasPositiveWeight_iff.2 ⟨key, entry, (entries key).trans found, ?_, weight⟩
  rw [mem_selectableEndpointKeys, endpoints, ← mem_selectableEndpointKeys]
  exact selectable

theorem SameEntries.tracked (same : SameEntries manager manager') (tracked : manager.Tracked) :
    manager'.Tracked where
  distinct := by
    rw [same.1]
    exact tracked.distinct
  keyed := by
    rw [same.1]
    exact tracked.keyed
  present := by
    intro e member
    rw [same.1] at member
    rw [same.2]
    exact tracked.present e member
  settled := tracked.settled.imp same.hasPositiveWeight same.allFlagged

theorem sameEntries_rehash {rows : List (String × ForwardProxyRuntimeState)}
    (same : rows.Perm manager.runtime.rows) : SameEntries manager (manager.rehash rows same) := by
  refine ⟨rfl, fun key => ?_⟩
  ext entry
  simp only [KeyedTable.find_eq_some_iff, rehash, same.mem_iff]

/-! ### The rescue -/

/-- After a rescue some selectable endpoint has a positive weight, if there is one at all. -/
theorem settled_ensureNonZeroWeight
    (present : ∀ e ∈ manager.endpoints, (manager.runtime.find e.key).isSome = true) :
    manager.ensureNonZeroWeight.hasPositiveWeight = true ∨
      ∀ e ∈ manager.endpoints, e.isSelectable = false := by
  cases positive : manager.hasPositiveWeight with
  | true =>
      left
      have untouched : manager.ensureNonZeroWeight = manager := by
        simp [ensureNonZeroWeight, positive]
      rw [untouched, positive]
  | false =>
      cases candidates : manager.rescueCandidates with
      | nil =>
          right
          intro e member
          cases selectable : e.isSelectable with
          | false => rfl
          | true =>
              obtain ⟨entry, found⟩ := Option.isSome_iff_exists.1 (present e member)
              have candidate : (e.key, entry) ∈ manager.rescueCandidates :=
                mem_rescueCandidates.2
                  ⟨found, mem_selectableEndpointKeys.2 ⟨e, member, rfl, selectable⟩⟩
              rw [candidates] at candidate
              cases candidate
      | cons row rest =>
          left
          have target : manager.rescued = some row.1 := by
            simp [rescued, positive, candidates]
          exact hasPositiveWeight_of_rescued target

theorem tracked_ensureNonZeroWeight
    (distinct : (manager.endpoints.map ForwardProxyEndpoint.key).Nodup)
    (keyed : DirectKeyed manager.endpoints)
    (present : ∀ e ∈ manager.endpoints, (manager.runtime.find e.key).isSome = true) :
    manager.ensureNonZeroWeight.Tracked where
  distinct := by simpa using distinct
  keyed := by simpa using keyed
  present := by
    intro e member
    rw [ensureNonZeroWeight_endpoints] at member
    rw [find_ensureNonZeroWeight, Option.isSome_map]
    exact present e member
  settled := by
    rcases settled_ensureNonZeroWeight present with positive | unselectable
    · exact Or.inl positive
    · right
      intro e member selectable
      rw [ensureNonZeroWeight_endpoints] at member
      rw [unselectable e member] at selectable
      cases selectable

theorem AllFlagged.ensureNonZeroWeight (flagged : manager.AllFlagged) :
    manager.ensureNonZeroWeight.AllFlagged := by
  intro e member selectable
  rw [ensureNonZeroWeight_endpoints] at member
  obtain ⟨entry, found, available⟩ := flagged e member selectable
  refine ⟨_, by rw [find_ensureNonZeroWeight, found, Option.map_some], ?_⟩
  split
  · exact available
  · exact available

/-- A rescue of a flagged entry strands nothing. -/
theorem Usable.ensureNonZeroWeight (usable : manager.Usable)
    (flagged : ∀ target, manager.rescued = some target →
      ∃ entry, manager.runtime.find target = some entry ∧ entry.available = true) :
    manager.ensureNonZeroWeight.Usable := by
  intro e member selectable
  rw [ensureNonZeroWeight_endpoints] at member
  obtain ⟨entry, found, usable⟩ := usable e member selectable
  rw [find_ensureNonZeroWeight, found, Option.map_some]
  by_cases target : manager.rescued = some e.key
  · obtain ⟨entry', found', available⟩ := flagged e.key target
    rw [found] at found'
    cases found'
    exact ⟨_, rfl, Or.inl (by rw [if_pos target]; exact available)⟩
  · exact ⟨_, rfl, by rw [if_neg target]; exact usable⟩

/-- A rescue that is due only while all flags are set is one of a flagged entry. -/
theorem flagged_of_rescued
    (settled : manager.hasPositiveWeight = true ∨ manager.AllFlagged) {target : String}
    (due : manager.rescued = some target) :
    ∃ entry, manager.runtime.find target = some entry ∧ entry.available = true := by
  obtain ⟨selectable, nonpositive, _⟩ := rescued_spec due
  rcases settled with positive | flagged
  · rw [positive] at nonpositive
    cases nonpositive
  · obtain ⟨e, member, same, reachable⟩ := mem_selectableEndpointKeys.1 selectable
    subst same
    exact flagged e member reachable

/-! ### Rebuilt and synced endpoints -/

/-- After new endpoints are installed everything is tracked and flagged. -/
theorem installed {settings : ForwardProxySettings} {endpoints : List ForwardProxyEndpoint}
    (distinct : (endpoints.map ForwardProxyEndpoint.key).Nodup) (keyed : DirectKeyed endpoints)
    (manager : ForwardProxyManager) (same : manager' = ensureNonZeroWeight
      { manager with settings, endpoints, runtime := refreshRuntime endpoints manager.runtime }) :
    manager'.Tracked ∧ manager'.AllFlagged := by
  subst same
  constructor
  · apply tracked_ensureNonZeroWeight distinct keyed
    intro e member
    rw [find_refreshRuntime distinct _ member]
    rfl
  · apply AllFlagged.ensureNonZeroWeight
    intro e member selectable
    obtain ⟨entry, found, available⟩ :=
      Option.map_eq_some_iff.1 (available_refreshRuntime distinct manager.runtime member)
    exact ⟨entry, found, available.trans selectable⟩

theorem rebuildEndpoints_spec (parsers : ProxyParsers) {subscription : List ForwardProxyEndpoint}
    (indirect : ∀ e ∈ subscription, e.Indirect) (manager : ForwardProxyManager) :
    (rebuildEndpoints parsers subscription manager).Tracked ∧
      (rebuildEndpoints parsers subscription manager).AllFlagged := by
  have rebuilt : ∀ e ∈ rebuiltEndpoints parsers manager.settings subscription, e.Indirect :=
    rebuiltEndpoints_indirect indirect
  obtain ⟨distinct, keyed⟩ := withDirect_spec manager.settings rebuilt
    (nodup_rebuiltEndpoints manager.settings subscription)
  exact installed distinct keyed manager rfl

theorem applyIncrementalSettings_spec (tracked : manager.Tracked) {settings : ForwardProxySettings}
    {manualByKey : List ForwardProxyEndpoint}
    (same : manualByKey.Perm (normalizeProxyEndpointsFromUrls parsers settings.proxyUrls))
    (fetched : List (String × List String)) :
    (manager.applyIncrementalSettings parsers settings manualByKey fetched).Tracked ∧
      (manager.applyIncrementalSettings parsers settings manualByKey fetched).AllFlagged := by
  have manual : ∀ e ∈ manualByKey, e.Indirect := fun e member =>
    (mem_normalizeProxyEndpoints (same.mem_iff.1 member)).1
  have indirect : ∀ e ∈ incrementalEndpoints parsers settings manualByKey fetched
      manager.endpoints, e.Indirect := incrementalEndpoints_indirect tracked.keyed manual
  obtain ⟨distinct, keyed⟩ := withDirect_spec settings indirect
    (nodup_incrementalEndpoints settings manualByKey fetched manager.endpoints)
  exact installed distinct keyed manager rfl

/-- The sync refreshes the entry of every endpoint. -/
theorem find_syncRoutes (tracked : manager.Tracked)
    (route : ForwardProxyEndpoint → Option ProxyUrl) {e : ForwardProxyEndpoint}
    (member : e ∈ (manager.syncRoutes parsers route).endpoints) :
    ∃ entry, manager.runtime.find e.key = some entry ∧
      (manager.syncRoutes parsers route).runtime.find e.key = some (entry.refreshed e) := by
  have key : e.key ∈ manager.endpoints.map ForwardProxyEndpoint.key := by
    rw [← keys_syncEndpoints]
    exact List.mem_map_of_mem member
  obtain ⟨old, there, same⟩ := List.mem_map.1 key
  obtain ⟨entry, found⟩ := Option.isSome_iff_exists.1 (tracked.present old there)
  rw [same] at found
  refine ⟨entry, found, ?_⟩
  have distinct : (((manager.syncRoutes parsers route).endpoints.map fun endpoint =>
      (endpoint.key, endpoint)).map Prod.fst).Nodup := by
    rw [List.map_map]
    have keys : ((manager.syncRoutes parsers route).endpoints.map ForwardProxyEndpoint.key).Nodup :=
      by simpa [syncRoutes] using tracked.distinct
    exact keys
  have refreshed := manager.runtime.find_modifyAll_of_mem ForwardProxyRuntimeState.refreshed
    distinct (List.mem_map.2 ⟨e, member, rfl⟩)
  rw [found] at refreshed
  exact refreshed

theorem syncRoutes_spec (parsers : ProxyParsers) (tracked : manager.Tracked)
    (route : ForwardProxyEndpoint → Option ProxyUrl) :
    (manager.syncRoutes parsers route).Tracked ∧ (manager.syncRoutes parsers route).AllFlagged := by
  have flagged : (manager.syncRoutes parsers route).AllFlagged := by
    intro e member selectable
    obtain ⟨entry, _, found⟩ := find_syncRoutes tracked route member
    exact ⟨entry.refreshed e, found, selectable⟩
  refine ⟨⟨?_, ?_, ?_, Or.inr flagged⟩, flagged⟩
  · simpa [syncRoutes] using tracked.distinct
  · exact tracked.keyed.syncEndpoints
  · intro e member
    obtain ⟨entry, _, found⟩ := find_syncRoutes tracked route member
    rw [found]
    rfl

/-! ### Attempts -/

theorem recordSuccess_spec (latencyMs : Option ℚ) (entry : ForwardProxyRuntimeState) :
    (recordSuccess latencyMs entry).available = true ∧
      0 < (recordSuccess latencyMs entry).weight := by
  refine ⟨rfl, ?_⟩
  unfold recordSuccess
  simp only
  generalize clampWeight _ = recovered
  split
  · exact lt_max_of_lt_right (by norm_num [forwardProxyWeightRecovery])
  · rename_i large
    have recovery : 0 < forwardProxyWeightRecovery := by norm_num [forwardProxyWeightRecovery]
    exact recovery.trans_le (not_lt.1 large)

theorem clampWeight_nonpos_iff (weight : ℚ) : clampWeight weight ≤ 0 ↔ weight ≤ 0 := by
  unfold clampWeight forwardProxyWeightMin forwardProxyWeightMax
  constructor
  · intro small
    have bounded := (max_le_iff.1 small).2
    rcases min_le_iff.1 bounded with below | above
    · exact below
    · norm_num at above
  · intro small
    exact max_le (by norm_num) (min_le_of_left_le small)

theorem recordFailure_spec (latencyMs : Option ℚ) (entry : ForwardProxyRuntimeState) :
    (recordFailure latencyMs entry).available = false ∧
      ((recordFailure latencyMs entry).weight ≤ 0 ↔
        entry.weight ≤ failurePenalty entry.consecutiveFailures) :=
  ⟨rfl, (clampWeight_nonpos_iff _).trans sub_nonpos⟩

@[simp] theorem scoreAttempt_endpoints (proxyKey : String) (success : Bool)
    (latencyMs : Option ℚ) :
    (manager.scoreAttempt proxyKey success latencyMs).endpoints = manager.endpoints := rfl

theorem find_scoreAttempt (proxyKey : String) (success : Bool) (latencyMs : Option ℚ)
    (key : String) :
    (manager.scoreAttempt proxyKey success latencyMs).runtime.find key =
      (manager.runtime.find key).map fun entry =>
        if key = proxyKey then recordOutcome success latencyMs entry else entry := by
  by_cases same : key = proxyKey
  · subst same
    simp [scoreAttempt]
  · simp [scoreAttempt, KeyedTable.find_modify_of_ne _ same, same]

theorem Tracked.ensure_scoreAttempt (tracked : manager.Tracked) (proxyKey : String)
    (success : Bool) (latencyMs : Option ℚ) :
    (manager.scoreAttempt proxyKey success latencyMs).ensureNonZeroWeight.Tracked := by
  refine tracked_ensureNonZeroWeight tracked.distinct tracked.keyed ?_
  intro e member
  rw [find_scoreAttempt, Option.isSome_map]
  exact tracked.present e member

/-- An attempt on an endpoint is scored, and then the rescue is made. -/
theorem recordAttempt_eq (tracked : manager.Tracked) {proxyKey : String} {success : Bool}
    {latencyMs : Option ℚ} (known : ∃ e ∈ manager.endpoints, e.key = proxyKey) :
    manager.recordAttempt proxyKey success latencyMs =
      (manager.scoreAttempt proxyKey success latencyMs).ensureNonZeroWeight := by
  obtain ⟨e, member, same⟩ := known
  have found : (manager.endpoint proxyKey).isSome = true := by
    rw [endpoint, List.find?_isSome]
    exact ⟨e, member, by simpa using same⟩
  have present : (manager.runtime.find proxyKey).isSome = true := by
    rw [← same]
    exact tracked.present e member
  rw [recordAttempt, if_pos ⟨found, present⟩]

theorem recordAttempt_unknown {proxyKey : String} {success : Bool} {latencyMs : Option ℚ}
    (unknown : ¬∃ e ∈ manager.endpoints, e.key = proxyKey) :
    manager.recordAttempt proxyKey success latencyMs = manager := by
  have missing : ¬(manager.endpoint proxyKey).isSome = true := by
    rw [endpoint, List.find?_isSome]
    rintro ⟨e, member, same⟩
    exact unknown ⟨e, member, by simpa using same⟩
  rw [recordAttempt, if_neg fun both => missing both.1]

/-- Scoring keeps what it does not touch: a property of the entries of selectable endpoints
that the outcome gives back to its own entry. -/
theorem forall_scoreAttempt {P : ForwardProxyRuntimeState → Prop}
    (holds : ∀ e ∈ manager.endpoints, e.isSelectable = true →
      ∃ entry, manager.runtime.find e.key = some entry ∧ P entry)
    {proxyKey : String} {success : Bool} {latencyMs : Option ℚ}
    (kept : ∀ e ∈ manager.endpoints, e.isSelectable = true → e.key = proxyKey →
      ∀ entry, manager.runtime.find proxyKey = some entry → P entry →
        P (recordOutcome success latencyMs entry)) :
    ∀ e ∈ (manager.scoreAttempt proxyKey success latencyMs).endpoints, e.isSelectable = true →
      ∃ entry, (manager.scoreAttempt proxyKey success latencyMs).runtime.find e.key =
        some entry ∧ P entry := by
  intro e member selectable
  obtain ⟨entry, found, property⟩ := holds e member selectable
  rw [find_scoreAttempt, found, Option.map_some]
  by_cases same : e.key = proxyKey
  · refine ⟨_, rfl, ?_⟩
    rw [if_pos same]
    exact kept e member selectable same entry (same ▸ found) property
  · refine ⟨_, rfl, ?_⟩
    rw [if_neg same]
    exact property

/-- A success keeps every endpoint served. -/
theorem recordSuccess_keeps (tracked : manager.Tracked) (usable : manager.Usable)
    {proxyKey : String} (latencyMs : Option ℚ) (known : ∃ e ∈ manager.endpoints, e.key = proxyKey) :
    (manager.recordAttempt proxyKey true latencyMs).Usable := by
  rw [recordAttempt_eq tracked known]
  apply Usable.ensureNonZeroWeight
  · apply forall_scoreAttempt usable
    exact fun _ _ _ _ entry _ _ => Or.inl (recordSuccess_spec latencyMs entry).1
  · refine fun target => flagged_of_rescued ?_
    rcases tracked.settled with positive | flagged
    · left
      obtain ⟨key, entry, found, selectable, weight⟩ := hasPositiveWeight_iff.1 positive
      refine hasPositiveWeight_iff.2
        ⟨key, _, by rw [find_scoreAttempt, found, Option.map_some], selectable, ?_⟩
      split
      · exact (recordSuccess_spec latencyMs entry).2
      · exact weight
    · right
      apply forall_scoreAttempt flagged
      exact fun _ _ _ _ entry _ _ => (recordSuccess_spec latencyMs entry).1

/-- A failure of an endpoint that is not selectable strands nothing. -/
theorem recordFailure_keeps_of_unselectable (tracked : manager.Tracked) (usable : manager.Usable)
    {proxyKey : String} (latencyMs : Option ℚ) (known : ∃ e ∈ manager.endpoints, e.key = proxyKey)
    (unselectable : proxyKey ∉ manager.selectableEndpointKeys) :
    (manager.recordAttempt proxyKey false latencyMs).Usable := by
  have other : ∀ e ∈ manager.endpoints, e.isSelectable = true → e.key ≠ proxyKey := by
    rintro e member selectable rfl
    exact unselectable (mem_selectableEndpointKeys.2 ⟨e, member, rfl, selectable⟩)
  rw [recordAttempt_eq tracked known]
  apply Usable.ensureNonZeroWeight
  · apply forall_scoreAttempt usable
    exact fun e member selectable same => absurd same (other e member selectable)
  · refine fun target => flagged_of_rescued ?_
    rcases tracked.settled with positive | flagged
    · left
      obtain ⟨key, entry, found, selectable, weight⟩ := hasPositiveWeight_iff.1 positive
      have apart : key ≠ proxyKey := by
        rintro rfl
        exact unselectable selectable
      refine hasPositiveWeight_iff.2
        ⟨key, _, by rw [find_scoreAttempt, found, Option.map_some], selectable, ?_⟩
      rw [if_neg apart]
      exact weight
    · right
      apply forall_scoreAttempt flagged
      exact fun e member selectable same => absurd same (other e member selectable)

/-- A tolerated failure strands nothing. -/
theorem recordFailure_keeps (tracked : manager.Tracked) (usable : manager.Usable)
    {proxyKey : String} {latencyMs : Option ℚ} (known : ∃ e ∈ manager.endpoints, e.key = proxyKey)
    (tolerated : manager.FailureTolerated proxyKey latencyMs) :
    (manager.recordAttempt proxyKey false latencyMs).Usable := by
  obtain ⟨penalized, rescue⟩ := tolerated
  rw [recordAttempt_eq tracked known]
  apply Usable.ensureNonZeroWeight
  · apply forall_scoreAttempt usable
    exact fun _ _ _ _ entry found _ =>
      Or.inr ((recordFailure_spec latencyMs entry).2.2 (penalized entry found))
  · intro target due
    obtain ⟨apart, entry, found, available⟩ := rescue target due
    refine ⟨entry, ?_, available⟩
    rw [find_scoreAttempt, found, Option.map_some, if_neg apart]

/-- A failure of a selectable endpoint that strands nothing is a tolerated one. -/
theorem tolerated_of_usable (tracked : manager.Tracked) {proxyKey : String}
    {latencyMs : Option ℚ} (selectable : proxyKey ∈ manager.selectableEndpointKeys)
    (usable : (manager.recordAttempt proxyKey false latencyMs).Usable) :
    manager.FailureTolerated proxyKey latencyMs := by
  obtain ⟨e, member, same, reachable⟩ := mem_selectableEndpointKeys.1 selectable
  rw [recordAttempt_eq tracked ⟨e, member, same⟩] at usable
  constructor
  · intro entry found
    by_contra heavy
    -- The failed entry keeps a positive weight, so that no rescue is due.
    have failed : (manager.scoreAttempt proxyKey false latencyMs).runtime.find proxyKey =
        some (recordFailure latencyMs entry) := by
      rw [find_scoreAttempt, found, Option.map_some, if_pos rfl]
      rfl
    have weight : 0 < (recordFailure latencyMs entry).weight := by
      rw [← not_le, (recordFailure_spec latencyMs entry).2]
      exact heavy
    have positive : (manager.scoreAttempt proxyKey false latencyMs).hasPositiveWeight = true :=
      hasPositiveWeight_iff.2 ⟨proxyKey, _, failed, selectable, weight⟩
    have untouched : (manager.scoreAttempt proxyKey false latencyMs).ensureNonZeroWeight =
        manager.scoreAttempt proxyKey false latencyMs := by
      simp [ensureNonZeroWeight, positive]
    rw [untouched] at usable
    obtain ⟨entry', found', served⟩ := usable e member reachable
    rw [same, failed] at found'
    cases found'
    rcases served with available | small
    · rw [(recordFailure_spec latencyMs entry).1] at available
      cases available
    · exact absurd weight (not_lt.2 small)
  · intro target due
    obtain ⟨reached, _, scored, found, _⟩ := rescued_spec due
    obtain ⟨e', member', same', reachable'⟩ := mem_selectableEndpointKeys.1 reached
    obtain ⟨entry', found', served⟩ :=
      usable e' (by rw [ensureNonZeroWeight_endpoints]; exact member') reachable'
    rw [same', find_ensureNonZeroWeight, found, Option.map_some, if_pos due] at found'
    cases found'
    have available : scored.available = true := by
      rcases served with available | small
      · exact available
      · norm_num [forwardProxyProbeRecoveryWeight] at small
    rw [find_scoreAttempt] at found
    obtain ⟨entry, there, outcome⟩ := Option.map_eq_some_iff.1 found
    by_cases own : target = proxyKey
    · rw [if_pos own] at outcome
      subst outcome
      cases available
    · rw [if_neg own] at outcome
      subst outcome
      exact ⟨own, entry, there, available⟩

/-! ### Steps -/

theorem Tracked.recordAttempt (tracked : manager.Tracked) (proxyKey : String) (success : Bool)
    (latencyMs : Option ℚ) : (manager.recordAttempt proxyKey success latencyMs).Tracked := by
  by_cases known : ∃ e ∈ manager.endpoints, e.key = proxyKey
  · rw [recordAttempt_eq tracked known]
    exact tracked.ensure_scoreAttempt proxyKey success latencyMs
  · rw [recordAttempt_unknown known]
    exact tracked

theorem usable_recordAttempt (tracked : manager.Tracked) (usable : manager.Usable)
    {proxyKey : String} {success : Bool} {latencyMs : Option ℚ}
    (keeps : manager.KeepsServing (.recordAttempt proxyKey success latencyMs)) :
    (manager.recordAttempt proxyKey success latencyMs).Usable := by
  by_cases known : ∃ e ∈ manager.endpoints, e.key = proxyKey
  · cases success with
    | true => exact recordSuccess_keeps tracked usable latencyMs known
    | false =>
        by_cases selectable : proxyKey ∈ manager.selectableEndpointKeys
        · exact recordFailure_keeps tracked usable known (keeps selectable)
        · exact recordFailure_keeps_of_unselectable tracked usable latencyMs known selectable
  · rw [recordAttempt_unknown known]
    exact usable

/-- A probe start changes neither endpoints nor entries. -/
theorem sameEntries_markProbeStarted {now : Int} {selected : ForwardProxyEndpoint}
    (started : manager.markProbeStarted now = some (selected, manager')) :
    SameEntries manager manager' := by
  unfold markProbeStarted at started
  split at started
  · obtain ⟨_, _, same⟩ := Option.map_eq_some_iff.1 started
    cases same
    exact ⟨rfl, fun _ => rfl⟩
  · cases started

/-- What is tracked stays so over every step, and over one that keeps serving no endpoint
is stranded. -/
theorem step_keeps (tracked : manager.Tracked) (usable : manager.Usable) {action : ManagerAction}
    (keeps : manager.KeepsServing action) (taken : step parsers manager action = some manager') :
    manager'.Tracked ∧ manager'.Usable := by
  have of_same : SameEntries manager manager' → manager'.Tracked ∧ manager'.Usable :=
    fun same => ⟨same.tracked tracked, same.usable usable⟩
  cases action with
  | applySettings settings =>
      cases taken
      have indirect : ∀ e ∈ ([] : List ForwardProxyEndpoint), e.Indirect := fun e none => by cases none
      have spec := rebuildEndpoints_spec parsers indirect (manager.updateSettingsOnly settings)
      exact ⟨spec.1, spec.2.usable⟩
  | updateSettingsOnly settings =>
      cases taken
      exact of_same ⟨rfl, fun _ => rfl⟩
  | applyIncrementalSettings settings manualByKey fetched =>
      simp only [step] at taken
      split at taken
      · rename_i same
        cases taken
        have spec := applyIncrementalSettings_spec tracked same fetched
        exact ⟨spec.1, spec.2.usable⟩
      · cases taken
  | applySubscriptionRefresh fetched =>
      cases taken
      have indirect : ∀ e ∈ subscriptionEndpoints parsers fetched, e.Indirect :=
        fun e member => (mem_subscriptionEndpoints member).1
      have spec := rebuildEndpoints_spec parsers indirect manager
      exact ⟨spec.1, spec.2.usable⟩
  | syncRoutes route =>
      cases taken
      have spec := syncRoutes_spec parsers tracked route
      exact ⟨spec.1, spec.2.usable⟩
  | recordAttempt proxyKey success latencyMs =>
      cases taken
      exact ⟨tracked.recordAttempt proxyKey success latencyMs,
        usable_recordAttempt tracked usable keeps⟩
  | ensureNonZeroWeight =>
      cases taken
      exact ⟨tracked_ensureNonZeroWeight tracked.distinct tracked.keyed tracked.present,
        usable.ensureNonZeroWeight fun target => flagged_of_rescued tracked.settled⟩
  | noteRequest =>
      cases taken
      exact of_same ⟨rfl, fun _ => rfl⟩
  | markProbeStarted now =>
      obtain ⟨⟨selected, next⟩, started, same⟩ := Option.map_eq_some_iff.1 taken
      cases same
      exact of_same (sameEntries_markProbeStarted started)
  | markProbeFinished now =>
      cases taken
      exact of_same ⟨rfl, fun _ => rfl⟩
  | rehash rows =>
      simp only [step] at taken
      split at taken
      · rename_i same
        cases taken
        exact of_same (sameEntries_rehash same)
      · cases taken

/-- A step after which every endpoint is served was one that keeps serving. -/
theorem keepsServing_of_step (tracked : manager.Tracked) {action : ManagerAction}
    (taken : step parsers manager action = some manager') (usable : manager'.Usable) :
    manager.KeepsServing action := by
  cases action with
  | recordAttempt proxyKey success latencyMs =>
      cases success with
      | true => trivial
      | false =>
          cases taken
          exact fun selectable => tolerated_of_usable tracked selectable usable
  | _ => trivial

/-! ### Cancelled probes -/

/-- While a probe is in flight none is started. -/
theorem markProbeStarted_of_inFlight (flight : manager.probeInFlight = true) (now : Int) :
    manager.markProbeStarted now = none := by
  simp [markProbeStarted, shouldProbePenalizedProxy, flight]

@[simp] theorem ensureNonZeroWeight_probeInFlight :
    manager.ensureNonZeroWeight.probeInFlight = manager.probeInFlight := by
  rw [ensureNonZeroWeight_eq]
  cases manager.rescued <;> rfl

/-- A probe that is cancelled stays in flight, and no other is started, until one is marked
as finished. -/
theorem probeInFlight_alongRun (parsers : ProxyParsers) (flight : manager.probeInFlight = true)
    {actions : List ManagerAction}
    (unfinished : (managerSystem parsers).Guarded
      (fun _ action => ∀ now, action ≠ .markProbeFinished now) manager actions) :
    (managerSystem parsers).AlongRun
      (fun manager => manager.probeInFlight = true ∧ ∀ now, manager.markProbeStarted now = none)
      manager actions := by
  have preserved : ∀ manager action manager', manager.probeInFlight = true →
      (∀ now, action ≠ ManagerAction.markProbeFinished now) →
      (managerSystem parsers).step manager action = some manager' →
      manager'.probeInFlight = true := by
    intro manager action manager' flight pending taken
    cases action with
    | markProbeFinished now => exact absurd rfl (pending now)
    | markProbeStarted now =>
        rw [show (managerSystem parsers).step manager (.markProbeStarted now) =
          (manager.markProbeStarted now).map Prod.snd from rfl,
          markProbeStarted_of_inFlight flight] at taken
        cases taken
    | recordAttempt proxyKey success latencyMs =>
        cases taken
        unfold recordAttempt
        split
        · rw [ensureNonZeroWeight_probeInFlight]
          exact flight
        · exact flight
    | applyIncrementalSettings settings manualByKey fetched =>
        simp only [managerSystem, step] at taken
        split at taken
        · cases taken
          simpa [applyIncrementalSettings] using flight
        · cases taken
    | rehash rows =>
        simp only [managerSystem, step] at taken
        split at taken
        · cases taken
          exact flight
        · cases taken
    | _ =>
        cases taken
        simpa [rebuildEndpoints, applySubscriptionRefresh, updateSettingsOnly, syncRoutes,
          noteRequest] using flight
  exact (TransitionSystem.alongRun_of_guarded _ preserved flight unfinished).mono _
    fun manager flight => ⟨flight, markProbeStarted_of_inFlight flight⟩

/-! ### Runs -/

/-- Every selectable endpoint is ranked or a candidate of the probe along a run exactly when
every failure of a selectable endpoint in it is tolerated. That the candidate is probed is another
matter: from a probe that is cancelled on, none is, until one is marked as finished. -/
theorem noneStranded_alongRun (parsers : ProxyParsers) (stableHash : String → UInt64)
    (settings : ForwardProxySettings) (runtimeRows : List (String × ForwardProxyRuntimeState))
    (now : Int) (actions : List ManagerAction) :
    ((managerSystem parsers).AlongRun (NoneStranded stableHash)
        (new parsers settings runtimeRows now) actions ↔
      (managerSystem parsers).Guarded KeepsServing (new parsers settings runtimeRows now)
        actions) ∧
    ∀ (manager : ForwardProxyManager) (later : List ManagerAction),
      (managerSystem parsers).run (new parsers settings runtimeRows now) actions = some manager →
      manager.probeInFlight = true →
      (managerSystem parsers).Guarded (fun _ action => ∀ now, action ≠ .markProbeFinished now)
        manager later →
      (managerSystem parsers).AlongRun
        (fun manager => manager.probeInFlight = true ∧
          ∀ now, manager.markProbeStarted now = none) manager later := by
  refine ⟨?_, fun manager later _ flight unfinished =>
    probeInFlight_alongRun parsers flight unfinished⟩
  have indirect : ∀ e ∈ ([] : List ForwardProxyEndpoint), e.Indirect := fun e none => by cases none
  have spec : (new parsers settings runtimeRows now).Tracked ∧
      (new parsers settings runtimeRows now).AllFlagged := rebuildEndpoints_spec parsers indirect _
  apply TransitionSystem.alongRun_iff_guarded (managerSystem parsers)
  · exact fun manager action manager' (inv : manager.Tracked ∧ manager.Usable) keeps taken =>
      step_keeps inv.1 inv.2 keeps taken
  · exact fun manager inv => noneStranded_iff.2 inv.2
  · exact fun manager action manager' inv taken served =>
      keepsServing_of_step inv.1 taken (noneStranded_iff.1 served)
  · exact ⟨spec.1, spec.2.usable⟩

/-- No text is an entry. -/
def rejectingParsers : ProxyParsers where
  parseUrl := fun _ => none
  parseVmessShareLink := fun _ => false
  parseShadowsocksShareLink := fun _ => false

def directOnlySettings : ForwardProxySettings where
  proxyUrls := []
  subscriptionUrls := []
  insertDirect := true
  egressSocks5Enabled := false
  egressSocks5Url := ""

/-- The first failure of the direct endpoint takes its flag and leaves it a weight of 0.1: it
is neither ranked nor probed. -/
theorem directEndpoint_stranded :
    ¬(managerSystem rejectingParsers).AlongRun (NoneStranded fun _ => 0)
      (new rejectingParsers directOnlySettings [] 0)
      [.recordAttempt forwardProxyDirectKey false none] := by
  intro along
  have usable := noneStranded_iff.1 (along.2 _ rfl)
  obtain ⟨entry, found, served⟩ := usable .direct (by decide +kernel) rfl
  have failed : ((new rejectingParsers directOnlySettings [] 0).recordAttempt
      forwardProxyDirectKey false none).runtime.find forwardProxyDirectKey =
        some ⟨false, 1 / 10, 585 / 1000, none, 1⟩ := by decide +kernel
  cases failed.symm.trans found
  rcases served with available | weight
  · cases available
  · norm_num at weight

end ForwardProxyManager

end TavilyHikari.ForwardProxy
