/-
Module: TavilyHikari.Proofs.AttemptPlan
Purpose: What the plan of a request contains and in which order, and which of the candidates it
  leaves out: those that a slot of the affinity record names and that are not usable.
Trusted boundary: none
Main exports: InRange, attemptPlan_of_build
-/
import Mathlib.Algebra.Order.Field.Basic
import Mathlib.Tactic.Linarith
import Mathlib.Tactic.Positivity
import TavilyHikari.ForwardProxy.AttemptPlan
import TavilyHikari.Proofs.ProxyAffinity
import TavilyHikari.Proofs.StrandedEndpoints

namespace TavilyHikari.ForwardProxy

open Library

/-! ### The range of the runtime values -/

/-- The values that the scoring keeps a runtime entry in. -/
structure ForwardProxyRuntimeState.InRange (runtime : ForwardProxyRuntimeState) : Prop where
  weight : forwardProxyWeightMin ≤ runtime.weight ∧ runtime.weight ≤ forwardProxyWeightMax
  successEma : 0 ≤ runtime.successEma ∧ runtime.successEma ≤ 1
  latencyEmaMs : ∀ latency, runtime.latencyEmaMs = some latency → 0 ≤ latency

namespace ForwardProxyRuntimeState

variable {runtime : ForwardProxyRuntimeState}

theorem clampWeight_bounds (weight : ℚ) :
    forwardProxyWeightMin ≤ clampWeight weight ∧ clampWeight weight ≤ forwardProxyWeightMax := by
  have apart : forwardProxyWeightMin ≤ forwardProxyWeightMax := by
    norm_num [forwardProxyWeightMin, forwardProxyWeightMax]
  exact ⟨le_max_left _ _, max_le apart (min_le_right _ _)⟩

theorem inRange_fromRow (row : ForwardProxyRuntimeRow) : (fromRow row).InRange where
  weight := clampWeight_bounds row.weight
  successEma := ⟨le_max_left _ _, max_le zero_le_one (min_le_right _ _)⟩
  latencyEmaMs := by
    intro latency known
    exact of_decide_eq_true (Option.filter_eq_some_iff.1 known).2

theorem inRange_defaultForEndpoint (endpoint : ForwardProxyEndpoint) :
    (defaultForEndpoint endpoint).InRange where
  weight := by
    change forwardProxyWeightMin ≤ (if endpoint.key = forwardProxyDirectKey then 1 else 8 / 10) ∧
      (if endpoint.key = forwardProxyDirectKey then 1 else 8 / 10) ≤ forwardProxyWeightMax
    split
    · norm_num [forwardProxyWeightMin, forwardProxyWeightMax]
    · norm_num [forwardProxyWeightMin, forwardProxyWeightMax]
  successEma := by norm_num [defaultForEndpoint]
  latencyEmaMs := by
    intro latency known
    cases known

theorem InRange.refreshed (inRange : runtime.InRange) (endpoint : ForwardProxyEndpoint) :
    (runtime.refreshed endpoint).InRange :=
  ⟨inRange.weight, inRange.successEma, inRange.latencyEmaMs⟩

theorem InRange.withRecoveryWeight (inRange : runtime.InRange) :
    ({ runtime with weight := forwardProxyProbeRecoveryWeight } : ForwardProxyRuntimeState).InRange
    where
  weight := by
    norm_num [forwardProxyWeightMin, forwardProxyWeightMax, forwardProxyProbeRecoveryWeight]
  successEma := inRange.successEma
  latencyEmaMs := inRange.latencyEmaMs

/-- The averages stay between what they were and what is observed. -/
theorem InRange.updateRuntimeEma (inRange : runtime.InRange) (success : Bool)
    (latencyMs : Option ℚ) : (updateRuntimeEma success latencyMs runtime).InRange where
  weight := inRange.weight
  successEma := by
    obtain ⟨lower, upper⟩ := inRange.successEma
    change 0 ≤ runtime.successEma * (9 / 10) + (if success then 1 / 10 else 0) ∧
      runtime.successEma * (9 / 10) + (if success then 1 / 10 else 0) ≤ 1
    split
    · constructor
      · linarith
      · linarith
    · constructor
      · linarith
      · linarith
  latencyEmaMs := by
    intro latency known
    unfold ForwardProxy.updateRuntimeEma at known
    simp only at known
    split at known
    · exact inRange.latencyEmaMs latency known
    · rename_i observed counted
      have nonneg : 0 ≤ observed := of_decide_eq_true (Option.filter_eq_some_iff.1 counted).2
      cases known
      cases before : runtime.latencyEmaMs with
      | none => exact nonneg
      | some previous =>
          have old := inRange.latencyEmaMs previous before
          rw [Option.elim_some]
          positivity

theorem InRange.recordOutcome (inRange : runtime.InRange) (success : Bool)
    (latencyMs : Option ℚ) :
    (ForwardProxyManager.recordOutcome success latencyMs runtime).InRange := by
  have updated := inRange.updateRuntimeEma success latencyMs
  cases success with
  | false =>
      exact ⟨clampWeight_bounds _, updated.successEma, updated.latencyEmaMs⟩
  | true =>
      refine ⟨?_, updated.successEma, updated.latencyEmaMs⟩
      let rewarded := runtime.weight + (forwardProxyWeightSuccessBonus -
        latencyPenalty (ForwardProxy.updateRuntimeEma true latencyMs runtime))
      let recovered :=
        clampWeight (if rewarded ≤ 0 then forwardProxyProbeRecoveryWeight else rewarded)
      have bounds : forwardProxyWeightMin ≤ recovered ∧ recovered ≤ forwardProxyWeightMax :=
        clampWeight_bounds _
      change forwardProxyWeightMin ≤ (if recovered < forwardProxyWeightRecovery then
          max recovered (forwardProxyWeightRecovery * (5 / 10)) else recovered) ∧
        (if recovered < forwardProxyWeightRecovery then
          max recovered (forwardProxyWeightRecovery * (5 / 10)) else recovered) ≤
            forwardProxyWeightMax
      split
      · refine ⟨le_max_of_le_left bounds.1, max_le bounds.2 ?_⟩
        norm_num [forwardProxyWeightRecovery, forwardProxyWeightMax]
      · exact bounds

end ForwardProxyRuntimeState

namespace ForwardProxyManager

variable {env : AffinityEnvironment} {call : GeoCall} {manager : ForwardProxyManager}
  {subject : String} {record : ForwardProxyAffinityRecord}
  {registrationIp registrationRegion : Option String} {exclude : List String} {limit : Nat}
  {allowDirect : Bool}

def InRange (manager : ForwardProxyManager) : Prop :=
  ∀ key runtime, manager.runtime.find key = some runtime → runtime.InRange

theorem InRange.ensureNonZeroWeight (inRange : manager.InRange) :
    manager.ensureNonZeroWeight.InRange := by
  intro key runtime found
  rw [find_ensureNonZeroWeight, Option.map_eq_some_iff] at found
  obtain ⟨old, there, rfl⟩ := found
  have before := inRange key old there
  split
  · exact before.withRecoveryWeight
  · exact before

theorem InRange.refreshRuntime (inRange : manager.InRange)
    (endpoints : List ForwardProxyEndpoint) :
    ∀ key runtime, (refreshRuntime endpoints manager.runtime).find key = some runtime →
      runtime.InRange := by
  apply KeyedTable.forall_upsertAll inRange
  · intro entry _
    exact ForwardProxyRuntimeState.inRange_defaultForEndpoint entry.2
  · intro entry _ runtime before
    exact before.refreshed entry.2

theorem InRange.rebuildEndpoints (inRange : manager.InRange) (parsers : ProxyParsers)
    (subscription : List ForwardProxyEndpoint) :
    (rebuildEndpoints parsers subscription manager).InRange :=
  InRange.ensureNonZeroWeight (inRange.refreshRuntime _)

/-- Stored rows are clamped when they are loaded. -/
theorem inRange_new (parsers : ProxyParsers) (settings : ForwardProxySettings)
    (rows : List (String × ForwardProxyRuntimeRow)) (now : Int) :
    (new parsers settings (rows.map fun row => (row.1, .fromRow row.2)) now).InRange := by
  apply InRange.rebuildEndpoints
  apply KeyedTable.forall_upsertAll
  · intro key runtime found
    cases found
  · intro entry member
    obtain ⟨row, _, rfl⟩ := List.mem_map.1 member
    exact ForwardProxyRuntimeState.inRange_fromRow row.2
  · intro entry member _ _
    obtain ⟨row, _, rfl⟩ := List.mem_map.1 member
    exact ForwardProxyRuntimeState.inRange_fromRow row.2

theorem InRange.recordAttempt (inRange : manager.InRange) (proxyKey : String) (success : Bool)
    (latencyMs : Option ℚ) : (manager.recordAttempt proxyKey success latencyMs).InRange := by
  unfold ForwardProxyManager.recordAttempt
  split
  · apply InRange.ensureNonZeroWeight
    apply KeyedTable.forall_modify inRange
    intro runtime before
    exact before.recordOutcome success latencyMs
  · exact inRange

theorem InRange.step {parsers : ProxyParsers} {action : ManagerAction}
    {manager' : ForwardProxyManager} (inRange : manager.InRange)
    (taken : manager.step parsers action = some manager') : manager'.InRange := by
  cases action with
  | applySettings settings =>
      cases taken
      have before : (manager.updateSettingsOnly settings).InRange := inRange
      exact before.rebuildEndpoints parsers []
  | updateSettingsOnly settings =>
      cases taken
      exact inRange
  | applyIncrementalSettings settings manualByKey fetched =>
      obtain ⟨_, same⟩ := Option.ite_none_right_eq_some.1 taken
      cases same
      exact InRange.ensureNonZeroWeight (inRange.refreshRuntime _)
  | applySubscriptionRefresh fetched =>
      cases taken
      exact InRange.rebuildEndpoints inRange parsers _
  | syncRoutes route =>
      cases taken
      apply KeyedTable.forall_modifyAll inRange
      intro entry _ runtime before
      exact before.refreshed entry.2
  | recordAttempt proxyKey success latencyMs =>
      cases taken
      exact inRange.recordAttempt proxyKey success latencyMs
  | ensureNonZeroWeight =>
      cases taken
      exact inRange.ensureNonZeroWeight
  | noteRequest =>
      cases taken
      exact inRange
  | markProbeStarted now =>
      obtain ⟨⟨selected, marked⟩, started, rfl⟩ := Option.map_eq_some_iff.1 taken
      obtain ⟨_, chosen⟩ := Option.ite_none_right_eq_some.1 started
      obtain ⟨_, _, same⟩ := Option.map_eq_some_iff.1 chosen
      cases same
      exact inRange
  | markProbeFinished now =>
      cases taken
      exact inRange
  | rehash rows =>
      unfold ForwardProxyManager.step at taken
      simp only at taken
      split at taken
      · rename_i same
        cases taken
        intro key runtime found
        rw [(sameEntries_rehash same).2] at found
        exact inRange key runtime found
      · cases taken

/-- Whatever happens to the manager, its runtime values stay in their ranges. -/
theorem inRange_alongRun (parsers : ProxyParsers) (settings : ForwardProxySettings)
    (rows : List (String × ForwardProxyRuntimeRow)) (now : Int) (actions : List ManagerAction) :
    (managerSystem parsers).AlongRun InRange
      (new parsers settings (rows.map fun row => (row.1, .fromRow row.2)) now) actions := by
  apply TransitionSystem.alongRun_of_preserved
  · intro manager action manager' inRange taken
    exact inRange.step taken
  · exact inRange_new parsers settings rows now

/-! ### Scores -/

theorem deterministicUnit_bounds (seed : UInt64) :
    0 ≤ deterministicUnit seed ∧ deterministicUnit seed ≤ 1 := by
  have bound (value : UInt64) :
      0 ≤ (value.toNat : ℚ) / 18446744073709551615 ∧
        (value.toNat : ℚ) / 18446744073709551615 ≤ 1 := by
    have small : value.toNat ≤ 18446744073709551615 := Nat.le_of_lt_succ value.toNat_lt
    constructor
    · positivity
    · rw [div_le_one (by norm_num)]
      exact_mod_cast small
  exact bound _

/-- The direct connection scores below every proxy. -/
theorem candidateScore_direct_lt (stableHash : String → UInt64) (seed : UInt64)
    {direct proxy : ForwardProxyEndpoint} {runtime runtime' : ForwardProxyRuntimeState}
    (isDirect : direct.isDirect = true) (isProxy : proxy.isDirect = false)
    (inRange : runtime.InRange) (inRange' : runtime'.InRange) :
    candidateScore stableHash seed direct runtime <
      candidateScore stableHash seed proxy runtime' := by
  have upper := deterministicUnit_bounds (seed ^^^ stableHash direct.key)
  have lower := deterministicUnit_bounds (seed ^^^ stableHash proxy.key)
  have latency : 0 ≤ runtime.latencyEmaMs.elim 0 fun latency => min (latency / 1000) (15 / 10) := by
    cases known : runtime.latencyEmaMs with
    | none => exact le_refl 0
    | some latency =>
        have nonneg := inRange.latencyEmaMs latency known
        rw [Option.elim_some]
        exact le_min (by positivity) (by norm_num)
  have latency' :
      (runtime'.latencyEmaMs.elim 0 fun latency => min (latency / 1000) (15 / 10)) ≤ 15 / 10 := by
    cases runtime'.latencyEmaMs with
    | none => norm_num
    | some latency => exact min_le_right _ _
  have weight := inRange.weight.2
  have weight' := inRange'.weight.1
  have success := inRange.successEma.2
  have success' := inRange'.successEma.1
  unfold candidateScore
  rw [isDirect, isProxy]
  unfold forwardProxyWeightMax at weight
  unfold forwardProxyWeightMin at weight'
  simp only [if_true, Bool.false_eq_true, if_false]
  linarith

/-! ### The order of the candidates -/

/-- Only what is among the excluded keys matters. -/
theorem rankCandidates_congr {stableHash : String → UInt64} {exclude' : List String}
    (same : ∀ key, key ∈ exclude ↔ key ∈ exclude') :
    manager.rankCandidatesForSubject stableHash subject exclude allowDirect limit =
      manager.rankCandidatesForSubject stableHash subject exclude' allowDirect limit := by
  have candidates : manager.scoredCandidate stableHash (stableHash subject) exclude allowDirect =
      manager.scoredCandidate stableHash (stableHash subject) exclude' allowDirect := by
    funext endpoint
    unfold scoredCandidate
    simp only [same]
  unfold rankCandidatesForSubject
  rw [candidates]

/-- In the ranking no proxy comes after the direct connection. -/
theorem rankCandidates_directLast {stableHash : String → UInt64} (inRange : manager.InRange) :
    (manager.rankCandidatesForSubject stableHash subject exclude allowDirect limit).Pairwise
      fun one two => one.isDirect = true → two.isDirect = true := by
  unfold rankCandidatesForSubject
  apply List.pairwise_map.2
  apply List.Pairwise.sublist (List.take_sublist _ _)
  have sorted : ((manager.endpoints.filterMap (manager.scoredCandidate stableHash
      (stableHash subject) exclude allowDirect)).insertionSort
        fun lhs rhs => rhs.1 ≤ lhs.1).Pairwise fun lhs rhs => rhs.1 ≤ lhs.1 := by
    have total : Std.Total fun lhs rhs : ℚ × ForwardProxyEndpoint => rhs.1 ≤ lhs.1 :=
      ⟨fun lhs rhs => le_total _ _⟩
    have trans : IsTrans (ℚ × ForwardProxyEndpoint) fun lhs rhs => rhs.1 ≤ lhs.1 :=
      ⟨fun _ _ _ one two => two.trans one⟩
    exact List.pairwise_insertionSort _ _
  have scored : ∀ candidate ∈ (manager.endpoints.filterMap (manager.scoredCandidate stableHash
      (stableHash subject) exclude allowDirect)).insertionSort fun lhs rhs => rhs.1 ≤ lhs.1,
      ∃ runtime : ForwardProxyRuntimeState, runtime.InRange ∧
        candidate.1 = candidateScore stableHash (stableHash subject) candidate.2 runtime := by
    intro candidate member
    rw [List.mem_insertionSort, List.mem_filterMap] at member
    obtain ⟨endpoint, _, chosen⟩ := member
    unfold scoredCandidate at chosen
    split at chosen
    · obtain ⟨runtime, found, result⟩ := Option.bind_eq_some_iff.1 chosen
      split at result
      · cases result
        exact ⟨runtime, inRange endpoint.key runtime found, rfl⟩
      · cases result
    · cases chosen
  apply List.Pairwise.imp_of_mem _ sorted
  intro one two memberOne memberTwo le isDirect
  obtain ⟨runtime, inRangeOne, scoreOne⟩ := scored one memberOne
  obtain ⟨runtime', inRangeTwo, scoreTwo⟩ := scored two memberTwo
  by_contra isProxy
  have less := candidateScore_direct_lt stableHash (stableHash subject) isDirect
    (Bool.not_eq_true _ ▸ isProxy) inRangeOne inRangeTwo
  rw [scoreOne, scoreTwo] at le
  exact absurd less (not_lt.2 le)

theorem planClass_of_direct (exactKeys regionKeys : List String)
    {endpoint : ForwardProxyEndpoint} (direct : endpoint.isDirect = true) :
    planClass exactKeys regionKeys endpoint = 3 := by
  unfold planClass
  rw [if_pos direct]

theorem planClass_le (exactKeys regionKeys : List String) (endpoint : ForwardProxyEndpoint) :
    planClass exactKeys regionKeys endpoint ≤ 3 := by
  unfold planClass
  split
  · exact Nat.le_refl 3
  · split
    · exact Nat.zero_le 3
    · split
      · exact Nat.le_of_ble_eq_true rfl
      · exact Nat.le_succ 2

theorem pairwise_of_class {endpoints : List ForwardProxyEndpoint}
    {place : ForwardProxyEndpoint → Nat} {value : Nat}
    (all : ∀ endpoint ∈ endpoints, place endpoint = value) :
    endpoints.Pairwise fun one two => place one ≤ place two := by
  apply List.pairwise_of_forall_mem_list
  intro one memberOne two memberTwo
  rw [all one memberOne, all two memberTwo]

/-- The three passes one after another, each without what the passes before it have taken. -/
theorem orderByGeo_eq (exactKeys regionKeys : List String)
    (nonDirect : List ForwardProxyEndpoint) :
    let exact := nonDirect.filter fun endpoint => endpoint.key ∈ exactKeys
    let region := nonDirect.filter fun endpoint => endpoint.key ∈ regionKeys
    orderByGeo exactKeys regionKeys nonDirect =
      freshKeyed ForwardProxyEndpoint.key [] exact ++
        freshKeyed ForwardProxyEndpoint.key (exact.map ForwardProxyEndpoint.key) region ++
          freshKeyed ForwardProxyEndpoint.key
            ((exact ++ region).map ForwardProxyEndpoint.key) nonDirect := by
  intro exact region
  unfold orderByGeo
  rw [mergeAllKeyed_keepFirst, freshKeyed_append, freshKeyed_append, List.map_nil,
    List.append_nil, List.append_nil]
  rfl

/-- The three passes put the proxies into the order of their classes. -/
theorem orderByGeo_pairwise {exactKeys regionKeys : List String}
    {nonDirect : List ForwardProxyEndpoint}
    (proxies : ∀ endpoint ∈ nonDirect, endpoint.isDirect = false) :
    (orderByGeo exactKeys regionKeys nonDirect).Pairwise fun one two =>
      planClass exactKeys regionKeys one ≤ planClass exactKeys regionKeys two := by
  rw [orderByGeo_eq]
  let exact := nonDirect.filter fun endpoint => endpoint.key ∈ exactKeys
  let region := nonDirect.filter fun endpoint => endpoint.key ∈ regionKeys
  have taken {keys : List String} {endpoint : ForwardProxyEndpoint} (there : endpoint ∈ nonDirect)
      (chosen : endpoint.key ∈ keys) : endpoint.key ∈
        (nonDirect.filter fun endpoint => endpoint.key ∈ keys).map ForwardProxyEndpoint.key :=
    List.mem_map.2 ⟨endpoint, List.mem_filter.2 ⟨there, decide_eq_true chosen⟩, rfl⟩
  have exactClass : ∀ endpoint ∈ freshKeyed ForwardProxyEndpoint.key [] exact,
      planClass exactKeys regionKeys endpoint = 0 := by
    intro endpoint member
    obtain ⟨there, isExact⟩ := List.mem_filter.1 ((freshKeyed_sublist _ _).subset member)
    unfold planClass
    rw [proxies endpoint there, if_neg Bool.false_ne_true, if_pos (of_decide_eq_true isExact)]
  have regionClass : ∀ endpoint ∈ freshKeyed ForwardProxyEndpoint.key
      (exact.map ForwardProxyEndpoint.key) region,
      planClass exactKeys regionKeys endpoint = 1 := by
    intro endpoint member
    obtain ⟨there, inRegion⟩ := List.mem_filter.1 ((freshKeyed_sublist _ _).subset member)
    have untaken := (mem_keys_freshKeyed.1 (List.mem_map.2 ⟨endpoint, member, rfl⟩)).2
    unfold planClass
    rw [proxies endpoint there, if_neg Bool.false_ne_true,
      if_neg fun isExact => untaken (taken there isExact), if_pos (of_decide_eq_true inRegion)]
  have restClass : ∀ endpoint ∈ freshKeyed ForwardProxyEndpoint.key
      ((exact ++ region).map ForwardProxyEndpoint.key) nonDirect,
      planClass exactKeys regionKeys endpoint = 2 := by
    intro endpoint member
    have there := (freshKeyed_sublist _ _).subset member
    have untaken := (mem_keys_freshKeyed.1 (List.mem_map.2 ⟨endpoint, member, rfl⟩)).2
    rw [List.map_append, List.mem_append, not_or] at untaken
    unfold planClass
    rw [proxies endpoint there, if_neg Bool.false_ne_true,
      if_neg fun isExact => untaken.1 (taken there isExact),
      if_neg fun inRegion => untaken.2 (taken there inRegion)]
  apply List.pairwise_append.2
  refine ⟨List.pairwise_append.2 ⟨pairwise_of_class exactClass, pairwise_of_class regionClass, ?_⟩,
    pairwise_of_class restClass, ?_⟩
  · intro one memberOne two memberTwo
    rw [exactClass one memberOne, regionClass two memberTwo]
    exact Nat.zero_le 1
  · intro one memberOne two memberTwo
    rw [restClass two memberTwo]
    rcases List.mem_append.1 memberOne with isExact | inRegion
    · rw [exactClass one isExact]
      exact Nat.zero_le 2
    · rw [regionClass one inRegion]
      exact Nat.le_succ 1

/-- Without a geo answer only the direct connection has a place of its own. -/
theorem orderedByGeo_of_directLast {candidates : List ForwardProxyEndpoint}
    (directLast : candidates.Pairwise fun one two => one.isDirect = true → two.isDirect = true) :
    OrderedByGeo env registrationIp registrationRegion [] candidates := by
  apply directLast.imp
  intro one two later
  have place (endpoint : ForwardProxyEndpoint) :
      planClass (matchingKeys (registrationIp.bind env.normalizeIpString)
          ForwardProxyGeoCandidate.hostIps []) (matchingKeys (trimmedNonEmpty registrationRegion)
          ForwardProxyGeoCandidate.regions []) endpoint =
        if endpoint.isDirect then 3 else 2 := by
    unfold planClass matchingKeys
    simp only [List.filter_nil, List.map_nil, List.not_mem_nil, if_false]
  rw [place, place]
  cases direct : one.isDirect with
  | true => rw [later direct]
  | false =>
      rw [if_neg Bool.false_ne_true]
      split
      · exact Nat.le_succ 2
      · exact Nat.le_refl 2

/-- What the ranking with the registration returns. -/
theorem ranked_ordered (inRange : manager.InRange) {ranked : List ForwardProxyEndpoint}
    (answered : rankRegistrationAwareCandidates env call manager subject registrationIp
      registrationRegion exclude allowDirect limit = .ok ranked) :
    ∃ geo, geoCandidates env call manager subject registrationIp registrationRegion exclude
        allowDirect limit = .ok geo ∧
      OrderedByGeo env registrationIp registrationRegion geo ranked := by
  have directLast : (manager.ensureNonZeroWeight.rankCandidatesForSubject env.stableHash subject
      exclude allowDirect limit).Pairwise fun one two =>
        one.isDirect = true → two.isDirect = true :=
    rankCandidates_directLast inRange.ensureNonZeroWeight
  unfold rankRegistrationAwareCandidates at answered
  unfold geoCandidates
  simp only at answered ⊢
  split at answered
  · rename_i plain
    cases answered
    rw [if_pos (Or.inl plain)]
    exact ⟨[], rfl, orderedByGeo_of_directLast directLast⟩
  · rename_i registered
    split at answered
    · rename_i onlyDirect
      cases answered
      rw [if_pos (Or.inr onlyDirect)]
      refine ⟨[], rfl, orderedByGeo_of_directLast ?_⟩
      exact List.Pairwise.sublist List.filter_sublist directLast
    · rename_i proxied
      rw [if_neg (not_or.2 ⟨registered, proxied⟩)]
      simp only [bind, Except.bind] at answered
      split at answered
      · cases answered
      · rename_i geo resolved
        cases answered
        refine ⟨geo, resolved, ?_⟩
        have proxies : ∀ endpoint ∈ (manager.ensureNonZeroWeight.rankCandidatesForSubject
            env.stableHash subject exclude allowDirect limit).filter
              (fun endpoint => !endpoint.isDirect), endpoint.isDirect = false := by
          intro endpoint member
          exact Bool.not_eq_true' _ ▸ (List.mem_filter.1 member).2
        have last : ∀ endpoint ∈ (if allowDirect then
            (manager.ensureNonZeroWeight.rankCandidatesForSubject env.stableHash subject exclude
              allowDirect limit).filter ForwardProxyEndpoint.isDirect else []),
            endpoint.isDirect = true := by
          intro endpoint member
          split at member
          · exact (List.mem_filter.1 member).2
          · cases member
        apply List.pairwise_append.2
        refine ⟨orderByGeo_pairwise proxies, ?_, ?_⟩
        · exact pairwise_of_class fun endpoint member =>
            planClass_of_direct _ _ (last endpoint member)
        · intro one _ two member
          rw [planClass_of_direct _ _ (last two member)]
          exact planClass_le _ _ one

/-! ### The slots -/

theorem usableEndpoint_spec {key : String} {endpoint : ForwardProxyEndpoint}
    (usable : manager.usableEndpoint key = some endpoint) :
    endpoint.key = key ∧ endpoint ∈ manager.endpoints ∧ endpoint.isSelectable = true ∧
      ∃ runtime, manager.runtime.find endpoint.key = some runtime ∧ runtime.available = true := by
  unfold usableEndpoint at usable
  obtain ⟨found, good⟩ := Option.filter_eq_some_iff.1 usable
  obtain ⟨member, same⟩ := endpoint_of_find found
  rw [Bool.and_eq_true, Option.any_eq_true] at good
  obtain ⟨selectable, runtime, known, fine⟩ := good
  rw [Bool.and_eq_true] at fine
  rw [← same] at known
  exact ⟨same, member, selectable, runtime, known, fine.1⟩

/-- What the loop over the slots pushes, and what it has seen after it. -/
theorem pushSlots_eq (manager : ForwardProxyManager) (keys seen : List String) :
    (manager.pushSlots keys seen).1 = (freshKeyed id seen keys).filterMap manager.usableEndpoint ∧
      ∀ key, key ∈ (manager.pushSlots keys seen).2 ↔ key ∈ keys ∨ key ∈ seen := by
  induction keys generalizing seen with
  | nil => exact ⟨rfl, fun key => by simp [pushSlots]⟩
  | cons key keys ih =>
      unfold pushSlots
      by_cases known : key ∈ seen
      · rw [if_pos known, freshKeyed_of_mem known]
        refine ⟨(ih seen).1, ?_⟩
        intro other
        rw [(ih seen).2, List.mem_cons]
        constructor
        · rintro (later | before)
          · exact Or.inl (Or.inr later)
          · exact Or.inr before
        · rintro ((rfl | later) | before)
          · exact Or.inr known
          · exact Or.inl later
          · exact Or.inr before
      · rw [if_neg known, freshKeyed_of_notMem known]
        obtain ⟨pushed, seen'⟩ := ih (key :: seen)
        constructor
        · change (manager.usableEndpoint key).toList ++ (manager.pushSlots keys (key :: seen)).1 = _
          rw [pushed, List.filterMap_cons]
          cases manager.usableEndpoint key with
          | none => rfl
          | some endpoint => rfl
        · intro other
          change other ∈ (manager.pushSlots keys (key :: seen)).2 ↔ _
          rw [seen', List.mem_cons, List.mem_cons]
          tauto

/-- The loop pushes the usable primary, then the usable secondary if it is another one. -/
theorem pushSlots_slots (manager : ForwardProxyManager) (record : ForwardProxyAffinityRecord) :
    (manager.pushSlots record.slots []).1 = manager.stickyEndpoints record := by
  rw [(pushSlots_eq manager record.slots []).1]
  have push (key : String) (keys : List String) :
      (key :: keys).filterMap manager.usableEndpoint =
        (manager.usableEndpoint key).toList ++ keys.filterMap manager.usableEndpoint := by
    rw [List.filterMap_cons]
    cases manager.usableEndpoint key with
    | none => rfl
    | some endpoint => rfl
  unfold stickyEndpoints ForwardProxyAffinityRecord.slots
  cases record.primaryProxyKey with
  | none =>
      cases record.secondaryProxyKey with
      | none => rfl
      | some secondary => simp [freshKeyed, push, Option.filter]
  | some primary =>
      cases record.secondaryProxyKey with
      | none => simp [freshKeyed, push]
      | some secondary =>
          by_cases same : primary = secondary
          · simp [freshKeyed, push, Option.filter, same]
          · simp [freshKeyed, push, Option.filter, same, Ne.symm same]

/-- The usable endpoints of keys have those keys. -/
theorem keys_usableEndpoints_sublist (keys : List String) :
    ((keys.filterMap manager.usableEndpoint).map ForwardProxyEndpoint.key).Sublist keys := by
  induction keys with
  | nil => exact List.Sublist.refl []
  | cons key keys ih =>
      cases usable : manager.usableEndpoint key with
      | none =>
          rw [List.filterMap_cons_none usable]
          exact ih.cons key
      | some endpoint =>
          rw [List.filterMap_cons_some usable, List.map_cons, (usableEndpoint_spec usable).1]
          exact ih.cons_cons key

/-- The usable slots have keys of their own. -/
theorem nodup_stickyEndpoints (manager : ForwardProxyManager)
    (record : ForwardProxyAffinityRecord) :
    ((manager.stickyEndpoints record).map ForwardProxyEndpoint.key).Nodup := by
  rw [← pushSlots_slots, (pushSlots_eq manager record.slots []).1]
  apply List.Nodup.sublist (keys_usableEndpoints_sublist _)
  have distinct : ((freshKeyed id [] record.slots).map id).Nodup := nodup_freshKeyed [] _
  rw [List.map_id] at distinct
  exact distinct

theorem mem_stickyEndpoints {endpoint : ForwardProxyEndpoint} :
    endpoint ∈ manager.stickyEndpoints record ↔
      ∃ key ∈ record.slots, manager.usableEndpoint key = some endpoint := by
  rw [← pushSlots_slots, (pushSlots_eq manager record.slots []).1, List.mem_filterMap]
  have slots (key : String) : key ∈ freshKeyed id [] record.slots ↔ key ∈ record.slots := by
    have keys : key ∈ (freshKeyed id [] record.slots).map id ↔
        key ∈ record.slots.map id ∧ key ∉ [] := mem_keys_freshKeyed
    rw [List.map_id, List.map_id] at keys
    rw [keys]
    exact and_iff_left List.not_mem_nil
  constructor
  · rintro ⟨key, member, usable⟩
    exact ⟨key, (slots key).1 member, usable⟩
  · rintro ⟨key, member, usable⟩
    exact ⟨key, (slots key).2 member, usable⟩

theorem mem_keys_stickyEndpoints {key : String} :
    key ∈ (manager.stickyEndpoints record).map ForwardProxyEndpoint.key ↔
      key ∈ record.slots ∧ (manager.usableEndpoint key).isSome = true := by
  rw [List.mem_map]
  constructor
  · rintro ⟨endpoint, member, rfl⟩
    obtain ⟨key, slot, usable⟩ := mem_stickyEndpoints.1 member
    rw [(usableEndpoint_spec usable).1, usable]
    exact ⟨slot, rfl⟩
  · rintro ⟨slot, isSome⟩
    obtain ⟨endpoint, usable⟩ := Option.isSome_iff_exists.1 isSome
    exact ⟨endpoint, mem_stickyEndpoints.2 ⟨key, slot, usable⟩, (usableEndpoint_spec usable).1⟩

/-! ### The plan -/

/-- A successful build, taken apart. -/
theorem build_eq_ok {plan : List SelectedForwardProxy}
    (built : buildProxyAttemptPlanForRecord env call manager subject record registrationIp
      registrationRegion allowDirect = .ok plan) :
    ∃ ranked, rankRegistrationAwareCandidates env call manager subject registrationIp
        registrationRegion record.slots allowDirect (max manager.endpoints.length 1) = .ok ranked ∧
      plan = (manager.stickyEndpoints record ++
        freshKeyed ForwardProxyEndpoint.key record.slots ranked).map .fromEndpoint := by
  unfold buildProxyAttemptPlanForRecord at built
  have seen (key : String) : key ∈ (manager.pushSlots record.slots []).2 ↔ key ∈ record.slots := by
    rw [(pushSlots_eq manager record.slots []).2]
    exact or_iff_left List.not_mem_nil
  have sameRanking : rankRegistrationAwareCandidates env call manager subject registrationIp
        registrationRegion (manager.pushSlots record.slots []).2 allowDirect
        (max manager.endpoints.length 1) =
      rankRegistrationAwareCandidates env call manager subject registrationIp
        registrationRegion record.slots allowDirect (max manager.endpoints.length 1) := by
    unfold rankRegistrationAwareCandidates
    rw [rankCandidates_congr seen]
  simp only [bind, Except.bind, sameRanking] at built
  split at built
  · cases built
  · rename_i ranked answered
    cases built
    refine ⟨ranked, answered, ?_⟩
    rw [pushSlots_slots, freshKeyed_congr seen]

/-- Every candidate keeps its place in the ranking with the registration. -/
theorem mem_keys_ranked {ranked : List ForwardProxyEndpoint}
    (answered : rankRegistrationAwareCandidates env call manager subject registrationIp
      registrationRegion exclude allowDirect limit = .ok ranked)
    (large : manager.endpoints.length ≤ limit) {endpoint : ForwardProxyEndpoint}
    (rankable : manager.ensureNonZeroWeight.Rankable exclude allowDirect endpoint) :
    endpoint.key ∈ ranked.map ForwardProxyEndpoint.key := by
  have member : endpoint ∈ manager.ensureNonZeroWeight.rankCandidatesForSubject env.stableHash
      subject exclude allowDirect limit := by
    apply (mem_rankCandidates_iff _).2 rankable
    rw [ensureNonZeroWeight_endpoints]
    exact large
  unfold rankRegistrationAwareCandidates at answered
  simp only at answered
  split at answered
  · cases answered
    exact List.mem_map_of_mem member
  · split at answered
    · rename_i onlyDirect
      cases answered
      apply List.mem_map_of_mem
      refine List.mem_filter.2 ⟨member, ?_⟩
      have others := List.filter_eq_nil_iff.1 onlyDirect endpoint member
      simpa using others
    · simp only [bind, Except.bind] at answered
      split at answered
      · cases answered
      · cases answered
        rw [List.map_append, List.mem_append]
        cases direct : endpoint.isDirect with
        | true =>
            right
            have allowed : allowDirect = true := by
              obtain ⟨_, _, allowed | proxy, _⟩ := rankable
              · exact allowed
              · rw [direct] at proxy
                cases proxy
            rw [if_pos allowed]
            exact List.mem_map_of_mem (List.mem_filter.2 ⟨member, direct⟩)
        | false =>
            left
            refine (mem_keys_mergeAllKeyed fun _ _ => rfl).2 (Or.inr ?_)
            apply List.mem_map_of_mem
            apply List.mem_append_right
            exact List.mem_filter.2 ⟨member, by rw [direct]; rfl⟩

/-- The rescue changes no candidate. -/
theorem rankable_ensureNonZeroWeight {endpoint : ForwardProxyEndpoint} :
    manager.ensureNonZeroWeight.Rankable exclude allowDirect endpoint ↔
      manager.Rankable exclude allowDirect endpoint := by
  have flagged (entries : Option ForwardProxyRuntimeState) :
      (∃ entry, entries = some entry ∧ entry.available = true) ↔
        entries.map ForwardProxyRuntimeState.available = some true := by
    rw [Option.map_eq_some_iff]
  unfold Rankable
  rw [ensureNonZeroWeight_endpoints, flagged, flagged, available_ensureNonZeroWeight]

/-- The plan is in order, and of what the ranking returns without exclusions it has all but the
slots of the record that are not usable. -/
theorem attemptPlan_of_build (env : AffinityEnvironment) (call : GeoCall)
    (manager : ForwardProxyManager) (inRange : manager.InRange) (subject : String)
    (record : ForwardProxyAffinityRecord) (registrationIp registrationRegion : Option String)
    (allowDirectFallback : Bool) (plan : List SelectedForwardProxy)
    (built : buildProxyAttemptPlanForRecord env call manager subject record registrationIp
      registrationRegion allowDirectFallback = .ok plan) :
    AttemptPlan env call manager subject record registrationIp registrationRegion
        allowDirectFallback plan ∧
      ∀ limit, ∀ endpoint ∈ manager.rankCandidatesForSubject env.stableHash subject []
        allowDirectFallback limit,
        endpoint.key ∈ plan.map SelectedForwardProxy.key ↔
          (endpoint.key ∈ record.slots → (manager.usableEndpoint endpoint.key).isSome = true) := by
  obtain ⟨ranked, answered, rfl⟩ := build_eq_ok built
  let others := freshKeyed ForwardProxyEndpoint.key record.slots ranked
  have keys : ((manager.stickyEndpoints record ++ others).map SelectedForwardProxy.fromEndpoint).map
        SelectedForwardProxy.key =
      (manager.stickyEndpoints record).map ForwardProxyEndpoint.key ++
        others.map ForwardProxyEndpoint.key := by
    rw [List.map_map, List.map_append]
    rfl
  have rankable : ∀ endpoint ∈ others,
      manager.Rankable record.slots allowDirectFallback endpoint := by
    intro endpoint member
    apply rankable_ensureNonZeroWeight.1
    exact rankable_of_mem_ranked answered ((freshKeyed_sublist _ _).subset member)
  refine ⟨⟨?nodup, ?available, ?ordered⟩, ?complete⟩
  case nodup =>
    rw [keys, List.nodup_append]
    refine ⟨nodup_stickyEndpoints manager record, nodup_freshKeyed _ _, ?_⟩
    rintro key sticky _ other rfl
    exact (mem_keys_freshKeyed.1 other).2 (mem_keys_stickyEndpoints.1 sticky).1
  case available =>
    intro selected member
    obtain ⟨endpoint, chosen, rfl⟩ := List.mem_map.1 member
    rcases List.mem_append.1 chosen with sticky | other
    · obtain ⟨key, _, usable⟩ := mem_stickyEndpoints.1 sticky
      obtain ⟨_, there, selectable, runtime⟩ := usableEndpoint_spec usable
      exact ⟨endpoint, there, rfl, selectable, runtime⟩
    · obtain ⟨there, selectable, _, _, runtime⟩ := rankable endpoint other
      exact ⟨endpoint, there, rfl, selectable, runtime⟩
  case ordered =>
    obtain ⟨geo, resolved, sorted⟩ := ranked_ordered inRange answered
    refine ⟨others, geo, rfl, resolved, ?_, ?_⟩
    · exact List.Pairwise.sublist (freshKeyed_sublist _ _) sorted
    · intro endpoint member direct
      obtain ⟨_, _, allowed | proxy, _⟩ := rankable endpoint member
      · exact allowed
      · rw [direct] at proxy
        cases proxy
  case complete =>
    intro limit endpoint member
    obtain ⟨there, selectable, allowed, _, runtime⟩ := rankable_of_mem_rankCandidates member
    rw [keys, List.mem_append, mem_keys_stickyEndpoints, mem_keys_freshKeyed]
    by_cases slot : endpoint.key ∈ record.slots
    · constructor
      · rintro (⟨_, usable⟩ | ⟨_, outside⟩) _
        · exact usable
        · exact absurd slot outside
      · intro usable
        exact Or.inl ⟨slot, usable slot⟩
    · have included : endpoint.key ∈ ranked.map ForwardProxyEndpoint.key := by
        apply mem_keys_ranked answered (Nat.le_max_left _ _)
        exact rankable_ensureNonZeroWeight.2 ⟨there, selectable, allowed, slot, runtime⟩
      constructor
      · intro _ inside
        exact absurd inside slot
      · intro _
        exact Or.inr ⟨included, slot⟩

/-- A third manual proxy. -/
def spareEndpoint : ForwardProxyEndpoint :=
  .newManual
    { normalized := "http://spare:80"
      protocol := .http
      endpointUrl := some
        { scheme := "http", username := "", password := none, host := some "spare"
          port := some 80, text := "http://spare/" } }

/-- The spare proxy has done a little better than the others. -/
def spareRuntime : ForwardProxyRuntimeState :=
  { ForwardProxyRuntimeState.defaultForEndpoint spareEndpoint with weight := 9 / 10 }

/-- Three proxies and the direct connection. -/
def poolManager : ForwardProxyManager where
  settings :=
    { pairManager.settings with
      proxyUrls := ["http://proxy:80", "http://backup:80", "http://spare:80"], insertDirect := true }
  endpoints := [lonelyEndpoint, backupEndpoint, spareEndpoint, .direct]
  runtime :=
    (pairManager.runtime.upsert "http://spare:80" spareRuntime id).upsert forwardProxyDirectKey
      (.defaultForEndpoint .direct) id
  requestsSinceProbe := 0
  probeInFlight := false
  lastProbeAt := 0

theorem inRange_poolManager : poolManager.InRange := by
  have spare : spareRuntime.InRange :=
    { ForwardProxyRuntimeState.inRange_defaultForEndpoint spareEndpoint with
      weight := by norm_num [spareRuntime, forwardProxyWeightMin, forwardProxyWeightMax] }
  refine KeyedTable.forall_upsert (KeyedTable.forall_upsert (KeyedTable.forall_upsert
    (KeyedTable.forall_upsert ?_ ?_ ?_) ?_ ?_) spare ?_) ?_ ?_
  · intro key runtime found
    cases found
  all_goals
    first
      | exact ForwardProxyRuntimeState.inRange_defaultForEndpoint _
      | exact fun _ before => before

/-- The sticky primary comes first and the secondary that is gone is left out; the others follow
by their scores, the direct connection last. -/
theorem attemptPlan_of_build_pool :
    ∃ plan, buildProxyAttemptPlanForRecord plainEnvironment .primary poolManager "key"
        ⟨some "http://backup:80", some "http://gone:80", 60⟩ none none true = .ok plan ∧
      plan.map SelectedForwardProxy.key =
        ["http://backup:80", "http://spare:80", "http://proxy:80", "__direct__"] ∧
      AttemptPlan plainEnvironment .primary poolManager "key"
        ⟨some "http://backup:80", some "http://gone:80", 60⟩ none none true plan ∧
      lonelyEndpoint.key ∈ plan.map SelectedForwardProxy.key := by
  have built : buildProxyAttemptPlanForRecord plainEnvironment .primary poolManager "key"
      ⟨some "http://backup:80", some "http://gone:80", 60⟩ none none true =
        .ok [.fromEndpoint backupEndpoint, .fromEndpoint spareEndpoint,
          .fromEndpoint lonelyEndpoint, .fromEndpoint .direct] := by decide +kernel
  obtain ⟨ordered, complete⟩ := attemptPlan_of_build plainEnvironment .primary poolManager
    inRange_poolManager "key" ⟨some "http://backup:80", some "http://gone:80", 60⟩ none none true
    _ built
  have ranked : lonelyEndpoint ∈ poolManager.rankCandidatesForSubject
      plainEnvironment.stableHash "key" [] true 4 := by decide +kernel
  refine ⟨_, built, rfl, ordered, (complete 4 lonelyEndpoint ranked).2 fun slot => ?_⟩
  exact absurd slot (by decide)

/-- After a failure and a sync of the relays a proxy is available again, at a weight below zero. -/
def demotedManager : ForwardProxyManager where
  settings := { lonelyManager.settings with insertDirect := true }
  endpoints := [lonelyEndpoint, .direct]
  runtime :=
    (KeyedTable.empty.upsert "http://proxy:80"
      (.refreshed lonelyEndpoint (recordFailure none (.defaultForEndpoint lonelyEndpoint)))
      id).upsert forwardProxyDirectKey (.defaultForEndpoint .direct) id
  requestsSinceProbe := 0
  probeInFlight := false
  lastProbeAt := 0

/-- The proxy is ranked before the direct connection, and as the primary of the record it is
in neither of the passes. -/
theorem attemptPlan_incomplete :
    ∃ plan, buildProxyAttemptPlanForRecord plainEnvironment .primary demotedManager "key"
        ⟨some "http://proxy:80", none, 60⟩ none none true = .ok plan ∧
      ¬demotedManager.Complete plainEnvironment "key" true plan := by
  have built : buildProxyAttemptPlanForRecord plainEnvironment .primary demotedManager "key"
      ⟨some "http://proxy:80", none, 60⟩ none none true =
        .ok [.fromEndpoint .direct] := by decide +kernel
  refine ⟨_, built, ?_⟩
  intro complete
  have ranked : lonelyEndpoint ∈ demotedManager.rankCandidatesForSubject
      plainEnvironment.stableHash "key" [] true 2 := by decide +kernel
  have planned := complete 2 lonelyEndpoint ranked
  exact absurd planned (by decide)

end ForwardProxyManager

end TavilyHikari.ForwardProxy
