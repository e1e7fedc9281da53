/-
Module: TavilyHikari.Proofs.ForwardProxyEndpoints
Purpose: The endpoint lists that the manager builds: their keys are distinct, and only the
  direct endpoint has the key of the direct connection.
Trusted boundary: none
Main exports: Indirect, DirectKeyed, nodup_withDirect, rebuiltEndpoints_indirect,
  incrementalEndpoints_indirect, keys_syncEndpoints
-/
import TavilyHikari.ForwardProxy.Manager

namespace TavilyHikari.ForwardProxy

open Library ForwardProxyManager

/-- An endpoint that is neither the direct one nor has its key. -/
def ForwardProxyEndpoint.Indirect (e : ForwardProxyEndpoint) : Prop :=
  e.isDirect = false ∧ e.key ≠ forwardProxyDirectKey

/-- Only the direct endpoint has the key of the direct connection. -/
def DirectKeyed (endpoints : List ForwardProxyEndpoint) : Prop :=
  ∀ e ∈ endpoints, e.isDirect = true ↔ e.key = forwardProxyDirectKey

variable {parsers : ProxyParsers}

/-! ### Parsed lists -/

/-- No entry of a list is the direct connection. -/
theorem indirect_of_mem_parsedEntries {urls : List String} {parsed : ParsedForwardProxyEntry}
    (member : parsed ∈ parsedEntries parsers urls) : parsed.Indirect := by
  have parsedSomewhere : ∀ entry ∈ parsedEntries parsers urls, entry.Indirect := by
    refine mergeAllKeyed_forall (fun _ _ => rfl) (by simp) (fun _ _ _ kept _ => kept) ?_
    intro entry added _
    obtain ⟨raw, _, accepted⟩ := List.mem_filterMap.1 added
    exact parseForwardProxyEntry_spec accepted
  exact parsedSomewhere parsed member

/-- The keys of a list are the normal forms of its lines that are accepted. -/
theorem mem_keys_parsedEntries {urls : List String} {key : String} :
    key ∈ (parsedEntries parsers urls).map ParsedForwardProxyEntry.normalized ↔
      ∃ raw ∈ urls, ∃ parsed, parseForwardProxyEntry parsers raw = some parsed ∧
        parsed.normalized = key := by
  unfold parsedEntries
  rw [mem_keys_mergeAllKeyed fun _ _ => rfl]
  simp only [List.map_nil, List.not_mem_nil, false_or, List.mem_map, List.mem_filterMap]
  constructor
  · rintro ⟨parsed, ⟨raw, member, accepted⟩, same⟩
    exact ⟨raw, member, parsed, accepted, same⟩
  · rintro ⟨raw, member, parsed, accepted, same⟩
    exact ⟨parsed, ⟨raw, member, accepted⟩, same⟩

theorem keys_normalizeProxyEndpoints (urls : List String) :
    (normalizeProxyEndpointsFromUrls parsers urls).map ForwardProxyEndpoint.key =
      (parsedEntries parsers urls).map ParsedForwardProxyEntry.normalized := by
  simp [normalizeProxyEndpointsFromUrls, Function.comp_def, ForwardProxyEndpoint.newManual]

/-- The keys of the manual endpoints are the normal forms of the proxy URLs. -/
theorem mem_keys_normalizeProxyEndpoints {settings : ForwardProxySettings} {key : String} :
    key ∈ (normalizeProxyEndpointsFromUrls parsers settings.proxyUrls).map
        ForwardProxyEndpoint.key ↔ key ∈ settings.normalizedProxyUrls parsers := by
  rw [keys_normalizeProxyEndpoints, mem_keys_parsedEntries]
  simp only [ForwardProxySettings.normalizedProxyUrls, List.mem_filterMap, Option.map_eq_some_iff]

theorem mem_normalizeProxyEndpoints {urls : List String} {e : ForwardProxyEndpoint}
    (member : e ∈ normalizeProxyEndpointsFromUrls parsers urls) :
    e.Indirect ∧ e.manualPresent = true ∧ e.subscriptionSources = ∅ := by
  obtain ⟨parsed, there, rfl⟩ := List.mem_map.1 member
  obtain ⟨proxied, key⟩ := indirect_of_mem_parsedEntries there
  exact ⟨⟨ForwardProxyEndpoint.isDirect_eq_false_iff.2 proxied, key⟩, rfl, rfl⟩

/-- An endpoint of a fetched map comes from one of its subscriptions. -/
theorem mem_subscriptionEndpoints {fetched : List (String × List String)}
    {e : ForwardProxyEndpoint} (member : e ∈ subscriptionEndpoints parsers fetched) :
    e.Indirect ∧ e.manualPresent = false ∧
      ∃ subscription ∈ fetched, e.subscriptionSources = {subscription.1} ∧
        e.key ∈ (parsedEntries parsers subscription.2).map ParsedForwardProxyEntry.normalized := by
  obtain ⟨subscription, there, inner⟩ := List.mem_flatMap.1 member
  obtain ⟨parsed, listed, rfl⟩ := List.mem_map.1 inner
  obtain ⟨proxied, key⟩ := indirect_of_mem_parsedEntries listed
  exact ⟨⟨ForwardProxyEndpoint.isDirect_eq_false_iff.2 proxied, key⟩, rfl, subscription, there, rfl,
    List.mem_map.2 ⟨parsed, listed, rfl⟩⟩

/-- Every line of a fetched subscription that parses gives an endpoint. -/
theorem exists_subscriptionEndpoint {fetched : List (String × List String)}
    {subscription : String × List String} (there : subscription ∈ fetched) {key : String}
    (listed : key ∈ (parsedEntries parsers subscription.2).map
      ParsedForwardProxyEntry.normalized) :
    ∃ e ∈ subscriptionEndpoints parsers fetched, e.key = key ∧
      e.subscriptionSources = {subscription.1} := by
  obtain ⟨parsed, member, rfl⟩ := List.mem_map.1 listed
  refine ⟨.newSubscription parsed subscription.1, ?_, rfl, rfl⟩
  exact List.mem_flatMap.2 ⟨subscription, there, List.mem_map.2 ⟨parsed, member, rfl⟩⟩

/-! ### The direct endpoint -/

/-- The list has the direct endpoint once more, or stays as it is. -/
theorem withDirect_eq (settings : ForwardProxySettings) (merged : List ForwardProxyEndpoint) :
    withDirect settings merged =
      if settings.insertDirect = true ∨
          (merged = [] ∧ settings.proxyUrls = [] ∧ settings.subscriptionUrls = []) then
        merged ++ [.direct]
      else merged := by
  unfold withDirect
  cases settings.insertDirect <;> simp

theorem mem_withDirect {settings : ForwardProxySettings} {merged : List ForwardProxyEndpoint}
    {e : ForwardProxyEndpoint} (member : e ∈ withDirect settings merged) :
    e ∈ merged ∨ e = .direct := by
  rw [withDirect_eq] at member
  split at member
  · rcases List.mem_append.1 member with there | last
    · exact Or.inl there
    · exact Or.inr (List.mem_singleton.1 last)
  · exact Or.inl member

theorem mem_withDirect_of_mem (settings : ForwardProxySettings)
    {merged : List ForwardProxyEndpoint} {e : ForwardProxyEndpoint} (member : e ∈ merged) :
    e ∈ withDirect settings merged := by
  rw [withDirect_eq]
  split
  · exact List.mem_append_left _ member
  · exact member

/-- With the direct connection at its end a list still has every key once. -/
theorem withDirect_spec (settings : ForwardProxySettings) {merged : List ForwardProxyEndpoint}
    (indirect : ∀ e ∈ merged, e.Indirect) (distinct : (merged.map ForwardProxyEndpoint.key).Nodup) :
    ((withDirect settings merged).map ForwardProxyEndpoint.key).Nodup ∧
      DirectKeyed (withDirect settings merged) := by
  rw [withDirect_eq]
  have keyed : DirectKeyed merged := by
    intro e member
    obtain ⟨proxied, key⟩ := indirect e member
    simp [proxied, key]
  split
  · constructor
    · rw [List.map_append, List.nodup_append]
      refine ⟨distinct, by simp, ?_⟩
      rintro key member other last rfl
      obtain ⟨e, there, rfl⟩ := List.mem_map.1 member
      exact (indirect e there).2 (List.mem_singleton.1 last)
    · intro e member
      rcases List.mem_append.1 member with there | last
      · exact keyed e there
      · rw [List.mem_singleton.1 last]
        simp [ForwardProxyEndpoint.direct, ForwardProxyEndpoint.isDirect]
  · exact ⟨distinct, keyed⟩

/-! ### Rebuilt and incremental lists -/

theorem kept_key (e _other : ForwardProxyEndpoint) : e.key = e.key := rfl

theorem adoptManual_key (e other : ForwardProxyEndpoint) : (adoptManual e other).key = e.key := rfl

theorem adoptSubscription_key (e other : ForwardProxyEndpoint) :
    (adoptSubscription e other).key = e.key := rfl

/-- A rebuilt list has every key once, since entries under one key are merged. -/
theorem nodup_rebuiltEndpoints (settings : ForwardProxySettings)
    (subscription : List ForwardProxyEndpoint) :
    ((rebuiltEndpoints parsers settings subscription).map ForwardProxyEndpoint.key).Nodup := by
  exact nodup_mergeAllKeyed ForwardProxyEndpoint.absorbDuplicate_key List.nodup_nil

/-- Before the direct connection is added a rebuilt list holds proxies only. -/
theorem rebuiltEndpoints_indirect {settings : ForwardProxySettings}
    {subscription : List ForwardProxyEndpoint} (added : ∀ e ∈ subscription, e.Indirect) :
    ∀ e ∈ rebuiltEndpoints parsers settings subscription, e.Indirect := by
  have every : ∀ e ∈ normalizeProxyEndpointsFromUrls parsers settings.proxyUrls ++ subscription,
      e.Indirect := by
    intro e member
    rcases List.mem_append.1 member with manual | there
    · exact (mem_normalizeProxyEndpoints manual).1
    · exact added e there
  refine mergeAllKeyed_forall ForwardProxyEndpoint.absorbDuplicate_key ?_ ?_ ?_
  · intro e member
    cases member
  · intro e member there kept _
    exact ⟨ForwardProxyEndpoint.absorbDuplicate_isDirect kept.1 (every e member).1, kept.2⟩
  · exact fun e member _ => every e member

/-- What is retained of an endpoint keeps its key, and the direct endpoint is not. -/
theorem retainEndpoint_eq_some {settings : ForwardProxySettings}
    {manualByKey : List ForwardProxyEndpoint} {e kept : ForwardProxyEndpoint}
    (retained : retainEndpoint settings manualByKey e = some kept) :
    e.isDirect = false ∧ kept.key = e.key ∧ kept.protocol = e.protocol ∧
      kept.manualPresent = decide (e.key ∈ manualByKey.map ForwardProxyEndpoint.key) ∧
      kept.subscriptionSources = e.subscriptionSources.filter (· ∈ settings.subscriptionUrls) := by
  unfold retainEndpoint at retained
  split at retained
  · cases retained
  · rename_i proxied
    simp only at retained
    split at retained
    · cases retained
      exact ⟨by simpa using proxied, rfl, rfl, rfl, rfl⟩
    · cases retained

/-- So does an incremental one, in each of its three stages. -/
theorem nodup_incrementalEndpoints (settings : ForwardProxySettings)
    (manualByKey : List ForwardProxyEndpoint) (fetched : List (String × List String))
    (endpoints : List ForwardProxyEndpoint) :
    ((incrementalEndpoints parsers settings manualByKey fetched endpoints).map
      ForwardProxyEndpoint.key).Nodup := by
  refine nodup_mergeAllKeyed adoptSubscription_key ?_
  refine nodup_mergeAllKeyed adoptManual_key ?_
  refine nodup_mergeAllKeyed kept_key ?_
  exact List.nodup_nil

/-- An incremental list holds proxies only: the direct endpoint is not retained. -/
theorem incrementalEndpoints_indirect {settings : ForwardProxySettings}
    {manualByKey : List ForwardProxyEndpoint} {fetched : List (String × List String)}
    {endpoints : List ForwardProxyEndpoint} (keyed : DirectKeyed endpoints)
    (manual : ∀ e ∈ manualByKey, e.Indirect) :
    ∀ e ∈ incrementalEndpoints parsers settings manualByKey fetched endpoints, e.Indirect := by
  unfold incrementalEndpoints
  simp only
  -- Subscriptions are merged into manual endpoints, these into the retained ones.
  refine mergeAllKeyed_forall adoptSubscription_key ?_ ?_ ?_
  · refine mergeAllKeyed_forall adoptManual_key ?_ ?_ ?_
    · refine mergeAllKeyed_forall kept_key ?_ ?_ ?_
      · intro e member
        cases member
      · exact fun _ _ _ kept _ => kept
      · intro e member _
        obtain ⟨old, there, retained⟩ := List.mem_filterMap.1 member
        obtain ⟨proxied, key, protocol, _⟩ := retainEndpoint_eq_some retained
        constructor
        · rw [ForwardProxyEndpoint.isDirect_eq_false_iff, protocol,
            ← ForwardProxyEndpoint.isDirect_eq_false_iff]
          exact proxied
        · rw [key]
          intro same
          rw [(keyed old there).2 same] at proxied
          cases proxied
    · exact fun e member _ kept _ => ⟨(manual e member).1, kept.2⟩
    · exact fun e member _ => manual e member
  · exact fun _ _ _ kept _ => kept
  · exact fun e member _ => (mem_subscriptionEndpoints member).1

/-! ### Synced lists -/

@[simp] theorem syncEndpoint_key {egress : Option ProxyUrl}
    {route : ForwardProxyEndpoint → Option ProxyUrl} (e : ForwardProxyEndpoint) :
    (syncEndpoint parsers egress route e).key = e.key := by
  unfold syncEndpoint
  split <;> rfl

@[simp] theorem syncEndpoint_isDirect {egress : Option ProxyUrl}
    {route : ForwardProxyEndpoint → Option ProxyUrl} (e : ForwardProxyEndpoint) :
    (syncEndpoint parsers egress route e).isDirect = e.isDirect := by
  unfold syncEndpoint
  split <;> rfl

@[simp] theorem keys_syncEndpoints {egress : Option ProxyUrl}
    {route : ForwardProxyEndpoint → Option ProxyUrl} (endpoints : List ForwardProxyEndpoint) :
    (syncEndpoints parsers egress route endpoints).map ForwardProxyEndpoint.key =
      endpoints.map ForwardProxyEndpoint.key := by
  simp [syncEndpoints, Function.comp_def]

theorem DirectKeyed.syncEndpoints {egress : Option ProxyUrl}
    {route : ForwardProxyEndpoint → Option ProxyUrl} {endpoints : List ForwardProxyEndpoint}
    (keyed : DirectKeyed endpoints) :
    DirectKeyed (syncEndpoints parsers egress route endpoints) := by
  intro e member
  obtain ⟨old, there, rfl⟩ := List.mem_map.1 member
  simpa using keyed old there

end TavilyHikari.ForwardProxy
