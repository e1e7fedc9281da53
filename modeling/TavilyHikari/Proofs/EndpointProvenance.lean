/-
Module: TavilyHikari.Proofs.EndpointProvenance
Purpose: Where endpoints come from, over every interleaving of refreshes and saves: which
  are manual, which subscriptions they name, when the direct one is there, and in which
  runs no endpoint of a subscription that cannot be fetched is dropped.
Trusted boundary: none
Main exports: Provenance, Harmless, placed_rebuilt, placed_incremental,
  provenance_alongRun
-/
import TavilyHikari.ForwardProxy.SubscriptionSystem
import TavilyHikari.Proofs.ForwardProxyEndpoints
import TavilyHikari.Proofs.ForwardProxyManager

namespace TavilyHikari.ForwardProxy

open Library ForwardProxyManager

variable {parsers : ProxyParsers}

/-! ### Provenance of a list of endpoints -/

/-- The endpoint is manual as the settings say, names only their subscriptions, and is
there for one of these reasons. -/
structure Sourced (parsers : ProxyParsers) (settings : ForwardProxySettings)
    (e : ForwardProxyEndpoint) : Prop where
  indirect : e.Indirect
  manual : e.manualPresent = true ↔ e.key ∈ settings.normalizedProxyUrls parsers
  sources : ∀ source ∈ e.subscriptionSources, source ∈ settings.subscriptionUrls
  backed : e.manualPresent = true ∨ e.subscriptionSources.Nonempty

/-- What holds of the endpoints of the manager under its settings. -/
structure Placed (parsers : ProxyParsers) (settings : ForwardProxySettings)
    (endpoints : List ForwardProxyEndpoint) : Prop where
  distinct : (endpoints.map ForwardProxyEndpoint.key).Nodup
  keyed : DirectKeyed endpoints
  bare : ∀ e ∈ endpoints, e.isDirect = true → e.subscriptionSources = ∅
  manual : ∀ e ∈ endpoints,
    e.manualPresent = true ↔ e.key ∈ settings.normalizedProxyUrls parsers
  sources : ∀ e ∈ endpoints, ∀ source ∈ e.subscriptionSources,
    source ∈ settings.subscriptionUrls
  direct : (∃ e ∈ endpoints, e.isDirect = true) ↔
    settings.insertDirect = true ∨ (settings.proxyUrls = [] ∧ settings.subscriptionUrls = [])

/-- The key of the direct endpoint is the normal form of no URL. -/
theorem directKey_notMem (settings : ForwardProxySettings) :
    forwardProxyDirectKey ∉ settings.normalizedProxyUrls parsers := by
  intro member
  obtain ⟨raw, _, parsed⟩ := List.mem_filterMap.1 member
  obtain ⟨entry, accepted, same⟩ := Option.map_eq_some_iff.1 parsed
  exact (parseForwardProxyEntry_spec accepted).2 same

/-- Without any URL no endpoint has a reason to be there. -/
theorem eq_nil_of_sourced {settings : ForwardProxySettings} {merged : List ForwardProxyEndpoint}
    (sourced : ∀ e ∈ merged, Sourced parsers settings e)
    (empty : settings.proxyUrls = [] ∧ settings.subscriptionUrls = []) : merged = [] := by
  rw [List.eq_nil_iff_forall_not_mem]
  intro e member
  rcases (sourced e member).backed with manual | ⟨source, listed⟩
  · have key := (sourced e member).manual.1 manual
    simp [ForwardProxySettings.normalizedProxyUrls, empty.1] at key
  · have known := (sourced e member).sources source listed
    rw [empty.2] at known
    cases known

theorem placed_withDirect {settings : ForwardProxySettings} {merged : List ForwardProxyEndpoint}
    (distinct : (merged.map ForwardProxyEndpoint.key).Nodup)
    (sourced : ∀ e ∈ merged, Sourced parsers settings e) :
    Placed parsers settings (withDirect settings merged) := by
  obtain ⟨nodup, keyed⟩ := withDirect_spec settings (fun e member => (sourced e member).indirect)
    distinct
  refine ⟨nodup, keyed, ?_, ?_, ?_, ?_⟩
  · intro e member direct
    rcases mem_withDirect member with there | rfl
    · rw [(sourced e there).indirect.1] at direct
      cases direct
    · rfl
  · intro e member
    rcases mem_withDirect member with there | rfl
    · exact (sourced e there).manual
    · have absent : ForwardProxyEndpoint.direct.key ∉ settings.normalizedProxyUrls parsers :=
        directKey_notMem settings
      simp [ForwardProxyEndpoint.direct] at absent ⊢
      exact absent
  · intro e member source listed
    rcases mem_withDirect member with there | rfl
    · exact (sourced e there).sources source listed
    · cases listed
  · rw [withDirect_eq]
    constructor
    · rintro ⟨e, member, direct⟩
      split at member
      · rename_i wanted
        exact wanted.imp id And.right
      · rw [(sourced e member).indirect.1] at direct
        cases direct
    · intro wanted
      have empty := eq_nil_of_sourced sourced
      rw [if_pos (wanted.imp id fun both => ⟨empty both, both⟩)]
      exact ⟨.direct, by simp, rfl⟩

/-! ### Rebuilt endpoints -/

/-- The sources of a list of endpoints that subscriptions gave. -/
theorem sourced_rebuilt {settings : ForwardProxySettings} {fetched : List (String × List String)}
    (current : ∀ e ∈ subscriptionEndpoints parsers fetched, ∀ source ∈ e.subscriptionSources,
      source ∈ settings.subscriptionUrls) :
    ∀ e ∈ rebuiltEndpoints parsers settings (subscriptionEndpoints parsers fetched),
      Sourced parsers settings e := by
  unfold rebuiltEndpoints
  rw [mergeAllKeyed_append]
  -- The manual endpoints come first, so that a new key of a subscription is not manual.
  have manualKey : ∀ e ∈ normalizeProxyEndpointsFromUrls parsers settings.proxyUrls,
      e.key ∈ settings.normalizedProxyUrls parsers := fun e member =>
    mem_keys_normalizeProxyEndpoints.1 (List.mem_map_of_mem member)
  refine mergeAllKeyed_forall ForwardProxyEndpoint.absorbDuplicate_key ?_ ?_ ?_
  · refine mergeAllKeyed_forall ForwardProxyEndpoint.absorbDuplicate_key ?_ ?_ ?_
    · intro e none
      cases none
    · intro a member e sourced same
      obtain ⟨indirect, manual, sources⟩ := mem_normalizeProxyEndpoints member
      refine ⟨⟨ForwardProxyEndpoint.absorbDuplicate_isDirect sourced.indirect.1 indirect.1,
        sourced.indirect.2⟩, ?_, ?_, ?_⟩
      · have key : e.key ∈ settings.normalizedProxyUrls parsers := same ▸ manualKey a member
        simp [manual, key]
      · simpa [sources] using sourced.sources
      · simp [manual]
    · intro a member _
      obtain ⟨indirect, manual, sources⟩ := mem_normalizeProxyEndpoints member
      refine ⟨indirect, ?_, ?_, Or.inl manual⟩
      · simp [manual, manualKey a member]
      · simp [sources]
  · intro a member e sourced same
    obtain ⟨indirect, manual, _⟩ := mem_subscriptionEndpoints member
    refine ⟨⟨ForwardProxyEndpoint.absorbDuplicate_isDirect sourced.indirect.1 indirect.1,
      sourced.indirect.2⟩, ?_, ?_, ?_⟩
    · simpa [manual] using sourced.manual
    · intro source listed
      rcases Finset.mem_union.1 listed with old | new
      · exact sourced.sources source old
      · exact current a member source new
    · exact sourced.backed.imp (fun old => by simp [old])
        fun old => old.mono Finset.subset_union_left
  · intro a member fresh
    obtain ⟨indirect, manual, subscription, _, sources, _⟩ := mem_subscriptionEndpoints member
    refine ⟨indirect, ?_, current a member, Or.inr (by simp [sources])⟩
    have unlisted : a.key ∉ settings.normalizedProxyUrls parsers := by
      intro key
      apply fresh
      rw [mem_keys_mergeAllKeyed ForwardProxyEndpoint.absorbDuplicate_key]
      exact Or.inr (mem_keys_normalizeProxyEndpoints.2 key)
    simp [manual, unlisted]

theorem mem_keys_rebuilt {settings : ForwardProxySettings}
    {subscription : List ForwardProxyEndpoint} {key : String} :
    key ∈ (rebuiltEndpoints parsers settings subscription).map ForwardProxyEndpoint.key ↔
      key ∈ settings.normalizedProxyUrls parsers ∨
        key ∈ subscription.map ForwardProxyEndpoint.key := by
  unfold rebuiltEndpoints
  rw [mem_keys_mergeAllKeyed ForwardProxyEndpoint.absorbDuplicate_key, List.map_append,
    List.mem_append, mem_keys_normalizeProxyEndpoints]
  simp

/-- A rebuilt endpoint names exactly the subscriptions that list it. -/
theorem exists_rebuilt_source_iff {settings : ForwardProxySettings}
    {subscription : List ForwardProxyEndpoint} {key source : String} :
    (∃ e ∈ rebuiltEndpoints parsers settings subscription,
        e.key = key ∧ source ∈ e.subscriptionSources) ↔
      ∃ e ∈ subscription, e.key = key ∧ source ∈ e.subscriptionSources := by
  constructor
  · rintro ⟨e, member, rfl, listed⟩
    have every : ∀ e ∈ rebuiltEndpoints parsers settings subscription,
        ∀ source ∈ e.subscriptionSources,
          ∃ a ∈ normalizeProxyEndpointsFromUrls parsers settings.proxyUrls ++ subscription,
            a.key = e.key ∧ source ∈ a.subscriptionSources := by
      refine mergeAllKeyed_forall ForwardProxyEndpoint.absorbDuplicate_key ?_ ?_ ?_
      · intro e none
        cases none
      · intro a member e named same source listed
        rcases Finset.mem_union.1 listed with old | new
        · exact named source old
        · exact ⟨a, member, same.symm, new⟩
      · exact fun a member _ source listed => ⟨a, member, rfl, listed⟩
    obtain ⟨a, there, same, named⟩ := every e member source listed
    rcases List.mem_append.1 there with manual | added
    · rw [(mem_normalizeProxyEndpoints manual).2.2] at named
      cases named
    · exact ⟨a, added, same, named⟩
  · rintro ⟨a, member, rfl, listed⟩
    have keeps : ∀ x e : ForwardProxyEndpoint, source ∈ e.subscriptionSources →
        source ∈ (e.absorbDuplicate x).subscriptionSources :=
      fun x e old => Finset.mem_union_left _ old
    have receives : ∀ x e : ForwardProxyEndpoint, source ∈ x.subscriptionSources →
        source ∈ (e.absorbDuplicate x).subscriptionSources :=
      fun x e new => Finset.mem_union_right _ new
    exact exists_mergeAllKeyed_of_added ForwardProxyEndpoint.absorbDuplicate_key keeps receives
      (List.mem_append_right _ member) listed

/-! ### Incremental endpoints -/

theorem sourced_retained {settings : ForwardProxySettings}
    {manualByKey : List ForwardProxyEndpoint}
    (same : manualByKey.Perm (normalizeProxyEndpointsFromUrls parsers settings.proxyUrls))
    {e kept : ForwardProxyEndpoint} (indirect : e.isDirect = true ↔ e.key = forwardProxyDirectKey)
    (retained : retainEndpoint settings manualByKey e = some kept) :
    Sourced parsers settings kept := by
  have backed : kept.manualPresent = true ∨ kept.subscriptionSources.Nonempty := by
    unfold retainEndpoint at retained
    split at retained
    · cases retained
    · simp only at retained
      split at retained
      · rename_i reason
        cases retained
        simpa [ForwardProxyEndpoint.isSubscriptionBacked, Finset.nonempty_iff_ne_empty] using reason
      · cases retained
  obtain ⟨proxied, key, protocol, manual, sources⟩ := retainEndpoint_eq_some retained
  refine ⟨⟨?_, ?_⟩, ?_, ?_, backed⟩
  · rw [ForwardProxyEndpoint.isDirect_eq_false_iff, protocol,
      ← ForwardProxyEndpoint.isDirect_eq_false_iff]
    exact proxied
  · rw [key]
    intro direct
    rw [indirect.2 direct] at proxied
    cases proxied
  · rw [manual, key, decide_eq_true_iff, (same.map ForwardProxyEndpoint.key).mem_iff,
      mem_keys_normalizeProxyEndpoints]
  · rw [sources]
    intro source member
    exact (Finset.mem_filter.1 member).2

theorem sourced_incremental {settings : ForwardProxySettings}
    {manualByKey : List ForwardProxyEndpoint}
    (same : manualByKey.Perm (normalizeProxyEndpointsFromUrls parsers settings.proxyUrls))
    {fetched : List (String × List String)}
    (current : ∀ subscription ∈ fetched, subscription.1 ∈ settings.subscriptionUrls)
    {endpoints : List ForwardProxyEndpoint} (keyed : DirectKeyed endpoints) :
    ∀ e ∈ incrementalEndpoints parsers settings manualByKey fetched endpoints,
      Sourced parsers settings e := by
  have manualKey : ∀ e ∈ manualByKey, e.key ∈ settings.normalizedProxyUrls parsers :=
    fun e member => mem_keys_normalizeProxyEndpoints.1 (List.mem_map_of_mem (same.mem_iff.1 member))
  unfold incrementalEndpoints
  simp only
  refine mergeAllKeyed_forall adoptSubscription_key ?_ ?_ ?_
  · refine mergeAllKeyed_forall adoptManual_key ?_ ?_ ?_
    · refine mergeAllKeyed_forall kept_key ?_ (fun _ _ _ sourced _ => sourced) ?_
      · intro e none
        cases none
      · intro e member _
        obtain ⟨old, there, retained⟩ := List.mem_filterMap.1 member
        exact sourced_retained same (keyed old there) retained
    · intro a member e sourced key
      obtain ⟨indirect, _, _⟩ := mem_normalizeProxyEndpoints (same.mem_iff.1 member)
      have listed : e.key ∈ settings.normalizedProxyUrls parsers := key ▸ manualKey a member
      exact ⟨⟨indirect.1, sourced.indirect.2⟩, ⟨fun _ => listed, fun _ => rfl⟩, sourced.sources,
        Or.inl rfl⟩
    · intro a member _
      obtain ⟨indirect, manual, sources⟩ := mem_normalizeProxyEndpoints (same.mem_iff.1 member)
      refine ⟨indirect, ⟨fun _ => manualKey a member, fun _ => manual⟩, ?_, Or.inl manual⟩
      simp [sources]
  · intro a member e sourced key
    obtain ⟨_, _, subscription, there, sources, _⟩ := mem_subscriptionEndpoints member
    refine ⟨sourced.indirect, sourced.manual, ?_, ?_⟩
    · intro source listed
      rcases Finset.mem_union.1 listed with old | new
      · exact sourced.sources source old
      · rw [sources, Finset.mem_singleton] at new
        rw [new]
        exact current subscription there
    · exact sourced.backed.imp id fun old => old.mono Finset.subset_union_left
  · intro a member fresh
    obtain ⟨indirect, manual, subscription, there, sources, _⟩ := mem_subscriptionEndpoints member
    have unlisted : a.key ∉ settings.normalizedProxyUrls parsers := by
      intro key
      apply fresh
      rw [mem_keys_mergeAllKeyed adoptManual_key]
      right
      rw [(same.map ForwardProxyEndpoint.key).mem_iff]
      exact mem_keys_normalizeProxyEndpoints.2 key
    refine ⟨indirect, by simp [manual, unlisted], ?_, Or.inr (by simp [sources])⟩
    intro source listed
    rw [sources, Finset.mem_singleton] at listed
    rw [listed]
    exact current subscription there

/-- An incremental change keeps an endpoint for every subscription that stays. -/
theorem incremental_keeps {settings : ForwardProxySettings}
    {manualByKey : List ForwardProxyEndpoint} {fetched : List (String × List String)}
    {endpoints : List ForwardProxyEndpoint}
    (distinct : (endpoints.map ForwardProxyEndpoint.key).Nodup) {e : ForwardProxyEndpoint}
    (member : e ∈ endpoints) (proxied : e.isDirect = false) {source : String}
    (listed : source ∈ e.subscriptionSources) (stays : source ∈ settings.subscriptionUrls) :
    ∃ e' ∈ incrementalEndpoints parsers settings manualByKey fetched endpoints,
      e'.key = e.key ∧ source ∈ e'.subscriptionSources := by
  have sources : source ∈ e.subscriptionSources.filter (· ∈ settings.subscriptionUrls) :=
    Finset.mem_filter.2 ⟨listed, stays⟩
  have retained : ∃ kept, retainEndpoint settings manualByKey e = some kept := by
    have backed : e.subscriptionSources.filter (· ∈ settings.subscriptionUrls) ≠ ∅ :=
      Finset.ne_empty_of_mem sources
    simp [retainEndpoint, proxied, ForwardProxyEndpoint.isSubscriptionBacked, backed]
  obtain ⟨kept, retained⟩ := retained
  obtain ⟨_, key, _, _, same⟩ := retainEndpoint_eq_some retained
  have there : kept ∈ endpoints.filterMap (retainEndpoint settings manualByKey) :=
    List.mem_filterMap.2 ⟨e, member, retained⟩
  rw [← same] at sources
  have keys : ((endpoints.filterMap (retainEndpoint settings manualByKey)).map
      ForwardProxyEndpoint.key).Nodup := by
    refine distinct.sublist (keys_filterMap_sublist ?_ endpoints)
    exact fun old kept retained => (retainEndpoint_eq_some retained).2.1
  have first : kept ∈ mergeAllKeyed ForwardProxyEndpoint.key (fun existing _ => existing)
      (endpoints.filterMap (retainEndpoint settings manualByKey)) [] := by
    rw [mergeAllKeyed_of_fresh keys fun _ _ => List.not_mem_nil]
    exact there
  have manualKeeps : ∀ a b : ForwardProxyEndpoint, source ∈ b.subscriptionSources →
      source ∈ (adoptManual b a).subscriptionSources := fun _ _ named => named
  have subscriptionKeeps : ∀ a b : ForwardProxyEndpoint, source ∈ b.subscriptionSources →
      source ∈ (adoptSubscription b a).subscriptionSources :=
    fun a b named => Finset.mem_union_left _ named
  obtain ⟨second, there, secondKey, named⟩ :=
    exists_mergeAllKeyed_of_mem adoptManual_key manualByKey manualKeeps first sources
  obtain ⟨third, there, thirdKey, named⟩ :=
    exists_mergeAllKeyed_of_mem adoptSubscription_key (subscriptionEndpoints parsers fetched)
      subscriptionKeeps there named
  exact ⟨third, there, thirdKey.trans (secondKey.trans key), named⟩

/-! ### What holds at every step -/

namespace SubscriptionState

/-- An endpoint with the key is still there. -/
def Kept (state : SubscriptionState) (e : ForwardProxyEndpoint) (_source : String) : Prop :=
  ∃ e' ∈ state.manager.endpoints, e'.key = e.key

/-- An endpoint with the key is still there, and still known from the subscription. -/
def KeptFromSource (state : SubscriptionState) (e : ForwardProxyEndpoint) (source : String) : Prop :=
  ∃ e' ∈ state.manager.endpoints, e'.key = e.key ∧ source ∈ e'.subscriptionSources

/-- Distinct keys, manual marks and subscription sources as the settings have them, the
direct endpoint where they want it, and no endpoint lost that was known from a
subscription whose last fetch has failed; `kept` is what is asked of such an endpoint. -/
structure Provenance (parsers : ProxyParsers)
    (kept : SubscriptionState → ForwardProxyEndpoint → String → Prop)
    (state : SubscriptionState) : Prop where
  distinct : (state.manager.endpoints.map ForwardProxyEndpoint.key).Nodup
  manual : ∀ e ∈ state.manager.endpoints, e.manualPresent = true ↔
    e.key ∈ state.manager.settings.normalizedProxyUrls parsers
  sources : ∀ e ∈ state.manager.endpoints, ∀ source ∈ e.subscriptionSources,
    source ∈ state.manager.settings.subscriptionUrls
  direct : (∃ e ∈ state.manager.endpoints, e.isDirect = true) ↔
    state.manager.settings.insertDirect = true ∨
      (state.manager.settings.proxyUrls = [] ∧ state.manager.settings.subscriptionUrls = [])
  known : ∀ e ∈ state.previous, ∀ source ∈ e.subscriptionSources,
    source ∈ state.manager.settings.subscriptionUrls → state.latestFailed source = true →
    kept state e source

/-- A line of the subscription is an entry with the key. -/
def Lists (parsers : ProxyParsers) (subscription : String × List String) (key : String) : Prop :=
  key ∈ (parsedEntries parsers subscription.2).map ParsedForwardProxyEntry.normalized

/-- The key is that of a proxy URL, or some fetched subscription lists it. -/
def Relisted (parsers : ProxyParsers) (state : SubscriptionState)
    (fetched : List (String × List String)) (e : ForwardProxyEndpoint) (_source : String) : Prop :=
  e.key ∈ state.manager.settings.normalizedProxyUrls parsers ∨
    ∃ subscription ∈ fetched, Lists parsers subscription e.key

/-- The subscription itself was fetched and lists the key. -/
def RelistedBySource (parsers : ProxyParsers) (_state : SubscriptionState)
    (fetched : List (String × List String)) (e : ForwardProxyEndpoint) (source : String) : Prop :=
  ∃ subscription ∈ fetched, subscription.1 = source ∧ Lists parsers subscription e.key

/-- A refresh that brings back nothing of a subscription that the settings no longer have,
and misses nothing that is known from one whose last fetch has failed. -/
structure HarmlessRefresh (parsers : ProxyParsers)
    (relisted : SubscriptionState → List (String × List String) → ForwardProxyEndpoint → String →
      Prop)
    (state : SubscriptionState) (fetched : List (String × List String)) : Prop where
  current : ∀ subscription ∈ fetched, (∃ key, Lists parsers subscription key) →
    subscription.1 ∈ state.manager.settings.subscriptionUrls
  known : ∀ e ∈ state.manager.endpoints, ∀ source ∈ e.subscriptionSources,
    source ∈ state.manager.settings.subscriptionUrls → state.latestFailed source = true →
    relisted state fetched e source

/-- Every refresh that is applied is a harmless one. -/
def Harmless (parsers : ProxyParsers)
    (relisted : SubscriptionState → List (String × List String) → ForwardProxyEndpoint → String →
      Prop)
    (state : SubscriptionState) : SubscriptionAction → Prop
  | .apply index _ _ => ∀ task, state.tasks[index]? = some task → task.purpose = .refresh →
      HarmlessRefresh parsers relisted state task.fetched.rows
  | _ => True

/-! ### The invariant -/

/-- A task fetches URLs of its list only, and a save URLs of the settings it will apply. -/
structure TaskSound (task : FetchTask) : Prop where
  remaining : ∀ url ∈ task.remaining, url ∈ task.subscriptionUrls
  fetched : ∀ row ∈ task.fetched.rows, row.1 ∈ task.subscriptionUrls
  settings : ∀ settings, task.purpose = .settings settings →
    ∀ url ∈ task.subscriptionUrls, url ∈ settings.subscriptionUrls

structure Sound (parsers : ProxyParsers) (state : SubscriptionState) : Prop where
  placed : Placed parsers state.manager.settings state.manager.endpoints
  tasks : ∀ task ∈ state.tasks, TaskSound task

variable {state state' : SubscriptionState}
  {kept : SubscriptionState → ForwardProxyEndpoint → String → Prop}

theorem Sound.provenance (sound : state.Sound parsers)
    (known : ∀ e ∈ state.previous, ∀ source ∈ e.subscriptionSources,
      source ∈ state.manager.settings.subscriptionUrls → state.latestFailed source = true →
      kept state e source) : state.Provenance parsers kept where
  distinct := sound.placed.distinct
  manual := sound.placed.manual
  sources := sound.placed.sources
  direct := sound.placed.direct
  known := known

/-- An endpoint that a subscription names is not the direct one. -/
theorem Sound.proxied (sound : state.Sound parsers) {e : ForwardProxyEndpoint}
    (member : e ∈ state.manager.endpoints) {source : String}
    (listed : source ∈ e.subscriptionSources) : e.isDirect = false := by
  cases direct : e.isDirect with
  | false => rfl
  | true =>
      rw [sound.placed.bare e member direct] at listed
      cases listed

/-- A step that leaves the manager alone keeps the provenance of its endpoints. -/
theorem known_of_same_manager (same : state'.manager = state.manager)
    (previous : state'.previous = state.manager.endpoints) :
    ∀ e ∈ state'.previous, ∀ source ∈ e.subscriptionSources, state'.KeptFromSource e source := by
  intro e member source listed
  rw [previous] at member
  exact ⟨e, by rw [same]; exact member, rfl, listed⟩

/-! ### Tasks -/

theorem tasks_start (tasks : ∀ task ∈ state.tasks, TaskSound task) {purpose : FetchPurpose}
    {subscriptionUrls : List String}
    (wanted : ∀ settings, purpose = .settings settings →
      ∀ url ∈ subscriptionUrls, url ∈ settings.subscriptionUrls) :
    ∀ task ∈ (state.start purpose subscriptionUrls).tasks, TaskSound task := by
  intro task member
  rcases List.mem_append.1 member with old | new
  · exact tasks task old
  · rw [List.mem_singleton.1 new]
    exact ⟨fun _ url => url, fun row none => (by cases none), wanted⟩

/-- One fetch takes the next URL of its task. -/
theorem fetch_cases {index : Nat} {answer : Option (List String)}
    (taken : state.fetch index answer = some state') :
    ∃ task url remaining, state.tasks[index]? = some task ∧ task.remaining = url :: remaining ∧
      state'.tasks = state.tasks.set index
        { task with
          remaining
          fetched := answer.elim task.fetched fun lines =>
            task.fetched.upsert url lines fun _ => lines } ∧
      state'.manager = state.manager ∧ state'.previous = state.manager.endpoints := by
  simp only [fetch, Option.bind_eq_bind, Option.bind_eq_some_iff] at taken
  obtain ⟨task, found, next⟩ := taken
  split at next
  · cases next
  · rename_i url remaining pending
    cases next
    exact ⟨task, url, remaining, found, pending, rfl, rfl, rfl⟩

theorem tasks_fetch (tasks : ∀ task ∈ state.tasks, TaskSound task) {index : Nat}
    {answer : Option (List String)} (taken : state.fetch index answer = some state') :
    ∀ task ∈ state'.tasks, TaskSound task := by
  obtain ⟨task, url, remaining, found, pending, same, _⟩ := fetch_cases taken
  obtain ⟨left, fetched, settings⟩ := tasks task (List.mem_of_getElem? found)
  intro other member
  rw [same] at member
  rcases List.mem_or_eq_of_mem_set member with old | rfl
  · exact tasks other old
  · refine ⟨fun u there => left u (pending ▸ List.mem_cons_of_mem _ there), ?_, settings⟩
    intro row there
    cases answer with
    | none => exact fetched row there
    | some lines =>
        have key : row.1 ∈ (task.fetched.upsert url lines fun _ => lines).rows.map Prod.fst :=
          List.mem_map_of_mem there
        rw [show (task.fetched.upsert url lines fun _ => lines).rows =
          upsertRow url lines (fun _ => lines) task.fetched.rows from rfl, keys_upsertRow] at key
        have old : ∀ k ∈ task.fetched.rows.map Prod.fst, k ∈ task.subscriptionUrls := by
          rintro k listed
          obtain ⟨row, there, rfl⟩ := List.mem_map.1 listed
          exact fetched row there
        split at key
        · exact old _ key
        · rcases List.mem_append.1 key with before | added
          · exact old _ before
          · rw [List.mem_singleton.1 added]
            exact left url (pending ▸ List.mem_cons_self)

/-! ### Operations on the manager -/

theorem rebuildEndpoints_endpoints (subscription : List ForwardProxyEndpoint)
    (manager : ForwardProxyManager) :
    (rebuildEndpoints parsers subscription manager).endpoints =
      withDirect manager.settings (rebuiltEndpoints parsers manager.settings subscription) := by
  simp [rebuildEndpoints]

@[simp] theorem rebuildEndpoints_settings (subscription : List ForwardProxyEndpoint)
    (manager : ForwardProxyManager) :
    (rebuildEndpoints parsers subscription manager).settings = manager.settings := by
  simp [rebuildEndpoints]

theorem placed_rebuilt {fetched : List (String × List String)} {manager : ForwardProxyManager}
    (current : ∀ subscription ∈ fetched, (∃ key, Lists parsers subscription key) →
      subscription.1 ∈ manager.settings.subscriptionUrls) :
    Placed parsers (manager.applySubscriptionRefresh parsers fetched).settings
      (manager.applySubscriptionRefresh parsers fetched).endpoints := by
  unfold applySubscriptionRefresh
  rw [rebuildEndpoints_endpoints, rebuildEndpoints_settings]
  apply placed_withDirect (nodup_rebuiltEndpoints _ _)
  apply sourced_rebuilt
  intro e member source listed
  obtain ⟨_, _, subscription, there, sources, lists⟩ := mem_subscriptionEndpoints member
  rw [sources, Finset.mem_singleton] at listed
  rw [listed]
  exact current subscription there ⟨e.key, lists⟩

theorem placed_new (settings : ForwardProxySettings)
    (runtimeRows : List (String × ForwardProxyRuntimeState)) (now : Int) :
    Placed parsers (ForwardProxyManager.new parsers settings runtimeRows now).settings
      (ForwardProxyManager.new parsers settings runtimeRows now).endpoints := by
  unfold ForwardProxyManager.new
  rw [rebuildEndpoints_endpoints, rebuildEndpoints_settings]
  apply placed_withDirect (nodup_rebuiltEndpoints _ _)
  have unfetched : subscriptionEndpoints parsers [] = [] := rfl
  rw [← unfetched]
  apply sourced_rebuilt
  intro e member
  rw [unfetched] at member
  cases member

theorem placed_incremental {settings : ForwardProxySettings}
    {manualByKey : List ForwardProxyEndpoint}
    (same : manualByKey.Perm (normalizeProxyEndpointsFromUrls parsers settings.proxyUrls))
    {fetched : List (String × List String)}
    (current : ∀ subscription ∈ fetched, subscription.1 ∈ settings.subscriptionUrls)
    {manager : ForwardProxyManager} (keyed : DirectKeyed manager.endpoints) :
    Placed parsers
      (manager.applyIncrementalSettings parsers settings manualByKey fetched).settings
      (manager.applyIncrementalSettings parsers settings manualByKey fetched).endpoints := by
  simp only [applyIncrementalSettings, ensureNonZeroWeight_settings, ensureNonZeroWeight_endpoints]
  exact placed_withDirect (nodup_incrementalEndpoints _ _ _ _)
    (sourced_incremental same current keyed)

/-- A sync of the relays changes no provenance. -/
theorem syncEndpoint_provenance {egress : Option ProxyUrl}
    {route : ForwardProxyEndpoint → Option ProxyUrl} (e : ForwardProxyEndpoint) :
    (syncEndpoint parsers egress route e).manualPresent = e.manualPresent ∧
      (syncEndpoint parsers egress route e).subscriptionSources = e.subscriptionSources := by
  unfold syncEndpoint
  split
  · exact ⟨rfl, rfl⟩
  · exact ⟨rfl, rfl⟩

theorem placed_syncRoutes {manager : ForwardProxyManager}
    (placed : Placed parsers manager.settings manager.endpoints)
    (route : ForwardProxyEndpoint → Option ProxyUrl) :
    Placed parsers (manager.syncRoutes parsers route).settings
      (manager.syncRoutes parsers route).endpoints := by
  obtain ⟨distinct, keyed, bare, manual, sources, direct⟩ := placed
  unfold syncRoutes
  refine ⟨by simpa using distinct, keyed.syncEndpoints, ?_, ?_, ?_, ?_⟩
  · rintro e member
    obtain ⟨old, there, rfl⟩ := List.mem_map.1 member
    rw [syncEndpoint_isDirect, (syncEndpoint_provenance old).2]
    exact bare old there
  · rintro e member
    obtain ⟨old, there, rfl⟩ := List.mem_map.1 member
    rw [syncEndpoint_key, (syncEndpoint_provenance old).1]
    exact manual old there
  · rintro e member
    obtain ⟨old, there, rfl⟩ := List.mem_map.1 member
    rw [(syncEndpoint_provenance old).2]
    exact sources old there
  · rw [← direct]
    constructor
    · rintro ⟨e, member, there⟩
      obtain ⟨old, before, rfl⟩ := List.mem_map.1 member
      exact ⟨old, before, by simpa using there⟩
    · rintro ⟨e, member, there⟩
      exact ⟨_, List.mem_map_of_mem member, by simpa using there⟩

/-! ### What a refresh keeps -/

theorem mem_keys_subscriptionEndpoints {fetched : List (String × List String)} {key : String} :
    key ∈ (subscriptionEndpoints parsers fetched).map ForwardProxyEndpoint.key ↔
      ∃ subscription ∈ fetched, Lists parsers subscription key := by
  constructor
  · intro member
    obtain ⟨e, there, rfl⟩ := List.mem_map.1 member
    obtain ⟨_, _, subscription, fetchedIt, _, lists⟩ := mem_subscriptionEndpoints there
    exact ⟨subscription, fetchedIt, lists⟩
  · rintro ⟨subscription, there, lists⟩
    obtain ⟨e, member, same, _⟩ := exists_subscriptionEndpoint there lists
    exact List.mem_map.2 ⟨e, member, same⟩

theorem kept_iff_relisted (sound : state.Sound parsers) {order rows : List (String × List String)}
    (same : order.Perm rows)
    (refreshed : state'.manager = state.manager.applySubscriptionRefresh parsers order)
    {e : ForwardProxyEndpoint} (member : e ∈ state.manager.endpoints) {source : String}
    (listed : source ∈ e.subscriptionSources) :
    state'.Kept e source ↔ Relisted parsers state rows e source := by
  have other : e.key ≠ forwardProxyDirectKey := by
    intro direct
    have proxied := sound.proxied member listed
    rw [(sound.placed.keyed e member).2 direct] at proxied
    cases proxied
  have keys : state'.Kept e source ↔ e.key ∈ (rebuiltEndpoints parsers state.manager.settings
      (subscriptionEndpoints parsers order)).map ForwardProxyEndpoint.key := by
    unfold Kept
    rw [refreshed, applySubscriptionRefresh, rebuildEndpoints_endpoints]
    constructor
    · rintro ⟨e', there, key⟩
      rcases mem_withDirect there with rebuilt | rfl
      · exact List.mem_map.2 ⟨e', rebuilt, key⟩
      · exact absurd key.symm other
    · intro key
      obtain ⟨e', there, same⟩ := List.mem_map.1 key
      exact ⟨e', mem_withDirect_of_mem _ there, same⟩
  rw [keys, mem_keys_rebuilt, mem_keys_subscriptionEndpoints]
  simp only [Relisted, same.mem_iff]

theorem keptFromSource_iff_relisted {order rows : List (String × List String)}
    (same : order.Perm rows)
    (refreshed : state'.manager = state.manager.applySubscriptionRefresh parsers order)
    (e : ForwardProxyEndpoint) (source : String) :
    state'.KeptFromSource e source ↔ RelistedBySource parsers state rows e source := by
  have rebuilt : state'.KeptFromSource e source ↔
      ∃ e' ∈ rebuiltEndpoints parsers state.manager.settings
        (subscriptionEndpoints parsers order), e'.key = e.key ∧
          source ∈ e'.subscriptionSources := by
    unfold KeptFromSource
    rw [refreshed, applySubscriptionRefresh, rebuildEndpoints_endpoints]
    constructor
    · rintro ⟨e', there, key, named⟩
      rcases mem_withDirect there with rebuilt | rfl
      · exact ⟨e', rebuilt, key, named⟩
      · cases named
    · rintro ⟨e', there, key, named⟩
      exact ⟨e', mem_withDirect_of_mem _ there, key, named⟩
  rw [rebuilt, exists_rebuilt_source_iff]
  unfold RelistedBySource
  constructor
  · rintro ⟨x, there, key, named⟩
    obtain ⟨_, _, subscription, fetchedIt, sources, lists⟩ := mem_subscriptionEndpoints there
    rw [sources, Finset.mem_singleton] at named
    exact ⟨subscription, same.mem_iff.1 fetchedIt, named.symm, key ▸ lists⟩
  · rintro ⟨subscription, there, named, lists⟩
    obtain ⟨x, member, key, sources⟩ := exists_subscriptionEndpoint (same.mem_iff.2 there) lists
    exact ⟨x, member, key, by simp [sources, named]⟩

/-! ### Steps and runs -/

theorem apply_cases {index : Nat} {order : List (String × List String)}
    {manualByKey : List ForwardProxyEndpoint}
    (taken : state.apply parsers index order manualByKey = some state') :
    ∃ task, state.tasks[index]? = some task ∧ order.Perm task.fetched.rows ∧
      applied parsers state.manager task order manualByKey = some state'.manager ∧
      state'.tasks = state.tasks.eraseIdx index ∧ state'.latestFailed = state.latestFailed ∧
      state'.previous = state.manager.endpoints := by
  simp only [apply, Option.bind_eq_bind, Option.bind_eq_some_iff] at taken
  obtain ⟨task, found, _, ready, manager, done, same⟩ := taken
  cases same
  rw [Option.guard_eq_some'] at ready
  exact ⟨task, found, ready.2, done, rfl, rfl, rfl⟩

variable {relisted : SubscriptionState → List (String × List String) → ForwardProxyEndpoint →
  String → Prop}

/-- `relisted` says before a refresh which endpoints it keeps in the sense of `kept`, that
holds at least of those which are kept with their subscription. -/
structure Foretells (parsers : ProxyParsers)
    (kept : SubscriptionState → ForwardProxyEndpoint → String → Prop)
    (relisted : SubscriptionState → List (String × List String) → ForwardProxyEndpoint →
      String → Prop) : Prop where
  weaker : ∀ state e source, KeptFromSource state e source → kept state e source
  exact : ∀ state state' order rows, Sound parsers state → order.Perm rows →
    state'.manager = state.manager.applySubscriptionRefresh parsers order →
    ∀ e ∈ state.manager.endpoints, ∀ source ∈ e.subscriptionSources,
      (kept state' e source ↔ relisted state rows e source)

/-- The application of a refresh: placed exactly when nothing stale comes back, and keeping
what it foretells. -/
theorem refresh_spec (foretells : Foretells parsers kept relisted) (sound : state.Sound parsers)
    {order rows : List (String × List String)} (same : order.Perm rows)
    (refreshed : state'.manager = state.manager.applySubscriptionRefresh parsers order)
    (tasks : ∀ task ∈ state'.tasks, TaskSound task)
    (failed : state'.latestFailed = state.latestFailed)
    (previous : state'.previous = state.manager.endpoints) :
    (HarmlessRefresh parsers relisted state rows →
      state'.Sound parsers ∧ state'.Provenance parsers kept) ∧
    (state'.Provenance parsers kept → HarmlessRefresh parsers relisted state rows) := by
  have settings : state'.manager.settings = state.manager.settings := by
    rw [refreshed, applySubscriptionRefresh, rebuildEndpoints_settings]
  constructor
  · rintro ⟨current, known⟩
    have sound' : state'.Sound parsers := by
      refine ⟨?_, tasks⟩
      rw [refreshed]
      exact placed_rebuilt fun subscription there => current subscription (same.mem_iff.1 there)
    refine ⟨sound', sound'.provenance ?_⟩
    intro e member source listed wanted latest
    rw [previous] at member
    rw [settings] at wanted
    rw [failed] at latest
    exact (foretells.exact state state' order rows sound same refreshed e member source listed).2
      (known e member source listed wanted latest)
  · intro provenance
    constructor
    · rintro subscription there ⟨key, lists⟩
      obtain ⟨e, member, same', sources⟩ :=
        exists_subscriptionEndpoint (same.mem_iff.2 there) lists
      have named : subscription.1 ∈ e.subscriptionSources := by simp [sources]
      obtain ⟨e', rebuilt, _, named'⟩ := exists_rebuilt_source_iff.2 ⟨e, member, same', named⟩
      have last : e' ∈ state'.manager.endpoints := by
        rw [refreshed, applySubscriptionRefresh, rebuildEndpoints_endpoints]
        exact mem_withDirect_of_mem _ rebuilt
      rw [← settings]
      exact provenance.sources e' last subscription.1 named'
    · intro e member source listed wanted latest
      apply (foretells.exact state state' order rows sound same refreshed e member source listed).1
      apply provenance.known e (by rw [previous]; exact member) source listed
      · rw [settings]
        exact wanted
      · rw [failed]
        exact latest

/-- The application of a save keeps every endpoint of a subscription that stays. -/
theorem incremental_spec (sound : state.Sound parsers) {settings : ForwardProxySettings}
    {manualByKey : List ForwardProxyEndpoint}
    (same : manualByKey.Perm (normalizeProxyEndpointsFromUrls parsers settings.proxyUrls))
    {order : List (String × List String)}
    (current : ∀ subscription ∈ order, subscription.1 ∈ settings.subscriptionUrls)
    (updated : state'.manager =
      state.manager.applyIncrementalSettings parsers settings manualByKey order)
    (tasks : ∀ task ∈ state'.tasks, TaskSound task)
    (previous : state'.previous = state.manager.endpoints) :
    state'.Sound parsers ∧ state'.Provenance parsers KeptFromSource := by
  have sound' : state'.Sound parsers := by
    refine ⟨?_, tasks⟩
    rw [updated]
    exact placed_incremental same current sound.placed.keyed
  refine ⟨sound', sound'.provenance ?_⟩
  intro e member source listed wanted _
  rw [previous] at member
  rw [updated] at wanted
  simp only [applyIncrementalSettings, ensureNonZeroWeight_settings] at wanted
  have stays : ∃ e' ∈ incrementalEndpoints parsers settings manualByKey order
      state.manager.endpoints, e'.key = e.key ∧ source ∈ e'.subscriptionSources :=
    incremental_keeps sound.placed.distinct member (sound.proxied member listed) listed wanted
  obtain ⟨e', there, key, named⟩ := stays
  refine ⟨e', ?_, key, named⟩
  rw [updated]
  simp only [applyIncrementalSettings, ensureNonZeroWeight_endpoints]
  exact mem_withDirect_of_mem _ there

theorem Provenance.mono (weaker : ∀ state e source, KeptFromSource state e source →
      kept state e source)
    (provenance : state.Provenance parsers KeptFromSource) : state.Provenance parsers kept :=
  ⟨provenance.distinct, provenance.manual, provenance.sources, provenance.direct,
    fun e member source listed wanted latest =>
      weaker state e source (provenance.known e member source listed wanted latest)⟩

theorem known_syncRoutes (sound : state.Sound parsers)
    {route : ForwardProxyEndpoint → Option ProxyUrl}
    (synced : state'.manager = state.manager.syncRoutes parsers route)
    (tasks : state'.tasks = state.tasks) (previous : state'.previous = state.manager.endpoints) :
    state'.Sound parsers ∧ state'.Provenance parsers KeptFromSource := by
  have sound' : state'.Sound parsers := by
    refine ⟨?_, by rw [tasks]; exact sound.tasks⟩
    rw [synced]
    exact placed_syncRoutes sound.placed route
  refine ⟨sound', sound'.provenance ?_⟩
  intro e member source listed _ _
  rw [previous] at member
  refine ⟨_, by rw [synced]; exact List.mem_map_of_mem member, syncEndpoint_key e, ?_⟩
  rw [(syncEndpoint_provenance e).2]
  exact listed

/-- A step that leaves the manager alone, with sound tasks after it. -/
theorem unchanged_spec (sound : state.Sound parsers) (same : state'.manager = state.manager)
    (tasks : ∀ task ∈ state'.tasks, TaskSound task)
    (previous : state'.previous = state.manager.endpoints) :
    state'.Sound parsers ∧ state'.Provenance parsers KeptFromSource := by
  have sound' : state'.Sound parsers := ⟨by rw [same]; exact sound.placed, tasks⟩
  refine ⟨sound', sound'.provenance ?_⟩
  intro e member source listed _ _
  exact known_of_same_manager same previous e member source listed

theorem step_spec (foretells : Foretells parsers kept relisted) (sound : state.Sound parsers)
    {action : SubscriptionAction} (taken : step parsers state action = some state') :
    (state.Harmless parsers relisted action →
      state'.Sound parsers ∧ state'.Provenance parsers kept) ∧
    (state'.Provenance parsers kept → state.Harmless parsers relisted action) := by
  have harmless : state'.Sound parsers ∧ state'.Provenance parsers KeptFromSource →
      state'.Sound parsers ∧ state'.Provenance parsers kept :=
    fun both => ⟨both.1, both.2.mono foretells.weaker⟩
  cases action with
  | startRefresh =>
      cases taken
      refine ⟨fun _ => harmless (unchanged_spec sound rfl ?_ rfl), fun _ => trivial⟩
      exact tasks_start sound.tasks fun settings purpose => by cases purpose
  | startUpdate settings =>
      cases taken
      refine ⟨fun _ => harmless (unchanged_spec sound rfl ?_ rfl), fun _ => trivial⟩
      apply tasks_start sound.tasks
      intro other same url listed
      cases same
      exact List.mem_of_mem_filter listed
  | fetch index answer =>
      obtain ⟨_, _, _, _, _, _, same, previous⟩ := fetch_cases taken
      exact ⟨fun _ => harmless (unchanged_spec sound same (tasks_fetch sound.tasks taken) previous),
        fun _ => trivial⟩
  | apply index order manualByKey =>
      obtain ⟨task, found, same, done, tasks, failed, previous⟩ := apply_cases taken
      have rest : ∀ task ∈ state'.tasks, TaskSound task := by
        intro task member
        rw [tasks] at member
        exact sound.tasks task (List.mem_of_mem_eraseIdx member)
      cases purpose : task.purpose with
      | refresh =>
          simp only [applied, purpose] at done
          split at done
          · cases done
          · obtain ⟨keeps, exact'⟩ := refresh_spec foretells sound same
              (Option.some.inj done).symm rest failed previous
            constructor
            · exact fun good => keeps (good task found purpose)
            · intro provenance other found' _
              rw [found] at found'
              cases found'
              exact exact' provenance
      | settings settings =>
          simp only [applied, purpose] at done
          split at done
          · rename_i manual
            constructor
            · intro _
              refine harmless (incremental_spec sound manual ?_ (Option.some.inj done).symm rest
                previous)
              intro subscription there
              obtain ⟨_, fetched, wanted⟩ := sound.tasks task (List.mem_of_getElem? found)
              exact wanted settings purpose _ (fetched subscription (same.mem_iff.1 there))
            · intro _ other found' refresh
              rw [found] at found'
              cases found'
              rw [purpose] at refresh
              cases refresh
          · cases done
  | syncRoutes route =>
      cases taken
      exact ⟨fun _ => harmless (known_syncRoutes sound rfl rfl rfl), fun _ => trivial⟩
  | abandon index =>
      cases taken
      refine ⟨fun _ => harmless (unchanged_spec sound rfl ?_ rfl), fun _ => trivial⟩
      exact fun task member => sound.tasks task (List.mem_of_mem_eraseIdx member)

theorem sound_init (settings : ForwardProxySettings)
    (runtimeRows : List (String × ForwardProxyRuntimeState)) (now : Int) :
    (init parsers settings runtimeRows now).Sound parsers := by
  refine ⟨?_, fun task none => by cases none⟩
  apply placed_new

theorem alongRun_iff_harmless (foretells : Foretells parsers kept relisted)
    (settings : ForwardProxySettings) (runtimeRows : List (String × ForwardProxyRuntimeState))
    (now : Int) (actions : List SubscriptionAction) :
    (subscriptionSystem parsers).AlongRun (Provenance parsers kept)
        (init parsers settings runtimeRows now) actions ↔
      (subscriptionSystem parsers).Guarded (Harmless parsers relisted)
        (init parsers settings runtimeRows now) actions := by
  have sound : (init parsers settings runtimeRows now).Sound parsers :=
    sound_init settings runtimeRows now
  apply TransitionSystem.alongRun_iff_guarded (subscriptionSystem parsers)
  · exact fun state action state'
      (inv : state.Sound parsers ∧ state.Provenance parsers kept) good taken =>
        (step_spec foretells inv.1 taken).1 good
  · exact fun state inv => inv.2
  · exact fun state action state' inv taken provenance =>
      (step_spec foretells inv.1 taken).2 provenance
  · exact ⟨sound, sound.provenance fun e none => by cases none⟩

/-- Over every run of refreshes and saves the endpoints have the provenance that the settings
and the fetches give them exactly when every refresh applied in it is harmless; so both
where a kept endpoint only has to be there and where it has to be known from its
subscription still. -/
theorem provenance_alongRun (parsers : ProxyParsers) (settings : ForwardProxySettings)
    (runtimeRows : List (String × ForwardProxyRuntimeState)) (now : Int)
    (actions : List SubscriptionAction) :
    ((subscriptionSystem parsers).AlongRun (Provenance parsers Kept)
        (init parsers settings runtimeRows now) actions ↔
      (subscriptionSystem parsers).Guarded (Harmless parsers (Relisted parsers))
        (init parsers settings runtimeRows now) actions) ∧
    ((subscriptionSystem parsers).AlongRun (Provenance parsers KeptFromSource)
        (init parsers settings runtimeRows now) actions ↔
      (subscriptionSystem parsers).Guarded (Harmless parsers (RelistedBySource parsers))
        (init parsers settings runtimeRows now) actions) := by
  have there : Foretells parsers Kept (Relisted parsers) :=
    ⟨fun state e source ⟨e', member, key, _⟩ => ⟨e', member, key⟩,
      fun state state' order rows sound same refreshed e member source listed =>
        kept_iff_relisted sound same refreshed member listed⟩
  have known : Foretells parsers KeptFromSource (RelistedBySource parsers) :=
    ⟨fun state e source kept => kept,
      fun state state' order rows _ same refreshed e _ source _ =>
        keptFromSource_iff_relisted same refreshed e source⟩
  exact ⟨alongRun_iff_harmless there settings runtimeRows now actions,
    alongRun_iff_harmless known settings runtimeRows now actions⟩

/-! ### Lost and resurrected endpoints -/

/-- Two proxies are URLs, and nothing else is. -/
def twoProxyParsers : ProxyParsers where
  parseUrl := fun text =>
    if text = "http://a:80" then some ⟨"http", "", none, some "a", some 80, "http://a/"⟩
    else if text = "http://b:80" then some ⟨"http", "", none, some "b", some 80, "http://b/"⟩
    else none
  parseVmessShareLink := fun _ => false
  parseShadowsocksShareLink := fun _ => false

def subscribedSettings (subscriptionUrls : List String) : ForwardProxySettings where
  proxyUrls := []
  subscriptionUrls
  insertDirect := false
  egressSocks5Enabled := false
  egressSocks5Url := ""

/-- Both subscriptions are fetched once, and then the first of them fails. -/
def partialFailure : List SubscriptionAction :=
  [.startRefresh, .fetch 0 (some ["http://a:80"]), .fetch 0 (some ["http://b:80"]),
    .apply 0 [("https://one/", ["http://a:80"]), ("https://two/", ["http://b:80"])] [],
    .startRefresh, .fetch 0 none, .fetch 0 (some ["http://b:80"]),
    .apply 0 [("https://two/", ["http://b:80"])] []]

/-- A refresh is applied after its subscription has been removed. -/
def staleRefresh : List SubscriptionAction :=
  [.startRefresh, .fetch 0 (some ["http://a:80"]), .startUpdate (subscribedSettings []),
    .apply 1 [] [], .apply 0 [("https://one/", ["http://a:80"])] []]

/-- The proxy of a subscription that could not be fetched is lost, and that of a subscription
that was removed comes back. -/
theorem provenance_broken :
    ¬(subscriptionSystem twoProxyParsers).AlongRun (Provenance twoProxyParsers Kept)
      (init twoProxyParsers (subscribedSettings ["https://one/", "https://two/"]) [] 0)
      partialFailure ∧
    ¬(subscriptionSystem twoProxyParsers).AlongRun (Provenance twoProxyParsers Kept)
      (init twoProxyParsers (subscribedSettings ["https://one/"]) [] 0) staleRefresh := by
  constructor
  · intro along
    have facts : ((subscriptionSystem twoProxyParsers).run
        (init twoProxyParsers (subscribedSettings ["https://one/", "https://two/"]) [] 0)
        partialFailure).map (fun final =>
          (final.previous.any fun e => decide (e.key = "http://a:80" ∧
              "https://one/" ∈ e.subscriptionSources),
            final.manager.settings.subscriptionUrls, final.latestFailed "https://one/",
            final.manager.endpoints.map ForwardProxyEndpoint.key)) =
        some (true, ["https://one/", "https://two/"], true, ["http://b:80"]) := by decide +kernel
    obtain ⟨final, ran, values⟩ := Option.map_eq_some_iff.1 facts
    simp only [Prod.mk.injEq, List.any_eq_true, decide_eq_true_eq] at values
    obtain ⟨⟨e, member, key, listed⟩, settings, failed, keys⟩ := values
    have provenance := TransitionSystem.AlongRun.last _ along ran
    obtain ⟨e', there, same⟩ :=
      provenance.known e member "https://one/" listed (by rw [settings]; decide) failed
    have lost : e'.key ∈ final.manager.endpoints.map ForwardProxyEndpoint.key :=
      List.mem_map_of_mem there
    rw [keys, same, key] at lost
    revert lost
    decide
  · intro along
    have facts : ((subscriptionSystem twoProxyParsers).run
        (init twoProxyParsers (subscribedSettings ["https://one/"]) [] 0) staleRefresh).map
          (fun final =>
            (final.manager.endpoints.any fun e => decide ("https://one/" ∈ e.subscriptionSources),
              final.manager.settings.subscriptionUrls)) = some (true, []) := by decide +kernel
    obtain ⟨final, ran, values⟩ := Option.map_eq_some_iff.1 facts
    simp only [Prod.mk.injEq, List.any_eq_true, decide_eq_true_eq] at values
    obtain ⟨⟨e, member, listed⟩, settings⟩ := values
    have provenance := TransitionSystem.AlongRun.last _ along ran
    have known := provenance.sources e member "https://one/" listed
    rw [settings] at known
    cases known

end SubscriptionState

end TavilyHikari.ForwardProxy
