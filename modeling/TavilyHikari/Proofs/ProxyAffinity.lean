/-
Module: TavilyHikari.Proofs.ProxyAffinity
Purpose: When the affinity records that are computed and stored are well formed, and the
  record whose primary and secondary are one and the same proxy.
Trusted boundary: none
Main exports: ForwardProxyAffinityRecord.WellFormed, DistinctSlots, HealthySecondary,
  reconcile_cases, affinityRecords_wellFormed
-/
import TavilyHikari.ForwardProxy.Affinity
import TavilyHikari.Proofs.ForwardProxyManager

namespace TavilyHikari.ForwardProxy

open Library ForwardProxyManager

/-! ### Well-formed records -/

namespace ForwardProxyManager

/-- The key of a selectable endpoint. -/
def SelectableKey (manager : ForwardProxyManager) (key : String) : Prop :=
  ∃ e ∈ manager.endpoints, e.key = key ∧ e.isSelectable = true ∧
    (manager.runtime.find key).isSome = true

/-- A selectable endpoint flagged available. -/
def AvailableKey (manager : ForwardProxyManager) (key : String) : Prop :=
  manager.SelectableKey key ∧
    ∃ entry, manager.runtime.find key = some entry ∧ entry.available = true

/-- An available endpoint of positive weight, as the reconciliation wants a secondary. -/
def HealthyKey (manager : ForwardProxyManager) (key : String) : Prop :=
  manager.SelectableKey key ∧
    ∃ entry, manager.runtime.find key = some entry ∧ entry.available = true ∧ 0 < entry.weight

/-- The entry of the key, if there is one, has a positive weight. -/
def PositiveWeight (manager : ForwardProxyManager) (key : String) : Prop :=
  ∀ entry, manager.runtime.find key = some entry → 0 < entry.weight

end ForwardProxyManager

/-- A secondary only beside another primary, a selectable primary and a secondary that is
`available`, in the sense that is asked for. -/
structure ForwardProxyAffinityRecord.WellFormed (manager : ForwardProxyManager)
    (available : String → Prop) (record : ForwardProxyAffinityRecord) : Prop where
  distinct : ∀ key, record.primaryProxyKey = some key → record.secondaryProxyKey ≠ some key
  primaryFirst : record.primaryProxyKey = none → record.secondaryProxyKey = none
  primarySelectable : ∀ key, record.primaryProxyKey = some key → manager.SelectableKey key
  secondaryAvailable : ∀ key, record.secondaryProxyKey = some key → available key

/-! ### Ranked candidates -/

theorem mem_of_mem_orderByGeo {exactKeys regionKeys : List String}
    {nonDirect : List ForwardProxyEndpoint} {e : ForwardProxyEndpoint}
    (member : e ∈ orderByGeo exactKeys regionKeys nonDirect) : e ∈ nonDirect := by
  refine mergeAllKeyed_forall (fun _ _ => rfl) (by simp) (fun _ _ b kept _ => kept) ?_ e member
  intro a added _
  simp only [List.mem_append, List.mem_filter] at added
  rcases added with (⟨there, _⟩ | ⟨there, _⟩) | there
  · exact there
  · exact there
  · exact there

theorem orderByGeo_ne_nil {exactKeys regionKeys : List String}
    {nonDirect : List ForwardProxyEndpoint} (nonempty : nonDirect ≠ []) :
    orderByGeo exactKeys regionKeys nonDirect ≠ [] := by
  intro empty
  obtain ⟨e, member⟩ := List.exists_mem_of_ne_nil nonDirect nonempty
  have key : e.key ∈ (orderByGeo exactKeys regionKeys nonDirect).map ForwardProxyEndpoint.key := by
    refine (mem_keys_mergeAllKeyed fun _ _ => rfl).2 (Or.inr ?_)
    exact List.mem_map.2 ⟨e, List.mem_append_right _ member, rfl⟩
  rw [empty] at key
  cases key

namespace ForwardProxyManager

variable {env : AffinityEnvironment} {manager : ForwardProxyManager} {call : GeoCall}
  {subject : String} {registrationIp registrationRegion : Option String} {exclude : List String}
  {limit : Nat} {ranked : List ForwardProxyEndpoint}

/-- The registration of a key only reorders the ranking. -/
theorem rankable_of_mem_ranked {allowDirect : Bool}
    (answered : rankRegistrationAwareCandidates env call manager subject registrationIp
      registrationRegion exclude allowDirect limit = .ok ranked) {e : ForwardProxyEndpoint}
    (member : e ∈ ranked) : manager.ensureNonZeroWeight.Rankable exclude allowDirect e := by
  have inRanking : e ∈ manager.ensureNonZeroWeight.rankCandidatesForSubject env.stableHash subject
      exclude allowDirect limit := by
    unfold rankRegistrationAwareCandidates at answered
    simp only at answered
    split at answered
    · cases answered
      exact member
    · split at answered
      · cases answered
        exact List.mem_of_mem_filter member
      · simp only [bind, Except.bind] at answered
        split at answered
        · cases answered
        · cases answered
          rcases List.mem_append.1 member with ordered | direct
          · exact List.mem_of_mem_filter (mem_of_mem_orderByGeo ordered)
          · split at direct
            · exact List.mem_of_mem_filter direct
            · cases direct
  exact rankable_of_mem_rankCandidates inRanking

/-- With the direct connection allowed no candidate is lost. -/
theorem ranked_ne_nil
    (answered : rankRegistrationAwareCandidates env call manager subject registrationIp
      registrationRegion exclude true limit = .ok ranked) {e : ForwardProxyEndpoint}
    (rankable : manager.ensureNonZeroWeight.Rankable exclude true e) : ranked ≠ [] := by
  have nonempty : manager.ensureNonZeroWeight.rankCandidatesForSubject env.stableHash subject
      exclude true limit ≠ [] := rankCandidates_ne_nil rankable
  unfold rankRegistrationAwareCandidates at answered
  simp only at answered
  split at answered
  · cases answered
    exact nonempty
  · split at answered
    · rename_i onlyDirect
      cases answered
      obtain ⟨first, member⟩ := List.exists_mem_of_ne_nil _ nonempty
      have direct : first.isDirect = true := by
        have others := List.filter_eq_nil_iff.1 onlyDirect first member
        simpa using others
      exact List.ne_nil_of_mem (List.mem_filter.2 ⟨member, direct⟩)
    · rename_i proxied
      simp only [bind, Except.bind] at answered
      split at answered
      · cases answered
      · cases answered
        intro empty
        exact orderByGeo_ne_nil proxied (List.append_eq_nil_iff.1 empty).1

/-! ### Keys that a slot may hold -/

theorem Rankable.availableKey {allowDirect : Bool} {e : ForwardProxyEndpoint}
    (rankable : manager.Rankable exclude allowDirect e) : manager.AvailableKey e.key := by
  obtain ⟨member, selectable, _, _, entry, found, available⟩ := rankable
  exact ⟨⟨e, member, rfl, selectable, by simp [found]⟩, entry, found, available⟩

theorem AvailableKey.rankable {key : String} (available : manager.AvailableKey key) :
    ∃ e, e.key = key ∧ manager.Rankable [] true e := by
  obtain ⟨⟨e, member, same, selectable, _⟩, entry, found, flagged⟩ := available
  subst same
  exact ⟨e, rfl, member, selectable, Or.inl rfl, by simp, entry, found, flagged⟩

theorem selectableKey_of_isSelectableEndpoint {key : String} {allowDirectPrimary : Bool}
    (selectable : manager.isSelectableEndpoint key allowDirectPrimary = true) :
    manager.SelectableKey key := by
  unfold isSelectableEndpoint at selectable
  rw [Option.any_eq_true] at selectable
  obtain ⟨e, found, fields⟩ := selectable
  obtain ⟨member, same⟩ := endpoint_of_find found
  simp only [Bool.and_eq_true] at fields
  exact ⟨e, member, same, fields.1.2, fields.2⟩

theorem healthyKey_of_isAvailable {key : String} {allowDirectPrimary : Bool}
    (available : manager.isAvailable key allowDirectPrimary = true) : manager.HealthyKey key := by
  unfold isAvailable at available
  rw [Bool.and_eq_true, Option.any_eq_true] at available
  obtain ⟨selectable, entry, found, fields⟩ := available
  simp only [Bool.and_eq_true, decide_eq_true_eq] at fields
  exact ⟨selectableKey_of_isSelectableEndpoint selectable, entry, found, fields⟩

theorem HealthyKey.availableKey {key : String} (healthy : manager.HealthyKey key) :
    manager.AvailableKey key := by
  obtain ⟨selectable, entry, found, available, _⟩ := healthy
  exact ⟨selectable, entry, found, available⟩

theorem selectableKey_of_keepPrimary {key : String} {hasRegistrationMetadata : Bool}
    (kept : manager.keepPrimary hasRegistrationMetadata key = true) :
    manager.SelectableKey key := by
  unfold keepPrimary at kept
  split at kept
  · exact (healthyKey_of_isAvailable kept).1
  · exact selectableKey_of_isSelectableEndpoint kept

/-! ### The candidates of the slots -/

variable {apiKeyId : String}

theorem availableKey_of_primaryCandidate {key : String}
    (candidate : primaryCandidate env manager apiKeyId registrationIp registrationRegion =
      .ok (some key)) : manager.ensureNonZeroWeight.AvailableKey key := by
  simp only [primaryCandidate, bind, Except.bind, pure, Except.pure] at candidate
  split at candidate
  · cases candidate
  · rename_i ranked answered
    simp only [Except.ok.injEq, Option.map_eq_some_iff] at candidate
    obtain ⟨e, head, rfl⟩ := candidate
    exact (rankable_of_mem_ranked answered (List.mem_of_mem_head? head)).availableKey

/-- Without a candidate for the primary slot nothing is available. -/
theorem not_availableKey_of_primaryCandidate
    (candidate : primaryCandidate env manager apiKeyId registrationIp registrationRegion =
      .ok none) (key : String) : ¬manager.ensureNonZeroWeight.AvailableKey key := by
  simp only [primaryCandidate, bind, Except.bind, pure, Except.pure] at candidate
  split at candidate
  · cases candidate
  · rename_i ranked answered
    simp only [Except.ok.injEq, Option.map_eq_none_iff, List.head?_eq_none_iff] at candidate
    intro available
    obtain ⟨e, _, rankable⟩ := available.rankable
    exact ranked_ne_nil answered rankable candidate

/-- A candidate for the secondary slot is available, and it is not the primary. -/
theorem availableKey_of_secondaryCandidate {primary : Option String} {key : String}
    (candidate : secondaryCandidate env call manager apiKeyId registrationIp registrationRegion
      primary = .ok (some key)) :
    manager.ensureNonZeroWeight.AvailableKey key ∧ primary ≠ some key := by
  simp only [secondaryCandidate, bind, Except.bind, pure, Except.pure] at candidate
  split at candidate
  · cases candidate
  · rename_i ranked answered
    simp only [Except.ok.injEq, Option.map_eq_some_iff] at candidate
    obtain ⟨e, head, rfl⟩ := candidate
    have rankable := rankable_of_mem_ranked answered (List.mem_of_mem_head? head)
    refine ⟨rankable.availableKey, ?_⟩
    rintro rfl
    exact rankable.2.2.2.1 (by simp)

/-! ### The slots of a reconciled record -/

variable {state : LoadedProxyAffinityState}

/-- The prior primary is one that the reconciliation keeps. -/
def PriorPrimaryKept (manager : ForwardProxyManager) (state : LoadedProxyAffinityState)
    (key : String) : Prop :=
  state.record.primaryProxyKey = some key ∧
    manager.keepPrimary (state.registrationIp.isSome || state.registrationRegion.isSome) key = true

/-- The prior secondary is available. -/
def PriorSecondaryKept (manager : ForwardProxyManager) (state : LoadedProxyAffinityState)
    (key : String) : Prop :=
  state.record.secondaryProxyKey = some key ∧ manager.isAvailable key true = true

/-- The primary that comes out: a kept one, else the first of the ranking. -/
def PrimarySlot (env : AffinityEnvironment) (manager : ForwardProxyManager) (apiKeyId : String)
    (state : LoadedProxyAffinityState) (key : String) : Prop :=
  manager.PriorPrimaryKept state key ∨
    ((∀ prior, ¬manager.PriorPrimaryKept state prior) ∧
      primaryCandidate env manager apiKeyId state.registrationIp state.registrationRegion =
        .ok (some key))

theorem clearedRecord_primary {key : String} :
    (manager.clearedRecord state).primaryProxyKey = some key ↔
      manager.PriorPrimaryKept state key := by
  simp [clearedRecord, PriorPrimaryKept, Option.filter_eq_some_iff]

theorem clearedRecord_primary_eq_none :
    (manager.clearedRecord state).primaryProxyKey = none ↔
      ∀ key, ¬manager.PriorPrimaryKept state key := by
  simp only [← clearedRecord_primary, Option.eq_none_iff_forall_ne_some, ne_eq]

theorem clearedRecord_secondary {key : String} :
    (manager.clearedRecord state).secondaryProxyKey = some key ↔
      manager.PriorSecondaryKept state key ∧ ¬manager.PriorPrimaryKept state key := by
  rw [← clearedRecord_primary]
  unfold PriorSecondaryKept clearedRecord
  simp only
  split
  · rename_i same
    rw [same]
    simp [Option.filter_eq_some_iff]
  · rename_i other
    simp only [Option.filter_eq_some_iff]
    constructor
    · rintro ⟨prior, available⟩
      refine ⟨⟨prior, available⟩, fun kept => other ?_⟩
      rw [Option.filter_eq_some_iff.2 kept, Option.filter_eq_some_iff.2 ⟨prior, available⟩]
    · exact fun kept => kept.1

theorem priorPrimaryKept_unique {key other : String} (one : manager.PriorPrimaryKept state key)
    (two : manager.PriorPrimaryKept state other) : key = other :=
  Option.some.inj (one.1.symm.trans two.1)

theorem primarySlot_unique {key other : String} (one : PrimarySlot env manager apiKeyId state key)
    (two : PrimarySlot env manager apiKeyId state other) : key = other := by
  rcases one with kept | ⟨nothing, candidate⟩
  · rcases two with kept' | ⟨nothing, _⟩
    · exact priorPrimaryKept_unique kept kept'
    · exact absurd kept (nothing key)
  · rcases two with kept | ⟨_, candidate'⟩
    · exact absurd kept (nothing other)
    · rw [candidate] at candidate'
      cases candidate'
      rfl

/-- Beside the primary slot, a kept secondary can only be the primary itself when the
reconciliation has none. -/
theorem prior_eq_of_cleared {primary prior : String}
    (slot : PrimarySlot env manager apiKeyId state primary)
    (cleared : (manager.clearedRecord state).secondaryProxyKey = none)
    (kept : manager.PriorSecondaryKept state prior) : prior = primary := by
  have primaryKept : manager.PriorPrimaryKept state prior := by
    by_contra other
    rw [clearedRecord_secondary.2 ⟨kept, other⟩] at cleared
    cases cleared
  have same : PrimarySlot env manager apiKeyId state prior := Or.inl primaryKept
  exact primarySlot_unique same slot

/-- A slot that is filled where it is empty: what is in it stays, or the candidate goes in. -/
theorem filled_cases {slot : Option String} {ranked : Except String (Option String)}
    {record filled : ForwardProxyAffinityRecord} {put : Option String → ForwardProxyAffinityRecord}
    (answered : (if slot.isNone then do
        let candidate ← ranked
        return put candidate
      else .ok record) = .ok filled) :
    (slot.isSome = true ∧ filled = record) ∨
      (slot = none ∧ ∃ candidate, ranked = .ok candidate ∧ filled = put candidate) := by
  cases slot with
  | some key =>
      cases answered
      exact Or.inl ⟨rfl, rfl⟩
  | none =>
      cases ranked with
      | error e => cases answered
      | ok candidate =>
          cases answered
          exact Or.inr ⟨rfl, candidate, rfl, rfl⟩

theorem fillPrimary_cases {filled record : ForwardProxyAffinityRecord}
    (answered : fillPrimary env manager apiKeyId state record = .ok filled) :
    filled.secondaryProxyKey = record.secondaryProxyKey ∧
      ((record.primaryProxyKey.isSome = true ∧
          filled.primaryProxyKey = record.primaryProxyKey) ∨
        (record.primaryProxyKey = none ∧
          primaryCandidate env manager apiKeyId state.registrationIp state.registrationRegion =
            .ok filled.primaryProxyKey)) := by
  rcases filled_cases answered with ⟨full, rfl⟩ | ⟨empty, candidate, ranked, rfl⟩
  · exact ⟨rfl, Or.inl ⟨full, rfl⟩⟩
  · exact ⟨rfl, Or.inr ⟨empty, ranked⟩⟩

theorem fillSecondary_cases {filled record : ForwardProxyAffinityRecord}
    (answered : fillSecondary env manager apiKeyId state record = .ok filled) :
    filled.primaryProxyKey = record.primaryProxyKey ∧
      ((record.secondaryProxyKey.isSome = true ∧
          filled.secondaryProxyKey = record.secondaryProxyKey) ∨
        (record.secondaryProxyKey = none ∧
          secondaryCandidate env .secondary manager apiKeyId state.registrationIp
            state.registrationRegion record.primaryProxyKey = .ok filled.secondaryProxyKey)) := by
  rcases filled_cases answered with ⟨full, rfl⟩ | ⟨empty, candidate, ranked, rfl⟩
  · exact ⟨rfl, Or.inl ⟨full, rfl⟩⟩
  · exact ⟨rfl, Or.inr ⟨empty, ranked⟩⟩

/-- All that a reconciliation can end in: no proxy at all, or a primary with a secondary
that is kept or ranked beside it. -/
theorem reconcile_cases {now : Int} {record : ForwardProxyAffinityRecord}
    (reconciled : reconcileProxyAffinityRecordWithState env now manager apiKeyId state =
      .ok record) :
    (record.primaryProxyKey = none ∧ record.secondaryProxyKey = none ∧
        ∀ key, ¬manager.ensureNonZeroWeight.AvailableKey key) ∨
      ∃ primary, record.primaryProxyKey = some primary ∧
        PrimarySlot env manager.ensureNonZeroWeight apiKeyId state primary ∧
        ((∃ secondary, record.secondaryProxyKey = some secondary ∧
            (manager.ensureNonZeroWeight.clearedRecord state).secondaryProxyKey = some secondary) ∨
          ((manager.ensureNonZeroWeight.clearedRecord state).secondaryProxyKey = none ∧
            secondaryCandidate env .secondary manager.ensureNonZeroWeight apiKeyId
              state.registrationIp state.registrationRegion (some primary) =
                .ok record.secondaryProxyKey)) := by
  have settled := ensureNonZeroWeight_idem manager
  unfold reconcileProxyAffinityRecordWithState at reconciled
  simp only [bind, Except.bind] at reconciled
  generalize manager.ensureNonZeroWeight = reached at reconciled settled ⊢
  split at reconciled
  · cases reconciled
  rename_i first answeredFirst
  split at reconciled
  · cases reconciled
  rename_i second answeredSecond
  cases reconciled
  obtain ⟨kept, primaryCase⟩ := fillPrimary_cases answeredFirst
  obtain ⟨same, secondaryCase⟩ := fillSecondary_cases answeredSecond
  rw [kept] at secondaryCase
  cases slot : first.primaryProxyKey with
  | some primary =>
      rw [slot] at same primaryCase secondaryCase
      have unshifted : shiftSecondary second = second := by simp [shiftSecondary, same]
      rw [unshifted]
      refine Or.inr ⟨primary, same, ?_, ?_⟩
      · rcases primaryCase with ⟨_, prior⟩ | ⟨none, candidate⟩
        · exact Or.inl (clearedRecord_primary.1 prior.symm)
        · exact Or.inr ⟨clearedRecord_primary_eq_none.1 none, candidate⟩
      · rcases secondaryCase with ⟨present, prior⟩ | ranked
        · obtain ⟨secondary, there⟩ := Option.isSome_iff_exists.1 present
          exact Or.inl ⟨secondary, prior.trans there, there⟩
        · exact Or.inr ranked
  | none =>
      rw [slot] at same primaryCase secondaryCase
      rcases primaryCase with ⟨present, prior⟩ | ⟨_, candidate⟩
      · rw [← prior] at present
        cases present
      have nothing := not_availableKey_of_primaryCandidate candidate
      rw [settled] at nothing
      -- With nothing available there is no secondary either.
      have alone : second.secondaryProxyKey = none := by
        rcases secondaryCase with ⟨present, _⟩ | ⟨_, ranked⟩
        · obtain ⟨secondary, there⟩ := Option.isSome_iff_exists.1 present
          have available := (clearedRecord_secondary.1 there).1.2
          exact absurd (healthyKey_of_isAvailable available).availableKey (nothing secondary)
        · cases found : second.secondaryProxyKey with
          | none => rfl
          | some secondary =>
              rw [found] at ranked
              have available := (availableKey_of_secondaryCandidate ranked).1
              rw [settled] at available
              exact absurd available (nothing secondary)
      have unshifted : shiftSecondary second = second := by simp [shiftSecondary, alone]
      rw [unshifted]
      exact Or.inl ⟨same, alone, nothing⟩

/-! ### Well-formedness of what is computed and stored -/

/-- Where no prior primary is kept, the ranking for the primary does not put the kept
secondary first. -/
def DistinctSlots (env : AffinityEnvironment) (manager : ForwardProxyManager) (apiKeyId : String)
    (state : LoadedProxyAffinityState) : Prop :=
  (∀ prior, ¬manager.PriorPrimaryKept state prior) →
    ∀ secondary, manager.PriorSecondaryKept state secondary →
      primaryCandidate env manager apiKeyId state.registrationIp state.registrationRegion ≠
        .ok (some secondary)

/-- Where no prior secondary is kept beside the primary, the one that the ranking puts
first has a positive weight. -/
def HealthySecondary (env : AffinityEnvironment) (manager : ForwardProxyManager)
    (apiKeyId : String) (state : LoadedProxyAffinityState) : Prop :=
  ∀ primary secondary, PrimarySlot env manager apiKeyId state primary →
    (∀ prior, manager.PriorSecondaryKept state prior → prior = primary) →
    secondaryCandidate env .secondary manager apiKeyId state.registrationIp
      state.registrationRegion (some primary) = .ok (some secondary) →
    manager.PositiveWeight secondary

theorem selectableKey_of_primarySlot {primary : String}
    (slot : PrimarySlot env manager.ensureNonZeroWeight apiKeyId state primary) :
    manager.ensureNonZeroWeight.SelectableKey primary := by
  rcases slot with kept | ⟨_, candidate⟩
  · exact selectableKey_of_keepPrimary kept.2
  · have available := availableKey_of_primaryCandidate candidate
    rw [ensureNonZeroWeight_idem] at available
    exact available.1

/-- The secondary that comes out is flagged available. -/
theorem availableKey_of_reconcile {now : Int} {record : ForwardProxyAffinityRecord}
    (reconciled : reconcileProxyAffinityRecordWithState env now manager apiKeyId state =
      .ok record) {secondary : String} (slot : record.secondaryProxyKey = some secondary) :
    manager.ensureNonZeroWeight.AvailableKey secondary := by
  rcases reconcile_cases reconciled with ⟨_, none, _⟩ | ⟨primary, _, _, kept | ⟨_, ranked⟩⟩
  · rw [none] at slot
    cases slot
  · obtain ⟨prior, same, cleared⟩ := kept
    rw [same] at slot
    cases slot
    exact (healthyKey_of_isAvailable (clearedRecord_secondary.1 cleared).1.2).availableKey
  · rw [slot] at ranked
    have available := (availableKey_of_secondaryCandidate ranked).1
    rw [ensureNonZeroWeight_idem] at available
    exact available

/-- Primary and secondary differ exactly under `DistinctSlots`. -/
theorem distinct_iff {now : Int} {record : ForwardProxyAffinityRecord}
    (reconciled : reconcileProxyAffinityRecordWithState env now manager apiKeyId state =
      .ok record) :
    (∀ key, record.primaryProxyKey = some key → record.secondaryProxyKey ≠ some key) ↔
      DistinctSlots env manager.ensureNonZeroWeight apiKeyId state := by
  constructor
  · intro distinct nothing secondary kept candidate
    have cleared : (manager.ensureNonZeroWeight.clearedRecord state).secondaryProxyKey =
        some secondary := clearedRecord_secondary.2 ⟨kept, nothing secondary⟩
    rcases reconcile_cases reconciled with ⟨_, _, unavailable⟩ |
      ⟨primary, first, slot, ⟨prior, second, same⟩ | ⟨missing, _⟩⟩
    · exact unavailable secondary (healthyKey_of_isAvailable kept.2).availableKey
    · rw [cleared] at same
      cases same
      rcases slot with prior | ⟨_, ranked⟩
      · exact nothing primary prior
      · rw [candidate] at ranked
        cases ranked
        exact distinct secondary first second
    · rw [cleared] at missing
      cases missing
  · intro apart key first second
    rcases reconcile_cases reconciled with ⟨none, _⟩ |
      ⟨primary, there, slot, ⟨prior, same, cleared⟩ | ⟨_, ranked⟩⟩
    · rw [none] at first
      cases first
    · rw [there] at first
      rw [same] at second
      cases first
      cases second
      obtain ⟨kept, other⟩ := clearedRecord_secondary.1 cleared
      rcases slot with prior | ⟨nothing, candidate⟩
      · exact other prior
      · exact apart nothing key kept candidate
    · rw [there] at first
      cases first
      rw [second] at ranked
      exact (availableKey_of_secondaryCandidate ranked).2 rfl

/-- Beside another primary, the secondary has a positive weight exactly under
`HealthySecondary`. -/
theorem healthy_iff {now : Int} {record : ForwardProxyAffinityRecord}
    (reconciled : reconcileProxyAffinityRecordWithState env now manager apiKeyId state =
      .ok record) (apart : DistinctSlots env manager.ensureNonZeroWeight apiKeyId state) :
    (∀ key, record.secondaryProxyKey = some key → manager.ensureNonZeroWeight.HealthyKey key) ↔
      HealthySecondary env manager.ensureNonZeroWeight apiKeyId state := by
  constructor
  · intro healthy primary secondary slot alone candidate entry found
    rcases reconcile_cases reconciled with ⟨_, _, unavailable⟩ |
      ⟨other, _, slot', ⟨prior, _, cleared⟩ | ⟨_, ranked⟩⟩
    · have available := (availableKey_of_secondaryCandidate candidate).1
      rw [ensureNonZeroWeight_idem] at available
      exact absurd available (unavailable secondary)
    · obtain ⟨kept, unkept⟩ := clearedRecord_secondary.1 cleared
      have same := alone prior kept
      subst same
      rcases slot with primaryKept | ⟨nothing, first⟩
      · exact absurd primaryKept unkept
      · exact absurd first (apart nothing prior kept)
    · have same := primarySlot_unique slot' slot
      subst same
      rw [candidate] at ranked
      cases second : record.secondaryProxyKey with
      | none =>
          rw [second] at ranked
          cases ranked
      | some key =>
          rw [second] at ranked
          cases ranked
          obtain ⟨_, entry', found', _, weight⟩ := healthy secondary second
          rw [found] at found'
          cases found'
          exact weight
  · intro positive key second
    obtain ⟨selectable, entry, found, available⟩ := availableKey_of_reconcile reconciled second
    rcases reconcile_cases reconciled with ⟨_, none, _⟩ |
      ⟨primary, _, slot, ⟨prior, same, cleared⟩ | ⟨cleared, ranked⟩⟩
    · rw [none] at second
      cases second
    · rw [same] at second
      cases second
      exact healthyKey_of_isAvailable (clearedRecord_secondary.1 cleared).1.2
    · rw [second] at ranked
      have weight := positive primary key slot
        (fun prior kept => prior_eq_of_cleared slot cleared kept) ranked entry found
      exact ⟨selectable, entry, found, available, weight⟩

/-! ### Promotion -/

/-- The secondary that a promotion ranks beside the proxy that succeeded. -/
def promotedSecondary (env : AffinityEnvironment) (manager : ForwardProxyManager)
    (apiKeyId succeededProxyKey : String) (state : LoadedProxyAffinityState)
    (reloaded : Option String × Option String) : Except String (Option String) :=
  let registration :=
    if state.hasExplicitEmptyMarker then (state.registrationIp, state.registrationRegion)
    else reloaded
  secondaryCandidate env .nextSecondary manager.ensureNonZeroWeight apiKeyId registration.1
    registration.2 (some succeededProxyKey)

/-- A ranking after a rescue is the ranking, that makes the rescue itself. -/
theorem secondaryCandidate_ensureNonZeroWeight {primary : Option String} :
    secondaryCandidate env call manager.ensureNonZeroWeight apiKeyId registrationIp
      registrationRegion primary =
    secondaryCandidate env call manager apiKeyId registrationIp registrationRegion primary := by
  unfold secondaryCandidate rankRegistrationAwareCandidates
  rw [ensureNonZeroWeight_idem]

/-- What a promotion stores has the proxy that succeeded first. -/
theorem promote_cases {now : Int} {succeeded : String} {reloaded : Option String × Option String}
    {stored : ForwardProxyAffinityRecord}
    (promoted : promoteProxyAffinitySecondary env now manager apiKeyId succeeded state reloaded =
      .ok (some stored)) :
    stored.primaryProxyKey = some succeeded ∧
      promotedSecondary env manager apiKeyId succeeded state reloaded =
        .ok stored.secondaryProxyKey := by
  unfold promoteProxyAffinitySecondary at promoted
  unfold promotedSecondary
  split at promoted
  · rename_i marker
    simp only [bind, Except.bind, pure, Except.pure] at promoted
    split at promoted
    · cases promoted
    · rename_i candidate ranked
      cases promoted
      simp only [marker, if_true]
      exact ⟨trivial, secondaryCandidate_ensureNonZeroWeight.trans ranked⟩
  · rename_i marker
    simp only [bind, Except.bind, pure, Except.pure] at promoted
    split at promoted
    · cases promoted
    · split at promoted
      · cases promoted
      · split at promoted
        · split at promoted
          · cases promoted
          · rename_i candidate ranked
            cases promoted
            simp only [marker]
            exact ⟨trivial, ranked⟩
        · cases promoted

theorem SelectableKey.ensureNonZeroWeight {key : String} (selectable : manager.SelectableKey key) :
    manager.ensureNonZeroWeight.SelectableKey key := by
  obtain ⟨e, member, same, selectable, present⟩ := selectable
  refine ⟨e, by simpa using member, same, selectable, ?_⟩
  rw [find_ensureNonZeroWeight, Option.isSome_map]
  exact present

/-- A reconciled record is well formed, with a secondary that is flagged available, exactly
when the ranking for the primary is not led by the secondary that is kept; the secondary is
one that the next reconciliation keeps exactly when moreover a newly ranked one has a positive
weight. What a promotion stores has distinct slots in any case. -/
theorem affinityRecords_wellFormed (env : AffinityEnvironment) (now : Int)
    (manager : ForwardProxyManager) (apiKeyId : String) (state : LoadedProxyAffinityState) :
    (∀ record,
      reconcileProxyAffinityRecordWithState env now manager apiKeyId state = .ok record →
      (record.WellFormed manager.ensureNonZeroWeight manager.ensureNonZeroWeight.AvailableKey ↔
        DistinctSlots env manager.ensureNonZeroWeight apiKeyId state) ∧
      (record.WellFormed manager.ensureNonZeroWeight manager.ensureNonZeroWeight.HealthyKey ↔
        DistinctSlots env manager.ensureNonZeroWeight apiKeyId state ∧
          HealthySecondary env manager.ensureNonZeroWeight apiKeyId state)) ∧
    ∀ succeeded reloaded stored, manager.SelectableKey succeeded →
      promoteProxyAffinitySecondary env now manager apiKeyId succeeded state reloaded =
        .ok (some stored) →
      stored.WellFormed manager.ensureNonZeroWeight manager.ensureNonZeroWeight.AvailableKey ∧
      (stored.WellFormed manager.ensureNonZeroWeight manager.ensureNonZeroWeight.HealthyKey ↔
        ∀ key, promotedSecondary env manager apiKeyId succeeded state reloaded = .ok (some key) →
          manager.ensureNonZeroWeight.PositiveWeight key) := by
  constructor
  · intro record reconciled
    have primaryFirst : record.primaryProxyKey = none → record.secondaryProxyKey = none := by
      intro missing
      rcases reconcile_cases reconciled with ⟨_, none, _⟩ | ⟨primary, there, _⟩
      · exact none
      · rw [there] at missing
        cases missing
    have primarySelectable : ∀ key, record.primaryProxyKey = some key →
        manager.ensureNonZeroWeight.SelectableKey key := by
      intro key first
      rcases reconcile_cases reconciled with ⟨none, _⟩ | ⟨primary, there, slot, _⟩
      · rw [none] at first
        cases first
      · rw [there] at first
        cases first
        exact selectableKey_of_primarySlot slot
    constructor
    · constructor
      · exact fun wellFormed => (distinct_iff reconciled).1 wellFormed.distinct
      · intro apart
        exact ⟨(distinct_iff reconciled).2 apart, primaryFirst, primarySelectable,
          fun key second => availableKey_of_reconcile reconciled second⟩
    · constructor
      · intro wellFormed
        have apart := (distinct_iff reconciled).1 wellFormed.distinct
        exact ⟨apart, (healthy_iff reconciled apart).1 wellFormed.secondaryAvailable⟩
      · rintro ⟨apart, healthy⟩
        exact ⟨(distinct_iff reconciled).2 apart, primaryFirst, primarySelectable,
          (healthy_iff reconciled apart).2 healthy⟩
  · intro succeeded reloaded stored selectable promoted
    obtain ⟨first, ranked⟩ := promote_cases promoted
    have available : ∀ key, stored.secondaryProxyKey = some key →
        manager.ensureNonZeroWeight.AvailableKey key ∧ some succeeded ≠ some key := by
      intro key second
      rw [second] at ranked
      have candidate := availableKey_of_secondaryCandidate ranked
      rw [ensureNonZeroWeight_idem] at candidate
      exact candidate
    have wellFormed :
        stored.WellFormed manager.ensureNonZeroWeight manager.ensureNonZeroWeight.AvailableKey := by
      refine ⟨?_, ?_, ?_, fun key second => (available key second).1⟩
      · intro key same second
        exact (available key second).2 (first.symm.trans same)
      · intro missing
        rw [first] at missing
        cases missing
      · intro key same
        rw [first] at same
        cases same
        exact selectable.ensureNonZeroWeight
    refine ⟨wellFormed, ?_⟩
    constructor
    · intro healthy key candidate entry found
      rw [ranked, Except.ok.injEq] at candidate
      obtain ⟨_, entry', found', _, weight⟩ := healthy.secondaryAvailable key candidate
      rw [found] at found'
      cases found'
      exact weight
    · intro positive
      refine ⟨wellFormed.distinct, wellFormed.primaryFirst, wellFormed.primarySelectable, ?_⟩
      intro key second
      obtain ⟨⟨reachable, entry, found, flagged⟩, _⟩ := available key second
      have weight := positive key (by rw [ranked, second]) entry found
      exact ⟨reachable, entry, found, flagged, weight⟩

/-! ### A primary that is its own secondary -/

/-- A manual proxy. -/
def lonelyEndpoint : ForwardProxyEndpoint :=
  .newManual
    { normalized := "http://proxy:80"
      protocol := .http
      endpointUrl := some
        { scheme := "http", username := "", password := none, host := some "proxy"
          port := some 80, text := "http://proxy/" } }

/-- A manager whose only endpoint is in good health. -/
def lonelyManager : ForwardProxyManager where
  settings :=
    { proxyUrls := ["http://proxy:80"], subscriptionUrls := [], insertDirect := false
      egressSocks5Enabled := false, egressSocks5Url := "" }
  endpoints := [lonelyEndpoint]
  runtime := KeyedTable.empty.upsert "http://proxy:80" (.defaultForEndpoint lonelyEndpoint) id
  requestsSinceProbe := 0
  probeInFlight := false
  lastProbeAt := 0

/-- Nothing is known of the registration of the key. -/
def unregisteredState (primaryProxyKey secondaryProxyKey : Option String) :
    LoadedProxyAffinityState :=
  loadProxyAffinityState { primaryProxyKey, secondaryProxyKey, updatedAt := 0 } true none none

def plainEnvironment : AffinityEnvironment where
  stableHash := fun _ => 0
  normalizeIpString := some
  resolveGeo := fun _ _ => .ok []

/-- Another manual proxy. -/
def backupEndpoint : ForwardProxyEndpoint :=
  .newManual
    { normalized := "http://backup:80"
      protocol := .http
      endpointUrl := some
        { scheme := "http", username := "", password := none, host := some "backup"
          port := some 80, text := "http://backup/" } }

/-- A manager with both proxies, in good health. -/
def pairManager : ForwardProxyManager where
  settings := { lonelyManager.settings with proxyUrls := ["http://proxy:80", "http://backup:80"] }
  endpoints := [lonelyEndpoint, backupEndpoint]
  runtime := lonelyManager.runtime.upsert "http://backup:80" (.defaultForEndpoint backupEndpoint) id
  requestsSinceProbe := 0
  probeInFlight := false
  lastProbeAt := 0

/-- The stored primary is gone; the stored secondary is there and is not the best proxy. -/
def staleState : LoadedProxyAffinityState :=
  unregisteredState (some "http://gone:80") (some "http://backup:80")

/-- The best proxy takes the slot of the one that is gone, and gives it up when the secondary is
promoted. -/
theorem affinityRecords_wellFormed_stale :
    ∃ record stored, reconcileProxyAffinityRecordWithState plainEnvironment 60 pairManager "key"
        staleState = .ok record ∧
      record.secondaryProxyKey = some "http://backup:80" ∧
      record.WellFormed pairManager.ensureNonZeroWeight
        pairManager.ensureNonZeroWeight.HealthyKey ∧
      promoteProxyAffinitySecondary plainEnvironment 60 pairManager "key" "http://backup:80"
        staleState (none, none) = .ok (some stored) ∧
      stored.secondaryProxyKey = some "http://proxy:80" ∧
      stored.WellFormed pairManager.ensureNonZeroWeight
        pairManager.ensureNonZeroWeight.HealthyKey := by
  have facts := affinityRecords_wellFormed plainEnvironment 60 pairManager "key" staleState
  have reconciled : reconcileProxyAffinityRecordWithState plainEnvironment 60 pairManager "key"
      staleState = .ok ⟨some "http://proxy:80", some "http://backup:80", 60⟩ := by decide +kernel
  have promoted : promoteProxyAffinitySecondary plainEnvironment 60 pairManager "key"
      "http://backup:80" staleState (none, none) =
        .ok (some ⟨some "http://backup:80", some "http://proxy:80", 60⟩) := by decide +kernel
  have first : primaryCandidate plainEnvironment pairManager.ensureNonZeroWeight "key" none none =
      .ok (some "http://proxy:80") := by decide +kernel
  have second : promotedSecondary plainEnvironment pairManager "key" "http://backup:80" staleState
      (none, none) = .ok (some "http://proxy:80") := by decide +kernel
  have entry : pairManager.ensureNonZeroWeight.runtime.find "http://proxy:80" =
      some (.defaultForEndpoint lonelyEndpoint) := by decide +kernel
  have gone : ∀ prior, ¬pairManager.ensureNonZeroWeight.PriorPrimaryKept staleState prior := by
    rintro prior ⟨same, kept⟩
    cases same
    revert kept
    decide +kernel
  have backup : pairManager.ensureNonZeroWeight.PriorSecondaryKept staleState "http://backup:80" :=
    ⟨rfl, by decide +kernel⟩
  have apart : DistinctSlots plainEnvironment pairManager.ensureNonZeroWeight "key" staleState := by
    rintro - secondary ⟨same, -⟩ candidate
    cases same
    have other := candidate.symm.trans first
    simp at other
  have healthy : HealthySecondary plainEnvironment pairManager.ensureNonZeroWeight "key"
      staleState := by
    rintro primary secondary (kept | ⟨-, candidate⟩) nothing -
    · exact absurd kept (gone primary)
    · have here : primary = "http://proxy:80" := by simpa using candidate.symm.trans first
      have there := nothing _ backup
      rw [here] at there
      simp at there
  have weighs : ∀ key, promotedSecondary plainEnvironment pairManager "key" "http://backup:80"
      staleState (none, none) = .ok (some key) →
        pairManager.ensureNonZeroWeight.PositiveWeight key := by
    intro key candidate other found
    have same : key = "http://proxy:80" := by simpa using candidate.symm.trans second
    subst same
    cases entry.symm.trans found
    decide +kernel
  have reachable : pairManager.SelectableKey "http://backup:80" :=
    ⟨backupEndpoint, by decide +kernel, rfl, rfl, by decide +kernel⟩
  exact ⟨_, _, reconciled, rfl, (facts.1 _ reconciled).2.2 ⟨apart, healthy⟩, promoted, rfl,
    (facts.2 _ _ _ reachable promoted).2.2 weighs⟩

/-- The stored primary is gone and the stored secondary is the best proxy left: it becomes the
primary and stays the secondary. -/
theorem affinityRecord_doubled :
    ∃ record, reconcileProxyAffinityRecordWithState plainEnvironment 60 lonelyManager "key"
        (unregisteredState (some "http://gone:80") (some "http://proxy:80")) = .ok record ∧
      record.primaryProxyKey = some "http://proxy:80" ∧
      ¬record.WellFormed lonelyManager.ensureNonZeroWeight
        lonelyManager.ensureNonZeroWeight.AvailableKey := by
  refine ⟨⟨some "http://proxy:80", some "http://proxy:80", 60⟩, by decide +kernel, rfl, ?_⟩
  intro wellFormed
  exact wellFormed.distinct "http://proxy:80" rfl rfl

end ForwardProxyManager

end TavilyHikari.ForwardProxy
