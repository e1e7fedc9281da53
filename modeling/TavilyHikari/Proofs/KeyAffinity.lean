/-
Module: TavilyHikari.Proofs.KeyAffinity
Purpose: A call that leases a key for a token leaves the primary keys of its user and of all
  the user's tokens at the leased key, and keeps the primary key as long as it is usable.
Trusted boundary: none
Main exports: usable, leaseKey_cases, acquireKeyForUser_cases, acquireKeyForToken_cases,
  Sticky, keyStickiness_alongRun
-/
import TavilyHikari.Proofs.KeyHealth
import TavilyHikari.TavilyProxy.KeyAffinity

namespace TavilyHikari.TavilyProxy

open Library Store

/-! ### Usable keys -/

/-- The key can be leased: it is neither disabled nor deleted nor quarantined. -/
def usable (db : KeyDb) (id : String) : Bool :=
  (db.apiKeys.find id).any fun row =>
    row.status ≠ .disabled && row.deletedAt.isNone && !db.quarantined id

theorem usable_iff {db : KeyDb} {id : String} :
    usable db id = true ↔ ∃ row, db.apiKeys.find id = some row ∧ row.status ≠ .disabled ∧
      row.deletedAt.isNone = true ∧ db.quarantined id = false := by
  simp [usable, Option.any_eq_true, and_assoc]

/-- An update that neither disables a key nor deletes it nor brings one back. -/
theorem usable_updateKeys {db : KeyDb} {p : String → ApiKeyRow → Bool} {f : ApiKeyRow → ApiKeyRow}
    (status : ∀ id row, p id row = true → ((f row).status = .disabled ↔ row.status = .disabled))
    (deleted : ∀ row, (f row).deletedAt = row.deletedAt) (id : String) :
    usable (db.updateKeys p f).2 id = usable db id := by
  unfold usable KeyDb.updateKeys
  simp only [KeyedTable.find_updateWhere, KeyDb.quarantined]
  cases db.apiKeys.find id with
  | none => rfl
  | some row =>
      simp only [Option.map_some, Option.any_some]
      cases chosen : p id row with
      | false => rfl
      | true =>
          have same := status id row chosen
          simp [deleted, same]

theorem usable_resetMonthly (now : Int) (db : KeyDb) (id : String) :
    usable (resetMonthly now db) id = usable db id := by
  unfold resetMonthly
  simp only
  apply usable_updateKeys
  · intro _ row chosen
    simp only [Bool.and_eq_true, decide_eq_true_eq] at chosen
    simp [chosen.1]
  · exact fun _ => rfl

theorem usable_touchKey (secret : String) (now : Int) (db : KeyDb) (id : String) :
    usable (touchKey secret now db) id = usable db id := by
  unfold touchKey
  apply usable_updateKeys
  · exact fun _ _ _ => Iff.rfl
  · exact fun _ => rfl

/-! ### One lease -/

/-- What a SELECT finds is usable and allowed. -/
theorem usable_of_select {db : KeyDb} {kind : AcquireKind} {lease : ApiKeyLease}
    (selected : selectActiveKey kind db = some lease ∨ selectExhaustedKey kind db = some lease) :
    kind.allows lease.id = true ∧ usable db lease.id = true := by
  have found : ∃ status row, status ≠ KeyStatus.disabled ∧
      db.apiKeys.find lease.id = some row ∧ db.eligible kind status lease.id row = true := by
    rcases selected with active | exhausted
    · obtain ⟨⟨id, row⟩, first, same⟩ := Option.map_eq_some_iff.1 active
      cases same
      obtain ⟨found, eligible⟩ := KeyedTable.find_of_firstWhere first
      exact ⟨.active, row, by decide, found, eligible⟩
    · obtain ⟨⟨id, row⟩, first, same⟩ := Option.map_eq_some_iff.1 exhausted
      cases same
      obtain ⟨found, eligible⟩ := KeyedTable.find_of_firstWhere first
      exact ⟨.exhausted, row, by decide, found, eligible⟩
  obtain ⟨status, row, enabled, found, eligible⟩ := found
  simp only [KeyDb.eligible, Bool.and_eq_true, decide_eq_true_eq, Bool.not_eq_true'] at eligible
  obtain ⟨⟨⟨allowed, same⟩, deleted⟩, quarantined⟩ := eligible
  refine ⟨allowed, usable_iff.2 ⟨row, found, ?_, deleted, quarantined⟩⟩
  rw [same]
  exact enabled

/-- Where the SELECTs find nothing, no usable key is allowed. -/
theorem not_allows_of_select {db : KeyDb} {kind : AcquireKind}
    (active : selectActiveKey kind db = none) (exhausted : selectExhaustedKey kind db = none)
    {id : String} (able : usable db id = true) : kind.allows id = false := by
  obtain ⟨row, found, enabled, deleted, quarantined⟩ := usable_iff.1 able
  rw [selectActiveKey, leaseOf, Option.map_eq_none_iff] at active
  rw [selectExhaustedKey, leaseOf, Option.map_eq_none_iff] at exhausted
  have notActive := KeyedTable.firstWhere_eq_none active found
  have notExhausted := KeyedTable.firstWhere_eq_none exhausted found
  cases allowed : kind.allows id with
  | false => rfl
  | true =>
      cases status : row.status with
      | active => simp [KeyDb.eligible, allowed, status, deleted, quarantined] at notActive
      | exhausted => simp [KeyDb.eligible, allowed, status, deleted, quarantined] at notExhausted
      | disabled => exact absurd status enabled

namespace AffinityStore

variable {store : AffinityStore}

/-- The store with other keys, of which the same are usable. -/
def SameUsable (store : AffinityStore) (keys : KeyDb) : Prop :=
  ∀ id, usable keys id = usable store.keys id

/-- A lease finds a usable key that is allowed, where there is one, and changes nothing but
the keys, of which the same stay usable. -/
theorem leaseKey_cases (kind : AcquireKind) (now : Int) (store : AffinityStore) :
    ∃ keys, store.SameUsable keys ∧
      ((∃ lease, store.leaseKey kind now = (some lease, { store with keys }) ∧
          kind.allows lease.id = true ∧ usable store.keys lease.id = true) ∨
        store.leaseKey kind now = (none, { store with keys }) ∧
          ∀ id, usable store.keys id = true → kind.allows id = false) := by
  have reset := usable_resetMonthly now store.keys
  have touched : ∀ secret id,
      usable (touchKey secret now (resetMonthly now store.keys)) id = usable store.keys id :=
    fun secret id => (usable_touchKey secret now _ id).trans (reset id)
  cases active : selectActiveKey kind (resetMonthly now store.keys) with
  | some lease =>
      obtain ⟨allowed, able⟩ := usable_of_select (Or.inl active)
      rw [reset] at able
      refine ⟨_, touched lease.secret, Or.inl ⟨lease, ?_, allowed, able⟩⟩
      simp only [leaseKey, active]
  | none =>
      cases exhausted : selectExhaustedKey kind (resetMonthly now store.keys) with
      | some lease =>
          obtain ⟨allowed, able⟩ := usable_of_select (Or.inr exhausted)
          rw [reset] at able
          refine ⟨_, touched lease.secret, Or.inl ⟨lease, ?_, allowed, able⟩⟩
          simp only [leaseKey, active, exhausted]
      | none =>
          refine ⟨_, reset, Or.inr ⟨?_, ?_⟩⟩
          · simp only [leaseKey, active, exhausted]
          · intro id able
            rw [← reset] at able
            exact not_allows_of_select active exhausted able

/-- A lease of one key. -/
theorem leaseKey_specific (keyId : String) (now : Int) (store : AffinityStore) :
    ∃ keys, store.SameUsable keys ∧
      ((∃ lease, store.leaseKey (.tryAcquireSpecificKey keyId) now =
          (some lease, { store with keys }) ∧ lease.id = keyId ∧ usable store.keys keyId = true) ∨
        store.leaseKey (.tryAcquireSpecificKey keyId) now = (none, { store with keys }) ∧
          usable store.keys keyId = false) := by
  obtain ⟨keys, same, ⟨lease, leased, allowed, able⟩ | ⟨missed, unusable⟩⟩ :=
    leaseKey_cases (.tryAcquireSpecificKey keyId) now store
  · have id : lease.id = keyId := of_decide_eq_true allowed
    rw [id] at able
    exact ⟨keys, same, Or.inl ⟨lease, leased, id, able⟩⟩
  · refine ⟨keys, same, Or.inr ⟨missed, ?_⟩⟩
    rw [Bool.eq_false_iff]
    intro able
    exact absurd (unusable keyId able) (by simp [AcquireKind.allows])

/-- The first usable candidate is leased. -/
theorem leaseCandidate_cases (now : Int) (candidates : List String) (store : AffinityStore) :
    ∃ keys, store.SameUsable keys ∧
      ((∃ lease, leaseCandidate now candidates store = (some lease, { store with keys }) ∧
          candidates.find? (usable store.keys) = some lease.id) ∨
        leaseCandidate now candidates store = (none, { store with keys }) ∧
          ∀ id ∈ candidates, usable store.keys id = false) := by
  induction candidates generalizing store with
  | nil => exact ⟨store.keys, fun _ => rfl, Or.inr ⟨rfl, by simp⟩⟩
  | cons keyId rest ih =>
      obtain ⟨keys, same, ⟨lease, leased, id, able⟩ | ⟨missed, unusable⟩⟩ :=
        leaseKey_specific keyId now store
      · refine ⟨keys, same, Or.inl ⟨lease, ?_, ?_⟩⟩
        · simp only [leaseCandidate, leased]
        · rw [List.find?_cons_of_pos able, id]
      · obtain ⟨keys', same', rest'⟩ := ih { store with keys }
        have usableSame : usable keys = usable store.keys := funext same
        refine ⟨keys', fun id => (same' id).trans (same id), ?_⟩
        rcases rest' with ⟨lease, leased, first⟩ | ⟨missed', unusable'⟩
        · refine Or.inl ⟨lease, ?_, ?_⟩
          · simp only [leaseCandidate, missed, leased]
          · rw [List.find?_cons_of_neg (by simp [unusable]), ← usableSame]
            exact first
        · refine Or.inr ⟨?_, ?_⟩
          · simp only [leaseCandidate, missed, missed']
          · intro id member
            rcases List.mem_cons.1 member with here | later
            · rw [here]
              exact unusable
            · rw [← same id]
              exact unusable' id later

/-! ### The call, by its outcomes -/

/-- The primary key of the user is the first candidate, and the only other one is what the
token has recorded under that user. -/
theorem primaryCandidates_of_userPrimary {userId key : String} (tokenId : String)
    (recorded : store.getUserPrimaryApiKeyAffinity userId = some key) :
    ∃ rest, store.primaryCandidates userId tokenId = key :: rest ∧
      ∀ id ∈ rest, ∃ primary, store.getTokenPrimaryApiKeyAffinity tokenId = some primary ∧
        primary.userId = some userId ∧ primary.apiKeyId = id := by
  unfold primaryCandidates
  simp only [recorded, Option.isNone_some, Bool.false_eq_true, false_and, if_false,
    Option.toList_some]
  cases token : store.getTokenPrimaryApiKeyAffinity tokenId with
  | none => exact ⟨[], rfl, by simp⟩
  | some primary =>
      by_cases second : primary.userId = some userId ∧ primary.apiKeyId ∉ [key]
      · refine ⟨[primary.apiKeyId], ?_, ?_⟩
        · simp only [if_pos second]
          rfl
        · intro id member
          rw [List.mem_singleton.1 member]
          exact ⟨primary, rfl, second.1, rfl⟩
      · refine ⟨[], ?_, by simp⟩
        simp only [if_neg second]

/-- The leased key is the primary key of the user, where that is usable, and else what the
token has recorded. -/
structure KeepsPrimary (store : AffinityStore) (userId tokenId keyId : String) : Prop where
  able : ∀ key, store.getUserPrimaryApiKeyAffinity userId = some key →
    usable store.keys keyId = true
  kept : ∀ key, store.getUserPrimaryApiKeyAffinity userId = some key →
    usable store.keys key = true → keyId = key
  moved : ∀ key, store.getUserPrimaryApiKeyAffinity userId = some key → keyId ≠ key →
    ∃ primary, store.getTokenPrimaryApiKeyAffinity tokenId = some primary ∧
      primary.userId = some userId ∧ primary.apiKeyId = keyId

theorem keepsPrimary_of_none {userId tokenId keyId : String}
    (missing : store.getUserPrimaryApiKeyAffinity userId = none) :
    store.KeepsPrimary userId tokenId keyId := by
  constructor
  all_goals
    intro key recorded
    rw [missing] at recorded
    cases recorded

theorem keepsPrimary_of_candidate {userId tokenId keyId : String}
    (first : (store.primaryCandidates userId tokenId).find? (usable store.keys) = some keyId) :
    store.KeepsPrimary userId tokenId keyId := by
  constructor
  · intro _ _
    exact List.find?_some first
  · intro key recorded able
    obtain ⟨rest, candidates, _⟩ := primaryCandidates_of_userPrimary tokenId recorded
    rw [candidates, List.find?_cons_of_pos able, Option.some.injEq] at first
    exact first.symm
  · intro key recorded other
    obtain ⟨rest, candidates, known⟩ :=
      primaryCandidates_of_userPrimary tokenId recorded
    have member := List.mem_of_find?_eq_some first
    rw [candidates] at member
    rcases List.mem_cons.1 member with same | later
    · exact absurd same other
    · exact known keyId later

/-- What a call for the token of a user does. -/
theorem acquireKeyForUser_cases (userId tokenId : String) (now : Int) (revoked : Bool)
    (store : AffinityStore) :
    ∃ keys, store.SameUsable keys ∧
      ((∃ lease, store.acquireKeyForUser userId tokenId now revoked =
            (some lease,
              { store with keys }.syncUserPrimaryApiKeyAffinity userId lease.id now) ∧
          store.KeepsPrimary userId tokenId lease.id) ∨
        (∃ lease, store.acquireKeyForUser userId tokenId now revoked =
            (if revoked then
              (some lease, ({ store with keys }.syncUserPrimaryApiKeyAffinity userId lease.id
                now).revokeMcpSessionsForUser userId "primary_api_key_rebound" now)
            else
              (none, { store with keys }.syncUserPrimaryApiKeyAffinity userId lease.id now)) ∧
          usable store.keys lease.id = true ∧
          ∀ key, store.getUserPrimaryApiKeyAffinity userId = some key →
            usable store.keys key = false ∧ lease.id ≠ key) ∨
        store.acquireKeyForUser userId tokenId now revoked = (none, { store with keys }) ∧
          ∀ key, store.getUserPrimaryApiKeyAffinity userId = some key →
            ∀ id, usable store.keys id = false) := by
  obtain ⟨keys, same, ⟨lease, leased, first⟩ | ⟨missed, unusable⟩⟩ :=
    leaseCandidate_cases now (store.primaryCandidates userId tokenId) store
  · refine ⟨keys, same, Or.inl ⟨lease, ?_, keepsPrimary_of_candidate first⟩⟩
    simp only [acquireKeyForUser, leased]
  · by_cases known : (store.getUserPrimaryApiKeyAffinity userId).isSome ∨
        (store.getTokenPrimaryApiKeyAffinity tokenId).isSome
    · obtain ⟨keys', same', rebound⟩ := leaseKey_cases
        (.acquireActiveKeyExcluding (store.getUserPrimaryApiKeyAffinity userId)) now
        { store with keys }
      refine ⟨keys', fun id => (same' id).trans (same id), Or.inr ?_⟩
      rcases rebound with ⟨lease, leased, allowed, able⟩ | ⟨nothing, excluded⟩
      · refine Or.inl ⟨lease, ?_, (same lease.id).symm.trans able, ?_⟩
        · simp only [acquireKeyForUser, missed, if_pos known, rebindUserPrimaryAffinity, leased]
        · intro key recorded
          obtain ⟨rest, candidates, _⟩ :=
            primaryCandidates_of_userPrimary tokenId recorded
          refine ⟨unusable key (by rw [candidates]; exact List.mem_cons_self), ?_⟩
          rintro rfl
          simp [AcquireKind.allows, recorded] at allowed
      · refine Or.inr ⟨?_, ?_⟩
        · simp only [acquireKeyForUser, missed, if_pos known, rebindUserPrimaryAffinity, nothing]
        · intro key recorded id
          obtain ⟨rest, candidates, _⟩ :=
            primaryCandidates_of_userPrimary tokenId recorded
          rw [Bool.eq_false_iff]
          intro able
          have barred := excluded id ((same id).trans able)
          simp only [AcquireKind.allows, recorded, ne_eq, Option.some.injEq, decide_eq_false_iff_not,
            not_not] at barred
          have lost := unusable key (by rw [candidates]; exact List.mem_cons_self)
          rw [barred, able] at lost
          cases lost
    · have missing : store.getUserPrimaryApiKeyAffinity userId = none := by
        rw [← Option.not_isSome_iff_eq_none]
        exact fun there => known (Or.inl there)
      obtain ⟨keys', same', leased⟩ := leaseKey_cases .acquireKey now { store with keys }
      refine ⟨keys', fun id => (same' id).trans (same id), ?_⟩
      rcases leased with ⟨lease, leased, _⟩ | ⟨nothing, _⟩
      · refine Or.inl ⟨lease, ?_, keepsPrimary_of_none missing⟩
        simp only [acquireKeyForUser, missed, if_neg known, leased]
      · refine Or.inr (Or.inr ⟨?_, ?_⟩)
        · simp only [acquireKeyForUser, missed, if_neg known, nothing]
        · intro key recorded
          rw [missing] at recorded
          cases recorded

/-- What a call for the token of no user does. -/
theorem acquireKeyForToken_cases (tokenId : String) (now : Int) (revoked : Bool)
    (store : AffinityStore) :
    ∃ keys, store.SameUsable keys ∧
      ((∃ lease, store.acquireKeyForToken tokenId now revoked =
            (some lease,
              { store with keys }.setTokenPrimaryApiKeyAffinity tokenId none lease.id now) ∧
          ∀ primary, store.getTokenPrimaryApiKeyAffinity tokenId = some primary →
            lease.id = primary.apiKeyId ∧ usable store.keys primary.apiKeyId = true) ∨
        (∃ lease, store.acquireKeyForToken tokenId now revoked =
            (if revoked then
              (some lease, ({ store with keys }.setTokenPrimaryApiKeyAffinity tokenId none lease.id
                now).revokeMcpSessionsForToken tokenId "primary_api_key_rebound" now)
            else
              (none, { store with keys }.setTokenPrimaryApiKeyAffinity tokenId none lease.id
                now)) ∧
          usable store.keys lease.id = true ∧
          ∃ primary, store.getTokenPrimaryApiKeyAffinity tokenId = some primary ∧
            usable store.keys primary.apiKeyId = false ∧ lease.id ≠ primary.apiKeyId) ∨
        store.acquireKeyForToken tokenId now revoked = (none, { store with keys }) ∧
          ∀ primary, store.getTokenPrimaryApiKeyAffinity tokenId = some primary →
            ∀ id, usable store.keys id = false) := by
  cases token : store.getTokenPrimaryApiKeyAffinity tokenId with
  | none =>
      obtain ⟨keys, same, ⟨lease, leased, _⟩ | ⟨nothing, _⟩⟩ :=
        leaseKey_cases .acquireKey now store
      · refine ⟨keys, same, Or.inl ⟨lease, ?_, by simp⟩⟩
        simp only [acquireKeyForToken, token, leased]
      · refine ⟨keys, same, Or.inr (Or.inr ⟨?_, by simp⟩)⟩
        simp only [acquireKeyForToken, token, nothing]
  | some primary =>
      obtain ⟨keys, same, ⟨lease, leased, id, able⟩ | ⟨missed, unusable⟩⟩ :=
        leaseKey_specific primary.apiKeyId now store
      · refine ⟨keys, same, Or.inl ⟨lease, ?_, ?_⟩⟩
        · simp only [acquireKeyForToken, token, leased]
        · intro other found
          cases found
          exact ⟨id, able⟩
      · obtain ⟨keys', same', rebound⟩ := leaseKey_cases
          (.acquireActiveKeyExcluding (some primary.apiKeyId)) now { store with keys }
        refine ⟨keys', fun id => (same' id).trans (same id), Or.inr ?_⟩
        rcases rebound with ⟨lease, leased, allowed, able⟩ | ⟨nothing, excluded⟩
        · refine Or.inl ⟨lease, ?_, (same lease.id).symm.trans able, primary, rfl, unusable, ?_⟩
          · simp only [acquireKeyForToken, token, missed, rebindTokenPrimaryAffinity, leased]
          · intro same
            simp [AcquireKind.allows, same] at allowed
        · refine Or.inr ⟨?_, ?_⟩
          · simp only [acquireKeyForToken, token, missed, rebindTokenPrimaryAffinity, nothing]
          · intro other found id
            cases found
            rw [Bool.eq_false_iff]
            intro able
            have barred := excluded id ((same id).trans able)
            simp only [AcquireKind.allows, ne_eq, Option.some.injEq, decide_eq_false_iff_not,
              not_not] at barred
            rw [barred, able] at unusable
            cases unusable

/-! ### What the writes leave -/

theorem mem_tokensOf {userId tokenId : String} :
    tokenId ∈ store.tokensOf userId ↔ store.boundUser tokenId = some userId := by
  simp only [tokensOf, List.mem_map, List.mem_filter, decide_eq_true_eq, boundUser,
    Option.map_eq_some_iff, KeyedTable.find_eq_some_iff]
  constructor
  · rintro ⟨⟨id, row⟩, ⟨member, same⟩, rfl⟩
    exact ⟨row, member, same⟩
  · rintro ⟨row, member, same⟩
    exact ⟨(tokenId, row), ⟨member, same⟩, rfl⟩

theorem nodup_tokensOf (userId : String) : (store.tokensOf userId).Nodup :=
  store.userTokenBindings.distinct.sublist (List.filter_sublist.map Prod.fst)

@[simp] theorem getUserPrimary_sync_self (userId keyId : String) (now : Int) :
    (store.syncUserPrimaryApiKeyAffinity userId keyId now).getUserPrimaryApiKeyAffinity userId =
      some keyId := by
  unfold getUserPrimaryApiKeyAffinity syncUserPrimaryApiKeyAffinity
  rw [KeyedTable.find_upsert_self]
  cases store.userPrimaryApiKeyAffinity.find userId <;> rfl

theorem getUserPrimary_sync_of_ne {userId other : String} (different : other ≠ userId)
    (keyId : String) (now : Int) :
    (store.syncUserPrimaryApiKeyAffinity userId keyId now).getUserPrimaryApiKeyAffinity other =
      store.getUserPrimaryApiKeyAffinity other := by
  unfold getUserPrimaryApiKeyAffinity syncUserPrimaryApiKeyAffinity
  rw [KeyedTable.find_upsert_of_ne _ different]

/-- A sync records its key for every token of the user. -/
theorem getTokenPrimary_sync_bound {userId tokenId : String} (keyId : String) (now : Int)
    (bound : store.boundUser tokenId = some userId) :
    ∃ primary, (store.syncUserPrimaryApiKeyAffinity userId keyId
        now).getTokenPrimaryApiKeyAffinity tokenId = some primary ∧
      primary.userId = some userId ∧ primary.apiKeyId = keyId := by
  unfold getTokenPrimaryApiKeyAffinity syncUserPrimaryApiKeyAffinity
  have distinct : (((store.tokensOf userId).map fun tokenId => (tokenId, ())).map
      Prod.fst).Nodup := by
    simpa [List.map_map, Function.comp_def] using nodup_tokensOf userId
  rw [KeyedTable.find_upsertAll_of_mem _ _ _ distinct
    (List.mem_map.2 ⟨tokenId, mem_tokensOf.2 bound, rfl⟩)]
  cases store.tokenPrimaryApiKeyAffinity.find tokenId with
  | none => exact ⟨_, rfl, rfl, rfl⟩
  | some row => exact ⟨_, rfl, rfl, rfl⟩

theorem getTokenPrimary_sync_unbound {userId tokenId : String} (keyId : String) (now : Int)
    (unbound : store.boundUser tokenId ≠ some userId) :
    (store.syncUserPrimaryApiKeyAffinity userId keyId now).getTokenPrimaryApiKeyAffinity tokenId =
      store.getTokenPrimaryApiKeyAffinity tokenId := by
  unfold getTokenPrimaryApiKeyAffinity syncUserPrimaryApiKeyAffinity
  apply KeyedTable.find_upsertAll_of_notMem
  intro member
  obtain ⟨entry, member, same⟩ := List.mem_map.1 member
  obtain ⟨other, bound, rfl⟩ := List.mem_map.1 member
  cases same
  exact unbound (mem_tokensOf.1 bound)

theorem getTokenPrimary_set_self (tokenId : String) (userId : Option String) (keyId : String)
    (now : Int) :
    ∃ primary, (store.setTokenPrimaryApiKeyAffinity tokenId userId keyId
        now).getTokenPrimaryApiKeyAffinity tokenId = some primary ∧
      primary.userId = userId ∧ primary.apiKeyId = keyId := by
  unfold getTokenPrimaryApiKeyAffinity setTokenPrimaryApiKeyAffinity
  rw [KeyedTable.find_upsert_self]
  cases store.tokenPrimaryApiKeyAffinity.find tokenId with
  | none => exact ⟨_, rfl, rfl, rfl⟩
  | some row => exact ⟨_, rfl, rfl, rfl⟩

theorem getTokenPrimary_set_of_ne {tokenId other : String} (different : other ≠ tokenId)
    (userId : Option String) (keyId : String) (now : Int) :
    (store.setTokenPrimaryApiKeyAffinity tokenId userId keyId
        now).getTokenPrimaryApiKeyAffinity other =
      store.getTokenPrimaryApiKeyAffinity other := by
  unfold getTokenPrimaryApiKeyAffinity setTokenPrimaryApiKeyAffinity
  rw [KeyedTable.find_upsert_of_ne _ different]

/-! ### The user of a token -/

/-- The user that a lookup answers for a token. -/
def knownUser (store : AffinityStore) (tokenId : String) (now : Int) : Option String :=
  match store.cachedBinding tokenId now with
  | some cached => cached.userId
  | none => store.boundUser tokenId

/-- A lookup changes nothing but the cache. -/
theorem findUserIdByToken_eq (tokenId : String) (now : Int) (order : List String)
    (store : AffinityStore) :
    ∃ cache, store.findUserIdByToken tokenId now order =
      (store.knownUser tokenId now, { store with tokenBindingCache := cache }) := by
  unfold findUserIdByToken knownUser
  cases store.cachedBinding tokenId now with
  | some cached => exact ⟨store.tokenBindingCache, rfl⟩
  | none => exact ⟨_, rfl⟩

/-- A lookup of the token would answer as the table does. -/
def BindingKnown (store : AffinityStore) : AffinityAction → Prop
  | .acquire (some tokenId) now _ _ => store.knownUser tokenId now = store.boundUser tokenId
  | _ => True

/-! ### Stickiness -/

/-- A lease for a token, with the store before and after it: the leased key is the primary
key of the user of the token and of all the user's tokens, or else of the token; and it is
the primary key that was recorded, if that was usable. -/
def Sticky (store : AffinityStore) (tokenId : String) (lease : ApiKeyLease)
    (after : AffinityStore) : Prop :=
  match store.boundUser tokenId with
  | some userId =>
      after.getUserPrimaryApiKeyAffinity userId = some lease.id ∧
      (∀ other, store.boundUser other = some userId →
        (after.getTokenPrimaryApiKeyAffinity other).map TokenPrimaryApiKeyAffinity.apiKeyId =
          some lease.id) ∧
      ∀ key, store.getUserPrimaryApiKeyAffinity userId = some key →
        usable store.keys key = true → lease.id = key
  | none =>
      (after.getTokenPrimaryApiKeyAffinity tokenId).map TokenPrimaryApiKeyAffinity.apiKeyId =
          some lease.id ∧
      ∀ primary, store.getTokenPrimaryApiKeyAffinity tokenId = some primary →
        usable store.keys primary.apiKeyId = true → lease.id = primary.apiKeyId

/-- A call that leases a key for a token is sticky. -/
def AcquiresSticky (store : AffinityStore) : AffinityAction → Prop
  | .acquire (some tokenId) now order revoked =>
      ∀ lease, (store.acquireKeyFor (some tokenId) now order revoked).1 = some lease →
        store.Sticky tokenId lease (store.acquireKeyFor (some tokenId) now order revoked).2
  | _ => True

/-- A call for a token of the user leases the key. -/
def LeasesFor (userId keyId : String) (store : AffinityStore) : AffinityAction → Prop
  | .acquire (some tokenId) now order revoked =>
      store.boundUser tokenId = some userId →
        (store.acquireKeyFor (some tokenId) now order revoked).1.map ApiKeyLease.id = some keyId
  | _ => True

theorem sync_sticky {userId tokenId : String} {lease : ApiKeyLease} (keys : KeyDb)
    (cache : TokenBindingCache) (now : Int) {after : AffinityStore}
    (bound : store.boundUser tokenId = some userId)
    (users : after.userPrimaryApiKeyAffinity =
      ({ store with keys, tokenBindingCache := cache }.syncUserPrimaryApiKeyAffinity userId
        lease.id now).userPrimaryApiKeyAffinity)
    (tokens : after.tokenPrimaryApiKeyAffinity =
      ({ store with keys, tokenBindingCache := cache }.syncUserPrimaryApiKeyAffinity userId
        lease.id now).tokenPrimaryApiKeyAffinity)
    (kept : ∀ key, store.getUserPrimaryApiKeyAffinity userId = some key →
      usable store.keys key = true → lease.id = key) :
    store.Sticky tokenId lease after := by
  unfold Sticky
  rw [bound]
  refine ⟨?_, ?_, kept⟩
  · unfold getUserPrimaryApiKeyAffinity
    rw [users]
    exact getUserPrimary_sync_self userId lease.id now
  · intro other mine
    have bound' : { store with keys, tokenBindingCache := cache : AffinityStore }.boundUser other =
        some userId := mine
    obtain ⟨primary, found, _, same⟩ := getTokenPrimary_sync_bound lease.id now bound'
    unfold getTokenPrimaryApiKeyAffinity
    rw [tokens]
    exact Option.map_eq_some_iff.2 ⟨primary, found, same⟩

theorem set_sticky {tokenId : String} {lease : ApiKeyLease} (keys : KeyDb)
    (cache : TokenBindingCache) (now : Int) {after : AffinityStore}
    (unbound : store.boundUser tokenId = none)
    (tokens : after.tokenPrimaryApiKeyAffinity =
      ({ store with keys, tokenBindingCache := cache }.setTokenPrimaryApiKeyAffinity tokenId none
        lease.id now).tokenPrimaryApiKeyAffinity)
    (kept : ∀ primary, store.getTokenPrimaryApiKeyAffinity tokenId = some primary →
      usable store.keys primary.apiKeyId = true → lease.id = primary.apiKeyId) :
    store.Sticky tokenId lease after := by
  unfold Sticky
  rw [unbound]
  refine ⟨?_, kept⟩
  obtain ⟨primary, found, _, same⟩ : ∃ primary,
      ({ store with keys, tokenBindingCache := cache }.setTokenPrimaryApiKeyAffinity tokenId none
        lease.id now).getTokenPrimaryApiKeyAffinity tokenId = some primary ∧
      primary.userId = none ∧ primary.apiKeyId = lease.id :=
    getTokenPrimary_set_self tokenId none lease.id now
  unfold getTokenPrimaryApiKeyAffinity
  rw [tokens]
  exact Option.map_eq_some_iff.2 ⟨primary, found, same⟩

/-- A call whose lookup is right is sticky. -/
theorem acquiresSticky {action : AffinityAction} (known : store.BindingKnown action) :
    store.AcquiresSticky action := by
  cases action with
  | acquire authTokenId now order revoked =>
      cases authTokenId with
      | none => trivial
      | some tokenId =>
          intro lease leased
          obtain ⟨cache, looked⟩ := findUserIdByToken_eq tokenId now order store
          have right : store.knownUser tokenId now = store.boundUser tokenId := known
          rw [right] at looked
          cases bound : store.boundUser tokenId with
          | some userId =>
              rw [bound] at looked
              simp only [acquireKeyFor, looked] at leased ⊢
              obtain ⟨keys, same, ⟨led, result, keeps⟩ | ⟨led, result, able, moved⟩ | ⟨result, _⟩⟩ :=
                acquireKeyForUser_cases userId tokenId now revoked
                  { store with tokenBindingCache := cache }
              · rw [result] at leased ⊢
                cases leased
                exact sync_sticky keys cache now bound rfl rfl keeps.kept
              · rw [result] at leased ⊢
                cases revoked with
                | false => cases leased
                | true =>
                    cases leased
                    apply sync_sticky keys cache now bound rfl rfl
                    intro key recorded able'
                    have unusable : usable store.keys key = false := (moved key recorded).1
                    rw [unusable] at able'
                    cases able'
              · rw [result] at leased
                cases leased
          | none =>
              rw [bound] at looked
              simp only [acquireKeyFor, looked] at leased ⊢
              obtain ⟨keys, same, ⟨led, result, kept⟩ | ⟨led, result, able, primary, recorded, lost⟩ |
                ⟨result, _⟩⟩ :=
                acquireKeyForToken_cases tokenId now revoked
                  { store with tokenBindingCache := cache }
              · rw [result] at leased ⊢
                cases leased
                exact set_sticky keys cache now bound rfl
                  fun primary found _ => (kept primary found).1
              · rw [result] at leased ⊢
                cases revoked with
                | false => cases leased
                | true =>
                    cases leased
                    apply set_sticky keys cache now bound rfl
                    intro other found able'
                    have found' : store.getTokenPrimaryApiKeyAffinity tokenId = some primary :=
                      recorded
                    rw [found'] at found
                    cases found
                    have unusable : usable store.keys primary.apiKeyId = false := lost.1
                    rw [unusable] at able'
                    cases able'
              · rw [result] at leased
                cases leased
  | _ => trivial

/-- No step moves the primary key of a user away from a usable key. -/
theorem getUserPrimary_step {userId keyId : String} {action : AffinityAction}
    {store' : AffinityStore} (recorded : store.getUserPrimaryApiKeyAffinity userId = some keyId)
    (able : usable store.keys keyId = true) (taken : affinityStep store action = some store') :
    store'.getUserPrimaryApiKeyAffinity userId = some keyId := by
  cases action with
  | acquire authTokenId now order revoked =>
      cases taken
      cases authTokenId with
      | none =>
          obtain ⟨keys, _, ⟨lease, leased, _⟩ | ⟨nothing, _⟩⟩ := leaseKey_cases .acquireKey now store
          · simp only [acquireKeyFor, leased]
            exact recorded
          · simp only [acquireKeyFor, nothing]
            exact recorded
      | some tokenId =>
          obtain ⟨cache, looked⟩ := findUserIdByToken_eq tokenId now order store
          cases known : store.knownUser tokenId now with
          | some user =>
              rw [known] at looked
              simp only [acquireKeyFor, looked]
              -- A sync for the user would be one to the key that is recorded.
              have synced : ∀ (keys : KeyDb) (lease : ApiKeyLease),
                  (user = userId → lease.id = keyId) →
                  ({ store with keys, tokenBindingCache := cache }.syncUserPrimaryApiKeyAffinity
                    user lease.id now).getUserPrimaryApiKeyAffinity userId = some keyId := by
                intro keys lease same
                by_cases mine : user = userId
                · subst mine
                  rw [getUserPrimary_sync_self, same rfl]
                · rw [getUserPrimary_sync_of_ne (Ne.symm mine)]
                  exact recorded
              obtain ⟨keys, _, ⟨lease, result, keeps⟩ | ⟨lease, result, _, moved⟩ | ⟨result, _⟩⟩ :=
                acquireKeyForUser_cases user tokenId now revoked
                  { store with tokenBindingCache := cache }
              · rw [result]
                apply synced keys lease
                rintro rfl
                exact keeps.kept keyId recorded able
              · have other : user = userId → lease.id = keyId := by
                  rintro rfl
                  have unusable : usable store.keys keyId = false := (moved keyId recorded).1
                  rw [unusable] at able
                  cases able
                rw [result]
                cases revoked with
                | true => exact synced keys lease other
                | false => exact synced keys lease other
              · rw [result]
                exact recorded
          | none =>
              rw [known] at looked
              simp only [acquireKeyFor, looked]
              obtain ⟨keys, _, ⟨lease, result, _⟩ | ⟨lease, result, _⟩ | ⟨result, _⟩⟩ :=
                acquireKeyForToken_cases tokenId now revoked
                  { store with tokenBindingCache := cache }
              · rw [result]
                exact recorded
              · rw [result]
                cases revoked with
                | true => exact recorded
                | false => exact recorded
              · rw [result]
                exact recorded
  | bindToken user tokenId now =>
      simp only [affinityStep, bindToken] at taken
      split at taken
      · cases taken
        exact recorded
      · split at taken
        · cases taken
          exact recorded
        · cases taken
  | cacheBinding index now order =>
      simp only [affinityStep, Option.map_eq_some_iff] at taken
      obtain ⟨_, _, rfl⟩ := taken
      exact recorded
  | changeKeys keys =>
      cases taken
      exact recorded
  | changeHistory rows =>
      cases taken
      exact recorded
  | changeSessions sessions =>
      cases taken
      exact recorded
  | readBinding tokenId =>
      cases taken
      exact recorded
  | abandonCacheWrite index =>
      cases taken
      exact recorded
  | restart =>
      cases taken
      exact recorded

/-- A call whose lookup is right leases the primary key of the user, where that is usable. -/
theorem leasesFor {userId keyId : String} {action : AffinityAction}
    (known : store.BindingKnown action)
    (recorded : store.getUserPrimaryApiKeyAffinity userId = some keyId)
    (able : usable store.keys keyId = true) : LeasesFor userId keyId store action := by
  cases action with
  | acquire authTokenId now order revoked =>
      cases authTokenId with
      | none => trivial
      | some tokenId =>
          intro bound
          obtain ⟨cache, looked⟩ := findUserIdByToken_eq tokenId now order store
          have right : store.knownUser tokenId now = store.boundUser tokenId := known
          rw [right, bound] at looked
          simp only [acquireKeyFor, looked]
          obtain ⟨keys, _, ⟨lease, result, keeps⟩ | ⟨lease, result, _, moved⟩ | ⟨result, nothing⟩⟩ :=
            acquireKeyForUser_cases userId tokenId now revoked
              { store with tokenBindingCache := cache }
          · rw [result]
            exact congrArg some (keeps.kept keyId recorded able)
          · have unusable : usable store.keys keyId = false := (moved keyId recorded).1
            rw [unusable] at able
            cases able
          · have unusable : usable store.keys keyId = false := nothing keyId recorded keyId
            rw [unusable] at able
            cases able
  | _ => trivial

/-- In every run whose lookups are right, each call that leases a key for a token is sticky,
and as long as the primary key of a user stays usable each call for one of the user's tokens
leases it. -/
theorem keyStickiness_alongRun (store : AffinityStore) (actions : List AffinityAction)
    (known : keyAffinitySystem.Guarded BindingKnown store actions) :
    keyAffinitySystem.Guarded AcquiresSticky store actions ∧
    ∀ userId keyId, store.getUserPrimaryApiKeyAffinity userId = some keyId →
      keyAffinitySystem.AlongRun (fun store => usable store.keys keyId = true) store actions →
      keyAffinitySystem.Guarded (LeasesFor userId keyId) store actions := by
  induction actions generalizing store with
  | nil => exact ⟨trivial, fun _ _ _ _ => trivial⟩
  | cons action rest ih =>
      constructor
      · intro store' taken
        obtain ⟨here, later⟩ := known store' taken
        exact ⟨acquiresSticky here, (ih store' later).1⟩
      · intro userId keyId recorded able store' taken
        obtain ⟨here, later⟩ := known store' taken
        have recorded' := getUserPrimary_step recorded able.1 taken
        exact ⟨leasesFor here recorded able.1,
          (ih store' later).2 userId keyId recorded' (able.2 store' taken)⟩

/-! ### A lookup that is overtaken by a binding -/

def affinityKey (apiKey : String) (lastUsedAt : Int) : ApiKeyRow where
  apiKey := apiKey
  groupName := none
  registrationIp := none
  registrationRegion := none
  status := .active
  createdAt := 0
  statusChangedAt := some 0
  lastUsedAt := lastUsedAt
  deletedAt := none

/-- Two active keys, and a user with one token. -/
def oneTokenStore : AffinityStore where
  keys :=
    { apiKeys :=
        { rows := [("k1", affinityKey "s1" 0), ("k2", affinityKey "s2" 1)], distinct := by decide }
      apiKeyQuarantines := .empty
      maintenanceRecords := []
      authTokens := [] }
  userPrimaryApiKeyAffinity := .empty
  tokenPrimaryApiKeyAffinity := .empty
  userTokenBindings :=
    { rows := [("one", { userId := "user", createdAt := 0, updatedAt := 0 })]
      distinct := by decide }
  userApiKeyBindings := .empty
  mcpSessions := .empty
  tokenBindingCache := .empty
  pendingCacheWrites := []

/-- The user has two tokens, and the key used last as the primary key. -/
def twoTokenStore : AffinityStore :=
  { oneTokenStore with
    userPrimaryApiKeyAffinity :=
      { rows := [("user", { apiKeyId := "k2", createdAt := 0, updatedAt := 0 })]
        distinct := by decide }
    userTokenBindings :=
      { rows :=
          [("one", { userId := "user", createdAt := 0, updatedAt := 0 }),
            ("two", { userId := "user", createdAt := 0, updatedAt := 0 })]
        distinct := by decide } }

/-- The tokens of the user call in turn; the second lookup of the first is in the cache. -/
def twoTokenRun : List AffinityAction :=
  [.acquire (some "one") 10 [] true, .acquire (some "two") 11 [] true,
    .acquire (some "one") 12 [] true]

theorem bindingKnown_twoTokenRun :
    keyAffinitySystem.Guarded BindingKnown twoTokenStore twoTokenRun := by
  have first : twoTokenStore.knownUser "one" 10 = twoTokenStore.boundUser "one" := by
    decide +kernel
  let second := (twoTokenStore.acquireKeyFor (some "one") 10 [] true).2
  have known : second.knownUser "two" 11 = second.boundUser "two" := by decide +kernel
  let third := (second.acquireKeyFor (some "two") 11 [] true).2
  have again : third.knownUser "one" 12 = third.boundUser "one" := by decide +kernel
  intro store taken
  cases taken
  refine ⟨first, fun store taken => ?_⟩
  cases taken
  refine ⟨known, fun store taken => ?_⟩
  cases taken
  exact ⟨again, trivial⟩

theorem keyStickiness_alongRun_twoTokens :
    keyAffinitySystem.Guarded AcquiresSticky twoTokenStore twoTokenRun ∧
      keyAffinitySystem.Guarded (LeasesFor "user" "k2") twoTokenStore twoTokenRun := by
  obtain ⟨sticky, leases⟩ :=
    keyStickiness_alongRun twoTokenStore twoTokenRun bindingKnown_twoTokenRun
  exact ⟨sticky, leases "user" "k2" rfl (by decide +kernel)⟩

/-- A second token is looked up, then bound to the user, and only then is what the lookup read
written into the cache. -/
def overtakenLookup : List AffinityAction :=
  [.acquire (some "one") 10 [] true, .readBinding "two", .bindToken "user" "two" 11,
    .cacheBinding 1 11 [], .cacheBinding 0 11 [], .acquire (some "two") 12 [] true]

/-- The second token leases another key than the primary key of its user. -/
theorem overtakenLookup_notSticky :
    ¬keyAffinitySystem.Guarded AcquiresSticky oneTokenStore overtakenLookup := by
  intro guarded
  have facts : (keyAffinitySystem.run oneTokenStore (overtakenLookup.take 5)).map (fun store =>
      (store.boundUser "two", ((store.acquireKeyFor (some "two") 12 [] true).1.map ApiKeyLease.id,
        (store.acquireKeyFor (some "two") 12 [] true).2.getUserPrimaryApiKeyAffinity "user"))) =
      some (some "user", some "k2", some "k1") := by decide +kernel
  obtain ⟨store, ran, values⟩ := Option.map_eq_some_iff.1 facts
  simp only [Prod.mk.injEq] at values
  obtain ⟨bound, leased, primary⟩ := values
  obtain ⟨lease, leased, id⟩ := Option.map_eq_some_iff.1 leased
  have guarded : keyAffinitySystem.Guarded AcquiresSticky oneTokenStore
      (overtakenLookup.take 5 ++ overtakenLookup.drop 5) := guarded
  have last := (guarded.split keyAffinitySystem ran).2
  have sticky := (last _ rfl).1 lease leased
  unfold Sticky at sticky
  rw [bound] at sticky
  have same := sticky.1
  rw [primary, id] at same
  have different : (some "k1" : Option String) ≠ some "k2" := by decide
  exact different same

end AffinityStore

end TavilyHikari.TavilyProxy
