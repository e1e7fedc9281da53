/-
Module: TavilyHikari.Proofs.PinnedSessions
Purpose: What a call that moves a primary key leaves of the sessions that are pinned to the
  old key.
Trusted boundary: none
Main exports: SessionsFollow, RevokesPinned, sessionsFollow_alongRun,
  adoptedToken_not_followed
-/
import TavilyHikari.Proofs.KeyAffinity

namespace TavilyHikari.TavilyProxy

open Library Store

namespace AffinityStore

variable {store : AffinityStore}

/-! ### Sessions -/

/-- The session is one of the user: it was created for the user, or with a token that is bound
to the user. -/
def SessionOfUser (store : AffinityStore) (userId : String) (session : McpSession) : Prop :=
  session.userId = some userId ∨
    ∃ tokenId, session.authTokenId = some tokenId ∧ store.boundUser tokenId = some userId

/-- No session of these that has not been revoked is pinned to the key. -/
def NonePinned (store : AffinityStore) (owned : McpSession → Prop) (keyId : String) : Prop :=
  ∀ id session, store.mcpSessions.find id = some session → owned session →
    session.revokedAt = none → session.upstreamKeyId ≠ keyId

/-- Of the sessions of a user, or of a token without a user, none is pinned to a primary key
that a call has moved. -/
structure FollowPrimary (store after : AffinityStore) : Prop where
  users : ∀ userId old key, store.getUserPrimaryApiKeyAffinity userId = some old →
    after.getUserPrimaryApiKeyAffinity userId = some key → key ≠ old →
    after.NonePinned (store.SessionOfUser userId) old
  tokens : ∀ tokenId old primary, store.boundUser tokenId = none →
    store.getTokenPrimaryApiKeyAffinity tokenId = some old →
    after.getTokenPrimaryApiKeyAffinity tokenId = some primary →
    primary.apiKeyId ≠ old.apiKeyId →
    after.NonePinned (fun session => session.authTokenId = some tokenId) old.apiKeyId

/-- A call leaves no session pinned to a primary key that it moves. -/
def SessionsFollow (store : AffinityStore) : AffinityAction → Prop
  | .acquire authTokenId now order revoked =>
      store.FollowPrimary (store.acquireKeyFor authTokenId now order revoked).2
  | _ => True

/-- A primary key that the next call moves: it is not usable, and another key is. -/
def Lost (store : AffinityStore) (keyId : String) : Prop :=
  usable store.keys keyId = false ∧ ∃ id, usable store.keys id = true

/-- Where a call moves a primary key, the statement that revokes the sessions covers those
that are pinned to it: it succeeds, and the sessions of the user were created for the user. -/
def RevokesPinned (store : AffinityStore) : AffinityAction → Prop
  | .acquire (some tokenId) now _ revoked =>
      match store.knownUser tokenId now with
      | some userId =>
          ∀ old, store.getUserPrimaryApiKeyAffinity userId = some old → store.Lost old →
            store.NonePinned (fun session => store.SessionOfUser userId session ∧
              ¬(revoked = true ∧ session.userId = some userId)) old
      | none =>
          store.boundUser tokenId = none →
          ∀ old, store.getTokenPrimaryApiKeyAffinity tokenId = some old →
            store.Lost old.apiKeyId →
            store.NonePinned (fun session => session.authTokenId = some tokenId ∧
              revoked = false) old.apiKeyId
  | _ => True

/-- A revoking statement leaves the sessions that it does not select. -/
theorem nonePinned_updateWhere (selects : McpSession → Bool) {after : AffinityStore} {now : Int}
    {reason : String} {owned : McpSession → Prop} {keyId : String}
    (sessions : after.mcpSessions = store.mcpSessions.updateWhere
      (fun _ session => selects session && session.revokedAt.isNone)
      (McpSession.revoke now reason)) :
    after.NonePinned owned keyId ↔
      store.NonePinned (fun session => owned session ∧ selects session = false) keyId := by
  unfold NonePinned
  rw [sessions]
  constructor
  · intro none id session found ⟨mine, unselected⟩ unrevoked
    apply none id session _ mine unrevoked
    rw [KeyedTable.find_updateWhere, found, Option.map_some, unselected, Bool.false_and]
    rfl
  · intro none id session found mine unrevoked
    rw [KeyedTable.find_updateWhere, Option.map_eq_some_iff] at found
    obtain ⟨before, recorded, result⟩ := found
    split at result
    · rw [← result] at unrevoked
      cases unrevoked
    · rename_i unselected
      subst result
      apply none id before recorded ⟨mine, _⟩ unrevoked
      simpa [unrevoked] using unselected

theorem nonePinned_of_same {after : AffinityStore} {owned : McpSession → Prop} {keyId : String}
    (sessions : after.mcpSessions = store.mcpSessions) :
    after.NonePinned owned keyId ↔ store.NonePinned owned keyId := by
  unfold NonePinned
  rw [sessions]

theorem NonePinned.congr {owned other : McpSession → Prop} {keyId : String}
    (same : ∀ session, owned session ↔ other session) :
    store.NonePinned owned keyId ↔ store.NonePinned other keyId := by
  unfold NonePinned
  simp only [same]

/-! ### The rows of the tokens and of their users -/

/-- The primary keys are those of another store. -/
def SamePrimaries (store after : AffinityStore) : Prop :=
  after.userPrimaryApiKeyAffinity = store.userPrimaryApiKeyAffinity ∧
    after.tokenPrimaryApiKeyAffinity = store.tokenPrimaryApiKeyAffinity

theorem SamePrimaries.user {after : AffinityStore} (same : store.SamePrimaries after)
    (userId : String) :
    after.getUserPrimaryApiKeyAffinity userId = store.getUserPrimaryApiKeyAffinity userId :=
  congrArg (fun rows => (rows.find userId).map UserPrimaryApiKeyAffinity.apiKeyId) same.1

theorem SamePrimaries.token {after : AffinityStore} (same : store.SamePrimaries after)
    (tokenId : String) :
    after.getTokenPrimaryApiKeyAffinity tokenId = store.getTokenPrimaryApiKeyAffinity tokenId :=
  congrArg (fun rows => rows.find tokenId) same.2

/-- A primary key that is recorded for a token under a user is the primary key of that user,
and the token is bound to the user. -/
def PrimariesAgree (store : AffinityStore) : Prop :=
  ∀ tokenId primary userId, store.getTokenPrimaryApiKeyAffinity tokenId = some primary →
    primary.userId = some userId →
    store.boundUser tokenId = some userId ∧
      store.getUserPrimaryApiKeyAffinity userId = some primary.apiKeyId

theorem PrimariesAgree.of_same {after : AffinityStore} (agree : store.PrimariesAgree)
    (same : store.SamePrimaries after)
    (bound : ∀ tokenId userId, store.boundUser tokenId = some userId →
      after.boundUser tokenId = some userId) : after.PrimariesAgree := by
  intro tokenId primary userId recorded mine
  rw [same.token] at recorded
  obtain ⟨owned, user⟩ := agree tokenId primary userId recorded mine
  exact ⟨bound tokenId userId owned, (same.user userId).trans user⟩

theorem PrimariesAgree.sync (agree : store.PrimariesAgree) (userId keyId : String) (now : Int) :
    (store.syncUserPrimaryApiKeyAffinity userId keyId now).PrimariesAgree := by
  intro tokenId primary owner recorded mine
  by_cases bound : store.boundUser tokenId = some userId
  · obtain ⟨synced, found, by_user, same⟩ := getTokenPrimary_sync_bound keyId now bound
    rw [found] at recorded
    cases recorded
    rw [by_user] at mine
    cases mine
    refine ⟨bound, ?_⟩
    rw [getUserPrimary_sync_self, same]
  · rw [getTokenPrimary_sync_unbound keyId now bound] at recorded
    obtain ⟨owned, same⟩ := agree tokenId primary owner recorded mine
    refine ⟨owned, ?_⟩
    have other : owner ≠ userId := by
      rintro rfl
      exact bound owned
    rw [getUserPrimary_sync_of_ne other]
    exact same

theorem PrimariesAgree.set (agree : store.PrimariesAgree) (tokenId keyId : String) (now : Int) :
    (store.setTokenPrimaryApiKeyAffinity tokenId none keyId now).PrimariesAgree := by
  intro other primary owner recorded mine
  by_cases here : other = tokenId
  · subst here
    obtain ⟨set, found, unowned, _⟩ := @getTokenPrimary_set_self store other none keyId now
    rw [found] at recorded
    cases recorded
    rw [unowned] at mine
    cases mine
  · rw [getTokenPrimary_set_of_ne here] at recorded
    exact agree other primary owner recorded mine

/-- What a call leaves of the primary keys. -/
theorem acquireKeyFor_primaries (authTokenId : Option String) (now : Int) (order : List String)
    (revoked : Bool) (store : AffinityStore) (agree : store.PrimariesAgree) :
    (store.acquireKeyFor authTokenId now order revoked).2.PrimariesAgree := by
  cases authTokenId with
  | none =>
      obtain ⟨keys, _, ⟨lease, leased, _⟩ | ⟨nothing, _⟩⟩ := leaseKey_cases .acquireKey now store
      · simp only [acquireKeyFor, leased]
        exact agree
      · simp only [acquireKeyFor, nothing]
        exact agree
  | some tokenId =>
      obtain ⟨cache, looked⟩ := findUserIdByToken_eq tokenId now order store
      cases known : store.knownUser tokenId now with
      | some userId =>
          rw [known] at looked
          simp only [acquireKeyFor, looked]
          obtain ⟨keys, _, ⟨lease, result, _⟩ | ⟨lease, result, _⟩ | ⟨result, _⟩⟩ :=
            acquireKeyForUser_cases userId tokenId now revoked
              { store with tokenBindingCache := cache }
          · rw [result]
            exact agree.sync userId lease.id now
          · rw [result]
            cases revoked with
            | true => exact agree.sync userId lease.id now
            | false => exact agree.sync userId lease.id now
          · rw [result]
            exact agree
      | none =>
          rw [known] at looked
          simp only [acquireKeyFor, looked]
          obtain ⟨keys, _, ⟨lease, result, _⟩ | ⟨lease, result, _⟩ | ⟨result, _⟩⟩ :=
            acquireKeyForToken_cases tokenId now revoked
              { store with tokenBindingCache := cache }
          · rw [result]
            exact agree.set tokenId lease.id now
          · rw [result]
            cases revoked with
            | true => exact agree.set tokenId lease.id now
            | false => exact agree.set tokenId lease.id now
          · rw [result]
            exact agree

theorem boundUser_bindToken {userId tokenId : String} {now : Int} {after : AffinityStore}
    (bound : store.bindToken userId tokenId now = some after) {other owner : String}
    (owned : store.boundUser other = some owner) : after.boundUser other = some owner := by
  unfold boundUser at owned ⊢
  obtain ⟨row, found, rfl⟩ := Option.map_eq_some_iff.1 owned
  unfold bindToken at bound
  split at bound
  · rename_i missing
    cases bound
    have different : other ≠ tokenId := by
      rintro rfl
      rw [missing] at found
      cases found
    rw [KeyedTable.find_upsert_of_ne _ different, found]
    rfl
  · split at bound
    · cases bound
      by_cases here : other = tokenId
      · subst here
        rw [KeyedTable.find_modify_self, found]
        rfl
      · rw [KeyedTable.find_modify_of_ne _ here, found]
        rfl
    · cases bound

theorem primariesAgree_step {action : AffinityAction} {after : AffinityStore}
    (agree : store.PrimariesAgree) (taken : affinityStep store action = some after) :
    after.PrimariesAgree := by
  cases action with
  | acquire authTokenId now order revoked =>
      cases taken
      exact acquireKeyFor_primaries authTokenId now order revoked store agree
  | bindToken userId tokenId now =>
      have bound : store.bindToken userId tokenId now = some after := taken
      have kept : store.SamePrimaries after := by
        unfold bindToken at bound
        split at bound
        · cases bound
          exact ⟨rfl, rfl⟩
        · split at bound
          · cases bound
            exact ⟨rfl, rfl⟩
          · cases bound
      exact agree.of_same kept fun _ _ => boundUser_bindToken bound
  | cacheBinding index now order =>
      simp only [affinityStep, Option.map_eq_some_iff] at taken
      obtain ⟨_, _, rfl⟩ := taken
      exact agree
  | changeKeys keys =>
      cases taken
      exact agree
  | changeHistory rows =>
      cases taken
      exact agree
  | changeSessions sessions =>
      cases taken
      exact agree
  | readBinding tokenId =>
      cases taken
      exact agree
  | abandonCacheWrite index =>
      cases taken
      exact agree
  | restart =>
      cases taken
      exact agree

/-! ### A call that moves a primary key -/

/-- A call that leaves the primary keys has no session to revoke. -/
theorem FollowPrimary.of_same {after : AffinityStore} (same : store.SamePrimaries after) :
    store.FollowPrimary after := by
  constructor
  · intro userId old key recorded now moved
    rw [same.user, recorded] at now
    cases now
    exact absurd rfl moved
  · intro tokenId old primary _ recorded now moved
    rw [same.token, recorded] at now
    cases now
    exact absurd rfl moved

/-- A sync moves the primary key of its user only, and of no token without a user. -/
theorem followPrimary_sync {userId keyId : String} {now : Int} {after : AffinityStore}
    (synced : (store.syncUserPrimaryApiKeyAffinity userId keyId now).SamePrimaries after) :
    store.FollowPrimary after ↔
      ∀ old, store.getUserPrimaryApiKeyAffinity userId = some old → keyId ≠ old →
        after.NonePinned (store.SessionOfUser userId) old := by
  constructor
  · intro follow old recorded moved
    exact follow.users userId old keyId recorded
      ((synced.user userId).trans (getUserPrimary_sync_self userId keyId now)) moved
  · intro covered
    constructor
    · intro user old key recorded later moved
      rw [synced.user] at later
      by_cases mine : user = userId
      · subst mine
        rw [getUserPrimary_sync_self] at later
        cases later
        exact covered old recorded moved
      · rw [getUserPrimary_sync_of_ne mine, recorded] at later
        cases later
        exact absurd rfl moved
    · intro token old primary unbound recorded later moved
      have foreign : store.boundUser token ≠ some userId := by
        rw [unbound]
        simp
      rw [synced.token, getTokenPrimary_sync_unbound keyId now foreign, recorded] at later
      cases later
      exact absurd rfl moved

/-- A write for a token moves the primary key of that token only. -/
theorem followPrimary_set {tokenId keyId : String} {now : Int} {after : AffinityStore}
    (set : (store.setTokenPrimaryApiKeyAffinity tokenId none keyId now).SamePrimaries after) :
    store.FollowPrimary after ↔
      (store.boundUser tokenId = none →
        ∀ old, store.getTokenPrimaryApiKeyAffinity tokenId = some old → keyId ≠ old.apiKeyId →
          after.NonePinned (fun session => session.authTokenId = some tokenId) old.apiKeyId) := by
  obtain ⟨written, found, _, same⟩ :=
    @getTokenPrimary_set_self store tokenId none keyId now
  constructor
  · intro follow unbound old recorded moved
    rw [← same] at moved
    exact follow.tokens tokenId old written unbound recorded ((set.token tokenId).trans found) moved
  · intro covered
    constructor
    · intro user old key recorded later moved
      have same : (store.setTokenPrimaryApiKeyAffinity tokenId none keyId
          now).getUserPrimaryApiKeyAffinity user = store.getUserPrimaryApiKeyAffinity user := rfl
      rw [set.user, same, recorded] at later
      cases later
      exact absurd rfl moved
    · intro token old primary unbound recorded later moved
      rw [set.token] at later
      by_cases here : token = tokenId
      · subst here
        rw [found] at later
        cases later
        rw [same] at moved
        exact covered unbound old recorded moved
      · rw [getTokenPrimary_set_of_ne here, recorded] at later
        cases later
        exact absurd rfl moved

theorem not_lost_of_unusable {keyId : String}
    (nothing : ∀ id, usable store.keys id = false) : ¬ store.Lost keyId := by
  rintro ⟨_, id, able⟩
  rw [nothing id] at able
  cases able

/-- A call for a user's token moves the primary key of the user where that is lost, and then
the sessions follow where the revoking statement covers them. -/
theorem followPrimary_user (agree : store.PrimariesAgree) (userId tokenId : String) (now : Int)
    (revoked : Bool) (cache : TokenBindingCache) :
    store.FollowPrimary
        ({ store with tokenBindingCache := cache }.acquireKeyForUser userId tokenId now
          revoked).2 ↔
      ∀ old, store.getUserPrimaryApiKeyAffinity userId = some old → store.Lost old →
        store.NonePinned (fun session => store.SessionOfUser userId session ∧
          ¬(revoked = true ∧ session.userId = some userId)) old := by
  obtain ⟨keys, _, ⟨lease, result, keeps⟩ | ⟨lease, result, able, moved⟩ | ⟨result, nothing⟩⟩ :=
    acquireKeyForUser_cases userId tokenId now revoked { store with tokenBindingCache := cache }
  · -- The leased candidate is the recorded key: a row of the token says nothing else.
    have same : ∀ old, store.getUserPrimaryApiKeyAffinity userId = some old → lease.id = old := by
      intro old recorded
      by_contra other
      obtain ⟨primary, found, mine, id⟩ := keeps.moved old recorded other
      obtain ⟨_, user⟩ := agree tokenId primary userId found mine
      rw [recorded, Option.some.injEq] at user
      exact other (id.symm.trans user.symm)
    have synced : (store.syncUserPrimaryApiKeyAffinity userId lease.id now).SamePrimaries
        (acquireKeyForUser userId tokenId now revoked
          { store with tokenBindingCache := cache }).2 := by
      rw [result]
      exact ⟨rfl, rfl⟩
    apply (followPrimary_sync synced).trans
    constructor
    · intro _ old recorded lost
      have able : usable store.keys lease.id = true := keeps.able old recorded
      rw [same old recorded, lost.1] at able
      cases able
    · intro _ old recorded other
      exact absurd (same old recorded) other
  · have lost : ∀ old, store.getUserPrimaryApiKeyAffinity userId = some old →
        store.Lost old ∧ lease.id ≠ old :=
      fun old recorded => ⟨⟨(moved old recorded).1, lease.id, able⟩, (moved old recorded).2⟩
    have sessions : ∀ old, (acquireKeyForUser userId tokenId now revoked
        { store with tokenBindingCache := cache }).2.NonePinned (store.SessionOfUser userId) old ↔
        store.NonePinned (fun session => store.SessionOfUser userId session ∧
          ¬(revoked = true ∧ session.userId = some userId)) old := by
      intro old
      rw [result]
      cases revoked with
      | true =>
          apply (nonePinned_updateWhere (fun session => session.userId = some userId) rfl).trans
          apply NonePinned.congr
          simp
      | false =>
          apply (nonePinned_of_same rfl).trans
          apply NonePinned.congr
          simp
    have synced : (store.syncUserPrimaryApiKeyAffinity userId lease.id now).SamePrimaries
        (acquireKeyForUser userId tokenId now revoked
          { store with tokenBindingCache := cache }).2 := by
      rw [result]
      cases revoked with
      | true => exact ⟨rfl, rfl⟩
      | false => exact ⟨rfl, rfl⟩
    apply (followPrimary_sync synced).trans
    constructor
    · intro covered old recorded _
      exact (sessions old).1 (covered old recorded (lost old recorded).2)
    · intro covered old recorded _
      exact (sessions old).2 (covered old recorded (lost old recorded).1)
  · rw [result]
    constructor
    · intro _ old recorded lost
      exact absurd lost (not_lost_of_unusable (nothing old recorded))
    · intro _
      exact FollowPrimary.of_same ⟨rfl, rfl⟩

/-- A call for a token of no user moves the primary key of the token where that is lost, and
then revokes the sessions of the token. -/
theorem followPrimary_token (tokenId : String) (now : Int) (revoked : Bool)
    (cache : TokenBindingCache) :
    store.FollowPrimary
        ({ store with tokenBindingCache := cache }.acquireKeyForToken tokenId now revoked).2 ↔
      (store.boundUser tokenId = none →
        ∀ old, store.getTokenPrimaryApiKeyAffinity tokenId = some old →
          store.Lost old.apiKeyId →
          store.NonePinned (fun session => session.authTokenId = some tokenId ∧
            revoked = false) old.apiKeyId) := by
  obtain ⟨keys, _, ⟨lease, result, kept⟩ | ⟨lease, result, able, primary, recorded, unusable, other⟩ |
      ⟨result, nothing⟩⟩ :=
    acquireKeyForToken_cases tokenId now revoked { store with tokenBindingCache := cache }
  · have set : (store.setTokenPrimaryApiKeyAffinity tokenId none lease.id now).SamePrimaries
        (acquireKeyForToken tokenId now revoked { store with tokenBindingCache := cache }).2 := by
      rw [result]
      exact ⟨rfl, rfl⟩
    apply (followPrimary_set set).trans
    constructor
    · intro _ _ old recorded lost
      have able : usable store.keys old.apiKeyId = true := (kept old recorded).2
      rw [lost.1] at able
      cases able
    · intro _ _ old recorded other
      exact absurd (kept old recorded).1 other
  · have set : (store.setTokenPrimaryApiKeyAffinity tokenId none lease.id now).SamePrimaries
        (acquireKeyForToken tokenId now revoked { store with tokenBindingCache := cache }).2 := by
      rw [result]
      cases revoked with
      | true => exact ⟨rfl, rfl⟩
      | false => exact ⟨rfl, rfl⟩
    have sessions : (acquireKeyForToken tokenId now revoked
        { store with tokenBindingCache := cache }).2.NonePinned
          (fun session => session.authTokenId = some tokenId) primary.apiKeyId ↔
        store.NonePinned (fun session => session.authTokenId = some tokenId ∧ revoked = false)
          primary.apiKeyId := by
      rw [result]
      cases revoked with
      | true =>
          apply (nonePinned_updateWhere
            (fun session => session.authTokenId = some tokenId) rfl).trans
          apply NonePinned.congr
          simp
      | false =>
          apply (nonePinned_of_same rfl).trans
          apply NonePinned.congr
          simp
    apply (followPrimary_set set).trans
    apply imp_congr_right
    intro _
    constructor
    · intro covered old found _
      cases recorded.symm.trans found
      exact sessions.1 (covered primary found other)
    · intro covered old found _
      cases recorded.symm.trans found
      exact sessions.2 (covered primary found ⟨unusable, lease.id, able⟩)
  · rw [result]
    constructor
    · intro _ _ old recorded lost
      exact absurd lost (not_lost_of_unusable (nothing old recorded))
    · intro _
      exact FollowPrimary.of_same ⟨rfl, rfl⟩

theorem sessionsFollow_iff (action : AffinityAction) (agree : store.PrimariesAgree) :
    store.SessionsFollow action ↔ store.RevokesPinned action := by
  cases action with
  | acquire authTokenId now order revoked =>
      cases authTokenId with
      | none =>
          apply iff_of_true _ trivial
          obtain ⟨keys, _, ⟨lease, leased, _⟩ | ⟨nothing, _⟩⟩ :=
            leaseKey_cases .acquireKey now store
          · simp only [SessionsFollow, acquireKeyFor, leased]
            exact FollowPrimary.of_same ⟨rfl, rfl⟩
          · simp only [SessionsFollow, acquireKeyFor, nothing]
            exact FollowPrimary.of_same ⟨rfl, rfl⟩
      | some tokenId =>
          obtain ⟨cache, looked⟩ := findUserIdByToken_eq tokenId now order store
          simp only [SessionsFollow, RevokesPinned, acquireKeyFor, looked]
          cases store.knownUser tokenId now with
          | some userId => exact followPrimary_user agree userId tokenId now revoked cache
          | none => exact followPrimary_token tokenId now revoked cache
  | _ => exact Iff.rfl

/-! ### Runs -/

/-- A database in which no primary key has been recorded yet, and a process that has looked
nothing up. -/
def withoutPrimaries (keys : KeyDb) (bindings : KeyedTable String UserTokenBinding)
    (history : KeyedTable (String × String) UserApiKeyBinding)
    (sessions : KeyedTable String McpSession) : AffinityStore where
  keys := keys
  userPrimaryApiKeyAffinity := .empty
  tokenPrimaryApiKeyAffinity := .empty
  userTokenBindings := bindings
  userApiKeyBindings := history
  mcpSessions := sessions
  tokenBindingCache := .empty
  pendingCacheWrites := []

theorem primariesAgree_withoutPrimaries (keys : KeyDb)
    (bindings : KeyedTable String UserTokenBinding)
    (history : KeyedTable (String × String) UserApiKeyBinding)
    (sessions : KeyedTable String McpSession) :
    (withoutPrimaries keys bindings history sessions).PrimariesAgree := by
  intro tokenId primary userId recorded
  simp [withoutPrimaries, getTokenPrimaryApiKeyAffinity] at recorded

/-- In a run the sessions follow the primary keys exactly where each call that moves one
revokes every session that is pinned to it. -/
theorem sessionsFollow_alongRun (keys : KeyDb) (bindings : KeyedTable String UserTokenBinding)
    (history : KeyedTable (String × String) UserApiKeyBinding)
    (sessions : KeyedTable String McpSession) (actions : List AffinityAction) :
    keyAffinitySystem.Guarded SessionsFollow (withoutPrimaries keys bindings history sessions)
        actions ↔
      keyAffinitySystem.Guarded RevokesPinned (withoutPrimaries keys bindings history sessions)
        actions :=
  keyAffinitySystem.guarded_congr (fun _ _ _ agree taken => primariesAgree_step agree taken)
    (fun _ action agree => sessionsFollow_iff action agree)
    (primariesAgree_withoutPrimaries keys bindings history sessions) actions

/-! ### A session from before the binding -/

/-- One active key, and no token has a user. -/
def oneKeyStore : AffinityStore :=
  withoutPrimaries
    { apiKeys := { rows := [("k1", affinityKey "s1" 0)], distinct := by decide }
      apiKeyQuarantines := .empty
      maintenanceRecords := []
      authTokens := [] } .empty .empty .empty

/-- The session that the token initialises before it is bound. -/
def unboundSession : McpSession where
  upstreamSessionId := "upstream"
  upstreamKeyId := "k1"
  authTokenId := some "one"
  userId := none
  createdAt := 10
  updatedAt := 10
  expiresAt := 100000
  revokedAt := none
  revokeReason := none

/-- The first key is disabled, and a second one is added. -/
def replacedKeys : KeyDb where
  apiKeys :=
    { rows := [("k1", { affinityKey "s1" 12 with status := .disabled }),
        ("k2", affinityKey "s2" 0)]
      distinct := by decide }
  apiKeyQuarantines := .empty
  maintenanceRecords := []
  authTokens := []

/-- The token opens a session and is then bound to a user, whose primary key is lost. -/
def adoptedToken : List AffinityAction :=
  [.acquire (some "one") 10 [] true,
    .changeSessions { rows := [("session", unboundSession)], distinct := by decide },
    .bindToken "user" "one" 11, .cacheBinding 0 11 [], .acquire (some "one") 12 [] true,
    .changeKeys replacedKeys, .acquire (some "one") 13 [] true]

/-- The session of the token stays pinned to the old key of its user. -/
theorem adoptedToken_not_followed :
    ¬keyAffinitySystem.Guarded SessionsFollow oneKeyStore adoptedToken := by
  intro guarded
  have facts : (keyAffinitySystem.run oneKeyStore (adoptedToken.take 6)).map (fun store =>
      (store.boundUser "one", (store.getUserPrimaryApiKeyAffinity "user",
        ((store.acquireKeyFor (some "one") 13 [] true).2.getUserPrimaryApiKeyAffinity "user",
          (store.acquireKeyFor (some "one") 13 [] true).2.mcpSessions.find "session")))) =
      some (some "user", (some "k1", (some "k2", some unboundSession))) := by decide +kernel
  obtain ⟨store, ran, values⟩ := Option.map_eq_some_iff.1 facts
  simp only [Prod.mk.injEq] at values
  obtain ⟨bound, before, after, session⟩ := values
  have guarded : keyAffinitySystem.Guarded SessionsFollow oneKeyStore
      (adoptedToken.take 6 ++ adoptedToken.drop 6) := guarded
  have last := (guarded.split keyAffinitySystem ran).2
  have follow : store.FollowPrimary (store.acquireKeyFor (some "one") 13 [] true).2 :=
    (last _ rfl).1
  exact follow.users "user" "k1" "k2" before after (by decide) "session" unboundSession session
    (Or.inr ⟨"one", rfl, bound⟩) rfl rfl

end AffinityStore

end TavilyHikari.TavilyProxy
