/-
Module: TavilyHikari.TavilyProxy.KeyAffinity
Purpose: The primary keys of users and tokens (`tavily_proxy/mod.rs`, `store/mod.rs`): the
  tables that record them, the call that leases a key for a token and moves or keeps its
  primary, and the sessions that are pinned to a key.
Trusted boundary: a lease call runs to its end and reads the clock once; what another
  function does to the keys, the history and the sessions is in the actions
Main exports: AffinityStore, findUserIdByToken, syncUserPrimaryApiKeyAffinity, acquireKeyFor,
  keyAffinitySystem
-/
import TavilyHikari.Store.KeyHealth

namespace TavilyHikari.TavilyProxy

open Library Store

/-! ### Tables -/

/-- A row of `user_primary_api_key_affinity`, by its user. -/
structure UserPrimaryApiKeyAffinity where
  apiKeyId : String
  createdAt : Int
  updatedAt : Int
deriving DecidableEq, Repr

/-- A row of `token_primary_api_key_affinity`, by its token. -/
structure TokenPrimaryApiKeyAffinity where
  userId : Option String
  apiKeyId : String
  createdAt : Int
  updatedAt : Int
deriving DecidableEq, Repr

/-- A row of `user_token_bindings`, by its token, which is unique. -/
structure UserTokenBinding where
  userId : String
  createdAt : Int
  updatedAt : Int
deriving DecidableEq, Repr

/-- A row of `user_api_key_bindings`, by its user and its key. -/
structure UserApiKeyBinding where
  createdAt : Int
  updatedAt : Int
  lastSuccessAt : Int
deriving DecidableEq, Repr

/-- A row of `mcp_sessions`, by its proxy session id. -/
structure McpSession where
  upstreamSessionId : String
  upstreamKeyId : String
  authTokenId : Option String
  userId : Option String
  createdAt : Int
  updatedAt : Int
  expiresAt : Int
  revokedAt : Option Int
  revokeReason : Option String
deriving DecidableEq, Repr

structure TokenBindingCacheEntry where
  userId : Option String
  expiresAt : Int
deriving DecidableEq, Repr

abbrev TokenBindingCache := KeyedTable String TokenBindingCacheEntry

/-- The tables, the cache of the bindings, and what a lookup or a binding is about to write
into the cache. -/
structure AffinityStore where
  keys : KeyDb
  userPrimaryApiKeyAffinity : KeyedTable String UserPrimaryApiKeyAffinity
  tokenPrimaryApiKeyAffinity : KeyedTable String TokenPrimaryApiKeyAffinity
  userTokenBindings : KeyedTable String UserTokenBinding
  userApiKeyBindings : KeyedTable (String × String) UserApiKeyBinding
  mcpSessions : KeyedTable String McpSession
  tokenBindingCache : TokenBindingCache
  pendingCacheWrites : List (String × Option String)

/-! ### Bindings of tokens -/

def tokenBindingCacheTtlSecs : Int := 30

def tokenBindingCacheMaxEntries : Nat := 10000

/-- `cache_token_binding`. `order` is the order in which the map hands out its keys. -/
def cacheTokenBinding (now : Int) (order : List String) (tokenId : String)
    (userId : Option String) (cache : TokenBindingCache) : TokenBindingCache :=
  let entry : TokenBindingCacheEntry := { userId, expiresAt := now + tokenBindingCacheTtlSecs }
  let cache := cache.upsert tokenId entry fun _ => entry
  if cache.rows.length ≤ tokenBindingCacheMaxEntries then cache
  else
    let cache := cache.deleteWhere fun _ entry => !decide (entry.expiresAt > now)
    if cache.rows.length ≤ tokenBindingCacheMaxEntries then cache
    else
      let overflow := cache.rows.length - tokenBindingCacheMaxEntries
      cache.deleteWhere fun tokenId _ => tokenId ∈ order.take overflow

namespace AffinityStore

/-- The user that a token is bound to. -/
def boundUser (store : AffinityStore) (tokenId : String) : Option String :=
  (store.userTokenBindings.find tokenId).map UserTokenBinding.userId

/-- The entry of the cache for a token, where it has not expired. -/
def cachedBinding (store : AffinityStore) (tokenId : String) (now : Int) :
    Option TokenBindingCacheEntry :=
  (store.tokenBindingCache.find tokenId).filter fun entry => entry.expiresAt > now

def findUserIdByToken (tokenId : String) (now : Int) (order : List String)
    (store : AffinityStore) : Option String × AffinityStore :=
  match store.cachedBinding tokenId now with
  | some cached => (cached.userId, store)
  | none =>
      let userId := store.boundUser tokenId
      (userId, { store with
        tokenBindingCache := cacheTokenBinding now order tokenId userId store.tokenBindingCache })

/-- The row that `ensure_user_token_binding_with_preferred` inserts or touches, for the
preferred token or a new one. It fails for a token of another user. -/
def bindToken (userId tokenId : String) (now : Int) (store : AffinityStore) :
    Option AffinityStore :=
  match store.userTokenBindings.find tokenId with
  | none =>
      let row : UserTokenBinding := { userId, createdAt := now, updatedAt := now }
      some { store with
        userTokenBindings := store.userTokenBindings.upsert tokenId row fun _ => row
        pendingCacheWrites := store.pendingCacheWrites ++ [(tokenId, some userId)] }
  | some row =>
      if row.userId = userId then
        some { store with
          userTokenBindings :=
            store.userTokenBindings.modify tokenId fun row => { row with updatedAt := now }
          pendingCacheWrites := store.pendingCacheWrites ++ [(tokenId, some userId)] }
      else none

/-! ### Primary keys -/

def getUserPrimaryApiKeyAffinity (store : AffinityStore) (userId : String) : Option String :=
  (store.userPrimaryApiKeyAffinity.find userId).map UserPrimaryApiKeyAffinity.apiKeyId

def getTokenPrimaryApiKeyAffinity (store : AffinityStore) (tokenId : String) :
    Option TokenPrimaryApiKeyAffinity :=
  store.tokenPrimaryApiKeyAffinity.find tokenId

/-- `ORDER BY last_success_at DESC, updated_at DESC, api_key_id DESC`. -/
def mostRecentSuccess (a b : (String × String) × UserApiKeyBinding) : Prop :=
  b.2.lastSuccessAt < a.2.lastSuccessAt ∨ b.2.lastSuccessAt = a.2.lastSuccessAt ∧
    (b.2.updatedAt < a.2.updatedAt ∨ b.2.updatedAt = a.2.updatedAt ∧ b.1.2 ≤ a.1.2)

instance : DecidableRel mostRecentSuccess := fun _ _ => by
  unfold mostRecentSuccess
  infer_instance

def findRecentPrimaryCandidateForUser (store : AffinityStore) (userId : String) : Option String :=
  (store.userApiKeyBindings.firstWhere (fun key _ => key.1 = userId) mostRecentSuccess).map
    fun row => row.1.2

/-- The tokens that are bound to a user. -/
def tokensOf (store : AffinityStore) (userId : String) : List String :=
  (store.userTokenBindings.rows.filter fun row => row.2.userId = userId).map Prod.fst

/-- `sync_user_primary_api_key_affinity`, one transaction. -/
def syncUserPrimaryApiKeyAffinity (userId apiKeyId : String) (now : Int) (store : AffinityStore) :
    AffinityStore :=
  { store with
    userPrimaryApiKeyAffinity :=
      store.userPrimaryApiKeyAffinity.upsert userId
        { apiKeyId, createdAt := now, updatedAt := now }
        fun row => { row with apiKeyId, updatedAt := now }
    tokenPrimaryApiKeyAffinity :=
      store.tokenPrimaryApiKeyAffinity.upsertAll
        (fun _ => { userId := some userId, apiKeyId, createdAt := now, updatedAt := now })
        (fun _ row => { row with userId := some userId, apiKeyId, updatedAt := now })
        ((store.tokensOf userId).map fun tokenId => (tokenId, ())) }

def setTokenPrimaryApiKeyAffinity (tokenId : String) (userId : Option String) (apiKeyId : String)
    (now : Int) (store : AffinityStore) : AffinityStore :=
  { store with
    tokenPrimaryApiKeyAffinity :=
      store.tokenPrimaryApiKeyAffinity.upsert tokenId
        { userId, apiKeyId, createdAt := now, updatedAt := now }
        fun row => { row with userId, apiKeyId, updatedAt := now } }

/-! ### Sessions -/

def McpSession.revoke (now : Int) (reason : String) (session : McpSession) : McpSession :=
  { session with revokedAt := some now, revokeReason := some reason, updatedAt := now }

def revokeMcpSessionsForUser (userId reason : String) (now : Int) (store : AffinityStore) :
    AffinityStore :=
  { store with
    mcpSessions := store.mcpSessions.updateWhere
      (fun _ session => session.userId = some userId && session.revokedAt.isNone)
      (McpSession.revoke now reason) }

def revokeMcpSessionsForToken (tokenId reason : String) (now : Int) (store : AffinityStore) :
    AffinityStore :=
  { store with
    mcpSessions := store.mcpSessions.updateWhere
      (fun _ session => session.authTokenId = some tokenId && session.revokedAt.isNone)
      (McpSession.revoke now reason) }

/-! ### Leasing a key -/

/-- `acquire_key`, `acquire_active_key_excluding` and `try_acquire_specific_key`. -/
def leaseKey (kind : AcquireKind) (now : Int) (store : AffinityStore) :
    Option ApiKeyLease × AffinityStore :=
  let db := resetMonthly now store.keys
  match selectActiveKey kind db with
  | some lease => (some lease, { store with keys := touchKey lease.secret now db })
  | none =>
      match selectExhaustedKey kind db with
      | some lease => (some lease, { store with keys := touchKey lease.secret now db })
      | none => (none, { store with keys := db })

/-- `revoked` says whether the statement that revokes the sessions succeeds. -/
def rebindUserPrimaryAffinity (userId : String) (oldKeyId : Option String) (now : Int)
    (revoked : Bool) (store : AffinityStore) : Option ApiKeyLease × AffinityStore :=
  let (lease, store) := store.leaseKey (.acquireActiveKeyExcluding oldKeyId) now
  match lease with
  | none => (none, store)
  | some lease =>
      let store := store.syncUserPrimaryApiKeyAffinity userId lease.id now
      if revoked then
        (some lease, store.revokeMcpSessionsForUser userId "primary_api_key_rebound" now)
      else (none, store)

def rebindTokenPrimaryAffinity (tokenId : String) (oldKeyId : Option String) (now : Int)
    (revoked : Bool) (store : AffinityStore) : Option ApiKeyLease × AffinityStore :=
  let (lease, store) := store.leaseKey (.acquireActiveKeyExcluding oldKeyId) now
  match lease with
  | none => (none, store)
  | some lease =>
      let store := store.setTokenPrimaryApiKeyAffinity tokenId none lease.id now
      if revoked then
        (some lease, store.revokeMcpSessionsForToken tokenId "primary_api_key_rebound" now)
      else (none, store)

/-- The candidates for the key of a user's token, each once. -/
def primaryCandidates (store : AffinityStore) (userId tokenId : String) : List String :=
  let userPrimary := store.getUserPrimaryApiKeyAffinity userId
  let tokenPrimary := store.getTokenPrimaryApiKeyAffinity tokenId
  let legacyPrimary :=
    if userPrimary.isNone ∧ tokenPrimary.isNone then store.findRecentPrimaryCandidateForUser userId
    else none
  let candidates := userPrimary.toList
  let candidates :=
    match tokenPrimary with
    | some primary =>
        if primary.userId = some userId ∧ primary.apiKeyId ∉ candidates then
          candidates ++ [primary.apiKeyId]
        else candidates
    | none => candidates
  match legacyPrimary with
  | some key => if key ∉ candidates then candidates ++ [key] else candidates
  | none => candidates

/-- The first of the candidates that can be leased. -/
def leaseCandidate (now : Int) :
    List String → AffinityStore → Option ApiKeyLease × AffinityStore
  | [], store => (none, store)
  | keyId :: rest, store =>
      match store.leaseKey (.tryAcquireSpecificKey keyId) now with
      | (some lease, store) => (some lease, store)
      | (none, store) => leaseCandidate now rest store

/-- `acquire_key_for`, where the token is bound to a user. -/
def acquireKeyForUser (userId tokenId : String) (now : Int) (revoked : Bool)
    (store : AffinityStore) : Option ApiKeyLease × AffinityStore :=
  let userPrimary := store.getUserPrimaryApiKeyAffinity userId
  let tokenPrimary := store.getTokenPrimaryApiKeyAffinity tokenId
  match leaseCandidate now (store.primaryCandidates userId tokenId) store with
  | (some lease, store) =>
      (some lease, store.syncUserPrimaryApiKeyAffinity userId lease.id now)
  | (none, store) =>
      if userPrimary.isSome ∨ tokenPrimary.isSome then
        store.rebindUserPrimaryAffinity userId userPrimary now revoked
      else
        match store.leaseKey .acquireKey now with
        | (some lease, store) =>
            (some lease, store.syncUserPrimaryApiKeyAffinity userId lease.id now)
        | (none, store) => (none, store)

/-- `acquire_key_for`, where the token is bound to no user. -/
def acquireKeyForToken (tokenId : String) (now : Int) (revoked : Bool) (store : AffinityStore) :
    Option ApiKeyLease × AffinityStore :=
  match store.getTokenPrimaryApiKeyAffinity tokenId with
  | some primary =>
      match store.leaseKey (.tryAcquireSpecificKey primary.apiKeyId) now with
      | (some lease, store) =>
          (some lease, store.setTokenPrimaryApiKeyAffinity tokenId none lease.id now)
      | (none, store) =>
          store.rebindTokenPrimaryAffinity tokenId (some primary.apiKeyId) now revoked
  | none =>
      match store.leaseKey .acquireKey now with
      | (some lease, store) =>
          (some lease, store.setTokenPrimaryApiKeyAffinity tokenId none lease.id now)
      | (none, store) => (none, store)

/-- `acquire_key_for`; `none` is an error. -/
def acquireKeyFor (authTokenId : Option String) (now : Int) (order : List String) (revoked : Bool)
    (store : AffinityStore) : Option ApiKeyLease × AffinityStore :=
  match authTokenId with
  | none => store.leaseKey .acquireKey now
  | some tokenId =>
      match store.findUserIdByToken tokenId now order with
      | (some userId, store) => store.acquireKeyForUser userId tokenId now revoked
      | (none, store) => store.acquireKeyForToken tokenId now revoked

end AffinityStore

/-! ### The system -/

/-- A call, or what happens between calls: a change of the keys, of the history or of the
sessions by anyone, a token that is bound, a lookup of a binding by another request, and the
writes of the cache that follow a binding and a lookup. -/
inductive AffinityAction where
  | acquire (authTokenId : Option String) (now : Int) (order : List String) (revoked : Bool)
  | changeKeys (keys : KeyDb)
  | changeHistory (rows : KeyedTable (String × String) UserApiKeyBinding)
  | changeSessions (sessions : KeyedTable String McpSession)
  | bindToken (userId tokenId : String) (now : Int)
  | readBinding (tokenId : String)
  | cacheBinding (index : Nat) (now : Int) (order : List String)
  | abandonCacheWrite (index : Nat)
  | restart

def affinityStep (store : AffinityStore) : AffinityAction → Option AffinityStore
  | .acquire authTokenId now order revoked =>
      some (store.acquireKeyFor authTokenId now order revoked).2
  | .changeKeys keys => some { store with keys }
  | .changeHistory rows => some { store with userApiKeyBindings := rows }
  | .changeSessions sessions => some { store with mcpSessions := sessions }
  | .bindToken userId tokenId now => store.bindToken userId tokenId now
  | .readBinding tokenId =>
      some { store with
        pendingCacheWrites :=
          store.pendingCacheWrites ++ [(tokenId, store.boundUser tokenId)] }
  | .cacheBinding index now order =>
      (store.pendingCacheWrites[index]?).map fun (tokenId, userId) =>
        { store with
          tokenBindingCache := cacheTokenBinding now order tokenId userId store.tokenBindingCache
          pendingCacheWrites := store.pendingCacheWrites.eraseIdx index }
  | .abandonCacheWrite index =>
      some { store with pendingCacheWrites := store.pendingCacheWrites.eraseIdx index }
  | .restart => some { store with tokenBindingCache := .empty, pendingCacheWrites := [] }

def keyAffinitySystem : TransitionSystem AffinityStore AffinityAction where
  step := affinityStep

end TavilyHikari.TavilyProxy
