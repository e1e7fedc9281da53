/-
Module: TavilyHikari.Store.QuotaResolutionCache
Purpose: The cache of quota resolutions (`store/mod.rs`), the calls that resolve a quota
  and the updates that invalidate it, statement by statement and side by side.
Trusted boundary: human-reviewed spec
Main exports: cachedAccountQuotaResolution, cacheAccountQuotaResolution,
  invalidateAccountQuotaResolutions, ResolverPhase, UpdatePhase, quotaCacheSystem
-/
import Mathlib.Logic.Function.Basic
import TavilyHikari.Library.TransitionSystem
import TavilyHikari.Library.Versions
import TavilyHikari.Store.AccountQuota

namespace TavilyHikari.Store

open Library

/-! ### The cache -/

def accountQuotaResolutionCacheTtlSecs : Nat := 5

def accountQuotaResolutionCacheMaxEntries : Nat := 10000

structure AccountQuotaResolutionCacheEntry where
  resolution : AccountQuotaResolution
  expiresAt : Nat
deriving Repr

abbrev AccountQuotaResolutionCache := KeyedTable String AccountQuotaResolutionCacheEntry

def cachedAccountQuotaResolution (now : Nat) (cache : AccountQuotaResolutionCache)
    (userId : String) : Option AccountQuotaResolution :=
  ((cache.find userId).filter fun entry => now < entry.expiresAt).map
    AccountQuotaResolutionCacheEntry.resolution

/-- `cache_account_quota_resolution`. `order` is the order in which the map hands out its keys. -/
def cacheAccountQuotaResolution (now : Nat) (order : List String) (userId : String)
    (resolution : AccountQuotaResolution) (cache : AccountQuotaResolutionCache) :
    AccountQuotaResolutionCache :=
  let entry : AccountQuotaResolutionCacheEntry :=
    { resolution, expiresAt := now + accountQuotaResolutionCacheTtlSecs }
  let cache := cache.upsert userId entry fun _ => entry
  if cache.rows.length ≤ accountQuotaResolutionCacheMaxEntries then cache
  else
    let cache := cache.deleteWhere fun _ entry => ¬ now < entry.expiresAt
    if cache.rows.length ≤ accountQuotaResolutionCacheMaxEntries then cache
    else
      let overflow := cache.rows.length - accountQuotaResolutionCacheMaxEntries
      cache.deleteWhere fun userId _ => userId ∈ order.take overflow

/-- `invalidate_account_quota_resolution` and `invalidate_account_quota_resolutions`. -/
def invalidateAccountQuotaResolutions (userIds : List String)
    (cache : AccountQuotaResolutionCache) : AccountQuotaResolutionCache :=
  cache.deleteWhere fun userId _ => userId ∈ userIds

/-! ### Calls -/

/-- Where a call of `resolve_account_quota_resolution` is. `floor` is the last version that
an update which had returned when the call began wrote, `limitsAt` the version the limits
were read from, and `readAt` the last version with the limits and the tags that were read. -/
inductive ResolverPhase where
  | idle
  | missed (userId : String) (floor : Nat)
  | limitsMissing (userId : String) (floor : Nat)
  | limitsInserted (userId : String) (floor : Nat)
  | gotLimits (userId : String) (floor limitsAt : Nat) (base : AccountQuotaLimits)
  | gotTags (userId : String) (floor readAt : Nat) (resolution : AccountQuotaResolution)

/-- Where an update is: before its write, with what it read, or after it, with the version it
wrote. -/
inductive UpdatePhase where
  | idle
  | prepared (update : QuotaUpdate) (reads : PreparedUpdate)
  | written (users : List String) (version : Nat)

/-- A resolution that a call returned. -/
structure QuotaAnswer where
  userId : String
  floor : Nat
  resolution : AccountQuotaResolution

/-- `versions` are the states the database went through, the present one last; `settled` is
the last version that an update which has returned wrote; `cachedAt` is the version that the
last resolution put into the cache for a user was read from. -/
structure QuotaCacheState where
  db : QuotaDb
  versions : List QuotaDb
  cache : AccountQuotaResolutionCache
  cachedAt : String → Nat
  now : Nat
  settled : Nat
  resolvers : Nat → ResolverPhase
  updates : Nat → UpdatePhase
  answers : List QuotaAnswer

inductive QuotaCacheAction where
  | tick
  | start (call : Nat) (userId : String)
  | fetchLimits (call : Nat)
  | insertDefaults (call : Nat)
  | refetchLimits (call : Nat)
  | readTags (call : Nat)
  | fill (call : Nat) (order : List String)
  | abandonCall (call : Nat)
  | prepare (task : Nat) (update : QuotaUpdate)
  | write (task : Nat)
  | finish (task : Nat)
  | abandonUpdate (task : Nat)

namespace QuotaCacheState

def setResolver (s : QuotaCacheState) (call : Nat) (phase : ResolverPhase) : QuotaCacheState :=
  { s with resolvers := Function.update s.resolvers call phase }

def setUpdate (s : QuotaCacheState) (task : Nat) (phase : UpdatePhase) : QuotaCacheState :=
  { s with updates := Function.update s.updates task phase }

/-- A write of the database. -/
def commit (s : QuotaCacheState) (db : QuotaDb) : QuotaCacheState :=
  { s with db, versions := s.versions ++ [db] }

/-- The number of the present version. -/
def version (s : QuotaCacheState) : Nat := s.versions.length - 1

def answer (s : QuotaCacheState) (answer : QuotaAnswer) : QuotaCacheState :=
  { s with answers := s.answers ++ [answer] }

def initial (db : QuotaDb) : QuotaCacheState where
  db := db
  versions := [db]
  cache := .empty
  cachedAt := fun _ => 0
  now := 0
  settled := 0
  resolvers := fun _ => .idle
  updates := fun _ => .idle
  answers := []

end QuotaCacheState

/-- What an account without limits gets, and the limits of the configuration. -/
structure QuotaDefaults where
  forUser : String → AccountQuotaLimits
  legacy : AccountQuotaLimits

def quotaCacheStep (defaults : QuotaDefaults) (s : QuotaCacheState) :
    QuotaCacheAction → Option QuotaCacheState
  | .tick => some { s with now := s.now + 1 }
  | .start call userId =>
      match s.resolvers call with
      | .idle =>
          match cachedAccountQuotaResolution s.now s.cache userId with
          | some resolution => some (s.answer { userId, floor := s.settled, resolution })
          | none => some (s.setResolver call (.missed userId s.settled))
      | _ => none
  | .fetchLimits call =>
      match s.resolvers call with
      | .missed userId floor =>
          match s.db.accountQuotaLimits.find userId with
          | some base => some (s.setResolver call (.gotLimits userId floor s.version base))
          | none => some (s.setResolver call (.limitsMissing userId floor))
      | _ => none
  | .insertDefaults call =>
      match s.resolvers call with
      | .limitsMissing userId floor =>
          some ((s.commit (insertDefaultLimits userId (defaults.forUser userId) s.db)).setResolver
            call (.limitsInserted userId floor))
      | _ => none
  | .refetchLimits call =>
      match s.resolvers call with
      | .limitsInserted userId floor =>
          match s.db.accountQuotaLimits.find userId with
          | some base => some (s.setResolver call (.gotLimits userId floor s.version base))
          | none => some (s.setResolver call .idle)
      | _ => none
  | .readTags call =>
      match s.resolvers call with
      | .gotLimits userId floor limitsAt base =>
          let tags := listUserTagBindingsForUser s.db userId
          let readAt := latestVersion s.versions fun db => quotaData db userId = (some base, tags)
          some (s.setResolver call
            (.gotTags userId floor (readAt.getD limitsAt) (buildAccountQuotaResolution base tags)))
      | _ => none
  | .fill call order =>
      match s.resolvers call with
      | .gotTags userId floor readAt resolution =>
          some (({ s with
            cache := cacheAccountQuotaResolution s.now order userId resolution s.cache
            cachedAt := Function.update s.cachedAt userId readAt }.answer
              { userId, floor, resolution }).setResolver call .idle)
      | _ => none
  | .abandonCall call => some (s.setResolver call .idle)
  | .prepare task update =>
      match s.updates task with
      | .idle =>
          match prepareQuotaUpdate defaults.forUser s.db update with
          | some (reads, db) => some ((s.commit db).setUpdate task (.prepared update reads))
          | none => some s
      | _ => none
  | .write task =>
      match s.updates task with
      | .prepared update reads =>
          match commitQuotaUpdate defaults.legacy reads s.db update with
          | some db =>
              some ((s.commit db).setUpdate task (.written reads.users s.versions.length))
          | none => some (s.setUpdate task .idle)
      | _ => none
  | .finish task =>
      match s.updates task with
      | .written users version =>
          some ({ s with
            cache := invalidateAccountQuotaResolutions users s.cache
            settled := max s.settled version }.setUpdate task .idle)
      | _ => none
  | .abandonUpdate task => some (s.setUpdate task .idle)

def quotaCacheSystem (defaults : QuotaDefaults) :
    TransitionSystem QuotaCacheState QuotaCacheAction where
  step := quotaCacheStep defaults

end TavilyHikari.Store
