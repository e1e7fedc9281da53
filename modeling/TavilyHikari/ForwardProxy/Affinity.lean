/-
Module: TavilyHikari.ForwardProxy.Affinity
Purpose: The affinity records that bind an API key to a primary and a secondary proxy: the
  ranking that takes the registration of the key into account, the reconciliation of a
  stored record with the manager, and the promotion of a secondary that succeeded.
Trusted boundary: the geo data of endpoints come from the network, one answer for each
  call; `IpAddr` parsing is a parameter
Main exports: ForwardProxyAffinityRecord, AffinityEnvironment,
  rankRegistrationAwareCandidates, reconcileProxyAffinityRecordWithState,
  promoteProxyAffinitySecondary
-/
import TavilyHikari.ForwardProxy.Manager

namespace TavilyHikari.ForwardProxy

open Library

structure ForwardProxyAffinityRecord where
  primaryProxyKey : Option String
  secondaryProxyKey : Option String
  updatedAt : Int
deriving DecidableEq, Repr

structure LoadedProxyAffinityState where
  record : ForwardProxyAffinityRecord
  registrationIp : Option String
  registrationRegion : Option String
  hasExplicitEmptyMarker : Bool
deriving DecidableEq, Repr

/-- The stored or cached record of a key with the registration of the key. -/
def loadProxyAffinityState (record : ForwardProxyAffinityRecord) (hasPersistedRow : Bool)
    (registrationIp registrationRegion : Option String) : LoadedProxyAffinityState where
  record
  registrationIp
  registrationRegion
  hasExplicitEmptyMarker :=
    !(registrationIp.isSome || registrationRegion.isSome) && hasPersistedRow &&
      record.primaryProxyKey.isNone && record.secondaryProxyKey.isNone

structure ForwardProxyGeoCandidate where
  key : String
  hostIps : List String
  regions : List String
deriving DecidableEq, Repr

/-- The places that ask for the geo data of endpoints. -/
inductive GeoCall where
  | primary
  | secondary
  | nextSecondary
deriving DecidableEq, Repr

structure AffinityEnvironment where
  stableHash : String → UInt64
  normalizeIpString : String → Option String
  resolveGeo : GeoCall → List ForwardProxyEndpoint → Except String (List ForwardProxyGeoCandidate)

def forwardProxyDefaultCandidateCount : Nat := 3

/-- The keys of the candidates whose `texts` have the wanted one among them. -/
def matchingKeys (wanted : Option String) (texts : ForwardProxyGeoCandidate → List String)
    (candidates : List ForwardProxyGeoCandidate) : List String :=
  (candidates.filter fun candidate => wanted.any fun text => text ∈ texts candidate).map
    ForwardProxyGeoCandidate.key

/-- Exact matches first, then matches of the region, then the rest, each endpoint once. -/
def orderByGeo (exactKeys regionKeys : List String) (nonDirect : List ForwardProxyEndpoint) :
    List ForwardProxyEndpoint :=
  mergeAllKeyed ForwardProxyEndpoint.key (fun seen _ => seen)
    (nonDirect.filter (fun endpoint => endpoint.key ∈ exactKeys) ++
      nonDirect.filter (fun endpoint => endpoint.key ∈ regionKeys) ++ nonDirect) []

namespace ForwardProxyManager

variable (env : AffinityEnvironment)

def rankRegistrationAwareCandidates (call : GeoCall) (manager : ForwardProxyManager)
    (subject : String) (registrationIp registrationRegion : Option String)
    (exclude : List String) (allowDirect : Bool) (limit : Nat) :
    Except String (List ForwardProxyEndpoint) :=
  let ranked := manager.ensureNonZeroWeight.rankCandidatesForSubject env.stableHash subject exclude
    allowDirect limit
  let normalizedIp := registrationIp.bind env.normalizeIpString
  let normalizedRegion := trimmedNonEmpty registrationRegion
  if normalizedIp.isNone ∧ normalizedRegion.isNone then .ok ranked
  else
    let direct := ranked.filter ForwardProxyEndpoint.isDirect
    let nonDirect := ranked.filter fun endpoint => !endpoint.isDirect
    if nonDirect = [] then .ok direct
    else do
      let geoCandidates ← env.resolveGeo call nonDirect
      let exactKeys :=
        matchingKeys normalizedIp ForwardProxyGeoCandidate.hostIps geoCandidates
      let regionKeys :=
        matchingKeys normalizedRegion ForwardProxyGeoCandidate.regions geoCandidates
      .ok (orderByGeo exactKeys regionKeys nonDirect ++ if allowDirect then direct else [])

/-- The closure `is_selectable_endpoint`. -/
def isSelectableEndpoint (manager : ForwardProxyManager) (proxyKey : String)
    (allowDirectPrimary : Bool) : Bool :=
  (manager.endpoint proxyKey).any fun endpoint =>
    !(endpoint.isDirect && !allowDirectPrimary) && endpoint.isSelectable &&
      (manager.runtime.find proxyKey).isSome

/-- The closure `is_available`. -/
def isAvailable (manager : ForwardProxyManager) (proxyKey : String)
    (allowDirectPrimary : Bool) : Bool :=
  manager.isSelectableEndpoint proxyKey allowDirectPrimary &&
    (manager.runtime.find proxyKey).any fun runtime => runtime.available && 0 < runtime.weight

/-- The closure `keep_primary`. -/
def keepPrimary (manager : ForwardProxyManager) (hasRegistrationMetadata : Bool)
    (proxyKey : String) : Bool :=
  if hasRegistrationMetadata then manager.isAvailable proxyKey true
  else manager.isSelectableEndpoint proxyKey true

/-- The prior record without the slots that the manager does not bear out. -/
def clearedRecord (manager : ForwardProxyManager) (state : LoadedProxyAffinityState) :
    ForwardProxyAffinityRecord :=
  let hasRegistrationMetadata :=
    state.registrationIp.isSome || state.registrationRegion.isSome
  let primaryProxyKey :=
    state.record.primaryProxyKey.filter (manager.keepPrimary hasRegistrationMetadata)
  let secondaryProxyKey :=
    state.record.secondaryProxyKey.filter fun secondary => manager.isAvailable secondary true
  { primaryProxyKey
    secondaryProxyKey := if primaryProxyKey = secondaryProxyKey then none else secondaryProxyKey
    updatedAt := state.record.updatedAt }

/-- The first candidate for the primary slot; nothing is excluded. -/
def primaryCandidate (manager : ForwardProxyManager) (apiKeyId : String)
    (registrationIp registrationRegion : Option String) : Except String (Option String) := do
  let ranked ← rankRegistrationAwareCandidates env .primary manager (apiKeyId ++ ":primary")
    registrationIp registrationRegion [] true forwardProxyDefaultCandidateCount
  return ranked.head?.map ForwardProxyEndpoint.key

/-- The first candidate for the secondary slot beside a primary. -/
def secondaryCandidate (call : GeoCall) (manager : ForwardProxyManager) (apiKeyId : String)
    (registrationIp registrationRegion : Option String) (primary : Option String) :
    Except String (Option String) := do
  let ranked ← rankRegistrationAwareCandidates env call manager (apiKeyId ++ ":secondary")
    registrationIp registrationRegion primary.toList true forwardProxyDefaultCandidateCount
  return ranked.head?.map ForwardProxyEndpoint.key

def fillPrimary (manager : ForwardProxyManager) (apiKeyId : String)
    (state : LoadedProxyAffinityState) (record : ForwardProxyAffinityRecord) :
    Except String ForwardProxyAffinityRecord :=
  if record.primaryProxyKey.isNone then do
    let primaryProxyKey ← primaryCandidate env manager apiKeyId state.registrationIp
      state.registrationRegion
    return { record with primaryProxyKey }
  else .ok record

def fillSecondary (manager : ForwardProxyManager) (apiKeyId : String)
    (state : LoadedProxyAffinityState) (record : ForwardProxyAffinityRecord) :
    Except String ForwardProxyAffinityRecord :=
  if record.secondaryProxyKey.isNone then do
    let secondaryProxyKey ← secondaryCandidate env .secondary manager apiKeyId
      state.registrationIp state.registrationRegion record.primaryProxyKey
    return { record with secondaryProxyKey }
  else .ok record

/-- A secondary without a primary becomes the primary. -/
def shiftSecondary (record : ForwardProxyAffinityRecord) : ForwardProxyAffinityRecord :=
  if record.primaryProxyKey.isNone && record.secondaryProxyKey.isSome then
    { record with primaryProxyKey := record.secondaryProxyKey, secondaryProxyKey := none }
  else record

def reconcileProxyAffinityRecordWithState (now : Int) (manager : ForwardProxyManager)
    (apiKeyId : String) (state : LoadedProxyAffinityState) :
    Except String ForwardProxyAffinityRecord := do
  let manager := manager.ensureNonZeroWeight
  let record ← fillPrimary env manager apiKeyId state (manager.clearedRecord state)
  let record ← fillSecondary env manager apiKeyId state record
  return { shiftSecondary record with updatedAt := now }

/-- The record that `promote_proxy_affinity_secondary` stores, if it stores one;
`reloaded` is the registration as it is read again before the new secondary is ranked. -/
def promoteProxyAffinitySecondary (now : Int) (manager : ForwardProxyManager)
    (apiKeyId succeededProxyKey : String) (state : LoadedProxyAffinityState)
    (reloaded : Option String × Option String) :
    Except String (Option ForwardProxyAffinityRecord) := do
  if state.hasExplicitEmptyMarker then
    let secondaryProxyKey ← secondaryCandidate env .nextSecondary manager apiKeyId
      state.registrationIp state.registrationRegion (some succeededProxyKey)
    return some { primaryProxyKey := some succeededProxyKey, secondaryProxyKey, updatedAt := now }
  else
    let record ← reconcileProxyAffinityRecordWithState env now manager apiKeyId state
    if record.primaryProxyKey = some succeededProxyKey then return none
    else if record.secondaryProxyKey = some succeededProxyKey then
      let secondaryProxyKey ← secondaryCandidate env .nextSecondary manager.ensureNonZeroWeight
        apiKeyId reloaded.1 reloaded.2 (some succeededProxyKey)
      return some { primaryProxyKey := some succeededProxyKey, secondaryProxyKey, updatedAt := now }
    else return none

end ForwardProxyManager

end TavilyHikari.ForwardProxy
