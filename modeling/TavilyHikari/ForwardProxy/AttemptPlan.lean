/-
Module: TavilyHikari.ForwardProxy.AttemptPlan
Purpose: The plan of the endpoints that a request is sent through: the usable slots of the
  affinity record, then the ranked candidates (`tavily_proxy/mod.rs`), and what a plan is for.
Trusted boundary: the registration of the key and the geo data of endpoints are inputs
Main exports: SelectedForwardProxy, buildProxyAttemptPlanForRecord, AttemptPlan
-/
import TavilyHikari.ForwardProxy.Affinity

namespace TavilyHikari.ForwardProxy

open Library

structure SelectedForwardProxy where
  key : String
  source : String
  kind : String
  endpointUrl : Option ProxyUrl
  endpointUrlRaw : Option String
deriving DecidableEq

def SelectedForwardProxy.fromEndpoint (endpoint : ForwardProxyEndpoint) :
    SelectedForwardProxy where
  key := endpoint.key
  source := endpoint.source
  kind := endpoint.protocol.asStr
  endpointUrl := endpoint.endpointUrl
  endpointUrlRaw := endpoint.rawUrl

@[simp] theorem SelectedForwardProxy.fromEndpoint_key (endpoint : ForwardProxyEndpoint) :
    (fromEndpoint endpoint).key = endpoint.key := rfl

/-- The slots of the record that are filled, in their order. -/
def ForwardProxyAffinityRecord.slots (record : ForwardProxyAffinityRecord) : List String :=
  [record.primaryProxyKey, record.secondaryProxyKey].filterMap id

namespace ForwardProxyManager

/-- The endpoint of a slot, where it is good for an attempt. -/
def usableEndpoint (manager : ForwardProxyManager) (key : String) : Option ForwardProxyEndpoint :=
  (manager.endpoint key).filter fun endpoint =>
    endpoint.isSelectable &&
      (manager.runtime.find key).any fun runtime => runtime.available && 0 < runtime.weight

/-- The loop over the slots: what it puts into the plan, and the keys it has seen. -/
def pushSlots (manager : ForwardProxyManager) :
    List String → List String → List ForwardProxyEndpoint × List String
  | [], seen => ([], seen)
  | key :: keys, seen =>
      if key ∈ seen then manager.pushSlots keys seen
      else
        let (pushed, seen) := manager.pushSlots keys (key :: seen)
        ((manager.usableEndpoint key).toList ++ pushed, seen)

/-- The second loop puts the candidates into the plan whose keys it has not seen. -/
def buildProxyAttemptPlanForRecord (env : AffinityEnvironment) (call : GeoCall)
    (manager : ForwardProxyManager) (subject : String) (record : ForwardProxyAffinityRecord)
    (registrationIp registrationRegion : Option String) (allowDirectFallback : Bool) :
    Except String (List SelectedForwardProxy) := do
  let (pushed, seen) := manager.pushSlots record.slots []
  let limit := max manager.endpoints.length 1
  let ranked ← rankRegistrationAwareCandidates env call manager subject registrationIp
    registrationRegion seen allowDirectFallback limit
  return (pushed ++ freshKeyed ForwardProxyEndpoint.key seen ranked).map .fromEndpoint

/-! ### What a plan is for -/

/-- The record's usable endpoints: the primary, and the secondary if it is another one. -/
def stickyEndpoints (manager : ForwardProxyManager) (record : ForwardProxyAffinityRecord) :
    List ForwardProxyEndpoint :=
  (record.primaryProxyKey.bind manager.usableEndpoint).toList ++
    ((record.secondaryProxyKey.filter fun key => record.primaryProxyKey ≠ some key).bind
      manager.usableEndpoint).toList

/-- The geo data that the ranking asks for, none where it does not ask. -/
def geoCandidates (env : AffinityEnvironment) (call : GeoCall) (manager : ForwardProxyManager)
    (subject : String) (registrationIp registrationRegion : Option String)
    (exclude : List String) (allowDirect : Bool) (limit : Nat) :
    Except String (List ForwardProxyGeoCandidate) :=
  let nonDirect := (manager.ensureNonZeroWeight.rankCandidatesForSubject env.stableHash subject
    exclude allowDirect limit).filter fun endpoint => !endpoint.isDirect
  if (registrationIp.bind env.normalizeIpString).isNone ∧
      (trimmedNonEmpty registrationRegion).isNone ∨ nonDirect = [] then .ok []
  else env.resolveGeo call nonDirect

/-- The place of a candidate: exact matches of the IP, matches of the region, the rest, and the
direct connection. -/
def planClass (exactKeys regionKeys : List String) (endpoint : ForwardProxyEndpoint) : Nat :=
  if endpoint.isDirect then 3
  else if endpoint.key ∈ exactKeys then 0
  else if endpoint.key ∈ regionKeys then 1
  else 2

/-- The candidates are in the order of their places by the geo data. -/
def OrderedByGeo (env : AffinityEnvironment) (registrationIp registrationRegion : Option String)
    (geo : List ForwardProxyGeoCandidate) (candidates : List ForwardProxyEndpoint) : Prop :=
  let exactKeys := matchingKeys (registrationIp.bind env.normalizeIpString)
    ForwardProxyGeoCandidate.hostIps geo
  let regionKeys := matchingKeys (trimmedNonEmpty registrationRegion)
    ForwardProxyGeoCandidate.regions geo
  candidates.Pairwise fun one two =>
    planClass exactKeys regionKeys one ≤ planClass exactKeys regionKeys two

/-- A plan of distinct endpoints that are there, selectable and available: the usable slots
first, then the others in the order of their classes, the direct connection among them only where
it is allowed. -/
structure AttemptPlan (env : AffinityEnvironment) (call : GeoCall) (manager : ForwardProxyManager)
    (subject : String) (record : ForwardProxyAffinityRecord)
    (registrationIp registrationRegion : Option String) (allowDirectFallback : Bool)
    (plan : List SelectedForwardProxy) : Prop where
  nodup : (plan.map SelectedForwardProxy.key).Nodup
  available : ∀ selected ∈ plan, ∃ endpoint ∈ manager.endpoints,
    selected = .fromEndpoint endpoint ∧ endpoint.isSelectable = true ∧
      ∃ runtime, manager.runtime.find endpoint.key = some runtime ∧ runtime.available = true
  ordered : ∃ others geo,
    plan = (manager.stickyEndpoints record ++ others).map .fromEndpoint ∧
      geoCandidates env call manager subject registrationIp registrationRegion record.slots
        allowDirectFallback (max manager.endpoints.length 1) = .ok geo ∧
      OrderedByGeo env registrationIp registrationRegion geo others ∧
      ∀ endpoint ∈ others, endpoint.isDirect = true → allowDirectFallback = true

/-- Whatever the ranking returns without exclusions is in the plan. -/
def Complete (env : AffinityEnvironment) (manager : ForwardProxyManager) (subject : String)
    (allowDirectFallback : Bool) (plan : List SelectedForwardProxy) : Prop :=
  ∀ limit, ∀ endpoint ∈ manager.rankCandidatesForSubject env.stableHash subject []
    allowDirectFallback limit, endpoint.key ∈ plan.map SelectedForwardProxy.key

end ForwardProxyManager

end TavilyHikari.ForwardProxy
