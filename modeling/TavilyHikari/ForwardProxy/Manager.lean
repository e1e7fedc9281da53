/-
Module: TavilyHikari.ForwardProxy.Manager
Purpose: The forward-proxy manager: its endpoints with their runtime state, the two ways
  its endpoints are rebuilt, the scoring of attempts, the rescue of non-positive weights,
  the probe of penalized endpoints and the ranking of candidates.
Trusted boundary: weights are exact rationals; the hash of the standard library is a
  parameter, the order of a hash map that of the rows of a table
Main exports: ForwardProxyRuntimeState, ForwardProxyManager, rebuildEndpoints,
  applySubscriptionRefresh, applyIncrementalSettings, ensureNonZeroWeight, recordAttempt,
  markProbeStarted, rankCandidatesForSubject
-/
import Mathlib.Algebra.Order.Field.Rat
import Mathlib.Data.List.Sort
import TavilyHikari.ForwardProxy.Endpoint
import TavilyHikari.Library.KeyedTable

namespace TavilyHikari.ForwardProxy

open Library

/-! ### Runtime state -/

structure ForwardProxyRuntimeState where
  available : Bool
  weight : ℚ
  successEma : ℚ
  latencyEmaMs : Option ℚ
  consecutiveFailures : Nat
deriving DecidableEq

namespace ForwardProxyRuntimeState

def defaultForEndpoint (endpoint : ForwardProxyEndpoint) : ForwardProxyRuntimeState where
  available := endpoint.isSelectable
  weight := if endpoint.key = forwardProxyDirectKey then 1 else 8 / 10
  successEma := 65 / 100
  latencyEmaMs := none
  consecutiveFailures := 0

def isPenalized (runtime : ForwardProxyRuntimeState) : Bool := runtime.weight ≤ 0

/-- What a rebuild and the sync after it write into an entry that is there. -/
def refreshed (endpoint : ForwardProxyEndpoint) (runtime : ForwardProxyRuntimeState) :
    ForwardProxyRuntimeState :=
  { runtime with available := endpoint.isSelectable }

end ForwardProxyRuntimeState

def forwardProxyWeightRecovery : ℚ := 6 / 10
def forwardProxyWeightSuccessBonus : ℚ := 45 / 100
def forwardProxyWeightFailurePenaltyBase : ℚ := 9 / 10
def forwardProxyWeightFailurePenaltyStep : ℚ := 35 / 100
def forwardProxyWeightMin : ℚ := -12
def forwardProxyWeightMax : ℚ := 12
def forwardProxyProbeEveryRequests : Nat := 100
def forwardProxyProbeIntervalSecs : Int := 30 * 60
def forwardProxyProbeRecoveryWeight : ℚ := 4 / 10

/-- `f64::clamp` with the bounds of a weight. -/
def clampWeight (weight : ℚ) : ℚ := max forwardProxyWeightMin (min weight forwardProxyWeightMax)

/-- The stored row of an endpoint. -/
structure ForwardProxyRuntimeRow where
  weight : ℚ
  successEma : ℚ
  latencyEmaMs : Option ℚ
  consecutiveFailures : Int

/-- `From<ForwardProxyRuntimeRow>`; the cast of the failures keeps their low 32 bits. -/
def ForwardProxyRuntimeState.fromRow (row : ForwardProxyRuntimeRow) :
    ForwardProxyRuntimeState where
  available := true
  weight := clampWeight row.weight
  successEma := max 0 (min row.successEma 1)
  latencyEmaMs := row.latencyEmaMs.filter fun value => 0 ≤ value
  consecutiveFailures := (max row.consecutiveFailures 0).toNat % 4294967296

/-- A latency counts when it is not negative. -/
def updateRuntimeEma (success : Bool) (latencyMs : Option ℚ)
    (runtime : ForwardProxyRuntimeState) : ForwardProxyRuntimeState :=
  { runtime with
    successEma := runtime.successEma * (9 / 10) + (if success then 1 / 10 else 0)
    latencyEmaMs :=
      match latencyMs.filter fun value => 0 ≤ value with
      | none => runtime.latencyEmaMs
      | some latency =>
          some (runtime.latencyEmaMs.elim latency fun previous =>
            previous * (8 / 10) + latency * (2 / 10)) }

def latencyPenalty (runtime : ForwardProxyRuntimeState) : ℚ :=
  runtime.latencyEmaMs.elim 0 fun value => min (value / 2500) (6 / 10)

/-- What a failure costs, with the failures in a row before it. -/
def failurePenalty (failures : Nat) : ℚ :=
  forwardProxyWeightFailurePenaltyBase +
    ((min (failures + 1) 4294967295 - 1 : Nat) : ℚ) * forwardProxyWeightFailurePenaltyStep

def recordSuccess (latencyMs : Option ℚ) (runtime : ForwardProxyRuntimeState) :
    ForwardProxyRuntimeState :=
  let runtime := updateRuntimeEma true latencyMs runtime
  let rewarded := runtime.weight + (forwardProxyWeightSuccessBonus - latencyPenalty runtime)
  let recovered := clampWeight (if rewarded ≤ 0 then forwardProxyProbeRecoveryWeight else rewarded)
  { runtime with
    consecutiveFailures := 0
    available := true
    weight :=
      if recovered < forwardProxyWeightRecovery then
        max recovered (forwardProxyWeightRecovery * (5 / 10))
      else recovered }

def recordFailure (latencyMs : Option ℚ) (runtime : ForwardProxyRuntimeState) :
    ForwardProxyRuntimeState :=
  let runtime := updateRuntimeEma false latencyMs runtime
  { runtime with
    consecutiveFailures := min (runtime.consecutiveFailures + 1) 4294967295
    available := false
    weight := clampWeight (runtime.weight - failurePenalty runtime.consecutiveFailures) }

/-! ### The manager -/

/-- `endpoints` in their order, `runtime` by key. -/
structure ForwardProxyManager where
  settings : ForwardProxySettings
  endpoints : List ForwardProxyEndpoint
  runtime : KeyedTable String ForwardProxyRuntimeState
  requestsSinceProbe : Nat
  probeInFlight : Bool
  lastProbeAt : Int

namespace ForwardProxyManager

def endpoint (manager : ForwardProxyManager) (key : String) : Option ForwardProxyEndpoint :=
  manager.endpoints.find? fun endpoint => endpoint.key = key

def selectableEndpointKeys (manager : ForwardProxyManager) : List String :=
  (manager.endpoints.filter ForwardProxyEndpoint.isSelectable).map ForwardProxyEndpoint.key

/-- Give the recovery weight to the first candidate that needs it. -/
def rescueFirst (runtime : KeyedTable String ForwardProxyRuntimeState) :
    List (String × ForwardProxyRuntimeState) → KeyedTable String ForwardProxyRuntimeState
  | [] => runtime
  | (proxyKey, entry) :: rest =>
      if entry.weight ≤ 0 then
        runtime.modify proxyKey fun entry => { entry with weight := forwardProxyProbeRecoveryWeight }
      else rescueFirst runtime rest

/-- The entries of selectable endpoints, the largest weight first. -/
def rescueCandidates (manager : ForwardProxyManager) : List (String × ForwardProxyRuntimeState) :=
  (manager.runtime.rows.filter fun row => row.1 ∈ manager.selectableEndpointKeys).insertionSort
    fun lhs rhs => rhs.2.weight ≤ lhs.2.weight

def hasPositiveWeight (manager : ForwardProxyManager) : Bool :=
  manager.runtime.existsWhere fun key entry =>
    key ∈ manager.selectableEndpointKeys ∧ 0 < entry.weight

def ensureNonZeroWeight (manager : ForwardProxyManager) : ForwardProxyManager :=
  if manager.hasPositiveWeight then manager
  else { manager with runtime := rescueFirst manager.runtime manager.rescueCandidates }

/-- The direct endpoint, when the settings ask for it or leave nothing else. -/
def withDirect (settings : ForwardProxySettings) (merged : List ForwardProxyEndpoint) :
    List ForwardProxyEndpoint :=
  let merged := if settings.insertDirect then merged ++ [.direct] else merged
  if merged = [] ∧ settings.proxyUrls = [] ∧ settings.subscriptionUrls = [] then
    merged ++ [.direct]
  else merged

/-- The loop over the runtime entries after the endpoints have changed. -/
def refreshRuntime (endpoints : List ForwardProxyEndpoint)
    (runtime : KeyedTable String ForwardProxyRuntimeState) :
    KeyedTable String ForwardProxyRuntimeState :=
  runtime.upsertAll ForwardProxyRuntimeState.defaultForEndpoint ForwardProxyRuntimeState.refreshed
    (endpoints.map fun endpoint => (endpoint.key, endpoint))

variable (parsers : ProxyParsers)

/-- The endpoints that a rebuild merges out of the settings and the subscriptions. -/
def rebuiltEndpoints (settings : ForwardProxySettings)
    (subscriptionEndpoints : List ForwardProxyEndpoint) : List ForwardProxyEndpoint :=
  mergeAllKeyed ForwardProxyEndpoint.key ForwardProxyEndpoint.absorbDuplicate
    (normalizeProxyEndpointsFromUrls parsers settings.proxyUrls ++ subscriptionEndpoints) []

def rebuildEndpoints (subscriptionEndpoints : List ForwardProxyEndpoint)
    (manager : ForwardProxyManager) : ForwardProxyManager :=
  let endpoints :=
    withDirect manager.settings (rebuiltEndpoints parsers manager.settings subscriptionEndpoints)
  ensureNonZeroWeight
    { manager with endpoints, runtime := refreshRuntime endpoints manager.runtime }

/-- `runtimeRows` are the stored rows; of two with one key the later counts. -/
def new (settings : ForwardProxySettings)
    (runtimeRows : List (String × ForwardProxyRuntimeState)) (now : Int) : ForwardProxyManager :=
  rebuildEndpoints parsers []
    { settings
      endpoints := []
      runtime := KeyedTable.empty.upsertAll id (fun row _ => row) runtimeRows
      requestsSinceProbe := 0
      probeInFlight := false
      lastProbeAt := now - forwardProxyProbeIntervalSecs }

def updateSettingsOnly (settings : ForwardProxySettings) (manager : ForwardProxyManager) :
    ForwardProxyManager :=
  { manager with settings }

/-- The endpoints of a map from subscription URLs to the lines fetched from them. -/
def subscriptionEndpoints (fetched : List (String × List String)) : List ForwardProxyEndpoint :=
  fetched.flatMap fun subscription =>
    normalizeSubscriptionEndpointsFromUrls parsers subscription.2 subscription.1

def applySubscriptionRefresh (subscriptionProxyUrls : List (String × List String))
    (manager : ForwardProxyManager) : ForwardProxyManager :=
  rebuildEndpoints parsers (subscriptionEndpoints parsers subscriptionProxyUrls) manager

/-! ### Incremental settings -/

/-- What the new settings leave of an endpoint. -/
def retainEndpoint (settings : ForwardProxySettings)
    (manualByKey : List ForwardProxyEndpoint) (endpoint : ForwardProxyEndpoint) :
    Option ForwardProxyEndpoint :=
  if endpoint.isDirect then none
  else
    let endpoint :=
      { endpoint with
        manualPresent := endpoint.key ∈ manualByKey.map ForwardProxyEndpoint.key
        subscriptionSources :=
          endpoint.subscriptionSources.filter (· ∈ settings.subscriptionUrls) }
    if endpoint.manualPresent || endpoint.isSubscriptionBacked then some endpoint.refreshSource
    else none

def adoptManual (existing manualEndpoint : ForwardProxyEndpoint) : ForwardProxyEndpoint :=
  ForwardProxyEndpoint.refreshSource
    { existing with
      manualPresent := true
      protocol := manualEndpoint.protocol
      rawUrl := manualEndpoint.rawUrl }

def adoptSubscription (existing endpoint : ForwardProxyEndpoint) : ForwardProxyEndpoint :=
  ForwardProxyEndpoint.refreshSource
    { existing with
      subscriptionSources := existing.subscriptionSources ∪ endpoint.subscriptionSources }

/-- The endpoints after an incremental change. The set `seen` of the source is the set of
the keys of the merged list, at any time. -/
def incrementalEndpoints (settings : ForwardProxySettings)
    (manualByKey : List ForwardProxyEndpoint) (fetched : List (String × List String))
    (endpoints : List ForwardProxyEndpoint) : List ForwardProxyEndpoint :=
  let retained := mergeAllKeyed ForwardProxyEndpoint.key (fun existing _ => existing)
    (endpoints.filterMap (retainEndpoint settings manualByKey)) []
  let manual := mergeAllKeyed ForwardProxyEndpoint.key adoptManual manualByKey retained
  mergeAllKeyed ForwardProxyEndpoint.key adoptSubscription (subscriptionEndpoints parsers fetched)
    manual

/-- `manualByKey` lists the manual endpoints in the order of the hash map they are put in. -/
def applyIncrementalSettings (settings : ForwardProxySettings)
    (manualByKey : List ForwardProxyEndpoint) (fetched : List (String × List String))
    (manager : ForwardProxyManager) : ForwardProxyManager :=
  let endpoints := withDirect settings
    (incrementalEndpoints parsers settings manualByKey fetched manager.endpoints)
  ensureNonZeroWeight
    { manager with settings, endpoints, runtime := refreshRuntime endpoints manager.runtime }

/-- The relays are synced, and after them `sync_forward_proxy_runtime_state`. -/
def syncRoutes (route : ForwardProxyEndpoint → Option ProxyUrl) (manager : ForwardProxyManager) :
    ForwardProxyManager :=
  let egress := manager.settings.effectiveEgressSocks5Url parsers
  let endpoints := syncEndpoints parsers egress route manager.endpoints
  { manager with
    endpoints
    runtime := manager.runtime.modifyAll ForwardProxyRuntimeState.refreshed
      (endpoints.map fun endpoint => (endpoint.key, endpoint)) }

/-! ### Attempts and probes -/

def recordOutcome (success : Bool) (latencyMs : Option ℚ) (runtime : ForwardProxyRuntimeState) :
    ForwardProxyRuntimeState :=
  if success then recordSuccess latencyMs runtime else recordFailure latencyMs runtime

/-- The outcome in the entry of an endpoint; nothing for a key without one. -/
def scoreAttempt (proxyKey : String) (success : Bool) (latencyMs : Option ℚ)
    (manager : ForwardProxyManager) : ForwardProxyManager :=
  { manager with runtime := manager.runtime.modify proxyKey (recordOutcome success latencyMs) }

def recordAttempt (proxyKey : String) (success : Bool) (latencyMs : Option ℚ)
    (manager : ForwardProxyManager) : ForwardProxyManager :=
  if (manager.endpoint proxyKey).isSome ∧ (manager.runtime.find proxyKey).isSome then
    (manager.scoreAttempt proxyKey success latencyMs).ensureNonZeroWeight
  else manager

def noteRequest (manager : ForwardProxyManager) : ForwardProxyManager :=
  { manager with
    requestsSinceProbe := min (manager.requestsSinceProbe + 1) 18446744073709551615 }

/-- The penalized entries of selectable endpoints. -/
def probeCandidates (manager : ForwardProxyManager) : List (String × ForwardProxyRuntimeState) :=
  manager.runtime.rows.filter fun row =>
    row.2.isPenalized ∧ row.1 ∈ manager.selectableEndpointKeys

def shouldProbePenalizedProxy (now : Int) (manager : ForwardProxyManager) : Bool :=
  manager.probeCandidates ≠ [] ∧ ¬manager.probeInFlight ∧
    (forwardProxyProbeEveryRequests ≤ manager.requestsSinceProbe ∨
      forwardProxyProbeIntervalSecs ≤ now - manager.lastProbeAt)

/-- The last candidate of the largest weight, as `max_by` takes it. -/
def selectedProbe (manager : ForwardProxyManager) : Option ForwardProxyEndpoint :=
  ((manager.probeCandidates.reverse.insertionSort
    fun lhs rhs => rhs.2.weight ≤ lhs.2.weight).head?).bind fun row => manager.endpoint row.1

def markProbeStarted (now : Int) (manager : ForwardProxyManager) :
    Option (ForwardProxyEndpoint × ForwardProxyManager) :=
  if manager.shouldProbePenalizedProxy now then
    manager.selectedProbe.map fun selected =>
      (selected, { manager with probeInFlight := true, requestsSinceProbe := 0, lastProbeAt := now })
  else none

def markProbeFinished (now : Int) (manager : ForwardProxyManager) : ForwardProxyManager :=
  { manager with probeInFlight := false, lastProbeAt := now }

/-! ### Ranking -/

/-- `deterministic_unit_f64`. -/
def deterministicUnit (seed : UInt64) : ℚ :=
  let value := seed * 6364136223846793005 + 1
  let value := value ^^^ (value >>> 33)
  let value := value * 0xff51afd7ed558ccd
  let value := value ^^^ (value >>> 33)
  let value := value * 0xc4ceb9fe1a85ec53
  let value := value ^^^ (value >>> 33)
  (value.toNat : ℚ) / 18446744073709551615

variable (stableHash : String → UInt64)

def candidateScore (seed : UInt64) (endpoint : ForwardProxyEndpoint)
    (runtime : ForwardProxyRuntimeState) : ℚ :=
  runtime.weight + runtime.successEma * 4
    - (runtime.latencyEmaMs.elim 0 fun latency => min (latency / 1000) (15 / 10))
    - (if endpoint.isDirect then 50 else 0)
    + deterministicUnit (seed ^^^ stableHash endpoint.key) * (5 / 100)

/-- The endpoint with its score, if it is a candidate. -/
def scoredCandidate (manager : ForwardProxyManager) (seed : UInt64) (exclude : List String)
    (allowDirect : Bool) (endpoint : ForwardProxyEndpoint) : Option (ℚ × ForwardProxyEndpoint) :=
  if endpoint.isSelectable ∧ (allowDirect ∨ ¬endpoint.isDirect) ∧ endpoint.key ∉ exclude then
    (manager.runtime.find endpoint.key).bind fun runtime =>
      if runtime.available then some (candidateScore stableHash seed endpoint runtime, endpoint)
      else none
  else none

def rankCandidatesForSubject (manager : ForwardProxyManager) (subject : String)
    (exclude : List String) (allowDirect : Bool) (limit : Nat) : List ForwardProxyEndpoint :=
  let candidates := manager.endpoints.filterMap
    (manager.scoredCandidate stableHash (stableHash subject) exclude allowDirect)
  ((candidates.insertionSort fun lhs rhs => rhs.1 ≤ lhs.1).take (max limit 1)).map Prod.snd

end ForwardProxyManager

end TavilyHikari.ForwardProxy
