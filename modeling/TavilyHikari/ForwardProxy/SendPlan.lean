/-
Module: TavilyHikari.ForwardProxy.SendPlan
Purpose: The request that is sent through the endpoints of a plan, one after another, and then
  through the direct connection (`tavily_proxy/mod.rs`), after the maintenance with its probe of
  a penalized endpoint, and with what is recorded of the attempts.
Trusted boundary: which clients can be built and what the network answers, how a refresh of the
  subscriptions ends; the manager each time its lock is taken, as other requests share it
Main exports: SendOutcomes, MaintenanceOutcomes, SendEvent, maybeRunForwardProxyMaintenance,
  sendWithForwardProxyPlan, PlanExecution
-/
import TavilyHikari.ForwardProxy.AttemptPlan
import TavilyHikari.Library.Substring

namespace TavilyHikari.ForwardProxy

open Library

/-! ### Errors -/

/-- An error of the HTTP client, with what is asked about it. -/
structure HttpError where
  isTimeout : Bool
  isStatus : Bool
  text : String
deriving DecidableEq, Repr

inductive ProxyError where
  | invalidEndpoint (endpoint source : String)
  | noAvailableKeys
  | pinnedMcpSessionUnavailable
  | database (text : String)
  | http (err : HttpError)
  | quotaDataMissing (reason : String)
  | usageHttp (status : Nat) (body : String)
  | other (text : String)
deriving DecidableEq, Repr

def failureKindFromHttpError (err : HttpError) : String :=
  if err.isTimeout then "handshake_timeout"
  else if err.isStatus then "upstream_http_5xx"
  else "send_error"

def mapForwardProxyValidationErrorCode : ProxyError → String
  | .http err => if err.isTimeout then "proxy_timeout" else "proxy_unreachable"
  | .other message =>
      if contains message "xray" then "xray_missing"
      else if contains message "subscription resolved zero proxy entries" ||
          contains message "subscription contains no supported proxy entries" then
        "subscription_invalid"
      else if contains message "subscription" then "subscription_unreachable"
      else if contains message "timeout" then "proxy_timeout"
      else "validation_failed"
  | _ => "validation_failed"

/-! ### Sending -/

/-- What building a client for a URL and sending through a client come to, at each of the places
of the plan. Without a URL it is the direct client, and there always is one. -/
structure SendOutcomes (Response : Type) where
  buildClient : Nat → ProxyUrl → Except ProxyError Unit
  send : Nat → Option ProxyUrl → Except HttpError (Response × ℚ)

/-- What the maintenance meets: the manager when it asks whether the subscriptions are due, the
end of their refresh, the manager when a probe is decided on, and the outcome of the probe. -/
structure MaintenanceOutcomes where
  atRefresh : ForwardProxyManager
  subscriptionUpdateIntervalSecs : Nat
  lastSubscriptionRefreshAt : Option Int
  refreshNow : Int
  refresh : Except ProxyError Unit
  atProbe : ForwardProxyManager
  probeNow : Int
  probe : ForwardProxyEndpoint → Except ProxyError ℚ

/-- What an observer of the request sees. `recorded` is a row of the attempts, with its
`is_probe`; the requests of a probe go to the probe URL. -/
inductive SendEvent where
  | requestNoted
  | probeStarted (proxyKey : String)
  | probeFinished
  | sent (proxyKey : String)
  | recorded (proxyKey : String) (success : Bool) (latencyMs : Option ℚ)
      (failureKind : Option String) (isProbe : Bool)
  | promoted (apiKeyId proxyKey : String)
deriving DecidableEq

/-! ### Maintenance -/

/-- `should_refresh_subscriptions`. -/
def ForwardProxyManager.shouldRefreshSubscriptions (manager : ForwardProxyManager)
    (subscriptionUpdateIntervalSecs : Nat) (lastSubscriptionRefreshAt : Option Int) (now : Int) :
    Bool :=
  manager.settings.subscriptionUrls ≠ [] &&
    lastSubscriptionRefreshAt.elim true fun lastRefreshAt =>
      (min subscriptionUpdateIntervalSecs 9223372036854775807 : Nat) ≤ now - lastRefreshAt

/-- A refresh that fails ends the maintenance. A probe is recorded whatever it comes to. -/
def maybeRunForwardProxyMaintenance (met : MaintenanceOutcomes) :
    List SendEvent × Except ProxyError Unit :=
  let refreshed :=
    if met.atRefresh.shouldRefreshSubscriptions met.subscriptionUpdateIntervalSecs
        met.lastSubscriptionRefreshAt met.refreshNow then met.refresh
    else .ok ()
  match refreshed with
  | .error err => ([], .error err)
  | .ok () =>
      match met.atProbe.markProbeStarted met.probeNow with
      | none => ([], .ok ())
      | some (selected, manager) =>
          match manager.endpoint selected.key with
          | none => ([.probeStarted selected.key], .ok ())
          | some endpoint =>
              let record :=
                match met.probe endpoint with
                | .ok latencyMs => .recorded endpoint.key true (some latencyMs) none true
                | .error err =>
                    .recorded endpoint.key false none
                      (some (mapForwardProxyValidationErrorCode err)) true
              ([.probeStarted selected.key, record, .probeFinished], .ok ())

/-! ### The plan -/

variable {Response : Type} (outcomes : SendOutcomes Response) (affinityOwnerKeyId : Option String)

def SendOutcomes.clientFor (index : Nat) :
    Option ProxyUrl → Except ProxyError (Option ProxyUrl)
  | none => .ok none
  | some endpointUrl => (outcomes.buildClient index endpointUrl).map fun _ => some endpointUrl

/-- The loop over the plan: it ends with the first response, or with the last error. -/
def sendToCandidates : Nat → Option ProxyError → List SelectedForwardProxy →
    List SendEvent × Except (Option ProxyError) (Response × SelectedForwardProxy)
  | _, lastError, [] => ([], .error lastError)
  | index, _, candidate :: plan =>
      match outcomes.clientFor index candidate.endpointUrl with
      | .error err =>
          let (events, result) := sendToCandidates (index + 1) (some err) plan
          (.recorded candidate.key false none (some (mapForwardProxyValidationErrorCode err))
              false :: events, result)
      | .ok client =>
          match outcomes.send index client with
          | .ok (response, latencyMs) =>
              (.sent candidate.key :: .recorded candidate.key true (some latencyMs) none false ::
                (affinityOwnerKeyId.map fun apiKeyId => .promoted apiKeyId candidate.key).toList,
                .ok (response, candidate))
          | .error err =>
              let (events, result) := sendToCandidates (index + 1) (some (.http err)) plan
              (.sent candidate.key ::
                .recorded candidate.key false none (some (failureKindFromHttpError err)) false ::
                events, result)

/-- The direct connection, where the manager has it and it is selectable. -/
def directCandidate (manager : ForwardProxyManager) : Option SelectedForwardProxy :=
  ((manager.endpoint forwardProxyDirectKey).filter ForwardProxyEndpoint.isSelectable).map
    .fromEndpoint

/-- The plan, and the direct connection after it; `later` is the manager when the plan is
exhausted. -/
def executePlan (later : ForwardProxyManager) (plan : List SelectedForwardProxy) :
    List SendEvent × Except ProxyError (Response × SelectedForwardProxy) :=
  match sendToCandidates outcomes affinityOwnerKeyId 0 none plan with
  | (events, .ok answer) => (events, .ok answer)
  | (events, .error lastError) =>
      match directCandidate later with
      | none =>
          (events, .error
            (lastError.getD (.other "no selectable forward proxy endpoints available")))
      | some direct =>
          match outcomes.send plan.length none with
          | .ok (response, latencyMs) =>
              (events ++ [.sent direct.key, .recorded direct.key true (some latencyMs) none false],
                .ok (response, direct))
          | .error err =>
              (events ++ [.sent direct.key,
                .recorded direct.key false none (some (failureKindFromHttpError err)) false],
                .error (lastError.getD (.http err)))

/-- An error of the maintenance is printed only. -/
def sendWithForwardProxyPlan (met : MaintenanceOutcomes) (later : ForwardProxyManager)
    (plan : List SelectedForwardProxy) :
    List SendEvent × Except ProxyError (Response × SelectedForwardProxy) :=
  let maintenance := (maybeRunForwardProxyMaintenance met).1
  let (events, result) := executePlan outcomes affinityOwnerKeyId later plan
  (.requestNoted :: maintenance ++ events, result)

/-! ### What the execution of a plan is for -/

/-- What trying a candidate comes to: whether the request is sent, and the response to it. -/
structure PlannedAttempt (Response : Type) where
  candidate : SelectedForwardProxy
  sent : Bool
  response : Option Response

def PlannedAttempt.key (attempt : PlannedAttempt Response) : String := attempt.candidate.key

def PlannedAttempt.Failed (attempt : PlannedAttempt Response) : Prop := attempt.response = none

/-- The attempt at a place of the plan. -/
def plannedAttempt (place : SelectedForwardProxy × Nat) : PlannedAttempt Response :=
  let client := outcomes.clientFor place.2 place.1.endpointUrl
  { candidate := place.1
    sent := client.toOption.isSome
    response :=
      client.toOption.bind fun client => (outcomes.send place.2 client).toOption.map Prod.fst }

/-- The attempts that the places of the plan give, the first of them at `index`. -/
def planAttempts (index : Nat) (plan : List SelectedForwardProxy) :
    List (PlannedAttempt Response) :=
  (plan.zipIdx index).map (plannedAttempt outcomes)

/-- The attempt after the plan. -/
def directAttempt (place : Nat) (direct : SelectedForwardProxy) : PlannedAttempt Response where
  candidate := direct
  sent := true
  response := (outcomes.send place none).toOption.map Prod.fst

/-- The attempts in the order in which they are due. -/
def dueAttempts (later : ForwardProxyManager) (plan : List SelectedForwardProxy) :
    List (PlannedAttempt Response) :=
  planAttempts outcomes 0 plan ++
    ((directCandidate later).map (directAttempt outcomes plan.length)).toList

/-- The keys that the request is sent to. -/
def sentKeys (events : List SendEvent) : List String :=
  events.filterMap fun event =>
    match event with
    | .sent proxyKey => some proxyKey
    | _ => none

/-- The success flags of the attempts that are recorded for the key and are no probes. -/
def recordedFlags (key : String) (events : List SendEvent) : List Bool :=
  events.filterMap fun event =>
    match event with
    | .recorded proxyKey success _ _ false => if proxyKey = key then some success else none
    | _ => none

/-- The endpoints that a probe is recorded of. -/
def probedKeys (events : List SendEvent) : List String :=
  events.filterMap fun event =>
    match event with
    | .recorded proxyKey _ _ _ true => some proxyKey
    | _ => none

/-- These attempts, and no others, have been made, in their order: each endpoint has one record,
which says whether it answered. -/
structure Tried (tried : List (PlannedAttempt Response)) (events : List SendEvent) : Prop where
  sent : sentKeys events = (tried.filter PlannedAttempt.sent).map PlannedAttempt.key
  recorded : ∀ attempt ∈ tried, recordedFlags attempt.key events = [attempt.response.isSome]
  untried : ∀ key, key ∉ tried.map PlannedAttempt.key → recordedFlags key events = []

/-- The request goes to no endpoint twice, up to the first that answers; it fails when all do.
What is recorded besides is at most one probe. -/
structure PlanExecution (due : List (PlannedAttempt Response)) (events : List SendEvent)
    (result : Except ProxyError (Response × SelectedForwardProxy)) : Prop where
  sentOnce : (sentKeys events).Nodup
  probedOnce : (probedKeys events).length ≤ 1
  answered : ∀ response candidate, result = .ok (response, candidate) →
    ∃ before attempt after, due = before ++ attempt :: after ∧
      (∀ earlier ∈ before, earlier.Failed) ∧ attempt.candidate = candidate ∧
      attempt.response = some response ∧ Tried (before ++ [attempt]) events
  failed : ∀ err, result = .error err → (∀ attempt ∈ due, attempt.Failed) ∧ Tried due events

end TavilyHikari.ForwardProxy
