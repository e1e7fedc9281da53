/-
Module: TavilyHikari.ForwardProxy.SubscriptionSystem
Purpose: Subscription refreshes and settings saves as concurrent tasks: each reads the
  settings, fetches subscriptions one by one without the lock of the manager, and applies
  what it has fetched, in any interleaving with the others.
Trusted boundary: what a fetch answers is in the actions; the save of the settings alone
  that comes before an incremental change is not an operation here
Main exports: FetchTask, SubscriptionState, SubscriptionAction, subscriptionSystem
-/
import TavilyHikari.ForwardProxy.Manager
import TavilyHikari.Library.TransitionSystem

namespace TavilyHikari.ForwardProxy

open Library

inductive FetchPurpose where
  | refresh
  | settings (settings : ForwardProxySettings)

/-- A refresh or a save between its start and the application of what it fetched. -/
structure FetchTask where
  purpose : FetchPurpose
  subscriptionUrls : List String
  remaining : List String
  fetched : KeyedTable String (List String)

/-- `latestFailed` says of every subscription whether the last fetch of it, by any task, has
failed; `previous` are the endpoints as they were before the last step. -/
structure SubscriptionState where
  manager : ForwardProxyManager
  tasks : List FetchTask
  latestFailed : String → Bool
  previous : List ForwardProxyEndpoint

/-- `index` names a task. `order` and `manualByKey` are the orders of the maps that an
application goes through. -/
inductive SubscriptionAction where
  | startRefresh
  | startUpdate (settings : ForwardProxySettings)
  | fetch (index : Nat) (answer : Option (List String))
  | apply (index : Nat) (order : List (String × List String))
      (manualByKey : List ForwardProxyEndpoint)
  | syncRoutes (route : ForwardProxyEndpoint → Option ProxyUrl)
  | abandon (index : Nat)

namespace SubscriptionState

/-- A task that will fetch the URLs of a list. -/
def start (state : SubscriptionState) (purpose : FetchPurpose) (subscriptionUrls : List String) :
    SubscriptionState :=
  { state with
    tasks := state.tasks ++
      [{ purpose, subscriptionUrls, remaining := subscriptionUrls, fetched := .empty }]
    previous := state.manager.endpoints }

/-- One round of `fetch_forward_proxy_subscription_map_with_progress`. -/
def fetch (state : SubscriptionState) (index : Nat) (answer : Option (List String)) :
    Option SubscriptionState := do
  let task ← state.tasks[index]?
  match task.remaining with
  | [] => none
  | url :: remaining =>
      let fetched := answer.elim task.fetched fun lines =>
        task.fetched.upsert url lines fun _ => lines
      some
        { state with
          tasks := state.tasks.set index { task with remaining, fetched }
          latestFailed := Function.update state.latestFailed url answer.isNone
          previous := state.manager.endpoints }

variable (parsers : ProxyParsers)

/-- What a task does to the manager; a refresh of which every fetch has failed does nothing. -/
def applied (manager : ForwardProxyManager) (task : FetchTask)
    (order : List (String × List String)) (manualByKey : List ForwardProxyEndpoint) :
    Option ForwardProxyManager :=
  match task.purpose with
  | .refresh =>
      if task.subscriptionUrls ≠ [] ∧ order = [] then none
      else some (manager.applySubscriptionRefresh parsers order)
  | .settings settings =>
      if manualByKey.Perm (normalizeProxyEndpointsFromUrls parsers settings.proxyUrls) then
        some (manager.applyIncrementalSettings parsers settings manualByKey order)
      else none

def apply (state : SubscriptionState) (index : Nat) (order : List (String × List String))
    (manualByKey : List ForwardProxyEndpoint) : Option SubscriptionState := do
  let task ← state.tasks[index]?
  guard (task.remaining = [] ∧ order.Perm task.fetched.rows)
  let manager ← applied parsers state.manager task order manualByKey
  some
    { state with
      manager
      tasks := state.tasks.eraseIdx index
      previous := state.manager.endpoints }

def step (state : SubscriptionState) : SubscriptionAction → Option SubscriptionState
  | .startRefresh => some (state.start .refresh state.manager.settings.subscriptionUrls)
  | .startUpdate settings =>
      some (state.start (.settings settings) (settings.subscriptionUrls.filter fun url =>
        url ∉ state.manager.settings.subscriptionUrls))
  | .fetch index answer => state.fetch index answer
  | .apply index order manualByKey => state.apply parsers index order manualByKey
  | .syncRoutes route =>
      some
        { state with
          manager := state.manager.syncRoutes parsers route
          previous := state.manager.endpoints }
  | .abandon index =>
      some
        { state with
          tasks := state.tasks.eraseIdx index
          previous := state.manager.endpoints }

/-- The state after the construction of the manager. -/
def init (settings : ForwardProxySettings)
    (runtimeRows : List (String × ForwardProxyRuntimeState)) (now : Int) : SubscriptionState where
  manager := .new parsers settings runtimeRows now
  tasks := []
  latestFailed := fun _ => false
  previous := []

end SubscriptionState

def subscriptionSystem (parsers : ProxyParsers) :
    TransitionSystem SubscriptionState SubscriptionAction where
  step := SubscriptionState.step parsers

end TavilyHikari.ForwardProxy
