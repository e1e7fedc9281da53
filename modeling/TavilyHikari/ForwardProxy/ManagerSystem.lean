/-
Module: TavilyHikari.ForwardProxy.ManagerSystem
Purpose: The forward-proxy manager under its lock as a transition system: settings and
  subscriptions that change its endpoints, relays that come and go, attempts that are
  recorded, probes that start and may or may not finish.
Trusted boundary: what is fetched, which relays start and the time are in the actions
Main exports: ManagerAction, managerSystem
-/
import TavilyHikari.ForwardProxy.Manager
import TavilyHikari.Library.TransitionSystem

namespace TavilyHikari.ForwardProxy

open Library

/-- One critical section on the manager. A probe that is cancelled is a start without a
finish; `rehash` is a new order of the runtime map. -/
inductive ManagerAction where
  | applySettings (settings : ForwardProxySettings)
  | updateSettingsOnly (settings : ForwardProxySettings)
  | applyIncrementalSettings (settings : ForwardProxySettings)
      (manualByKey : List ForwardProxyEndpoint) (fetched : List (String × List String))
  | applySubscriptionRefresh (fetched : List (String × List String))
  | syncRoutes (route : ForwardProxyEndpoint → Option ProxyUrl)
  | recordAttempt (proxyKey : String) (success : Bool) (latencyMs : Option ℚ)
  | ensureNonZeroWeight
  | noteRequest
  | markProbeStarted (now : Int)
  | markProbeFinished (now : Int)
  | rehash (rows : List (String × ForwardProxyRuntimeState))

namespace ForwardProxyManager

/-- The runtime map in another order. -/
def rehash (manager : ForwardProxyManager) (rows : List (String × ForwardProxyRuntimeState))
    (same : rows.Perm manager.runtime.rows) : ForwardProxyManager :=
  { manager with
    runtime :=
      { rows, distinct := (same.map Prod.fst).nodup_iff.2 manager.runtime.distinct } }

def step (parsers : ProxyParsers) (manager : ForwardProxyManager) :
    ManagerAction → Option ForwardProxyManager
  | .applySettings settings =>
      some (rebuildEndpoints parsers [] (manager.updateSettingsOnly settings))
  | .updateSettingsOnly settings => some (manager.updateSettingsOnly settings)
  | .applyIncrementalSettings settings manualByKey fetched =>
      if manualByKey.Perm (normalizeProxyEndpointsFromUrls parsers settings.proxyUrls) then
        some (manager.applyIncrementalSettings parsers settings manualByKey fetched)
      else none
  | .applySubscriptionRefresh fetched => some (manager.applySubscriptionRefresh parsers fetched)
  | .syncRoutes route => some (manager.syncRoutes parsers route)
  | .recordAttempt proxyKey success latencyMs =>
      some (manager.recordAttempt proxyKey success latencyMs)
  | .ensureNonZeroWeight => some manager.ensureNonZeroWeight
  | .noteRequest => some manager.noteRequest
  | .markProbeStarted now => (manager.markProbeStarted now).map Prod.snd
  | .markProbeFinished now => some (manager.markProbeFinished now)
  | .rehash rows =>
      if same : rows.Perm manager.runtime.rows then some (manager.rehash rows same) else none

end ForwardProxyManager

def managerSystem (parsers : ProxyParsers) : TransitionSystem ForwardProxyManager ManagerAction where
  step := ForwardProxyManager.step parsers

end TavilyHikari.ForwardProxy
