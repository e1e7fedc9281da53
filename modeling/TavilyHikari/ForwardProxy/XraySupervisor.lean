/-
Module: TavilyHikari.ForwardProxy.XraySupervisor
Purpose: The supervisor of the local relays (`forward_proxy.rs`): which relay process serves
  which route, and when a process that no route needs is stopped.
Trusted boundary: the clock, the processes and the answers to the attempts to start one
  are those of the environment
Main exports: XrayEnvironment, XrayState, ensureInstance, syncEndpoints, shutdownAll,
  XrayAction, xraySystem
-/
import TavilyHikari.ForwardProxy.Endpoint
import TavilyHikari.Library.KeyedTable
import TavilyHikari.Library.SwapDrain
import TavilyHikari.Library.TransitionSystem

namespace TavilyHikari.ForwardProxy

open Library

/-! ### Routes -/

/-- The prefix of the keys under which a proxy is tried out. -/
def validateXrayPrefix : String := "__validate_xray__"

/-- `{:016x}`. -/
def hex16 (value : UInt64) : String :=
  let digits := Nat.toDigits 16 value.toNat
  String.ofList (List.replicate (16 - digits.length) '0' ++ digits)

section

variable (stableHashU64 : String → UInt64)

def buildXrayRouteKey (endpoint : ForwardProxyEndpoint) (egressSocks5Url : Option ProxyUrl) :
    String :=
  let transport :=
    match endpoint.rawUrl with
    | some rawUrl => rawUrl
    | none => endpoint.endpointUrl.elim "" ProxyUrl.text
  if startsWith validateXrayPrefix endpoint.key then endpoint.key
  else
    "relay::" ++
      hex16 (stableHashU64
        (endpoint.key ++ "|" ++ transport ++ "|" ++ egressSocks5Url.elim "" ProxyUrl.text))

/-- The name of the config in the runtime directory. -/
def xrayConfigPath (routeKey : String) : String :=
  "forward-proxy-" ++ hex16 (stableHashU64 routeKey) ++ ".json"

end

/-- The socks endpoint of a relay. -/
def localProxyUrl (localPort : Nat) : ProxyUrl where
  scheme := "socks5h"
  username := ""
  password := none
  host := some "127.0.0.1"
  port := some localPort
  text := s!"socks5h://127.0.0.1:{localPort}"

/-! ### Processes -/

/-- How an attempt to start a relay goes. -/
inductive StartAnswer where
  /-- There is no outbound or no free port. -/
  | unprepared
  /-- The config cannot be written to its end; `created` where a file is there nonetheless. -/
  | notWritten (created : Bool)
  /-- The config is written, but the binary cannot be started. -/
  | notStarted
  /-- The process ends or does not listen in time. -/
  | notReady
  | ready (localPort : Nat)
deriving DecidableEq, Repr

/-- A process runs at some time. -/
def StartAnswer.hasProcess : StartAnswer → Bool
  | .unprepared => false
  | .notWritten _ => false
  | .notStarted => false
  | .notReady => true
  | .ready _ => true

/-- A config is left that no process was started from. -/
def StartAnswer.leavesConfig : StartAnswer → Bool
  | .unprepared => false
  | .notWritten created => created
  | .notStarted => true
  | .notReady => false
  | .ready _ => false

/-- What the supervisor is told: the clock, in nanoseconds, whether a process has ended, and
how its attempts to start one go, each by the number of the question. -/
structure XrayEnvironment where
  instant : Nat → Int
  exited : Nat → Nat → Bool
  start : Nat → StartAnswer

/-- `child` is the number of the attempt that started the process. -/
structure XrayInstance where
  routeKey : String
  localProxyUrl : ProxyUrl
  configPath : String
  child : Nat
deriving DecidableEq, Repr

/-- The relay of a route once its process listens. -/
def readyInstance (stableHashU64 : String → UInt64) (routeKey : String) (localPort child : Nat) :
    XrayInstance where
  routeKey
  localProxyUrl := localProxyUrl localPort
  configPath := xrayConfigPath stableHashU64 routeKey
  child

structure RetiringXrayInstance where
  removeAfter : Int
  relay : XrayInstance
deriving DecidableEq, Repr

/-- The supervisor, with how often it has asked the environment, the processes that it has
terminated and the configs in its runtime directory, each with the attempt that wrote it last.
`retirements` has the processes that were retired, each with the reading of the clock that its
grace is counted from. -/
structure XrayState where
  instances : KeyedTable String XrayInstance
  retiringInstances : List RetiringXrayInstance
  clockReads : Nat
  polls : Nat
  attempts : Nat
  terminated : List Nat
  configFiles : KeyedTable String Nat
  retirements : List (Nat × Nat)

def XrayState.new : XrayState where
  instances := .empty
  retiringInstances := []
  clockReads := 0
  polls := 0
  attempts := 0
  terminated := []
  configFiles := .empty
  retirements := []

/-- `Duration::from_secs(30)`. -/
def retireGraceNanos : Int := 30 * 1000000000

namespace XrayState

/-- `fs::write` of a config. -/
def writeConfig (state : XrayState) (configPath : String) (child : Nat) : XrayState :=
  { state with configFiles := state.configFiles.upsert configPath child fun _ => child }

/-- `fs::remove_file`. -/
def removeConfig (state : XrayState) (configPath : String) : XrayState :=
  { state with configFiles := state.configFiles.deleteWhere fun path _ => path = configPath }

/-- `terminate_child_process`, and the removal of the config. -/
def terminate (state : XrayState) (relay : XrayInstance) : XrayState :=
  { state with terminated := relay.child :: state.terminated }.removeConfig relay.configPath

def terminateAll (state : XrayState) (stopped : List RetiringXrayInstance) : XrayState :=
  stopped.foldl (fun state retiring => state.terminate retiring.relay) state

variable (parsers : ProxyParsers) (stableHashU64 : String → UInt64) (env : XrayEnvironment)

def reapRetiringInstances (state : XrayState) : XrayState :=
  let now := env.instant state.clockReads
  let (kept, due) :=
    swapDrain (fun retiring => !decide (retiring.removeAfter > now)) state.retiringInstances
  terminateAll { state with clockReads := state.clockReads + 1, retiringInstances := kept } due

def dropInstance (state : XrayState) (key : String) : XrayState :=
  { state with instances := state.instances.deleteWhere fun routeKey _ => routeKey = key }

def removeInstance (state : XrayState) (key : String) : XrayState :=
  let state := state.reapRetiringInstances env
  match state.instances.find key with
  | none => state
  | some relay => (state.dropInstance key).terminate relay

def retireInstance (state : XrayState) (key : String) : XrayState :=
  let state := state.reapRetiringInstances env
  match state.instances.find key with
  | none => state
  | some relay =>
      { state.dropInstance key with
        clockReads := state.clockReads + 1
        retiringInstances :=
          state.retiringInstances ++
            [{ removeAfter := env.instant state.clockReads + retireGraceNanos, relay }]
        retirements := (relay.child, state.clockReads) :: state.retirements }

/-- The URL of the new relay, `none` where the attempt fails. -/
def spawnInstance (state : XrayState) (routeKey : String) : Option ProxyUrl × XrayState :=
  let configPath := xrayConfigPath stableHashU64 routeKey
  let child := state.attempts
  let state := { state with attempts := state.attempts + 1 }
  match env.start child with
  | .unprepared => (none, state)
  | .notWritten created => (none, if created then state.writeConfig configPath child else state)
  | .notStarted => (none, state.writeConfig configPath child)
  | .notReady =>
      (none,
        { state with terminated := child :: state.terminated }.writeConfig configPath child
          |>.removeConfig configPath)
  | .ready localPort =>
      let relay := readyInstance stableHashU64 routeKey localPort child
      (some relay.localProxyUrl,
        { state.writeConfig configPath child with
          instances := state.instances.upsert routeKey relay fun _ => relay })

def ensureInstance (state : XrayState) (endpoint : ForwardProxyEndpoint)
    (egressSocks5Url : Option ProxyUrl) : Option ProxyUrl × XrayState :=
  let state := state.reapRetiringInstances env
  let routeKey := buildXrayRouteKey stableHashU64 endpoint egressSocks5Url
  match state.instances.find routeKey with
  | none => (state.removeInstance env routeKey).spawnInstance stableHashU64 env routeKey
  | some relay =>
      let exited := env.exited relay.child state.polls
      let state := { state with polls := state.polls + 1 }
      if exited then (state.removeInstance env routeKey).spawnInstance stableHashU64 env routeKey
      else (some relay.localProxyUrl, state)

/-- One round of the loop of `sync_endpoints`. -/
def syncEndpoint (state : XrayState) (egressSocks5Url : Option ProxyUrl)
    (endpoint : ForwardProxyEndpoint) : ForwardProxyEndpoint × XrayState :=
  if endpoint.needsLocalRelay egressSocks5Url then
    let (routeUrl, state) := state.ensureInstance stableHashU64 env endpoint egressSocks5Url
    ({ endpoint with endpointUrl := routeUrl, usesLocalRelay := true }, state)
  else
    ({ endpoint with
        endpointUrl := endpointTransportUrl parsers endpoint, usesLocalRelay := false }, state)

def syncLoop (state : XrayState) (egressSocks5Url : Option ProxyUrl) :
    List ForwardProxyEndpoint → List ForwardProxyEndpoint × XrayState
  | [] => ([], state)
  | endpoint :: rest =>
      let (endpoint, state) := state.syncEndpoint parsers stableHashU64 env egressSocks5Url endpoint
      let (rest, state) := syncLoop state egressSocks5Url rest
      (endpoint :: rest, state)

def desiredKeys (egressSocks5Url : Option ProxyUrl) (endpoints : List ForwardProxyEndpoint) :
    List String :=
  (endpoints.filter (·.needsLocalRelay egressSocks5Url)).map
    (buildXrayRouteKey stableHashU64 · egressSocks5Url)

def staleKeys (state : XrayState) (desired : List String) : List String :=
  (state.instances.rows.map Prod.fst).filter fun key =>
    !startsWith validateXrayPrefix key && key ∉ desired

def syncEndpoints (state : XrayState) (egressSocks5Url : Option ProxyUrl)
    (endpoints : List ForwardProxyEndpoint) : List ForwardProxyEndpoint × XrayState :=
  let state := state.reapRetiringInstances env
  let stale := state.staleKeys (desiredKeys stableHashU64 egressSocks5Url endpoints)
  let (endpoints, state) := state.syncLoop parsers stableHashU64 env egressSocks5Url endpoints
  (endpoints, stale.foldl (fun state key => state.retireInstance env key) state)

def shutdownAll (state : XrayState) : XrayState :=
  let state := state.reapRetiringInstances env
  let keys := state.instances.rows.map Prod.fst
  let state := keys.foldl (fun state key => state.removeInstance env key) state
  terminateAll { state with retiringInstances := [] } state.retiringInstances.reverse

end XrayState

/-! ### Runs -/

inductive XrayAction where
  | sync (egressSocks5Url : Option ProxyUrl) (endpoints : List ForwardProxyEndpoint)
  | ensure (endpoint : ForwardProxyEndpoint) (egressSocks5Url : Option ProxyUrl)
  | remove (key : String)
  | shutdown
  /-- The map of the relays lists them in another order. -/
  | reorder (instances : KeyedTable String XrayInstance)

def XrayState.step (parsers : ProxyParsers) (stableHashU64 : String → UInt64)
    (env : XrayEnvironment) (state : XrayState) : XrayAction → Option XrayState
  | .sync egressSocks5Url endpoints =>
      some (state.syncEndpoints parsers stableHashU64 env egressSocks5Url endpoints).2
  | .ensure endpoint egressSocks5Url =>
      some (state.ensureInstance stableHashU64 env endpoint egressSocks5Url).2
  | .remove key => some (state.removeInstance env key)
  | .shutdown => some (state.shutdownAll env)
  | .reorder instances =>
      if instances.rows.Perm state.instances.rows then some { state with instances } else none

def xraySystem (parsers : ProxyParsers) (stableHashU64 : String → UInt64)
    (env : XrayEnvironment) : TransitionSystem XrayState XrayAction where
  step := XrayState.step parsers stableHashU64 env

end TavilyHikari.ForwardProxy
