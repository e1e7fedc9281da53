/-
Module: TavilyHikari.TavilyProxy.ResearchUsage
Purpose: Research calls, which are charged by what the usage counter of their key has grown
  (`tavily_proxy/mod.rs`): `proxy_http_research_with_usage_diff` under the lock of the key, with
  its two probes of `/usage`, among all other requests of one process.
Trusted boundary: what the network answers; what storing an answer comes to; a probe reads the
  counter at one moment, and anybody may move the counter at any time
Main exports: fetchResearchUsageForSecret, ResearchPhase, ResearchUsage, researchUsageSystem,
  ResearchUsage.charged
-/
import TavilyHikari.Analysis.Attempt
import TavilyHikari.Analysis.McpResponse
import TavilyHikari.ForwardProxy.SendPlan
import TavilyHikari.TavilyProxy.BillingLocks

namespace TavilyHikari.TavilyProxy

open Library ForwardProxy Analysis

/-! ### The probe -/

def usageProbeRetryAttempts : Nat := 3

/-- An answer of the upstream, with its status. -/
structure UpstreamAnswer where
  status : Nat
  body : ByteArray

/-- `fetch_research_usage_for_secret`, from what sending the request comes to. -/
def fetchResearchUsageForSecret (json : SerdeJson) (jsonError : ByteArray → String)
    (answer : Except ProxyError UpstreamAnswer) : Except ProxyError Int := do
  let answer ← answer
  if !isSuccessStatus answer.status then
    throw (.usageHttp answer.status (fromUtf8Lossy answer.body))
  match json.fromSlice answer.body with
  | none => throw (.other ("invalid usage json: " ++ jsonError answer.body))
  | some value =>
      match ((value.get "key").bind fun key => key.get "research_usage").bind parseCreditsValue with
      | some usage => pure usage
      | none => throw (.quotaDataMissing "missing key.research_usage field")

/-! ### Calls -/

/-- What the handler reads of a response and of its analysis. -/
structure ResearchResponse where
  status : Nat
  analysisStatus : String
deriving DecidableEq, Repr

/-- What `proxy_http_research_with_usage_diff` returns: the response, with the usage delta. -/
abbrev ResearchResult := Except ProxyError (ResearchResponse × Option Int)

/-- Where a request is in its research call. -/
inductive ResearchPhase where
  | idle
  /-- In `lock_research_key_usage`. -/
  | locking (keyId : String)
  | probingBefore (keyId : String) (attempt : Nat)
  | sending (keyId : String) (beforeUsage : Int)
  /-- The affinity, the health of the key and the request log are stored. -/
  | storing (keyId : String) (beforeUsage : Int) (response : ResearchResponse)
  | probingAfter (keyId : String) (beforeUsage : Int) (response : ResearchResponse) (attempt : Nat)
  /-- In `maybe_quarantine_usage_error` of a probe before or after the call. -/
  | quarantining (keyId : String) (outcome : Except ProxyError ResearchResponse)

/-- The key whose guard the call holds. -/
def ResearchPhase.guardedKey : ResearchPhase → Option String
  | .idle | .locking _ => none
  | .probingBefore keyId _ | .sending keyId _ | .storing keyId _ _ | .probingAfter keyId _ _ _
  | .quarantining keyId _ => some keyId

/-- What the call has read before it was sent, until it reads again. -/
def ResearchPhase.beforeUsage : ResearchPhase → Option (String × Int)
  | .sending keyId before | .storing keyId before _ | .probingAfter keyId before _ _ =>
      some (keyId, before)
  | _ => none

/-- A call that has returned. -/
structure ResearchReturn where
  number : Nat
  keyId : String
  result : ResearchResult

/-- The research calls of one process. A request has the number that it has in the locks. -/
structure ResearchUsage where
  locks : BillingLocks
  /-- The counter of each key, as the upstream reports it. -/
  researchUsage : String → Int
  calls : Nat → ResearchPhase
  returned : List ResearchReturn

inductive UsageAction where
  /-- A step of the locks, of any request that is in no research call or still locking. -/
  | lock (action : BillingLockAction)
  /-- A request that has leased a key calls `lock_research_key_usage`. -/
  | start (number : Nat) (keyId : String)
  /-- The lock call has returned: the guard, or an error. -/
  | locked (number : Nat) (err : ProxyError)
  | probe (number : Nat) (answer : Except ProxyError UpstreamAnswer)
  | send (number : Nat) (response : Except ProxyError ResearchResponse)
  | store (number : Nat) (stored : Except ProxyError Unit)
  | quarantine (number : Nat) (stored : Except ProxyError Unit)
  /-- The client is gone, and the request is dropped. -/
  | cancel (number : Nat)
  /-- The counter of a key moves, for whatever reason. -/
  | report (keyId : String) (change : Int)

/-- The request that takes the step, unless it is a new one. -/
def BillingLockAction.number : BillingLockAction → Option Nat
  | .arrive => none
  | .lockTokenBilling number _ _ | .lockResearchKeyUsage number _ | .advance number | .fail number
  | .dropGuard number _ | .leave number => some number

/-- Whether a request may take the step of the locks while its call is there. -/
def ResearchPhase.mayLock : ResearchPhase → BillingLockAction → Bool
  | _, .arrive => true
  | .idle, .lockResearchKeyUsage _ _ => false
  | .idle, _ => true
  | .locking _, .advance _ => true
  | .locking _, .fail _ => true
  | _, _ => false

namespace ResearchUsage

def initial (researchUsage : String → Int) : ResearchUsage where
  locks := .initial
  researchUsage
  calls := fun _ => .idle
  returned := []

def setCall (s : ResearchUsage) (number : Nat) (phase : ResearchPhase) : ResearchUsage :=
  { s with calls := Function.update s.calls number phase }

@[simp] theorem calls_setCall_self (s : ResearchUsage) (number : Nat) (phase : ResearchPhase) :
    (s.setCall number phase).calls number = phase := by
  simp [setCall]

theorem calls_setCall_of_ne (s : ResearchUsage) {number other : Nat} (apart : other ≠ number)
    (phase : ResearchPhase) : (s.setCall number phase).calls other = s.calls other := by
  simp [setCall, Function.update_of_ne apart]

/-- The call returns, and its guard is dropped. -/
def finish (s : ResearchUsage) (number : Nat) (keyId : String) (result : ResearchResult) :
    Option ResearchUsage :=
  (s.locks.billingLockStep (.dropGuard number (.researchKey keyId))).map fun locks =>
    { s.setCall number .idle with locks, returned := { number, keyId, result } :: s.returned }

/-- The probe has read `usage`. A reading below the one before is no delta. -/
def usageDelta (beforeUsage after : Int) : Option Int :=
  if after ≥ beforeUsage then some (after - beforeUsage) else none

/-- One attempt of `fetch_research_usage_for_secret_with_retries`, before or after the call. -/
def probe (s : ResearchUsage) (number : Nat) (usage : Except ProxyError Int) :
    Option ResearchUsage :=
  match s.calls number, usage with
  | .probingBefore keyId _, .ok usage =>
      if usage = s.researchUsage keyId then some (s.setCall number (.sending keyId usage)) else none
  | .probingBefore keyId attempt, .error err =>
      if attempt + 1 < usageProbeRetryAttempts then
        some (s.setCall number (.probingBefore keyId (attempt + 1)))
      else some (s.setCall number (.quarantining keyId (.error err)))
  | .probingAfter keyId beforeUsage response _, .ok usage =>
      if usage = s.researchUsage keyId then
        s.finish number keyId (.ok (response, usageDelta beforeUsage usage))
      else none
  | .probingAfter keyId beforeUsage response attempt, .error _ =>
      if attempt + 1 < usageProbeRetryAttempts then
        some (s.setCall number (.probingAfter keyId beforeUsage response (attempt + 1)))
      else some (s.setCall number (.quarantining keyId (.ok response)))
  | _, _ => none

def step (json : SerdeJson) (jsonError : ByteArray → String) (s : ResearchUsage) :
    UsageAction → Option ResearchUsage
  | .lock action =>
      if action.number.all fun number => (s.calls number).mayLock action then
        (s.locks.billingLockStep action).map fun locks => { s with locks }
      else none
  | .start number keyId =>
      match s.calls number with
      | .idle =>
          (s.locks.billingLockStep (.lockResearchKeyUsage number keyId)).map fun locks =>
            { s.setCall number (.locking keyId) with locks }
      | _ => none
  | .locked number err =>
      match s.calls number, s.locks.callers[number]? with
      | .locking keyId, some { guards, phase := .idle } =>
          if guards.any fun guard => guard.1 = .researchKey keyId then
            some (s.setCall number (.probingBefore keyId 0))
          else
            some { s.setCall number .idle with
              returned := { number, keyId, result := .error err } :: s.returned }
      | _, _ => none
  | .probe number answer => s.probe number (fetchResearchUsageForSecret json jsonError answer)
  | .send number response =>
      match s.calls number, response with
      | .sending keyId beforeUsage, .ok response =>
          some (s.setCall number (.storing keyId beforeUsage response))
      | .sending keyId _, .error err => s.finish number keyId (.error err)
      | _, _ => none
  | .store number stored =>
      match s.calls number, stored with
      | .storing keyId beforeUsage response, .ok () =>
          some (s.setCall number (.probingAfter keyId beforeUsage response 0))
      | .storing keyId _ _, .error err => s.finish number keyId (.error err)
      | _, _ => none
  | .quarantine number stored =>
      match s.calls number, stored with
      | .quarantining keyId outcome, .ok () =>
          s.finish number keyId (outcome.map fun response => (response, none))
      | .quarantining keyId _, .error err => s.finish number keyId (.error err)
      | _, _ => none
  | .cancel number =>
      (s.locks.billingLockStep (.leave number)).map fun locks =>
        { s.setCall number .idle with locks }
  | .report keyId change =>
      some { s with
        researchUsage := Function.update s.researchUsage keyId (s.researchUsage keyId + change) }

/-- What a call that has returned says that its key was charged. -/
def usageOf (keyId : String) (call : ResearchReturn) : Int :=
  match call.result with
  | .ok (_, some delta) => if call.keyId = keyId then delta else 0
  | _ => 0

/-- The deltas that were returned for a key. -/
def charged (s : ResearchUsage) (keyId : String) : Int := (s.returned.map (usageOf keyId)).sum

end ResearchUsage

def researchUsageSystem (json : SerdeJson) (jsonError : ByteArray → String) :
    TransitionSystem ResearchUsage UsageAction where
  step := ResearchUsage.step json jsonError

/-- By how much the counter of the key has gone up in all. -/
def UsageAction.growth (keyId : String) : UsageAction → Int
  | .report reported change => if reported = keyId then max change 0 else 0
  | _ => 0

end TavilyHikari.TavilyProxy
