/-
Module: TavilyHikari.Server.TavilyHttp
Purpose: The calls of the HTTP API: the options a call may have, the check of its reservation,
  what its answer is charged, and the calls of all clients beside the requests over MCP
  (`proxy_tavily_http_endpoint`, `server/handlers/tavily.rs`).
Trusted boundary: human-reviewed spec (calls of the open development mode are left out, as are
  those whose reservation is not positive, which pass unchecked; the check of the hourly requests
  is one more way in which a call may end early)
Main exports: TavilyEndpointConfig, TavilyHttpRequest, TavilyHttpAnswer, chargedCredits,
  TavilyHttpState, tavilyHttpSystem
-/
import TavilyHikari.Analysis.HttpAttempt
import TavilyHikari.Server.TavilyCredits
import TavilyHikari.Store.BillingRequestSystem

namespace TavilyHikari.Server

open Library Analysis Store

/-! ### Endpoints -/

structure TavilyEndpointConfig where
  upstreamPath : String
  validateMaxResults : Bool
deriving DecidableEq, Repr

namespace TavilyEndpointConfig

def search : TavilyEndpointConfig where
  upstreamPath := "/search"
  validateMaxResults := true

def extract : TavilyEndpointConfig where
  upstreamPath := "/extract"
  validateMaxResults := false

def crawl : TavilyEndpointConfig where
  upstreamPath := "/crawl"
  validateMaxResults := false

def map : TavilyEndpointConfig where
  upstreamPath := "/map"
  validateMaxResults := false

def research : TavilyEndpointConfig where
  upstreamPath := "/research"
  validateMaxResults := false

/-- Options that are not an object, or that ask for a negative number of results, are turned down
before anything else is done for the call. -/
def acceptsOptions (config : TavilyEndpointConfig) (options : JsonValue) : Bool :=
  match options with
  | .object _ =>
      let maxResults :=
        (options.get "max_results").bind fun value =>
          match value with
          | .number number => number.asI64
          | _ => none
      !(config.validateMaxResults && maxResults.any fun results => results < 0)
  | _ => false

end TavilyEndpointConfig

/-- A call that the precheck is on for. -/
structure TavilyHttpRequest where
  config : TavilyEndpointConfig
  options : JsonValue
  reserves : 0 < tavilyHttpReservedCredits config.upstreamPath options

def TavilyHttpRequest.reservedCredits (request : TavilyHttpRequest) : Int :=
  tavilyHttpReservedCredits request.config.upstreamPath request.options

/-- `blocked` in `proxy_tavily_http_endpoint`. -/
def TavilyHttpRequest.blocked (request : TavilyHttpRequest) (verdict : TokenQuotaVerdict) : Bool :=
  quotaWouldExceed verdict request.reservedCredits

theorem TavilyHttpRequest.reservedBillableCredits_eq (request : TavilyHttpRequest) :
    reservedBillableCredits request.reservedCredits = some request.reservedCredits :=
  if_pos request.reserves

theorem TavilyHttpRequest.reservation_eq (request : TavilyHttpRequest) :
    reservation request.reservedCredits = request.reservedCredits := by
  rw [reservation, request.reservedBillableCredits_eq, Option.getD_some]

/-- The requests over MCP are checked the same way. -/
theorem TavilyHttpRequest.precheckBlocks_eq (request : TavilyHttpRequest)
    (verdict : TokenQuotaVerdict) :
    precheckBlocks verdict request.reservedCredits = request.blocked verdict := by
  rw [precheckBlocks, request.reservedBillableCredits_eq]
  rfl

/-! ### Answers -/

/-- What the proxy returns to the handler for a call that reached the upstream. -/
structure TavilyHttpAnswer where
  status : Nat
  body : ByteArray
  /-- Of the usage counter of the key, for research. -/
  usageDelta : Option Int
  apiKeyId : Option String
  requestLogId : Option Int

section Charge

variable (json : SerdeJson) (request : TavilyHttpRequest) (answer : TavilyHttpAnswer)

/-- What the upstream says that the call has cost. -/
def reportedCredits : Option Int :=
  if request.config.upstreamPath = "/research" then answer.usageDelta
  else extractUsageCreditsFromJsonBytes json answer.body

/-- `credits`. Without a report, research costs its reservation, a search what its depth costs,
and nothing else costs anything. -/
def httpCredits : Int :=
  (reportedCredits json request answer).getD <|
    if request.config.upstreamPath = "/research" then request.reservedCredits
    else if request.config.upstreamPath = "/search" then
      tavilySearchExpectedCredits request.options
    else 0

/-- What is recorded for the call. Only a success costs anything. -/
def chargedCredits : Option Int :=
  if isSuccessStatus answer.status ∧
      (analyzeHttpAttempt json answer.status answer.body).status = .success then
    (some (httpCredits json request answer)).filter fun credits => 0 < credits
  else none

/-- The attempt that is recorded as pending, for the subject of the guard. -/
def pendingAttempt (billed : BillingRequest) (credits : Int) : PendingBillingAttempt where
  tokenId := billed.tokenId
  httpStatus := some answer.status
  mcpStatus := (analyzeHttpAttempt json answer.status answer.body).tavilyStatusCode
  countsBusinessQuota := true
  resultStatus := "success"
  errorMessage := none
  businessCredits := credits
  billingSubject := billed.subject.billingSubject
  apiKeyId := answer.apiKeyId
  requestLogId := answer.requestLogId

end Charge

/-! ### Calls over one database -/

structure TavilyHttpCall where
  request : TavilyHttpRequest
  /-- The answer that it was charged for. -/
  answer : Option TavilyHttpAnswer

structure TavilyHttpState where
  billing : BillingRequestState
  /-- The call of each billable request. One over MCP has none. -/
  calls : List (Option TavilyHttpCall)

inductive TavilyHttpAction where
  /-- A call arrives with its token; `billing_subject_for_token` has named the subject. -/
  | call (tokenId : String) (subject : QuotaSubject) (request : TavilyHttpRequest)
  /-- The upstream has answered. What the call costs is recorded as pending. -/
  | answer (number : Nat) (answer : TavilyHttpAnswer)
  /-- Any statement of a call, the end of a call that fails, or a step of a request over MCP. -/
  | other (action : BillingRequestAction)

/-- The request that the step records a charge for. -/
def recordedNumber : BillingRequestAction → Option Nat
  | .record number _ => some number
  | _ => none

namespace TavilyHttpState

/-- The calls after a step of anybody else. -/
def callsAfter (calls : List (Option TavilyHttpCall)) :
    BillingRequestAction → List (Option TavilyHttpCall)
  | .arrive _ _ _ => calls ++ [none]
  | _ => calls

def step (json : SerdeJson) (localDayBucketStartUtcTs : Int → Int)
    (limits : QuotaSubject → QuotaLimits) (s : TavilyHttpState) :
    TavilyHttpAction → Option TavilyHttpState
  | .call tokenId subject request =>
      if request.config.acceptsOptions request.options then
        (s.billing.step localDayBucketStartUtcTs limits
          (.arrive tokenId subject request.reservedCredits)).map fun billing =>
            { billing, calls := s.calls ++ [some { request, answer := none }] }
      else some s
  | .answer number answer =>
      match s.billing.requests[number]?, s.calls[number]? with
      | some billed, some (some call) =>
          if billed.phase = .passed then
            match chargedCredits json call.request answer with
            | some credits =>
                (s.billing.step localDayBucketStartUtcTs limits
                  (.record number (pendingAttempt json answer billed credits))).map fun billing =>
                    { billing, calls := s.calls.set number (some { call with answer }) }
            | none =>
                (s.billing.step localDayBucketStartUtcTs limits (.leave number)).map fun billing =>
                  { s with billing }
          else none
      | _, _ => none
  | .other action =>
      -- The charge of a call is recorded with its answer only.
      if (recordedNumber action).all fun number => s.calls[number]?.any Option.isNone then
        (s.billing.step localDayBucketStartUtcTs limits action).map fun billing =>
          { billing, calls := callsAfter s.calls action }
      else none

end TavilyHttpState

def tavilyHttpSystem (json : SerdeJson) (localDayBucketStartUtcTs : Int → Int)
    (limits : QuotaSubject → QuotaLimits) : TransitionSystem TavilyHttpState TavilyHttpAction where
  step := TavilyHttpState.step json localDayBucketStartUtcTs limits

end TavilyHikari.Server
