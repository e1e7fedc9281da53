/-
Module: TavilyHikari.Server.McpCharge
Purpose: The credits that `proxy_handler` charges for an `/mcp` request, from its
  billing plan and the answer of the upstream (`server/proxy.rs`).
Trusted boundary: human-reviewed spec (the fallbacks by id are added without
  overflow: `BODY_LIMIT` bounds the calls of a request, and a call adds at most 15)
Main exports: creditsWithoutIds, creditsByIds, mcpCredits, mcpCharge, rejectsInvalid
-/
import TavilyHikari.Server.BillingPlan

namespace TavilyHikari.Server

open Library Analysis

/-- The request is answered with 400 before it goes upstream. -/
def rejectsInvalid (plan : McpBillingPlan) : Bool :=
  plan.billableFlag && plan.invalidMcpRequestMessage.isSome

/-- `allow_empty_body_search_fallback`. -/
def allowEmptyBodySearchFallback (plan : McpBillingPlan) (body : ByteArray) : Bool :=
  body.isEmpty && plan.expectedSearchCredits.isSome

/-- `missing_usage_fallback_total`. -/
def missingUsageFallbackTotal (plan : McpBillingPlan) : Option Int :=
  let byId := plan.missingUsageFallbackCreditsById.total (fun _ => true) id
  let total :=
    saturatingAdd (saturatingAdd (plan.expectedSearchCredits.getD 0) byId)
      plan.missingUsageFallbackCreditsWithoutIdTotal
  if total > 0 then some total else none

/-- The charge of a request with billable calls that have no id. -/
def creditsWithoutIds (json : SerdeJson) (plan : McpBillingPlan) (body : ByteArray) : Int :=
  let allow := allowEmptyBodySearchFallback plan body
  let responseHasError := !allow && mcpResponseHasAnyError json body
  let responseHasSuccess := allow || mcpResponseHasAnySuccess json body
  match extractUsageCreditsTotalFromJsonBytes json body with
  | some credits =>
      if responseHasError && !responseHasSuccess then 0
      else if responseHasError then credits
      else
        match missingUsageFallbackTotal plan with
        | some expected => max credits expected
        | none => credits
  | none =>
      if responseHasError || !responseHasSuccess then 0
      else (missingUsageFallbackTotal plan).getD 0

/-- What one id of the request adds to the charge. -/
def creditsOfId (plan : McpBillingPlan) (allow : Bool) (errorsById : ById Bool)
    (creditsById : ById Int) (id : String) : Int :=
  let idHasError := if allow then false else (errorsById.find id).getD true
  if idHasError then 0
  else
    match creditsById.find id with
    | some credits => credits
    | none =>
        match (if id ∈ plan.billableSearchMcpIds then plan.expectedSearchCreditsById.find id
          else none) with
        | some expected => expected
        | none => (plan.missingUsageFallbackCreditsById.find id).getD 0

/-- The charge of a request whose billable calls all have ids. -/
def creditsByIds (json : SerdeJson) (plan : McpBillingPlan) (body : ByteArray) : Int :=
  let allow := allowEmptyBodySearchFallback plan body
  let errorsById := extractMcpHasErrorByIdFromBytes json body
  let creditsById := extractMcpUsageCreditsByIdFromBytes json body
  plan.billableMcpIds.foldl
    (fun total id => saturatingAdd total (creditsOfId plan allow errorsById creditsById id)) 0

def mcpCredits (json : SerdeJson) (plan : McpBillingPlan) (body : ByteArray) : Int :=
  if plan.hasBillableMcpWithoutId then creditsWithoutIds json plan body
  else creditsByIds json plan body

/-- What is charged for a request that the upstream answers with success, nothing
for one that is not billable. -/
def mcpCharge (json : SerdeJson) (path : String) (request response : ByteArray) : Int :=
  let plan := mcpBillingPlan json path request
  if plan.billableFlag then max (mcpCredits json plan response) 0 else 0

end TavilyHikari.Server
