/-
Module: TavilyHikari.Server.McpCalls
Purpose: What an `/mcp` exchange is to cost, in its own terms: which items of a
  request are paid calls, which messages of the answer belong to a call, and what a
  call costs. Nothing here knows of the plan that the handler makes.
Trusted boundary: human-reviewed spec
Main exports: isNonBillable, isPaidCall, paidCalls, expectedCredits, leafMessages,
  answersTo, observedCredits, callCharge, ReportsCredits
-/
import TavilyHikari.Library.Collect
import TavilyHikari.Server.BillingPlan

namespace TavilyHikari.Server

open Library Analysis

/-! ### Requests -/

/-- The tool that an item calls, as its name is compared, empty without one. -/
def calledTool (item : JsonValue) : String :=
  match item.get "params" with
  | some (.object params) => normalizedTool (toolName (.object params))
  | _ => ""

/-- The options of the call of an item. -/
def callOptions (item : JsonValue) : JsonValue :=
  match item.get "params" with
  | some (.object params) => toolArguments (.object params)
  | _ => .null

/-- The item names a tool, and that tool is not one of Tavily's. -/
def namesOtherTool (item : JsonValue) : Bool :=
  calledTool item ≠ "" && !startsWith "tavily-" (calledTool item)

def isToolCall (item : JsonValue) : Bool := itemMethod item = "tools/call"

/-- The item is proven to cost nothing: a method of the control plane, or a call of
a tool that is not Tavily's. -/
def isNonBillable (item : JsonValue) : Bool :=
  isNonBillableMethod (itemMethod item) || (isToolCall item && namesOtherTool item)

/-- A tool call that is to be paid. -/
def isPaidCall (item : JsonValue) : Bool := isToolCall item && !namesOtherTool item

def paidCalls (body : JsonValue) : List JsonValue := (batchItems body).filter isPaidCall

/-- What a call costs when its answer does not say. -/
def expectedCredits (call : JsonValue) : Int :=
  if calledTool call = "tavily-search" then tavilySearchExpectedCredits (callOptions call)
  else if calledTool call = "tavily-research" then tavilyResearchMinCredits (callOptions call)
  else 0

/-! ### Answers -/

mutual

/-- The messages in a value: itself, or all that are in its items. -/
def leafMessagesOf : JsonValue → List JsonValue
  | .array items => leafMessages items
  | other => [other]

def leafMessages : List JsonValue → List JsonValue
  | [] => []
  | item :: rest => leafMessagesOf item ++ leafMessages rest

end

/-- The messages of the body of an answer, batches taken apart. -/
def responseMessages (json : SerdeJson) (response : ByteArray) : List JsonValue :=
  leafMessages (bodyMessages json response)

/-- The messages that answer an id. -/
def answersTo (json : SerdeJson) (messages : List JsonValue) (id : String) : List JsonValue :=
  messages.filter fun message => idKey json message = some id

/-- The most that the answers to an id report. -/
def observedCredits (json : SerdeJson) (messages : List JsonValue) (id : String) : Option Int :=
  ((answersTo json messages id).filterMap extractUsageCreditsFromValue).max?

/-- There are answers to the id, and none of them is an error. -/
def succeeds (json : SerdeJson) (messages : List JsonValue) (id : String) : Bool :=
  !(answersTo json messages id).isEmpty && (answersTo json messages id).all (isSuccessMessage json)

/-- What a call costs. Without an id no answer belongs to it. -/
def callCharge (json : SerdeJson) (messages : List JsonValue) (call : JsonValue) : Int :=
  (idKey json call).elim 0 fun id =>
    if succeeds json messages id then
      (observedCredits json messages id).getD (expectedCredits call)
    else 0

/-! ### Usage without ids -/

/-- The usage that the events of a stream report, each under its id. -/
def streamEntries (json : SerdeJson) (text : String) : List (String × Int) :=
  (extractSseJsonMessages json text).filterMap fun message =>
    (extractUsageCreditsTotalFromValue message).map fun credits => (totalKey json message, credits)

/-- The most that a stream reports of each id, together. -/
def streamCredits (json : SerdeJson) (text : String) : Int :=
  ((streamEntries json text).map Prod.fst |>.dedup.map fun id =>
    ((valuesOf id (streamEntries json text)).max?).getD 0).sum

/-- The answer reports a usage: some item of a JSON body does, or a stream does whose
usage is still positive once it has been added up in an `i64`. -/
def ReportsCredits (json : SerdeJson) (response : ByteArray) : Prop :=
  match json.fromSlice response with
  | some value =>
      ∃ item ∈ batchItems value, ∃ credits,
        extractUsageCreditsFromValue item = some credits ∧ 1 ≤ credits
  | none => ∃ text, String.fromUTF8? response = some text ∧ 1 ≤ wrapI64 (streamCredits json text)

end TavilyHikari.Server
