/-
Module: TavilyHikari.Server.BillingPlan
Purpose: The billing plan that `proxy_handler` makes of the body of an `/mcp`
  request before it goes upstream (`server/proxy.rs`).
Trusted boundary: human-reviewed spec (hash sets are lists of distinct keys, hash
  maps are keyed tables; nothing depends on their order)
Main exports: isNonBillableMethod, PlanWalk, handleToolCall, walkItem, walkBatchItem,
  McpBillingPlan, mcpBillingPlan
-/
import TavilyHikari.Analysis.McpResponse
import TavilyHikari.Server.TavilyCredits

namespace TavilyHikari.Server

open Library Analysis

def isNonBillableMethod (method : String) : Bool :=
  method ∈ ["initialize", "ping", "tools/list"] || startsWith "resources/" method ||
    startsWith "prompts/" method || startsWith "notifications/" method

/-- What the walk over the items of a body has seen so far. -/
structure PlanWalk where
  anyBillable : Bool
  anyLockable : Bool
  allNonBillable : Bool
  reservedBillableTotal : Int
  expectedSearchTotal : Int
  billableMcpIds : List String
  billableSearchMcpIds : List String
  hasBillableMcpWithoutId : Bool
  hasSearchMcpWithoutId : Bool
  missingUsageFallbackCreditsById : ById Int
  missingUsageFallbackCreditsWithoutIdTotal : Int
  expectedSearchCreditsById : ById Int
  expectedSearchCreditsWithoutIdTotal : Int
  seenIds : List String
  invalidMcpRequestMessage : Option String

def PlanWalk.start : PlanWalk where
  anyBillable := false
  anyLockable := false
  allNonBillable := true
  reservedBillableTotal := 0
  expectedSearchTotal := 0
  billableMcpIds := []
  billableSearchMcpIds := []
  hasBillableMcpWithoutId := false
  hasSearchMcpWithoutId := false
  missingUsageFallbackCreditsById := .empty
  missingUsageFallbackCreditsWithoutIdTotal := 0
  expectedSearchCreditsById := .empty
  expectedSearchCreditsWithoutIdTotal := 0
  seenIds := []
  invalidMcpRequestMessage := none

/-- `HashSet::insert`. -/
def insertId (ids : List String) (id : String) : List String :=
  if id ∈ ids then ids else ids ++ [id]

/-- `entry(key).and_modify(saturating_add).or_insert`. -/
def addCredits (credits : ById Int) (id : String) (amount : Int) : ById Int :=
  credits.upsert id amount fun current => saturatingAdd current amount

namespace PlanWalk

/-- An item that counts as billable, with or without an id. -/
def markBillable (walk : PlanWalk) (id : Option String) : PlanWalk :=
  let walk := { walk with anyBillable := true, allNonBillable := false }
  match id with
  | some id => { walk with billableMcpIds := insertId walk.billableMcpIds id }
  | none => { walk with hasBillableMcpWithoutId := true }

def markSearch (walk : PlanWalk) (id : Option String) : PlanWalk :=
  match id with
  | some id => { walk with billableSearchMcpIds := insertId walk.billableSearchMcpIds id }
  | none => { walk with hasSearchMcpWithoutId := true }

/-- `record_reserved_credits`. -/
def recordReservedCredits (walk : PlanWalk) (reserved : Int) : PlanWalk :=
  { walk with reservedBillableTotal := saturatingAdd walk.reservedBillableTotal reserved }

/-- `record_missing_usage_fallback`. -/
def recordMissingUsageFallback (walk : PlanWalk) (fallback : Int) (id : Option String) :
    PlanWalk :=
  match id with
  | some id =>
      { walk with
        missingUsageFallbackCreditsById :=
          addCredits walk.missingUsageFallbackCreditsById id fallback }
  | none =>
      { walk with
        missingUsageFallbackCreditsWithoutIdTotal :=
          saturatingAdd walk.missingUsageFallbackCreditsWithoutIdTotal fallback }

def recordExpectedSearch (walk : PlanWalk) (expected : Int) (id : Option String) : PlanWalk :=
  let walk := { walk with expectedSearchTotal := saturatingAdd walk.expectedSearchTotal expected }
  match id with
  | some id =>
      { walk with
        expectedSearchCreditsById := addCredits walk.expectedSearchCreditsById id expected }
  | none =>
      { walk with
        expectedSearchCreditsWithoutIdTotal :=
          saturatingAdd walk.expectedSearchCreditsWithoutIdTotal expected }

end PlanWalk

/-- The name of the called tool, trimmed, empty without one. -/
def toolName (params : JsonValue) : String :=
  trim (((params.get "name").bind JsonValue.asStr).getD "")

/-- `normalized_tool`. -/
def normalizedTool (tool : String) : String := replaceChar '_' '-' (toAsciiLowercase tool)

def usageMeteredTools : List String :=
  ["tavily-search", "tavily-extract", "tavily-crawl", "tavily-map"]

def reservedBillableTools : List String := usageMeteredTools ++ ["tavily-research"]

/-- The options of a call. -/
def toolArguments (params : JsonValue) : JsonValue := (params.get "arguments").getD .null

/-- A call of a Tavily tool. -/
def handleTavilyTool (walk : PlanWalk) (id : Option String) (tool : String) (options : JsonValue) :
    PlanWalk :=
  let walk := walk.markBillable id
  let walk := if tool = "tavily-search" then walk.markSearch id else walk
  if tool ∈ usageMeteredTools then
    let walk := walk.recordReservedCredits (tavilyMcpReservedCredits tool options)
    if tool = "tavily-search" then
      walk.recordExpectedSearch (tavilySearchExpectedCredits options) id
    else walk
  else if tool ∈ reservedBillableTools then
    let reserved := tavilyMcpReservedCredits tool options
    (walk.recordReservedCredits reserved).recordMissingUsageFallback reserved id
  else walk.recordReservedCredits 1

/-- `handle_tool_call`: billable unless the tool is proven not to be Tavily's. -/
def handleToolCall (json : SerdeJson) (walk : PlanWalk) (item : JsonValue) : PlanWalk :=
  let walk := { walk with anyLockable := true }
  let id := idKey json item
  match item.get "params" with
  | some (.object params) =>
      let tool := toolName (.object params)
      let normalized := normalizedTool tool
      if normalized ∈ reservedBillableTools ∨ startsWith "tavily-" normalized then
        handleTavilyTool walk id normalized (toolArguments (.object params))
      else if tool.isEmpty then walk.markBillable id
      else walk
  | _ => walk.markBillable id

/-- The method of an item, empty without one. -/
def itemMethod (item : JsonValue) : String := ((item.get "method").bind JsonValue.asStr).getD ""

/-- An item of the body that is an object, or the body itself. -/
def walkItem (json : SerdeJson) (walk : PlanWalk) (item : JsonValue) : PlanWalk :=
  let method := itemMethod item
  let nonBillable := isNonBillableMethod method
  let walk := if nonBillable then walk else { walk with allNonBillable := false }
  if method = "tools/call" then handleToolCall json walk item
  else if nonBillable then walk
  else { walk with anyBillable := true, anyLockable := true }

/-- Something that is no object: billable to avoid a bypass. -/
def walkJunk (walk : PlanWalk) : PlanWalk :=
  { walk with anyBillable := true, anyLockable := true, allNonBillable := false }

/-- The check that no id comes twice in a batch. -/
def checkId (json : SerdeJson) (walk : PlanWalk) (item : JsonValue) : PlanWalk :=
  match idKey json item with
  | none => walk
  | some id =>
      if id ∈ walk.seenIds then
        { walk with
          invalidMcpRequestMessage :=
            some (walk.invalidMcpRequestMessage.getD "duplicate JSON-RPC id in batch") }
      else { walk with seenIds := walk.seenIds ++ [id] }

def walkBatchItem (json : SerdeJson) (walk : PlanWalk) (item : JsonValue) : PlanWalk :=
  match item with
  | .object _ => walkItem json (checkId json walk item) item
  | _ => walkJunk walk

def walkBody (json : SerdeJson) (body : JsonValue) : PlanWalk :=
  match body with
  | .object _ => walkItem json .start body
  | .array items => items.foldl (walkBatchItem json) .start
  | _ => walkJunk .start

/-- What the handler keeps of the plan. -/
structure McpBillingPlan where
  billableFlag : Bool
  lockableTool : Bool
  reservedBillableCredits : Option Int
  expectedSearchCredits : Option Int
  billableMcpIds : List String
  billableSearchMcpIds : List String
  hasBillableMcpWithoutId : Bool
  missingUsageFallbackCreditsById : ById Int
  missingUsageFallbackCreditsWithoutIdTotal : Int
  expectedSearchCreditsById : ById Int
  invalidMcpRequestMessage : Option String

def PlanWalk.plan (walk : PlanWalk) (billableFlag lockableTool : Bool) : McpBillingPlan where
  billableFlag := billableFlag
  lockableTool := lockableTool
  reservedBillableCredits :=
    if walk.reservedBillableTotal > 0 then some walk.reservedBillableTotal else none
  expectedSearchCredits :=
    if walk.expectedSearchTotal > 0 then some walk.expectedSearchTotal else none
  billableMcpIds := walk.billableMcpIds
  billableSearchMcpIds := walk.billableSearchMcpIds
  hasBillableMcpWithoutId := walk.hasBillableMcpWithoutId
  missingUsageFallbackCreditsById := walk.missingUsageFallbackCreditsById
  missingUsageFallbackCreditsWithoutIdTotal := walk.missingUsageFallbackCreditsWithoutIdTotal
  expectedSearchCreditsById := walk.expectedSearchCreditsById
  invalidMcpRequestMessage := walk.invalidMcpRequestMessage

/-- The plan of a request. Only paths under `/mcp` have one; a body that does not
parse is billable. -/
def mcpBillingPlan (json : SerdeJson) (path : String) (body : ByteArray) : McpBillingPlan :=
  if startsWith "/mcp" path then
    match json.fromSlice body with
    | some value =>
        let walk := walkBody json value
        let billableFlag := walk.anyBillable && !walk.allNonBillable
        walk.plan billableFlag (walk.anyLockable && billableFlag)
    | none => PlanWalk.start.plan true true
  else PlanWalk.start.plan false false

end TavilyHikari.Server
