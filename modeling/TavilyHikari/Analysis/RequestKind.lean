/-
Module: TavilyHikari.Analysis.RequestKind
Purpose: The kind of a request and whether its kind is billable, as the program
  classifies a path and a body (`analysis.rs`).
Trusted boundary: human-reviewed spec
Main exports: TokenRequestKind, classifyMcpRequestKindFromMessage,
  classifyMcpRequestKind, classifyTokenRequestKind, tokenRequestKindBillingGroup,
  mcpRequestBodyAllNonBillable, tokenRequestKindBillingGroupForRequest
-/
import TavilyHikari.Library.Json
import TavilyHikari.Library.Trim

namespace TavilyHikari.Analysis

open Library

/-- The kind of a logged request, as it is stored and shown. -/
structure TokenRequestKind where
  key : String
  label : String
  detail : Option String
deriving DecidableEq, Repr

/-- A text without the blanks around it, where anything is left. -/
def nonBlank (value : String) : Option String :=
  if (trim value).isEmpty then none else some (trim value)

/-- `TokenRequestKind::new`. -/
def TokenRequestKind.new (key label : String) (detail : Option String) : TokenRequestKind where
  key := key
  label := label
  detail := detail.bind nonBlank

def requestKindKey (protocol value : String) : String := protocol ++ ":" ++ value

def requestKindLabel (protocol value : String) : String := protocol ++ " | " ++ value

def buildApiRequestKindNamed (key label : String) : TokenRequestKind :=
  .new (requestKindKey "api" key) (requestKindLabel "API" label) none

def buildApiRequestKind (value : String) : TokenRequestKind := buildApiRequestKindNamed value value

def buildMcpRequestKindWithDetail (key label : String) (detail : Option String) :
    TokenRequestKind :=
  .new (requestKindKey "mcp" key) (requestKindLabel "MCP" label) detail

def buildMcpRequestKind (value : String) : TokenRequestKind :=
  buildMcpRequestKindWithDetail value value none

def buildApiUnknownPathKind (path : String) : TokenRequestKind :=
  .new "api:unknown-path" "API | unknown path" (some path)

def buildMcpUnsupportedPathKind (path : String) : TokenRequestKind :=
  .new "mcp:unsupported-path" "MCP | unsupported path" (some path)

def buildMcpUnknownPayloadKind (detail : Option String) : TokenRequestKind :=
  .new "mcp:unknown-payload" "MCP | unknown payload" detail

def buildMcpUnknownMethodKind (method : String) : TokenRequestKind :=
  .new "mcp:unknown-method" "MCP | unknown method" (some method)

def buildMcpThirdPartyToolKind (tool : String) : TokenRequestKind :=
  .new "mcp:third-party-tool" "MCP | third-party tool" (some tool)

/-- The tool of Tavily that a name means, in any of its spellings. -/
def normalizeTavilyToolName (tool : String) : Option String :=
  let normalized := replaceChar '_' '-' (toAsciiLowercase (trim tool))
  if normalized = "tavily-search" then some "search"
  else if normalized = "tavily-extract" then some "extract"
  else if normalized = "tavily-crawl" then some "crawl"
  else if normalized = "tavily-map" then some "map"
  else if normalized = "tavily-research" then some "research"
  else none

/-! ### Classification -/

/-- The methods that keep their name as their kind. -/
def isControlMethod (method : String) : Bool :=
  method ∈ ["initialize", "ping", "tools/list"] || startsWith "resources/" method ||
    startsWith "prompts/" method || startsWith "notifications/" method

/-- The kind of a `tools/call`. -/
def classifyToolCall (value : JsonValue) : TokenRequestKind :=
  let tool :=
    (((value.get "params").bind fun params => params.get "name").bind JsonValue.asStr).bind nonBlank
  match tool with
  | some tool =>
      match normalizeTavilyToolName tool with
      | some kind => buildMcpRequestKind kind
      | none => buildMcpThirdPartyToolKind tool
  | none => buildMcpUnknownPayloadKind (some "tools/call")

/-- The kind of one message of a body, by its method. -/
def classifyMcpRequestKindFromMessage (value : JsonValue) : Option TokenRequestKind :=
  (((value.get "method").bind JsonValue.asStr).bind nonBlank).map fun method =>
    if isControlMethod method then buildMcpRequestKind method
    else if method = "tools/call" then classifyToolCall value
    else buildMcpUnknownMethodKind method

/-- The labels of a batch, each once. -/
def batchLabels (kinds : List TokenRequestKind) : List String :=
  kinds.foldl (fun labels kind =>
    match stripPrefix "MCP | " kind.label with
    | some label => if label ∈ labels then labels else labels ++ [label]
    | none => labels) []

/-- The kind of a batch whose items have these kinds. -/
def classifyBatch (path : String) (kinds : List TokenRequestKind) : TokenRequestKind :=
  match kinds with
  | [] => buildMcpUnknownPayloadKind (some path)
  | first :: _ =>
      if kinds.all fun kind => kind.key = first.key then first
      else
        let labels := batchLabels kinds
        buildMcpRequestKindWithDetail "batch" "batch"
          (if labels.isEmpty then none else some (", ".intercalate labels))

/-- The kind of a request under `/mcp`, by its body; a batch of several kinds is a kind of its own.
-/
def classifyMcpRequestKind (json : SerdeJson) (path : String) (body : Option ByteArray) :
    TokenRequestKind :=
  if path ≠ "/mcp" then buildMcpUnsupportedPathKind path
  else
    match body with
    | none => buildMcpUnknownPayloadKind (some path)
    | some body =>
        if body.isEmpty then buildMcpUnknownPayloadKind (some path)
        else
          match json.fromSlice body with
          | some (.array items) =>
              classifyBatch path (items.filterMap classifyMcpRequestKindFromMessage)
          | some (.object members) =>
              (classifyMcpRequestKindFromMessage (.object members)).getD
                (buildMcpUnknownPayloadKind (some path))
          | _ => buildMcpUnknownPayloadKind (some path)

/-- The kind of a request, by its path and for `/mcp` by its body. -/
def classifyTokenRequestKind (json : SerdeJson) (path : String) (body : Option ByteArray) :
    TokenRequestKind :=
  if path = "/api/tavily/search" then buildApiRequestKind "search"
  else if path = "/api/tavily/extract" then buildApiRequestKind "extract"
  else if path = "/api/tavily/crawl" then buildApiRequestKind "crawl"
  else if path = "/api/tavily/map" then buildApiRequestKind "map"
  else if path = "/api/tavily/research" then buildApiRequestKind "research"
  else if path = "/api/tavily/usage" then buildApiRequestKind "usage"
  else if startsWith "/api/tavily/research/" path then
    buildApiRequestKindNamed "research-result" "research result"
  else if startsWith "/mcp" path then classifyMcpRequestKind json path body
  else buildApiUnknownPathKind path

/-! ### Billing -/

inductive ProtocolGroup where
  | mcp
  | api
deriving DecidableEq, Repr

inductive BillingGroup where
  | billable
  | nonBillable
deriving DecidableEq, Repr

def tokenRequestKindProtocolGroup (key : String) : ProtocolGroup :=
  if startsWith "mcp:" (trim key) then .mcp else .api

/-- The keys that are not billable, as they are. -/
def nonBillableKeys : List String :=
  ["api:research-result", "api:usage", "api:unknown-path", "mcp:unsupported-path",
    "mcp:unknown-payload", "mcp:unknown-method", "mcp:third-party-tool"]

/-- The beginnings of keys that are not billable. -/
def nonBillablePrefixes : List String :=
  ["mcp:initialize", "mcp:ping", "mcp:tools/list", "mcp:resources/", "mcp:prompts/",
    "mcp:notifications/"]

/-- Whether requests of a kind cost credits. -/
def tokenRequestKindBillingGroup (key : String) : BillingGroup :=
  let normalized := trim key
  if normalized ∈ nonBillableKeys ∨ nonBillablePrefixes.any (startsWith · normalized) then
    .nonBillable
  else .billable

/-- The kind of an item that is not billable. -/
def isNonBillableKind (kind : TokenRequestKind) : Bool :=
  tokenRequestKindProtocolGroup kind.key = .mcp &&
    tokenRequestKindBillingGroup kind.key = .nonBillable

def mcpRequestBodyAllNonBillable (json : SerdeJson) (body : Option ByteArray) : Bool :=
  match body.bind json.fromSlice with
  | some (.array items) =>
      !items.isEmpty &&
        items.all fun item => (classifyMcpRequestKindFromMessage item).any isNonBillableKind
  | _ => false

/-- A batch counts unless nothing in it can cost credits. -/
def requestLogCountsBusinessQuota (json : SerdeJson) (key : String) (body : Option ByteArray) :
    Bool :=
  trim key ≠ "mcp:batch" || !mcpRequestBodyAllNonBillable json body

def tokenRequestKindBillingGroupForRequestLog (json : SerdeJson) (key : String)
    (body : Option ByteArray) : BillingGroup :=
  if !requestLogCountsBusinessQuota json key body ∧ trim key = "mcp:batch" then .nonBillable
  else tokenRequestKindBillingGroup key

def tokenRequestKindBillingGroupForRequest (json : SerdeJson) (path : String)
    (body : Option ByteArray) : BillingGroup :=
  tokenRequestKindBillingGroupForRequestLog json (classifyTokenRequestKind json path body).key body

end TavilyHikari.Analysis
