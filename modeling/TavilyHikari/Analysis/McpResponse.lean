/-
Module: TavilyHikari.Analysis.McpResponse
Purpose: What the proxy reads from the body of an upstream answer (`analysis.rs`):
  the JSON-RPC messages of a JSON body or an event stream, whether they report an
  error, and the usage credits they carry, by id and in total.
Trusted boundary: human-reviewed spec
Main exports: analyzeJsonMessage, extractSseJsonMessages, mcpResponseHasAnyError,
  mcpResponseHasAnySuccess, extractUsageCreditsFromValue,
  extractMcpUsageCreditsByIdFromBytes, extractMcpHasErrorByIdFromBytes,
  extractUsageCreditsTotalFromJsonBytes
-/
import TavilyHikari.Library.Json
import TavilyHikari.Library.KeyedTable
import TavilyHikari.Library.Trim

namespace TavilyHikari.Analysis

open Library

/-! ### Messages -/

/-- Pushes the collected data of an event when it is JSON. -/
def flushEvent (json : SerdeJson) (messages : List JsonValue) (current : String) :
    List JsonValue :=
  if current.isEmpty then messages
  else
    match json.fromStr current with
    | some value => messages ++ [value]
    | none => messages

/-- One line of an event stream: the messages so far and the data of the event. -/
def sseLine (json : SerdeJson) (state : List JsonValue × String) (line : String) :
    List JsonValue × String :=
  let (messages, current) := state
  let trimmed := trimEnd line
  if trimmed.isEmpty then (flushEvent json messages current, "")
  else
    match stripPrefix "data:" trimmed with
    | some rest =>
        (messages, (if current.isEmpty then current else current ++ "\n") ++ trimStart rest)
    | none => state

def extractSseJsonMessages (json : SerdeJson) (text : String) : List JsonValue :=
  let (messages, current) := (lines text).foldl (sseLine json) ([], "")
  flushEvent json messages current

/-- The messages of a parsed body: the items of a batch, or the body itself. -/
def batchItems : JsonValue → List JsonValue
  | .array items => items
  | other => [other]

/-- The messages of an event stream, or of JSON where there is no event. -/
def textMessages (json : SerdeJson) (text : String) : List JsonValue :=
  let messages := extractSseJsonMessages json text
  if messages.isEmpty then ((json.fromStr text).map batchItems).getD [] else messages

/-- The messages that the readers by id look at. -/
def bodyMessages (json : SerdeJson) (body : ByteArray) : List JsonValue :=
  let messages := ((String.fromUTF8? body).map (textMessages json)).getD []
  if messages.isEmpty then ((json.fromSlice body).map batchItems).getD [] else messages

/-! ### Outcomes -/

inductive MessageOutcome where
  | success
  | error
  | quotaExhausted
deriving DecidableEq, Repr

/-- `status`, or `detail.status`, as far as `read` understands it. -/
def statusOf {α : Type} (read : JsonValue → Option α) (value : JsonValue) : Option α :=
  match (value.get "status").bind read with
  | some status => some status
  | none => (value.get "detail").bind fun detail => (detail.get "status").bind read

def extractStatusCode (value : JsonValue) : Option Int := statusOf JsonValue.asI64 value

def extractStatusText (value : JsonValue) : Option String := statusOf JsonValue.asStr value

def classifyStatusText (status : String) : Option MessageOutcome :=
  let normalized := toAsciiLowercase (trim status)
  if normalized ∈ ["failed", "failure", "error", "errored", "cancelled", "canceled"] then
    some .error
  else if normalized ∈ ["pending", "processing", "running", "in_progress", "queued", "completed",
      "success", "succeeded", "done"] then
    some .success
  else none

def classifyStatusCode (code : Int) : MessageOutcome :=
  if code = 432 then .quotaExhausted else if code ≥ 400 then .error else .success

def parseEmbeddedStatus (json : SerdeJson) (text : String) : Option Int :=
  let trimmed := trim text
  if startsWith "\x7b" trimmed then
    (json.fromStr trimmed).bind fun value =>
      match extractStatusCode value with
      | some code => some code
      | none => (value.get "status").bind JsonValue.asI64
  else none

/-- The status code embedded in the text of an item. -/
def itemStatus (json : SerdeJson) (item : JsonValue) : Option Int :=
  ((item.get "text").bind JsonValue.asStr).bind (parseEmbeddedStatus json)

/-- The outcome and the code that a status code says. -/
def codeOutcome (code : Int) : MessageOutcome × Option Int := (classifyStatusCode code, some code)

def analyzeStructuredContent (json : SerdeJson) (result : JsonValue) :
    Option (MessageOutcome × Option Int) :=
  (result.get "structuredContent").bind fun structured =>
    let textOutcome := (extractStatusText structured).bind classifyStatusText
    match extractStatusCode structured with
    | some code =>
        match classifyStatusCode code, textOutcome with
        | .success, some outcome => some (outcome, some code)
        | outcome, _ => some (outcome, some code)
    | none =>
        match textOutcome with
        | some outcome => some (outcome, none)
        | none =>
            if ((structured.get "isError").bind JsonValue.asBool).getD false then
              some (.error, none)
            else
              let items := ((structured.get "content").bind JsonValue.asArray).getD []
              match items.findSome? (itemStatus json) with
              | some code => some (codeOutcome code)
              | none => some (.success, none)

/-- What an item of the content says about the outcome. -/
def contentItemOutcome (json : SerdeJson) (item : JsonValue) :
    Option (MessageOutcome × Option Int) :=
  if ((item.get "type").bind JsonValue.asStr).any fun kind => toAsciiLowercase kind = "error" then
    some (.error, none)
  else (itemStatus json item).map codeOutcome

def analyzeResultPayload (json : SerdeJson) (result : JsonValue) :
    Option (MessageOutcome × Option Int) :=
  match analyzeStructuredContent json result with
  | some outcome => some outcome
  | none =>
      let items := ((result.get "content").bind JsonValue.asArray).getD []
      match items.findSome? (contentItemOutcome json) with
      | some outcome => some outcome
      | none =>
          if result.hasNonNull "error" then some (.error, none)
          else if ((result.get "isError").bind JsonValue.asBool).getD false then some (.error, none)
          else some (.success, none)

def analyzeJsonMessage (json : SerdeJson) (value : JsonValue) :
    Option (MessageOutcome × Option Int) :=
  if value.hasNonNull "error" then some (.error, none)
  else (value.get "result").bind (analyzeResultPayload json)

/-- The message reports a success, whatever its code. -/
def isSuccessMessage (json : SerdeJson) (value : JsonValue) : Bool :=
  match analyzeJsonMessage json value with
  | some (outcome, _) => outcome = .success
  | none => false

/-- `mcp_response_has_any_error`. Without a message there is one. -/
def mcpResponseHasAnyError (json : SerdeJson) (body : ByteArray) : Bool :=
  match String.fromUTF8? body with
  | none => true
  | some text =>
      let messages := textMessages json text
      messages.isEmpty || messages.any fun message => !isSuccessMessage json message

def mcpResponseHasAnySuccess (json : SerdeJson) (body : ByteArray) : Bool :=
  match String.fromUTF8? body with
  | none => false
  | some text => (textMessages json text).any (isSuccessMessage json)

/-! ### Usage credits -/

def parseCreditsValue : JsonValue → Option Int
  | .number number =>
      match number.asI64.filter fun v => v ≥ 0 with
      | some v => some v
      | none => (some number.asF64.ceilToI64).filter fun v => v ≥ 0
  | .string raw =>
      let trimmed := trim raw
      match (parseI64 trimmed).filter fun v => v ≥ 0 with
      | some v => some v
      | none => ((parseF64 trimmed).map Float64.ceilToI64).filter fun v => v ≥ 0
  | _ => none

def extractUsageCreditsFromUsageValue : JsonValue → Option Int
  | .object members =>
      ["credits", "total_credits_exact"].findSome? fun key =>
        (JsonValue.getMember members key).bind parseCreditsValue
  | _ => none

mutual

/-- The first usage found: of the message itself, else of anything nested in it. -/
def extractUsageCreditsFromValue : JsonValue → Option Int
  | .object members =>
      match (JsonValue.getMember members "usage").bind extractUsageCreditsFromUsageValue with
      | some credits => some credits
      | none => extractUsageCreditsFromMembers members
  | .array items => extractUsageCreditsFromItems items
  | _ => none

def extractUsageCreditsFromMembers : List (String × JsonValue) → Option Int
  | [] => none
  | member :: rest =>
      match extractUsageCreditsFromMember member with
      | some credits => some credits
      | none => extractUsageCreditsFromMembers rest

def extractUsageCreditsFromMember : String × JsonValue → Option Int
  | (_, nested) => extractUsageCreditsFromValue nested

def extractUsageCreditsFromItems : List JsonValue → Option Int
  | [] => none
  | item :: rest =>
      match extractUsageCreditsFromValue item with
      | some credits => some credits
      | none => extractUsageCreditsFromItems rest

end

/-! ### By id -/

/-- The text under which a JSON-RPC id is kept. -/
def idKey (json : SerdeJson) (value : JsonValue) : Option String :=
  ((value.get "id").filter fun id => !id.isNull).map json.print

/-- Values kept by id. -/
abbrev ById (α : Type) := KeyedTable String α

section

variable {α : Type} (json : SerdeJson) (observe : JsonValue → Option α) (merge : α → α → α)

/-- What one message adds to the values by id. -/
def ingestMessage (out : ById α) (message : JsonValue) : ById α :=
  match idKey json message, observe message with
  | some key, some value => out.upsert key value fun current => merge current value
  | _, _ => out

mutual

/-- `ingest` of both readers by id. -/
def ingest (value : JsonValue) (out : ById α) : ById α :=
  match value with
  | .array items => ingestItems items out
  | .object members => ingestMessage json observe merge out (.object members)
  | _ => out

def ingestItems (items : List JsonValue) (out : ById α) : ById α :=
  match items with
  | [] => out
  | item :: rest => ingestItems rest (ingest item out)

end

/-- The values of all messages of a body. -/
def collectById (body : ByteArray) : ById α :=
  ingestItems json observe merge (bodyMessages json body) .empty

end

def extractMcpUsageCreditsByIdFromBytes (json : SerdeJson) (body : ByteArray) : ById Int :=
  collectById json extractUsageCreditsFromValue max body

def extractMcpHasErrorByIdFromBytes (json : SerdeJson) (body : ByteArray) : ById Bool :=
  collectById json (fun message => some !isSuccessMessage json message) or body

/-! ### In total -/

/-- The credits of a batch with any, added up. -/
def sumBatchCredits (items : List JsonValue) : Option Int :=
  let found := items.filterMap extractUsageCreditsFromValue
  if found.isEmpty then none else some (found.foldl saturatingAdd 0)

def extractUsageCreditsTotalFromValue : JsonValue → Option Int
  | .array items => sumBatchCredits items
  | other => extractUsageCreditsFromValue other

/-- The key of a message of an event stream in the total. -/
def totalKey (json : SerdeJson) (message : JsonValue) : String :=
  (idKey json message).getD "__no_id__"

/-- `extract_usage_credits_total_from_sse_bytes`: the most of each id, added up in
an `i64`. -/
def extractUsageCreditsTotalFromSseBytes (json : SerdeJson) (body : ByteArray) : Option Int :=
  (String.fromUTF8? body).bind fun text =>
    let perIdMax :=
      (extractSseJsonMessages json text).foldl (fun (out : ById Int) message =>
        match extractUsageCreditsTotalFromValue message with
        | some credits => out.upsert (totalKey json message) credits fun current =>
            max current credits
        | none => out) .empty
    if perIdMax.rows.isEmpty then none else some (wrapI64 (perIdMax.total (fun _ => true) id))

def extractUsageCreditsTotalFromJsonBytes (json : SerdeJson) (body : ByteArray) : Option Int :=
  match json.fromSlice body with
  | some parsed => extractUsageCreditsTotalFromValue parsed
  | none => extractUsageCreditsTotalFromSseBytes json body

end TavilyHikari.Analysis
