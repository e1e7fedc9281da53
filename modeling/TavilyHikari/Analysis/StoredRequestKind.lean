/-
Module: TavilyHikari.Analysis.StoredRequestKind
Purpose: The kind of a logged request, from the kind that its row stores and from the
  request itself (`analysis.rs`), and the SQL predicate that tells the canonical keys.
Trusted boundary: human-reviewed spec
Main exports: isCanonicalRequestKindKey, tokenRequestKindFromCanonicalKey,
  finalizeTokenRequestKind, canonicalizeRequestLogRequestKind,
  canonicalRequestKindKeyForFilter, canonicalRequestKindStoredPredicateSql
-/
import TavilyHikari.Analysis.RequestKind

namespace TavilyHikari.Analysis

open Library

/-! ### Canonical keys -/

/-- The keys that are canonical as they are, with their labels. -/
def canonicalLabels : List (String × String) :=
  [("api:search", "API | search"), ("api:extract", "API | extract"), ("api:crawl", "API | crawl"),
    ("api:map", "API | map"), ("api:research", "API | research"),
    ("api:research-result", "API | research result"), ("api:usage", "API | usage"),
    ("api:unknown-path", "API | unknown path"), ("mcp:search", "MCP | search"),
    ("mcp:extract", "MCP | extract"), ("mcp:crawl", "MCP | crawl"), ("mcp:map", "MCP | map"),
    ("mcp:research", "MCP | research"), ("mcp:batch", "MCP | batch"),
    ("mcp:initialize", "MCP | initialize"), ("mcp:ping", "MCP | ping"),
    ("mcp:tools/list", "MCP | tools/list"), ("mcp:unsupported-path", "MCP | unsupported path"),
    ("mcp:unknown-payload", "MCP | unknown payload"),
    ("mcp:unknown-method", "MCP | unknown method"),
    ("mcp:third-party-tool", "MCP | third-party tool")]

def canonicalKeys : List String := canonicalLabels.map Prod.fst

/-- The methods whose name follows `mcp:` in a canonical key. -/
def canonicalMethodPrefixes : List String := ["resources/", "prompts/", "notifications/"]

def canonicalRequestKindLabel (key : String) : Option String :=
  (canonicalLabels.find? fun entry => entry.1 = trim key).map Prod.snd

def isCanonicalRequestKindKey (key : String) : Bool :=
  trim key ∈ canonicalKeys ||
    canonicalMethodPrefixes.any fun p => startsWith ("mcp:" ++ p) (trim key)

def tokenRequestKindFromCanonicalKey (key : String) (detail : Option String) :
    Option TokenRequestKind :=
  let normalized := trim key
  let label :=
    match canonicalRequestKindLabel normalized with
    | some label => some label
    | none =>
        ((stripPrefix "mcp:" normalized).filter fun value =>
          canonicalMethodPrefixes.any (startsWith · value)).map ("MCP | " ++ ·)
  label.map fun label => .new normalized label detail

/-! ### Legacy keys -/

/-- The part of a label after its bar. -/
def stripRequestKindLabelPrefix (label : String) : Option String :=
  let rest := (trim label).toList.dropWhile (· ≠ '|')
  match rest with
  | [] => none
  | _ :: suffix => nonBlank (String.ofList suffix)

def storedThirdPartyToolDetail (key label detail : Option String) : Option String :=
  match detail.bind nonBlank with
  | some detail => some detail
  | none =>
      match key.bind fun value => (stripPrefix "mcp:tool:" (trim value)).bind nonBlank with
      | some tool => some tool
      | none =>
          (label.bind stripRequestKindLabelPrefix).filter fun stripped =>
            toAsciiLowercase stripped ≠ "third-party tool"

def storedUnknownMethodDetail (key label detail : Option String) : Option String :=
  match detail.bind nonBlank with
  | some detail => some detail
  | none =>
      match (label.bind stripRequestKindLabelPrefix).filter fun stripped =>
        toAsciiLowercase stripped ≠ "unknown method" ∧
          toAsciiLowercase stripped ≠ "unknown payload" with
      | some stripped => some stripped
      | none =>
          key.bind fun value =>
            let trimmed := trim value
            if isCanonicalRequestKindKey trimmed ∨ startsWith "mcp:tool:" trimmed ∨
                startsWith "mcp:raw:" trimmed then none
            else (stripPrefix "mcp:" trimmed).bind nonBlank

/-! ### The kind of a row -/

/-- `derive_token_request_kind_fallback`. -/
def deriveTokenRequestKindFallback (json : SerdeJson) (path : String) : TokenRequestKind :=
  classifyTokenRequestKind json path none

/-- What a stored key that is not canonical becomes on its path, where it says. -/
def legacyRequestKind (path storedKey : String) (key label detail : Option String) :
    Option TokenRequestKind :=
  if startsWith "api:raw:" storedKey then some (buildApiUnknownPathKind path)
  else if startsWith "/mcp/" path then some (buildMcpUnsupportedPathKind path)
  else if path = "/mcp" then
    if startsWith "mcp:tool:" storedKey then
      some (buildMcpThirdPartyToolKind
        ((storedThirdPartyToolDetail key label detail).getD "unknown"))
    else if storedKey = "mcp:tools/call" ∨ startsWith "mcp:raw:" storedKey then
      some (buildMcpUnknownPayloadKind (some (detail.getD path)))
    else if startsWith "mcp:" storedKey then
      some (buildMcpUnknownMethodKind
        ((storedUnknownMethodDetail key label detail).getD "unknown"))
    else none
  else none

/-- `finalize_token_request_kind`. The method and the query are not looked at. -/
def finalizeTokenRequestKind (json : SerdeJson) (path : String) (key label detail : Option String) :
    TokenRequestKind :=
  let key := key.bind nonBlank
  let label := label.bind nonBlank
  let detail := detail.bind nonBlank
  match key with
  | none => deriveTokenRequestKindFallback json path
  | some storedKey =>
      match tokenRequestKindFromCanonicalKey storedKey detail with
      | some kind => kind
      | none =>
          (legacyRequestKind path storedKey key label detail).getD
            (deriveTokenRequestKindFallback json path)

def canonicalizeRequestLogRequestKind (json : SerdeJson) (path : String)
    (body : Option ByteArray) (key label detail : Option String) : TokenRequestKind :=
  match key.filter isCanonicalRequestKindKey with
  | some storedKey =>
      (tokenRequestKindFromCanonicalKey storedKey (detail.bind nonBlank)).getD
        (classifyTokenRequestKind json path body)
  | none =>
      let classified := classifyTokenRequestKind json path body
      if classified.key = "mcp:unknown-payload" ∧ path = "/mcp" then
        finalizeTokenRequestKind json path key label detail
      else classified

/-! ### Filters -/

/-- `canonical_request_kind_key_for_filter`. -/
def canonicalRequestKindKeyForFilter (requestKind : String) : String :=
  let trimmed := trim requestKind
  if isCanonicalRequestKindKey trimmed then trimmed
  else if startsWith "api:raw:" trimmed then "api:unknown-path"
  else if startsWith "api:" trimmed then "api:unknown-path"
  else if startsWith "mcp:tool:" trimmed then "mcp:third-party-tool"
  else if trimmed = "mcp:tools/call" then "mcp:unknown-payload"
  else
    match (stripPrefix "mcp:raw:" trimmed).bind fun path =>
      if path = "/mcp" then some "mcp:unknown-payload"
      else if startsWith "/mcp/" path then some "mcp:unsupported-path"
      else none with
    | some key => key
    | none => if startsWith "mcp:" trimmed then "mcp:unknown-method" else trimmed

/-! ### The SQL predicate -/

/-- `canonical_request_kind_stored_predicate_sql`. -/
def canonicalRequestKindStoredPredicateSql (key : Option String) : Bool :=
  let value := key.getD ""
  value ∈ canonicalKeys || canonicalMethodPrefixes.any fun p => likePrefix ("mcp:" ++ p) value

end TavilyHikari.Analysis
