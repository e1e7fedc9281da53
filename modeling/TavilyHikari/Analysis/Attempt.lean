/-
Module: TavilyHikari.Analysis.Attempt
Purpose: What the proxy concludes from the answer to an MCP request (`analysis.rs`): its outcome,
  the kind of a failure, and what becomes of the health of the key.
Trusted boundary: human-reviewed spec
Main exports: classifyQuarantineReason, classifyFailureKind, scanMessages, analyzeAttempt
-/
import TavilyHikari.Analysis.McpResponse
import TavilyHikari.Library.Substring
import TavilyHikari.Library.Utf8
import TavilyHikari.Store.KeyHealth

namespace TavilyHikari.Analysis

open Library Store

/-- The `OUTCOME_*` of a request. -/
inductive AttemptStatus where
  | success
  | error
  | quotaExhausted
  | unknown
deriving DecidableEq, Repr

/-- The `FAILURE_KIND_*` of a request. -/
inductive FailureKind where
  | transportSendError
  | upstreamGateway5xx
  | upstreamRateLimited429
  | upstreamAccountDeactivated401
  | mcpAccept406
  | mcpMethod405
  | mcpPath404
  | unknownToolName
  | toolArgumentValidation
  | invalidSearchDepth
  | invalidCountrySearchDepthCombo
  | researchPayload422
  | queryTooLong
  | other
deriving DecidableEq, Repr

structure AttemptAnalysis where
  status : AttemptStatus
  tavilyStatusCode : Option Int
  keyHealthAction : KeyHealthAction
  failureKind : Option FailureKind
  keyEffect : KeyEffect
  apiKeyId : Option String
deriving DecidableEq, Repr

/-! ### Reasons of a quarantine -/

def quarantineReasonDetailMaxLen : Nat := 1024

def truncateText (input : String) (maxChars : Nat) : String :=
  if input.toList.length ≤ maxChars then input
  else String.ofList (input.toList.take maxChars ++ ['…'])

/-- The reason that the words of a text give, with its code. -/
def quarantineReason (normalized statusLabel : String) : Option (String × String) :=
  if contains normalized "deactivated" then
    some ("account_deactivated", "Tavily account deactivated (" ++ statusLabel ++ ")")
  else if contains normalized "revoked" then
    some ("key_revoked", "Tavily key revoked (" ++ statusLabel ++ ")")
  else if contains normalized "invalid api key" || contains normalized "invalid_token" ||
      contains normalized "api key is invalid" then
    some ("invalid_api_key", "Tavily rejected the API key as invalid (" ++ statusLabel ++ ")")
  else none

def classifyQuarantineReason (statusCode : Option Int) (body : ByteArray) :
    Option QuarantineDecision :=
  if statusCode.any fun code => code ≠ 401 ∧ code ≠ 403 then none
  else
    let trimmed := trim (fromUtf8Lossy body)
    if trimmed.isEmpty then none
    else
      let statusLabel :=
        match statusCode with
        | some code => "HTTP " ++ toString code
        | none => "MCP error"
      (quarantineReason (toAsciiLowercase trimmed) statusLabel).map fun reason =>
        { reasonCode := reason.1
          reasonSummary := reason.2
          reasonDetail := truncateText trimmed quarantineReasonDetailMaxLen }

/-! ### Kinds of failures -/

/-- The error message and the body, one on each line. -/
def combinedFailureText (errorMessage : Option String) (body : ByteArray) : String :=
  let message := (trimmedNonEmpty errorMessage).getD ""
  match trimmedNonEmpty (String.fromUTF8? body) with
  | some text => if message.isEmpty then text else message ++ "\n" ++ text
  | none => message

def classifyFailureKind (path : String) (httpStatus tavilyStatus : Option Int)
    (errorMessage : Option String) (body : ByteArray) : Option FailureKind :=
  let normalizedPath := toAsciiLowercase (trim path)
  let normalized := toAsciiLowercase (combinedFailureText errorMessage body)
  let effectiveStatus := tavilyStatus.or httpStatus
  if contains normalized "error sending request for url" || contains normalized "dns error" ||
      contains normalized "connection refused" || contains normalized "tls handshake" then
    some .transportSendError
  else if httpStatus.any fun code => 502 ≤ code ∧ code ≤ 504 then some .upstreamGateway5xx
  else if tavilyStatus = some 429 ∨
      httpStatus = some 429 ∧ contains normalized "excessive requests" then
    some .upstreamRateLimited429
  else if (effectiveStatus = some 401 ∨ effectiveStatus = some 403) ∧
      (contains normalized "deactivated" || contains normalized "revoked" ||
        contains normalized "invalid api key" || contains normalized "api key is invalid") then
    some .upstreamAccountDeactivated401
  else if httpStatus = some 406 ∨
      contains normalized "must accept both application/json and text/event-stream" then
    some .mcpAccept406
  else if httpStatus = some 405 then some .mcpMethod405
  else if httpStatus = some 404 ∧ startsWith "/mcp" normalizedPath then some .mcpPath404
  else if contains normalized "unknown tool" then some .unknownToolName
  else if contains normalized "unexpected keyword argument" ||
      contains normalized "input should be a valid" || contains normalized "validation error" then
    some .toolArgumentValidation
  else if contains normalized "search depth" &&
      (contains normalized "ultra-fast" || contains normalized "advanced" ||
        contains normalized "basic") then
    some .invalidSearchDepth
  else if contains normalized
      "country parameter is not supported for fast or ultra-fast search_depth" then
    some .invalidCountrySearchDepthCombo
  else if httpStatus = some 422 ∧ normalizedPath = "/api/tavily/research" then
    some .researchPayload422
  else if contains normalized "max query length is" || contains normalized "query is too long" then
    some .queryTooLong
  else if effectiveStatus.isSome || !normalized.isEmpty then some .other
  else none

/-! ### Answers -/

/-- What the messages before have shown. -/
structure MessageScan where
  anySuccess : Bool
  anyError : Bool
  detectedCode : Option Int
deriving DecidableEq, Repr

def MessageScan.start : MessageScan where
  anySuccess := false
  anyError := false
  detectedCode := none

/-- The loop over the messages. A message about an exhausted quota ends it, with its code. -/
def scanMessages (json : SerdeJson) :
    List JsonValue → MessageScan → Except (Option Int) MessageScan
  | [], scan => .ok scan
  | message :: messages, scan =>
      match analyzeJsonMessage json message with
      | none => scanMessages json messages scan
      | some (outcome, code) =>
          let scan := { scan with detectedCode := scan.detectedCode.or code }
          match outcome with
          | .quotaExhausted => .error (code.or scan.detectedCode)
          | .error => scanMessages json messages { scan with anyError := true }
          | .success => scanMessages json messages { scan with anySuccess := true }

/-- `StatusCode::is_success`. -/
def isSuccessStatus (status : Nat) : Bool := 200 ≤ status && status < 300

/-- `classify_quarantine_reason(..).map(KeyHealthAction::Quarantine)`, or no action. -/
def quarantineAction (statusCode : Option Int) (body : ByteArray) : KeyHealthAction :=
  match classifyQuarantineReason statusCode body with
  | some decision => .quarantine decision
  | none => .none

def analyzeAttempt (json : SerdeJson) (status : Nat) (body : ByteArray) : AttemptAnalysis :=
  if !isSuccessStatus status then
    let tavilyStatusCode := some (status : Int)
    { status := .error
      tavilyStatusCode
      keyHealthAction := quarantineAction tavilyStatusCode body
      failureKind := classifyFailureKind "/mcp" tavilyStatusCode tavilyStatusCode none body
      keyEffect := .none
      apiKeyId := none }
  else
    match String.fromUTF8? body with
    | none =>
        { status := .unknown
          tavilyStatusCode := none
          keyHealthAction := .none
          failureKind := none
          keyEffect := .none
          apiKeyId := none }
    | some text =>
        match scanMessages json (textMessages json text) .start with
        | .error code =>
            { status := .quotaExhausted
              tavilyStatusCode := code
              keyHealthAction := .markExhausted
              failureKind := none
              keyEffect :=
                { code := "marked_exhausted"
                  summary := some "The system automatically marked this key as exhausted" }
              apiKeyId := none }
        | .ok scan =>
            if scan.anyError then
              { status := .error
                tavilyStatusCode := scan.detectedCode
                keyHealthAction := quarantineAction scan.detectedCode body
                failureKind :=
                  classifyFailureKind "/mcp" (some (status : Int)) scan.detectedCode none body
                keyEffect := .none
                apiKeyId := none }
            else
              { status := if scan.anySuccess then .success else .unknown
                tavilyStatusCode := scan.detectedCode
                keyHealthAction := .none
                failureKind := none
                keyEffect := .none
                apiKeyId := none }

end TavilyHikari.Analysis
