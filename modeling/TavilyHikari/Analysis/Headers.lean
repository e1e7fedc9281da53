/-
Module: TavilyHikari.Analysis.Headers
Purpose: The headers of a client's request that go to the upstream (`analysis.rs`, `lib.rs`):
  which names may pass, how their values are rewritten, and what is reported of them.
Trusted boundary: the URLs of the `url` crate are a parameter
Main exports: HeaderMap, UrlCrate, shouldForwardHeader, originFromUrl, transformHeaderValue,
  sanitizeHeadersInner, sanitizeMcpHeadersInner
-/
import TavilyHikari.Library.MultiMap
import TavilyHikari.Library.Trim

namespace TavilyHikari.Analysis

open Library

/-! ### Headers -/

/-- The names of the `http` crate are in lower case. -/
structure HeaderName where
  text : String
  lower : toAsciiLowercase text = text
deriving DecidableEq

/-- Anything but control characters; a tab may stand in a value. -/
def isHeaderValueByte (byte : UInt8) : Bool := (32 ≤ byte && byte ≠ 127) || byte = 9

def isVisibleAscii (byte : UInt8) : Bool := (32 ≤ byte && byte < 127) || byte = 9

structure HeaderValue where
  bytes : List UInt8
  valid : bytes.all isHeaderValueByte = true
deriving DecidableEq

def utf8Bytes (s : String) : List UInt8 := s.toList.flatMap String.utf8EncodeChar

namespace HeaderValue

/-- `HeaderValue::from_str(..).ok()`. -/
def fromStr (s : String) : Option HeaderValue :=
  if valid : (utf8Bytes s).all isHeaderValueByte = true then some { bytes := utf8Bytes s, valid }
  else none

/-- `to_str().ok()`. -/
def toStr (value : HeaderValue) : Option String :=
  if value.bytes.all isVisibleAscii then
    some (String.ofList (value.bytes.map fun byte => Char.ofNat byte.toNat))
  else none

end HeaderValue

abbrev HeaderMap := MultiMap HeaderName HeaderValue

structure SanitizedHeaders where
  headers : HeaderMap
  forwarded : List String
  dropped : List String

/-! ### The rules -/

def blockedHeaders : List String :=
  ["forwarded", "via", "x-forwarded-for", "x-forwarded-host", "x-forwarded-proto",
    "x-forwarded-port", "x-forwarded-server", "x-original-forwarded-for", "x-forwarded-protocol",
    "x-real-ip", "true-client-ip", "cf-connecting-ip", "cf-true-client-ip", "cf-ipcountry",
    "cf-ray", "cf-visitor", "x-cluster-client-ip", "x-proxy-user-ip", "fastly-client-ip",
    "proxy-authorization", "proxy-connection", "akamai-origin-hop", "x-akamai-edgescape",
    "x-akamai-forwarded-for", "cdn-loop"]

def allowedHeaders : List String :=
  ["accept", "accept-encoding", "accept-language", "authorization", "cache-control",
    "content-type", "last-event-id", "mcp-protocol-version", "mcp-session-id", "pragma",
    "user-agent", "sec-ch-ua", "sec-ch-ua-mobile", "sec-ch-ua-platform", "sec-fetch-site",
    "sec-fetch-mode", "sec-fetch-dest", "sec-fetch-user", "origin", "referer"]

def allowedPrefixes : List String := ["x-mcp-", "x-tavily-", "tavily-"]

def mcpAllowedHeaders : List String :=
  ["accept", "accept-encoding", "cache-control", "content-type", "last-event-id",
    "mcp-protocol-version", "mcp-session-id", "pragma"]

def mcpProxyUserAgent : String := "tavily-hikari-mcp-proxy/1.0"

def hasAllowedPrefix (key : String) : Bool := allowedPrefixes.any fun p => startsWith p key

def shouldForwardHeader (name : HeaderName) : Bool :=
  let lower := toAsciiLowercase name.text
  if lower ∈ blockedHeaders then false
  else if lower ∈ allowedHeaders then true
  else if hasAllowedPrefix lower then true
  else startsWith "x-" lower && !startsWith "x-forwarded-" lower && lower ≠ "x-real-ip"

/-- The test of `sanitize_mcp_headers_inner`. -/
def mcpAllowed (name : HeaderName) : Bool :=
  let key := toAsciiLowercase name.text
  key ∈ mcpAllowedHeaders || hasAllowedPrefix key

/-! ### Values -/

/-- What is used of the `url` crate. A setter that fails is `none`. -/
structure UrlCrate where
  Url : Type
  parse : String → Option Url
  asStr : Url → String
  scheme : Url → String
  hostStr : Url → Option String
  port : Url → Option Nat
  path : Url → String
  setScheme : Url → String → Option Url
  setHost : Url → Option String → Option Url
  setPort : Url → Option Nat → Option Url
  setPath : Url → String → Url

variable (urls : UrlCrate) (upstream : urls.Url) (upstreamOrigin : String)

/-- `port_or_known_default` of the `url` crate is the parameter. -/
def originFromUrl (portOrKnownDefault : urls.Url → Option Nat) (url : urls.Url) : String :=
  let origin :=
    match urls.hostStr url with
    | some host => urls.scheme url ++ "://" ++ host
    | none => urls.asStr url
  match urls.port url, portOrKnownDefault url with
  | some port, some default =>
      if default ≠ port then origin ++ (":" ++ toString port) else origin
  | some port, none => origin ++ (":" ++ toString port)
  | none, _ => origin

/-- The URL of a page on this proxy, as one on the upstream. -/
def rewriteReferer (url : urls.Url) : Option HeaderValue := do
  let url ← urls.setScheme url (urls.scheme upstream)
  let url ← urls.setHost url (urls.hostStr upstream)
  let url ← urls.setPort url (urls.port upstream)
  let url := if urls.path url = "" then urls.setPath url "/" else url
  HeaderValue.fromStr (urls.asStr url)

def transformHeaderValue (name : HeaderName) (value : HeaderValue) : Option HeaderValue :=
  let lower := toAsciiLowercase name.text
  if lower = "origin" then HeaderValue.fromStr upstreamOrigin
  else if lower = "referer" then
    match value.toStr.bind urls.parse with
    | some url => rewriteReferer urls upstream url
    | none => HeaderValue.fromStr upstreamOrigin
  else if lower = "sec-fetch-site" then HeaderValue.fromStr "same-origin"
  else some value

/-! ### The sanitizers -/

section loop

variable (allowed : HeaderName → Bool) (transform : HeaderName → HeaderValue → Option HeaderValue)

/-- One entry of the loop. -/
def sanitizeEntry (sanitized : SanitizedHeaders) (entry : HeaderName × HeaderValue) :
    SanitizedHeaders :=
  let key := toAsciiLowercase entry.1.text
  if !allowed entry.1 then { sanitized with dropped := sanitized.dropped ++ [key] }
  else
    match transform entry.1 entry.2 with
    | some transformed =>
        { sanitized with
          headers := sanitized.headers.insert entry.1 transformed
          forwarded := sanitized.forwarded ++ [key] }
    | none => { sanitized with dropped := sanitized.dropped ++ [key] }

/-- The loop of both sanitizers, by what they let pass and how they change it. -/
def sanitizeWith (headers : HeaderMap) : SanitizedHeaders :=
  headers.iter.foldl (sanitizeEntry allowed transform)
    { headers := .empty, forwarded := [], dropped := [] }

end loop

def sanitizeHeadersInner (headers : HeaderMap) : SanitizedHeaders :=
  sanitizeWith shouldForwardHeader (transformHeaderValue urls upstream upstreamOrigin) headers

def userAgent : HeaderName where
  text := "user-agent"
  lower := by decide +kernel

def mcpProxyUserAgentValue : HeaderValue where
  bytes := utf8Bytes mcpProxyUserAgent
  valid := by decide +kernel

def sanitizeMcpHeadersInner (headers : HeaderMap) : SanitizedHeaders :=
  let sanitized := sanitizeWith mcpAllowed (fun _ value => some value) headers
  { headers := sanitized.headers.insert userAgent mcpProxyUserAgentValue
    forwarded :=
      if "user-agent" ∈ sanitized.forwarded then sanitized.forwarded
      else sanitized.forwarded ++ ["user-agent"]
    dropped := sanitized.dropped }

end TavilyHikari.Analysis
