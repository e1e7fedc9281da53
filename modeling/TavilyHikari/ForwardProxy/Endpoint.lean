/-
Module: TavilyHikari.ForwardProxy.Endpoint
Purpose: Forward-proxy entries and endpoints: how the lines of a setting or a subscription
  are parsed, what an endpoint knows of where it comes from, and how local relays give
  it a URL.
Trusted boundary: `Url::parse` and the payloads of vmess and ss share links are
  parameters; starting a relay process is an answer of the environment
Main exports: ProxyParsers, parseForwardProxyEntry, ForwardProxyEndpoint, absorbDuplicate,
  normalizeProxyEndpointsFromUrls, normalizeSubscriptionEndpointsFromUrls, syncEndpoint,
  parseForwardProxyEntry_spec
-/
import Mathlib.Data.Finset.Basic
import TavilyHikari.Library.KeyedList
import TavilyHikari.Library.Trim

namespace TavilyHikari.ForwardProxy

open Library

/-- What is read of a `Url`: `text` is how it prints, `port` its `port_or_known_default`. -/
structure ProxyUrl where
  scheme : String
  username : String
  password : Option String
  host : Option String
  port : Option Nat
  text : String
deriving DecidableEq, Repr

/-- `Url::parse`, and whether the payload of a share link can be decoded. -/
structure ProxyParsers where
  parseUrl : String → Option ProxyUrl
  parseVmessShareLink : String → Bool
  parseShadowsocksShareLink : String → Bool

/-- What an endpoint speaks; the last four need a relay of Xray in front of them. -/
inductive ForwardProxyProtocol where
  | direct
  | http
  | https
  | socks5
  | socks5h
  | vmess
  | vless
  | trojan
  | shadowsocks
deriving DecidableEq, Repr

/-- How the database and the settings page spell a protocol. -/
def ForwardProxyProtocol.asStr : ForwardProxyProtocol → String
  | .direct => "direct"
  | .http => "http"
  | .https => "https"
  | .socks5 => "socks5"
  | .socks5h => "socks5h"
  | .vmess => "vmess"
  | .vless => "vless"
  | .trojan => "trojan"
  | .shadowsocks => "ss"

/-- The key of the connection without a proxy, which no entry can have. -/
def forwardProxyDirectKey : String := "__direct__"

/-! ### Parsing of entries -/

/-- An entry of the settings or of a subscription; its normal form is the key of its endpoint. -/
structure ParsedForwardProxyEntry where
  normalized : String
  protocol : ForwardProxyProtocol
  endpointUrl : Option ProxyUrl
deriving DecidableEq, Repr

variable (parsers : ProxyParsers)

/-- The protocol that a URL scheme names, with the scheme it is normalized to. -/
def nativeProtocol (scheme : String) : Option (ForwardProxyProtocol × String) :=
  if scheme = "http" then some (.http, "http")
  else if scheme = "https" then some (.https, "https")
  else if scheme = "socks5" ∨ scheme = "socks" then some (.socks5, "socks5")
  else if scheme = "socks5h" then some (.socks5h, "socks5h")
  else none

/-- `user:password@`, empty without a user name. -/
def userInfo (url : ProxyUrl) : String :=
  if url.username = "" then ""
  else url.username ++ (url.password.elim "" fun password => ":" ++ password) ++ "@"

/-- IPv6 addresses are put in brackets, names in lower case. -/
def normalizedHost (host : String) : String :=
  if host.toList.contains ':' then "[" ++ host ++ "]" else toAsciiLowercase host

/-- An entry that is a proxy URL. Its normal form has to be a URL again. -/
def parseNativeForwardProxy (candidate : String) : Option ParsedForwardProxyEntry := do
  let parsed ← parsers.parseUrl candidate
  let (protocol, normalizedScheme) ← nativeProtocol parsed.scheme
  let host ← parsed.host
  let port ← parsed.port
  let normalized :=
    normalizedScheme ++ ("://" ++ userInfo parsed ++ normalizedHost host ++ ":" ++ toString port)
  let endpointUrl ← parsers.parseUrl normalized
  some { normalized, protocol, endpointUrl := some endpointUrl }

/-- The link with its scheme in lower case, if anything follows the scheme. -/
def normalizeShareLinkScheme (candidate scheme : String) : Option String := do
  let (_, remainder) ← splitOnce "://" candidate
  let normalized := scheme ++ ("://" ++ trim remainder)
  guard (scheme.utf8ByteSize + 3 < normalized.utf8ByteSize)
  some normalized

/-- vmess and ss links, whose payload has to be decodable. -/
def parsePayloadShareLink (accepts : String → Bool) (candidate scheme : String)
    (protocol : ForwardProxyProtocol) : Option ParsedForwardProxyEntry := do
  let normalized ← normalizeShareLinkScheme candidate scheme
  guard (accepts normalized)
  some { normalized, protocol, endpointUrl := none }

def parseVmessForwardProxy (candidate : String) : Option ParsedForwardProxyEntry :=
  parsePayloadShareLink parsers.parseVmessShareLink candidate "vmess" .vmess

/-- vless and trojan links, that have to be URLs with a host and a port. -/
def parseUrlShareLink (candidate scheme : String) (protocol : ForwardProxyProtocol) :
    Option ParsedForwardProxyEntry := do
  let normalized ← normalizeShareLinkScheme candidate scheme
  let parsed ← parsers.parseUrl normalized
  let _host ← parsed.host
  let _port ← parsed.port
  some { normalized, protocol, endpointUrl := none }

def parseVlessForwardProxy (candidate : String) : Option ParsedForwardProxyEntry :=
  parseUrlShareLink parsers candidate "vless" .vless

def parseTrojanForwardProxy (candidate : String) : Option ParsedForwardProxyEntry :=
  parseUrlShareLink parsers candidate "trojan" .trojan

def parseShadowsocksForwardProxy (candidate : String) : Option ParsedForwardProxyEntry :=
  parsePayloadShareLink parsers.parseShadowsocksShareLink candidate "ss" .shadowsocks

/-- An entry as it is typed or listed: a share link, a proxy URL, or a host without a scheme. -/
def parseForwardProxyEntry (raw : String) : Option ParsedForwardProxyEntry :=
  let candidate := trim raw
  if candidate = "" then none
  else
    match splitOnce "://" candidate with
    | none => parseNativeForwardProxy parsers ("http://" ++ candidate)
    | some (schemeRaw, _) =>
        let scheme := toAsciiLowercase schemeRaw
        if scheme ∈ ["http", "https", "socks5", "socks5h", "socks"] then
          parseNativeForwardProxy parsers candidate
        else if scheme = "vmess" then parseVmessForwardProxy parsers candidate
        else if scheme = "vless" then parseVlessForwardProxy parsers candidate
        else if scheme = "trojan" then parseTrojanForwardProxy parsers candidate
        else if scheme = "ss" then parseShadowsocksForwardProxy parsers candidate
        else none

/-! ### Settings -/

/-- The stored settings, as the program reads them at its start and after an edit. -/
structure ForwardProxySettings where
  proxyUrls : List String
  subscriptionUrls : List String
  insertDirect : Bool
  egressSocks5Enabled : Bool
  egressSocks5Url : String
deriving DecidableEq, Repr

/-- Only a SOCKS proxy may carry the traffic of the relays. -/
def parseEgressSocks5Url (raw : String) : Option ProxyUrl := do
  let parsed ← parseForwardProxyEntry parsers raw
  guard (parsed.protocol = .socks5 ∨ parsed.protocol = .socks5h)
  parsed.endpointUrl

/-- The proxy that relays go through, where it is switched on and can be read. -/
def ForwardProxySettings.effectiveEgressSocks5Url (settings : ForwardProxySettings) :
    Option ProxyUrl :=
  if settings.egressSocks5Enabled then parseEgressSocks5Url parsers (trim settings.egressSocks5Url)
  else none

/-- The normal forms of the proxy URLs of the settings. -/
def ForwardProxySettings.normalizedProxyUrls (settings : ForwardProxySettings) : List String :=
  settings.proxyUrls.filterMap fun raw =>
    (parseForwardProxyEntry parsers raw).map ParsedForwardProxyEntry.normalized

/-! ### Endpoints -/

/-- `source` names what `manualPresent` and `subscriptionSources` make of the endpoint. -/
structure ForwardProxyEndpoint where
  key : String
  source : String
  protocol : ForwardProxyProtocol
  endpointUrl : Option ProxyUrl
  rawUrl : Option String
  usesLocalRelay : Bool
  manualPresent : Bool
  subscriptionSources : Finset String
deriving DecidableEq

namespace ForwardProxyEndpoint

/-- The connection without a proxy. -/
def direct : ForwardProxyEndpoint where
  key := forwardProxyDirectKey
  source := "direct"
  protocol := .direct
  endpointUrl := none
  rawUrl := none
  usesLocalRelay := false
  manualPresent := false
  subscriptionSources := ∅

def isDirect (endpoint : ForwardProxyEndpoint) : Bool := endpoint.protocol = .direct

/-- Some subscription lists the endpoint. -/
def isSubscriptionBacked (endpoint : ForwardProxyEndpoint) : Bool :=
  endpoint.subscriptionSources ≠ ∅

/-- A request can be sent through it: it is direct, or has an address. -/
def isSelectable (endpoint : ForwardProxyEndpoint) : Bool :=
  endpoint.protocol = .direct || endpoint.endpointUrl.isSome

/-- No HTTP client speaks its protocol. -/
def requiresXray (endpoint : ForwardProxyEndpoint) : Bool :=
  endpoint.protocol ∈ [.vmess, .vless, .trojan, .shadowsocks]

/-- It is reached over a local relay, for its protocol or for the egress proxy. -/
def needsLocalRelay (endpoint : ForwardProxyEndpoint) (egressSocks5Url : Option ProxyUrl) : Bool :=
  !endpoint.isDirect && (endpoint.requiresXray || egressSocks5Url.isSome)

/-- An endpoint that was entered by hand counts as manual, whatever lists it besides. -/
def refreshSource (endpoint : ForwardProxyEndpoint) : ForwardProxyEndpoint :=
  { endpoint with
    source :=
      if endpoint.isDirect then "direct"
      else if endpoint.manualPresent then "manual"
      else if endpoint.isSubscriptionBacked then "subscription"
      else "manual" }

/-- The endpoint of an entry of the settings. -/
def newManual (parsed : ParsedForwardProxyEntry) : ForwardProxyEndpoint where
  key := parsed.normalized
  source := "manual"
  protocol := parsed.protocol
  endpointUrl := parsed.endpointUrl
  rawUrl := some parsed.normalized
  usesLocalRelay := false
  manualPresent := true
  subscriptionSources := ∅

/-- The endpoint of an entry of a subscription. -/
def newSubscription (parsed : ParsedForwardProxyEntry) (subscriptionSource : String) :
    ForwardProxyEndpoint :=
  refreshSource
    { key := parsed.normalized
      source := "subscription"
      protocol := parsed.protocol
      endpointUrl := parsed.endpointUrl
      rawUrl := some parsed.normalized
      usesLocalRelay := false
      manualPresent := false
      subscriptionSources := {subscriptionSource} }

/-- The fields of `other` win when only `other` is manual. -/
def absorbDuplicate (endpoint other : ForwardProxyEndpoint) : ForwardProxyEndpoint :=
  let preferOtherFields := !endpoint.manualPresent && other.manualPresent
  refreshSource
    { endpoint with
      manualPresent := endpoint.manualPresent || other.manualPresent
      subscriptionSources := endpoint.subscriptionSources ∪ other.subscriptionSources
      protocol := if preferOtherFields then other.protocol else endpoint.protocol
      endpointUrl := if preferOtherFields then other.endpointUrl else endpoint.endpointUrl
      rawUrl := if preferOtherFields then other.rawUrl else endpoint.rawUrl
      usesLocalRelay :=
        if preferOtherFields then other.usesLocalRelay
        else endpoint.usesLocalRelay || other.usesLocalRelay }

@[simp] theorem refreshSource_key (e : ForwardProxyEndpoint) : e.refreshSource.key = e.key := rfl

@[simp] theorem refreshSource_protocol (e : ForwardProxyEndpoint) :
    e.refreshSource.protocol = e.protocol := rfl

@[simp] theorem refreshSource_manualPresent (e : ForwardProxyEndpoint) :
    e.refreshSource.manualPresent = e.manualPresent := rfl

@[simp] theorem refreshSource_subscriptionSources (e : ForwardProxyEndpoint) :
    e.refreshSource.subscriptionSources = e.subscriptionSources := rfl

@[simp] theorem absorbDuplicate_key (e other : ForwardProxyEndpoint) :
    (e.absorbDuplicate other).key = e.key := rfl

@[simp] theorem absorbDuplicate_manualPresent (e other : ForwardProxyEndpoint) :
    (e.absorbDuplicate other).manualPresent = (e.manualPresent || other.manualPresent) := rfl

@[simp] theorem absorbDuplicate_subscriptionSources (e other : ForwardProxyEndpoint) :
    (e.absorbDuplicate other).subscriptionSources =
      e.subscriptionSources ∪ other.subscriptionSources := rfl

theorem isDirect_eq_false_iff {e : ForwardProxyEndpoint} :
    e.isDirect = false ↔ e.protocol ≠ .direct := by
  simp [isDirect]

/-- Two proxies under one key are not the direct connection. -/
theorem absorbDuplicate_isDirect {e other : ForwardProxyEndpoint} (here : e.isDirect = false)
    (there : other.isDirect = false) : (e.absorbDuplicate other).isDirect = false := by
  rw [isDirect_eq_false_iff] at here there ⊢
  simp only [absorbDuplicate, refreshSource_protocol]
  split
  · exact there
  · exact here

end ForwardProxyEndpoint

/-- The entries of a list of lines, without repetitions. -/
def parsedEntries (urls : List String) : List ParsedForwardProxyEntry :=
  mergeAllKeyed ParsedForwardProxyEntry.normalized (fun first _ => first)
    (urls.filterMap (parseForwardProxyEntry parsers)) []

/-- The endpoints that the settings list. -/
def normalizeProxyEndpointsFromUrls (urls : List String) : List ForwardProxyEndpoint :=
  (parsedEntries parsers urls).map ForwardProxyEndpoint.newManual

/-- The endpoints that a subscription lists. -/
def normalizeSubscriptionEndpointsFromUrls (urls : List String) (subscriptionSource : String) :
    List ForwardProxyEndpoint :=
  (parsedEntries parsers urls).map fun parsed =>
    ForwardProxyEndpoint.newSubscription parsed subscriptionSource

/-! ### Local relays -/

/-- `endpoint_transport_url`. -/
def endpointTransportUrl (endpoint : ForwardProxyEndpoint) : Option ProxyUrl :=
  ((endpoint.rawUrl.bind (parseForwardProxyEntry parsers)).bind
    ParsedForwardProxyEntry.endpointUrl).or endpoint.endpointUrl

/-- One round of the loop of `sync_endpoints`; `route` says which URL the relay of an
endpoint listens on, if it can be started. -/
def syncEndpoint (egressSocks5Url : Option ProxyUrl)
    (route : ForwardProxyEndpoint → Option ProxyUrl) (endpoint : ForwardProxyEndpoint) :
    ForwardProxyEndpoint :=
  if endpoint.needsLocalRelay egressSocks5Url then
    { endpoint with endpointUrl := route endpoint, usesLocalRelay := true }
  else
    { endpoint with
      endpointUrl := endpointTransportUrl parsers endpoint, usesLocalRelay := false }

/-- What `sync_endpoints` makes of the list, for the relays that it could start. -/
def syncEndpoints (egressSocks5Url : Option ProxyUrl)
    (route : ForwardProxyEndpoint → Option ProxyUrl) (endpoints : List ForwardProxyEndpoint) :
    List ForwardProxyEndpoint :=
  endpoints.map (syncEndpoint parsers egressSocks5Url route)

/-! ### Facts about entries -/

/-- A text that begins with a scheme is not the key of the direct endpoint. -/
theorem schemeText_ne_directKey {scheme : String} (rest : String) {c : Char}
    (first : scheme.toList.head? = some c) (other : c ≠ '_') :
    scheme ++ rest ≠ forwardProxyDirectKey := by
  intro same
  have chars := congrArg (fun text => text.toList.head?) same
  simp only [String.toList_append, List.head?_append, first, Option.some_or] at chars
  cases chars
  exact other rfl

variable {parsers}

/-- A native scheme is of a proxy, and its normal form begins with a letter. -/
theorem nativeProtocol_spec {scheme normalized : String} {protocol : ForwardProxyProtocol}
    (known : nativeProtocol scheme = some (protocol, normalized)) :
    protocol ≠ .direct ∧ ∃ c, normalized.toList.head? = some c ∧ c ≠ '_' := by
  unfold nativeProtocol at known
  split at known
  · cases known
    exact ⟨by decide, 'h', rfl, by decide⟩
  · split at known
    · cases known
      exact ⟨by decide, 'h', rfl, by decide⟩
    · split at known
      · cases known
        exact ⟨by decide, 's', rfl, by decide⟩
      · split at known
        · cases known
          exact ⟨by decide, 's', rfl, by decide⟩
        · cases known

/-- No entry is the direct connection, nor has its key. -/
def ParsedForwardProxyEntry.Indirect (parsed : ParsedForwardProxyEntry) : Prop :=
  parsed.protocol ≠ .direct ∧ parsed.normalized ≠ forwardProxyDirectKey

/-- A proxy URL is not the direct connection. -/
theorem indirect_of_native {candidate : String} {parsed : ParsedForwardProxyEntry}
    (accepted : parseNativeForwardProxy parsers candidate = some parsed) : parsed.Indirect := by
  simp only [parseNativeForwardProxy, Option.bind_eq_bind, Option.bind_eq_some_iff] at accepted
  obtain ⟨url, _, ⟨protocol, scheme⟩, known, host, _, port, _, endpointUrl, _, same⟩ := accepted
  cases same
  obtain ⟨proxied, c, first, other⟩ := nativeProtocol_spec known
  exact ⟨proxied, schemeText_ne_directKey _ first other⟩

/-- Neither is a share link, whose normal form begins with its scheme. -/
theorem normalizeShareLinkScheme_ne {candidate scheme normalized : String} {c : Char}
    (first : scheme.toList.head? = some c) (other : c ≠ '_')
    (accepted : normalizeShareLinkScheme candidate scheme = some normalized) :
    normalized ≠ forwardProxyDirectKey := by
  simp only [normalizeShareLinkScheme, Option.bind_eq_bind, Option.bind_eq_some_iff] at accepted
  obtain ⟨⟨_, remainder⟩, _, _, _, same⟩ := accepted
  cases same
  exact schemeText_ne_directKey _ first other

theorem indirect_of_urlShareLink {candidate scheme : String} {protocol : ForwardProxyProtocol}
    {c : Char} (first : scheme.toList.head? = some c) (other : c ≠ '_')
    (proxied : protocol ≠ .direct) {parsed : ParsedForwardProxyEntry}
    (accepted : parseUrlShareLink parsers candidate scheme protocol = some parsed) :
    parsed.Indirect := by
  simp only [parseUrlShareLink, Option.bind_eq_bind, Option.bind_eq_some_iff] at accepted
  obtain ⟨normalized, link, _, _, _, _, _, _, same⟩ := accepted
  cases same
  exact ⟨proxied, normalizeShareLinkScheme_ne first other link⟩

theorem indirect_of_payloadShareLink {accepts : String → Bool} {candidate scheme : String}
    {protocol : ForwardProxyProtocol} {c : Char} (first : scheme.toList.head? = some c)
    (other : c ≠ '_') (proxied : protocol ≠ .direct) {parsed : ParsedForwardProxyEntry}
    (accepted : parsePayloadShareLink accepts candidate scheme protocol = some parsed) :
    parsed.Indirect := by
  simp only [parsePayloadShareLink, Option.bind_eq_bind, Option.bind_eq_some_iff] at accepted
  obtain ⟨normalized, link, _, _, same⟩ := accepted
  cases same
  exact ⟨proxied, normalizeShareLinkScheme_ne first other link⟩

/-- No entry that is accepted is the direct connection, nor can it take its key. -/
theorem parseForwardProxyEntry_spec {raw : String} {parsed : ParsedForwardProxyEntry}
    (accepted : parseForwardProxyEntry parsers raw = some parsed) : parsed.Indirect := by
  unfold parseForwardProxyEntry at accepted
  simp only at accepted
  split at accepted
  · cases accepted
  · split at accepted
    · exact indirect_of_native accepted
    · split at accepted
      · exact indirect_of_native accepted
      · split at accepted
        · exact indirect_of_payloadShareLink (c := 'v') rfl (by decide) (by decide) accepted
        · split at accepted
          · exact indirect_of_urlShareLink (c := 'v') rfl (by decide) (by decide) accepted
          · split at accepted
            · exact indirect_of_urlShareLink (c := 't') rfl (by decide) (by decide) accepted
            · split at accepted
              · exact indirect_of_payloadShareLink (c := 's') rfl (by decide) (by decide) accepted
              · cases accepted

end TavilyHikari.ForwardProxy
