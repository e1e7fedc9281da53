/-
Module: TavilyHikari.ForwardProxy.ShareLinks
Purpose: Share links as the relay is configured with them: base64 in whichever engine accepts
  it, the three forms of a ss link, and the outbounds of vless, trojan and ss links.
Trusted boundary: the engines of the `base64` crate, `Url::parse` and the query of a URL are
  parameters
Main exports: base64Engines, decodeBase64Any, decodeBase64String, Base64Crate, ShareLinkParsers,
  parseShadowsocksShareLink, buildVlessXrayOutbound, buildTrojanXrayOutbound,
  buildShadowsocksXrayOutbound
-/
import TavilyHikari.ForwardProxy.Endpoint
import TavilyHikari.Library.Base64
import TavilyHikari.Library.Delimiters
import TavilyHikari.Library.PercentEncoding

namespace TavilyHikari.ForwardProxy

open Library

/-- `char::is_ascii_whitespace`. -/
def isAsciiWhitespace (c : Char) : Bool := c ∈ [' ', '\t', '\n', '\x0C', '\r']

def withoutAsciiWhitespace (text : String) : String :=
  String.ofList (text.toList.filter fun c => !isAsciiWhitespace c)

/-- `STANDARD`, `STANDARD_NO_PAD`, `URL_SAFE` and `URL_SAFE_NO_PAD`, in the order in which they
are tried. -/
def base64Engines : List Base64Config := [⟨false, true⟩, ⟨false, false⟩, ⟨true, true⟩, ⟨true, false⟩]

/-- What the engines decode. -/
abbrev Base64Decoder := Base64Config → String → Option ByteArray

def decodeBase64Any (decode : Base64Decoder) (raw : String) : Option ByteArray :=
  let compact := withoutAsciiWhitespace raw
  if compact = "" then none else base64Engines.findSome? fun engine => decode engine compact

def decodeBase64String (decode : Base64Decoder) (raw : String) : Option String :=
  (decodeBase64Any decode raw).bind String.fromUTF8?

/-- An engine decodes what it encodes, and nothing else: padding has to be there or to be
missing, and the bits that are left have to be zero. -/
structure Base64Crate (decode : Base64Decoder) : Prop where
  exactly : ∀ engine text bytes,
    decode engine text = some bytes ↔ text.toList = engine.encode bytes.data.toList

theorem mem_base64Engines (engine : Base64Config) : engine ∈ base64Engines := by
  obtain ⟨urlSafe, padded⟩ := engine
  cases urlSafe <;> cases padded <;> decide

/-- Of an encoding every engine decodes the bytes that are encoded, if any. -/
theorem decode_of_encoding {decode : Base64Decoder} (crate : Base64Crate decode)
    {engine other : Base64Config} {text : String} {bytes decoded : ByteArray}
    (encoding : text.toList = engine.encode bytes.data.toList)
    (accepted : decode other text = some decoded) : decoded = bytes := by
  have same := (crate.exactly other text decoded).1 accepted
  rw [encoding] at same
  have data : bytes.data.toList = decoded.data.toList := Base64Config.encode_injective same
  exact ByteArray.ext (Array.toList_inj.1 data).symm

/-- Of an encoding the engines find what its own engine decodes, also where only some of what
is decoded is taken. -/
theorem findSome?_of_encoding {β : Type} {decode : Base64Decoder} (crate : Base64Crate decode)
    (take : ByteArray → Option β) {engine : Base64Config} {text : String} {bytes : ByteArray}
    {taken : β} (encoding : text.toList = engine.encode bytes.data.toList)
    (takes : take bytes = some taken) :
    (base64Engines.findSome? fun engine => (decode engine text).bind take) = some taken := by
  have accepted : decode engine text = some bytes := (crate.exactly engine text bytes).2 encoding
  have found : (base64Engines.findSome? fun engine => (decode engine text).bind take).isSome := by
    rw [List.findSome?_isSome_iff]
    exact ⟨engine, mem_base64Engines engine, by rw [accepted, Option.bind_some, takes]; rfl⟩
  obtain ⟨other, first⟩ := Option.isSome_iff_exists.1 found
  obtain ⟨engine', _, given⟩ := List.exists_of_findSome?_eq_some first
  obtain ⟨decoded, read, same⟩ := Option.bind_eq_some_iff.1 given
  rw [decode_of_encoding crate encoding read, takes] at same
  rw [first, same]

/-- An engine that encodes and compares. -/
def referenceDecoder : Base64Decoder := fun engine text =>
  (engine.decode text.toList).map fun bytes => ⟨bytes.toArray⟩

theorem base64Crate_referenceDecoder : Base64Crate referenceDecoder where
  exactly engine text bytes := by
    rw [referenceDecoder, Option.map_eq_some_iff]
    constructor
    · rintro ⟨decoded, read, rfl⟩
      exact Base64Config.decode_eq_some_iff.1 read
    · intro encoding
      exact ⟨_, Base64Config.decode_eq_some_iff.2 encoding, by rw [Array.toArray_toList]⟩

/-! ### Share links -/

/-- `Url::parse` with the text of its error, a value of the query of a URL, and the engines. -/
structure ShareLinkParsers where
  parseUrl : String → Except String ProxyUrl
  query : ProxyUrl → String → Option String
  decode : Base64Decoder

structure ShadowsocksShareLink where
  method : String
  password : String
  host : String
  port : Nat
  displayName : String
deriving DecidableEq, Repr

variable (parsers : ShareLinkParsers)

/-- `split_once_first`. -/
def splitOnceFirst (raw delimiter : String) : String × Option String :=
  match splitOnce delimiter raw with
  | some (lhs, rhs) => (lhs, some rhs)
  | none => (raw, none)

/-- The credentials in the user info of the URL of a ss link. -/
def urlCredentials (url : ProxyUrl) : Option (String × String) :=
  if url.username ≠ "" ∧ url.password.isSome then
    some (percentDecodeOnceLossy url.username, percentDecodeOnceLossy (url.password.getD ""))
  else if url.username ≠ "" then
    let username := percentDecodeOnceLossy url.username
    (decodeBase64String parsers.decode username).bind fun decoded => splitOnce ":" decoded
  else none

/-- A ss link whose URL has a host, a port and credentials. -/
def shadowsocksLinkOfUrl (raw : String) (displayName : Option String) :
    Option ShadowsocksShareLink := do
  let url ← (parsers.parseUrl raw).toOption
  let host ← url.host
  let port ← url.port
  let (method, password) ← urlCredentials parsers url
  some
    { method
      password
      host
      port
      displayName := displayName.getD (host ++ ":" ++ toString port) }

/-- What stands between `ss://` and the fragment or the query, decoded if it has no `@`. -/
def decodedMain (main : String) : Except String String :=
  if main.toList.contains '@' then .ok main
  else
    match decodeBase64String parsers.decode (percentDecodeOnceLossy main) with
    | some decoded => .ok decoded
    | none => .error "failed to decode shadowsocks payload"

/-- The credentials before the last `@`: plain, or in base64 where they have no `:`. -/
def plainCredentials (credential : String) : Except String (String × String) :=
  match splitOnce ":" credential with
  | some (method, password) =>
      .ok (percentDecodeOnceLossy method, percentDecodeOnceLossy password)
  | none =>
      match decodeBase64String parsers.decode credential with
      | none => .error "failed to decode shadowsocks credentials"
      | some decoded =>
          match splitOnce ":" decoded with
          | none => .error "invalid shadowsocks credentials"
          | some (method, password) =>
              .ok (percentDecodeOnceLossy method, percentDecodeOnceLossy password)

/-- The server after the last `@`, read as that of an http URL. -/
def parsedServer (hostPort : String) : Except String (String × Nat) :=
  match parsers.parseUrl ("http://" ++ hostPort) with
  | .error err => .error ("invalid shadowsocks server endpoint: " ++ err)
  | .ok parsedHost =>
      match parsedHost.host with
      | none => .error "shadowsocks host missing"
      | some host =>
          match parsedHost.port with
          | none => .error "shadowsocks port missing"
          | some port => .ok (host, port)

/-- A ss link that is no URL with a port and credentials. -/
def shadowsocksLinkOfMain (main : String) (displayName : Option String) :
    Except String ShadowsocksShareLink := do
  let decoded ← decodedMain parsers main
  match rsplitOnce '@' decoded with
  | none => .error "invalid shadowsocks payload"
  | some (credential, hostPort) =>
      let (method, password) ← plainCredentials parsers credential
      let (host, port) ← parsedServer parsers hostPort
      .ok
        { method
          password
          host
          port
          displayName := displayName.getD (host ++ ":" ++ toString port) }

def parseShadowsocksShareLink (raw : String) : Except String ShadowsocksShareLink :=
  match stripPrefix "ss://" raw with
  | none => .error "invalid shadowsocks share link"
  | some normalized =>
      let (main, fragment) := splitOnceFirst normalized "#"
      let (main, _) := splitOnceFirst main "?"
      let displayName := (fragment.map percentDecodeOnceLossy).filter fun value => trim value ≠ ""
      match shadowsocksLinkOfUrl parsers raw displayName with
      | some link => .ok link
      | none => shadowsocksLinkOfMain parsers main displayName

/-! ### Outbounds -/

/-- The server that a relay connects to, without the settings of its stream. -/
inductive XrayOutbound where
  | vless (address : String) (port : Nat) (id encryption : String) (flow : Option String)
  | trojan (address : String) (port : Nat) (password : String)
  | shadowsocks (address : String) (port : Nat) (method password : String)
deriving DecidableEq, Repr

def buildVlessXrayOutbound (raw : String) : Except String XrayOutbound :=
  match parsers.parseUrl raw with
  | .error err => .error ("invalid vless share link: " ++ err)
  | .ok url =>
      match url.host with
      | none => .error "vless host missing"
      | some host =>
          match url.port with
          | none => .error "vless port missing"
          | some port =>
              let userId := url.username
              if trim userId = "" then .error "vless id missing"
              else
                let encryption := (parsers.query url "encryption").getD "none"
                let flow := (parsers.query url "flow").filter fun value => trim value ≠ ""
                .ok (.vless host port userId encryption flow)

def buildTrojanXrayOutbound (raw : String) : Except String XrayOutbound :=
  match parsers.parseUrl raw with
  | .error err => .error ("invalid trojan share link: " ++ err)
  | .ok url =>
      match url.host with
      | none => .error "trojan host missing"
      | some host =>
          match url.port with
          | none => .error "trojan port missing"
          | some port =>
              let password := url.username
              if trim password = "" then .error "trojan password missing"
              else .ok (.trojan host port password)

def buildShadowsocksXrayOutbound (raw : String) : Except String XrayOutbound :=
  (parseShadowsocksShareLink parsers raw).map fun parsed =>
    .shadowsocks parsed.host parsed.port parsed.method parsed.password

end TavilyHikari.ForwardProxy
