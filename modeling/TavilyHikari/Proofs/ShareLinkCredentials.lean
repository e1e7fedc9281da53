/-
Module: TavilyHikari.Proofs.ShareLinkCredentials
Purpose: What the outbounds of share links have of the credentials, the host and the port that
  the links were built from: exactly these where the way a link is read decodes them once.
Trusted boundary: none
Main exports: ShareLink, ShareLink.WellFormed, UrlReads, ShareLink.Decodes, ShareLink.Keeps,
  shareLink_decodes_iff
-/
import TavilyHikari.ForwardProxy.ShareLinks

namespace TavilyHikari.ForwardProxy

open Library

variable {parsers : ShareLinkParsers}

/-! ### Texts in base64 -/

/-- A text in base64. -/
def base64Text (engine : Base64Config) (text : String) : String :=
  String.ofList (engine.encode text.toUTF8.data.toList)

/-- Base64 has no character that a link is cut at, and no white space. -/
theorem char_of_base64Text {engine : Base64Config} {text : String} {c : Char}
    (member : c ∈ (base64Text engine text).toList) :
    c ∉ ['@', '#', '?', ':', '%'] ∧ isAsciiWhitespace c = false := by
  rw [base64Text, String.toList_ofList] at member
  have letters : ∀ urlSafe, ∀ n < 64, sextetChar urlSafe n ∉ ['@', '#', '?', ':', '%'] ∧
      isAsciiWhitespace (sextetChar urlSafe n) = false := by
    decide
  rcases Base64Config.mem_encode member with rfl | ⟨n, small, rfl⟩
  · exact ⟨by decide, by decide⟩
  · exact letters engine.urlSafe n small

theorem free_of_base64Text {engine : Base64Config} {text : String} {c : Char}
    (cut : c ∈ ['@', '#', '?', ':', '%']) : c ∉ (base64Text engine text).toList :=
  fun member => (char_of_base64Text member).1 cut

theorem base64Text_ne_empty {engine : Base64Config} {text : String} (nonempty : text ≠ "") :
    base64Text engine text ≠ "" := by
  intro empty
  have none := congrArg String.toList empty
  rw [base64Text, String.toList_ofList, show ("" : String).toList = [] from rfl,
    Base64Config.encode_eq_nil_iff, Array.toList_eq_nil_iff] at none
  have bytes : text.toUTF8.isEmpty = false := isEmpty_toUTF8 nonempty
  rw [ByteArray.isEmpty, ByteArray.size, none] at bytes
  cases bytes

theorem decodeBase64String_base64Text (crate : Base64Crate parsers.decode) (engine : Base64Config)
    {text : String} (nonempty : text ≠ "") :
    decodeBase64String parsers.decode (base64Text engine text) = some text := by
  have compact : withoutAsciiWhitespace (base64Text engine text) = base64Text engine text := by
    have all : (base64Text engine text).toList.filter (fun c => !isAsciiWhitespace c) =
        (base64Text engine text).toList := by
      rw [List.filter_eq_self]
      intro c member
      rw [(char_of_base64Text member).2]
      rfl
    rw [withoutAsciiWhitespace, all, String.ofList_toList]
  have encoding : (base64Text engine text).toList = engine.encode text.toUTF8.data.toList := by
    rw [base64Text, String.toList_ofList]
  have found : (base64Engines.findSome? fun engine' =>
      parsers.decode engine' (base64Text engine text)) = some text.toUTF8 := by
    rw [← findSome?_of_encoding crate some encoding rfl]
    congr 1
    funext engine'
    rw [Option.bind_fun_some]
  unfold decodeBase64String decodeBase64Any
  simp only [compact, base64Text_ne_empty nonempty, if_false, found, Option.bind_some,
    fromUTF8?_toUTF8]

/-! ### Links -/

/-- A link as it is built: ss in its three forms, trojan and vless, with what is written of the
credentials where they are percent-encoded. -/
inductive ShareLink where
  | legacy (engine : Base64Config) (method password : String)
  | sip002 (engine : Base64Config) (method password : String)
  | sip002Percent (method password writtenMethod writtenPassword : String)
  | trojan (password written : String)
  | vless (id written : String)

def serverText (host : String) (port : Nat) : String := host ++ (":" ++ toString port)

namespace ShareLink

def text (link : ShareLink) (host : String) (port : Nat) : String :=
  match link with
  | legacy engine method password =>
      "ss://" ++ base64Text engine (method ++ (":" ++ password) ++ ("@" ++ serverText host port))
  | sip002 engine method password =>
      "ss://" ++ (base64Text engine (method ++ (":" ++ password)) ++ ("@" ++ serverText host port))
  | sip002Percent _ _ writtenMethod writtenPassword =>
      "ss://" ++ (writtenMethod ++ (":" ++ writtenPassword) ++ ("@" ++ serverText host port))
  | trojan _ written => "trojan://" ++ (written ++ ("@" ++ serverText host port))
  | vless _ written => "vless://" ++ (written ++ ("@" ++ serverText host port))

def WellFormed : ShareLink → Prop
  | legacy _ method password | sip002 _ method password =>
      method ≠ "" ∧ ':' ∉ method.toList ∧ password ≠ ""
  | sip002Percent method password writtenMethod writtenPassword =>
      method ≠ "" ∧ ':' ∉ method.toList ∧ password ≠ "" ∧
        PercentEncodes method.toUTF8.data.toList writtenMethod.toList ∧
        PercentEncodes password.toUTF8.data.toList writtenPassword.toList
  | trojan secret written | vless secret written =>
      secret ≠ "" ∧ PercentEncodes secret.toUTF8.data.toList written.toList

/-- The user info of the URL that the link is: none without an `@`, or with a `/` before it. -/
def userInfo : ShareLink → Option (String × Option String)
  | legacy _ _ _ => none
  | sip002 engine method password =>
      let encoded := base64Text engine (method ++ (":" ++ password))
      if '/' ∈ encoded.toList then none else some (encoded, none)
  | sip002Percent _ _ writtenMethod writtenPassword => some (writtenMethod, some writtenPassword)
  | trojan _ written | vless _ written => some (written, none)

/-- The outbound of the link has its credentials, host and port. -/
def Decodes (parsers : ShareLinkParsers) (link : ShareLink) (host : String) (port : Nat) : Prop :=
  match link with
  | legacy _ method password | sip002 _ method password | sip002Percent method password _ _ =>
      buildShadowsocksXrayOutbound parsers (link.text host port) =
        .ok (.shadowsocks host port method password)
  | trojan password _ =>
      buildTrojanXrayOutbound parsers (link.text host port) = .ok (.trojan host port password)
  | vless id _ => ∃ encryption flow,
      buildVlessXrayOutbound parsers (link.text host port) =
        .ok (.vless host port id encryption flow)

/-- What a link is read with once too often, or not at all, leaves it as it is: `webHost` is how
the crate writes the host of an http URL, `ownHost` how it writes that of the link. -/
def Keeps (link : ShareLink) (host webHost ownHost : String) : Prop :=
  match link with
  | legacy _ method password => EscapeFree method ∧ EscapeFree password ∧ webHost = host
  | sip002 engine method password =>
      if '/' ∈ (base64Text engine (method ++ (":" ++ password))).toList then
        EscapeFree method ∧ EscapeFree password ∧ webHost = host
      else ownHost = host
  | sip002Percent _ _ _ _ => ownHost = host
  | trojan secret written | vless secret written => written = secret ∧ ownHost = host

end ShareLink

/-- What the proofs use of the `url` crate: how the server of the link is read as that of an http
URL, that user info is read percent-encoded before the server, and that without user info, where
the authority of a ss link has no colon, there is no port. -/
structure UrlReads (parsers : ShareLinkParsers) (link : ShareLink) (host : String) (port : Nat)
    (webHost ownHost : String) : Prop where
  plain : ∀ c ∈ host.toList, c ∉ ['@', '/', '?', '#']
  server : ∃ url, parsers.parseUrl ("http://" ++ serverText host port) = .ok url ∧
    url.host = some webHost ∧ url.port = some port
  noPort : link.userInfo = none →
    ∀ url, parsers.parseUrl (link.text host port) = .ok url → url.port = none
  userInfo : ∀ username password, link.userInfo = some (username, password) →
    ∃ url, parsers.parseUrl (link.text host port) = .ok url ∧
      url.username = userinfoEncode username ∧ url.password = password.map userinfoEncode ∧
      url.host = some ownHost ∧ url.port = some port

variable {link : ShareLink} {host webHost ownHost : String} {port : Nat}

/-- The server has no character that a link is cut at. -/
theorem free_of_serverText (plain : ∀ c ∈ host.toList, c ∉ ['@', '/', '?', '#']) {c : Char}
    (cut : c ∈ ['@', '#', '?']) : c ∉ (serverText host port).toList := by
  obtain ⟨delimiter, noColon, noDigit⟩ : c ∈ ['@', '/', '?', '#'] ∧ c ∉ ":".toList ∧
      c.isDigit = false := by
    simp only [List.mem_cons, List.not_mem_nil, or_false] at cut
    rcases cut with rfl | rfl | rfl <;> decide
  rw [serverText, String.toList_append, String.toList_append, List.mem_append, List.mem_append]
  rintro (inHost | colon | digit)
  · exact plain c inHost delimiter
  · exact noColon colon
  · have digits : (toString port).toList = Nat.toDigits 10 port := Nat.toList_repr
    rw [digits] at digit
    rw [Nat.isDigit_of_mem_toDigits (by decide) (by decide) digit] at noDigit
    cases noDigit

theorem parsedServer_serverText (reads : UrlReads parsers link host port webHost ownHost) :
    parsedServer parsers (serverText host port) = .ok (webHost, port) := by
  obtain ⟨url, parsed, named, given⟩ := reads.server
  unfold parsedServer
  simp only [parsed, named, given]

/-! ### Links that are read from their main part -/

theorem splitOnceFirst_of_free {raw delimiter : String} {c : Char}
    (chars : delimiter.toList = [c]) (free : c ∉ raw.toList) :
    splitOnceFirst raw delimiter = (raw, none) := by
  rw [splitOnceFirst, splitOnce_of_free chars free]

/-- A ss link without a fragment and a query. -/
theorem parseShadowsocksShareLink_of_free {main : String} (fragment : '#' ∉ main.toList)
    (query : '?' ∉ main.toList) :
    parseShadowsocksShareLink parsers ("ss://" ++ main) =
      (shadowsocksLinkOfUrl parsers ("ss://" ++ main) none).elim
        (shadowsocksLinkOfMain parsers main none) .ok := by
  have hash : "#".toList = ['#'] := rfl
  have mark : "?".toList = ['?'] := rfl
  unfold parseShadowsocksShareLink
  simp only [stripPrefix_append, splitOnceFirst_of_free hash fragment,
    splitOnceFirst_of_free mark query, Option.map_none, Option.filter_none]
  cases shadowsocksLinkOfUrl parsers ("ss://" ++ main) none <;> rfl

theorem shadowsocksLinkOfUrl_of_noPort {raw : String} {displayName : Option String}
    (noPort : ∀ url, parsers.parseUrl raw = .ok url → url.port = none) :
    shadowsocksLinkOfUrl parsers raw displayName = none := by
  unfold shadowsocksLinkOfUrl
  cases parsed : parsers.parseUrl raw with
  | error err => rfl
  | ok url =>
      have none := noPort url parsed
      simp only [Except.toOption, Option.bind_eq_bind, Option.bind_some, none, Option.bind_none,
        Option.bind_fun_none]

theorem ne_empty_of_separated (before : String) {sep : String} (chars : 0 < sep.length)
    (after : String) : before ++ (sep ++ after) ≠ "" := by
  intro empty
  have none := congrArg String.length empty
  rw [String.length_append, String.length_append] at none
  have zero : "".length = 0 := rfl
  omega

theorem plainCredentials_plain {method : String} (single : ':' ∉ method.toList)
    (password : String) : plainCredentials parsers (method ++ (":" ++ password)) =
      .ok (percentDecodeOnceLossy method, percentDecodeOnceLossy password) := by
  have chars : ":".toList = [':'] := rfl
  unfold plainCredentials
  simp only [splitOnce_append chars single]

theorem plainCredentials_base64 (crate : Base64Crate parsers.decode) (engine : Base64Config)
    {method : String} (single : ':' ∉ method.toList) (password : String) :
    plainCredentials parsers (base64Text engine (method ++ (":" ++ password))) =
      .ok (percentDecodeOnceLossy method, percentDecodeOnceLossy password) := by
  have chars : ":".toList = [':'] := rfl
  have nonempty : method ++ (":" ++ password) ≠ "" := ne_empty_of_separated _ (by decide) _
  unfold plainCredentials
  simp only [splitOnce_of_free chars (free_of_base64Text (by decide)),
    decodeBase64String_base64Text crate engine nonempty, splitOnce_append chars single]

/-- Read from the last `@`, the credentials are decoded and the server is that of an http URL. -/
theorem shadowsocksLinkOfMain_eq (reads : UrlReads parsers link host port webHost ownHost)
    {main credential method password : String} {displayName : Option String}
    (decoded : decodedMain parsers main = .ok (credential ++ ("@" ++ serverText host port)))
    (credentials : plainCredentials parsers credential = .ok (method, password)) :
    shadowsocksLinkOfMain parsers main displayName =
      .ok ⟨method, password, webHost, port,
        displayName.getD (webHost ++ ":" ++ toString port)⟩ := by
  have chars : "@".toList = ['@'] := rfl
  have free : '@' ∉ (serverText host port).toList := free_of_serverText reads.plain (by decide)
  have last := rsplitOnce_append chars free credential
  unfold shadowsocksLinkOfMain
  simp only [decoded, last, credentials, parsedServer_serverText reads, bind, Except.bind]

theorem decodedMain_base64 (crate : Base64Crate parsers.decode) (engine : Base64Config)
    {text : String} (nonempty : text ≠ "") :
    decodedMain parsers (base64Text engine text) = .ok text := by
  have whole : (base64Text engine text).toList.contains '@' = false := by
    rw [Bool.eq_false_iff, Ne, List.contains_iff_mem]
    exact free_of_base64Text (by decide)
  have plain : percentDecodeOnceLossy (base64Text engine text) = base64Text engine text :=
    percentDecodeOnceLossy_eq_self_iff.2 (escapeFree_of_free (free_of_base64Text (by decide)))
  unfold decodedMain
  simp only [whole, Bool.false_eq_true, if_false, plain,
    decodeBase64String_base64Text crate engine nonempty]

/-! ### What the outbounds are -/

/-- Without a URL the credentials are percent-decoded, and the server is that of an http URL. -/
theorem outbound_of_main (reads : UrlReads parsers link host port webHost ownHost)
    {main credential method password : String} (fragment : '#' ∉ main.toList)
    (query : '?' ∉ main.toList)
    (noPort : ∀ url, parsers.parseUrl ("ss://" ++ main) = .ok url → url.port = none)
    (decoded : decodedMain parsers main = .ok (credential ++ ("@" ++ serverText host port)))
    (credentials : plainCredentials parsers credential =
      .ok (percentDecodeOnceLossy method, percentDecodeOnceLossy password)) :
    buildShadowsocksXrayOutbound parsers ("ss://" ++ main) =
      .ok (.shadowsocks webHost port (percentDecodeOnceLossy method)
        (percentDecodeOnceLossy password)) := by
  rw [buildShadowsocksXrayOutbound, parseShadowsocksShareLink_of_free fragment query,
    shadowsocksLinkOfUrl_of_noPort noPort, Option.elim_none,
    shadowsocksLinkOfMain_eq reads decoded credentials]
  rfl

theorem legacy_outbound (crate : Base64Crate parsers.decode) {engine : Base64Config}
    {method password : String}
    (reads : UrlReads parsers (.legacy engine method password) host port webHost ownHost)
    (single : ':' ∉ method.toList) :
    buildShadowsocksXrayOutbound parsers
        ((ShareLink.legacy engine method password).text host port) =
      .ok (.shadowsocks webHost port (percentDecodeOnceLossy method)
        (percentDecodeOnceLossy password)) :=
  outbound_of_main reads (free_of_base64Text (by decide)) (free_of_base64Text (by decide))
    (reads.noPort rfl)
    (decodedMain_base64 crate engine (ne_empty_of_separated _ (by decide) _))
    (plainCredentials_plain single password)

/-- Credentials in base64 and a server have neither a fragment nor a query. -/
theorem free_of_userInfo (plain : ∀ c ∈ host.toList, c ∉ ['@', '/', '?', '#'])
    {engine : Base64Config} {text : String} {c : Char} (cut : c ∈ ['#', '?']) :
    c ∉ (base64Text engine text ++ ("@" ++ serverText host port)).toList := by
  obtain ⟨inLink, inServer, atSign⟩ : c ∈ ['@', '#', '?', ':', '%'] ∧ c ∈ ['@', '#', '?'] ∧
      c ∉ "@".toList := by
    simp only [List.mem_cons, List.not_mem_nil, or_false] at cut
    rcases cut with rfl | rfl <;> decide
  rw [String.toList_append, String.toList_append, List.mem_append, List.mem_append]
  rintro (text | sign | server)
  · exact free_of_base64Text inLink text
  · exact atSign sign
  · exact free_of_serverText plain inServer server

theorem sip002_outbound_of_slash (crate : Base64Crate parsers.decode) {engine : Base64Config}
    {method password : String}
    (reads : UrlReads parsers (.sip002 engine method password) host port webHost ownHost)
    (single : ':' ∉ method.toList)
    (slash : '/' ∈ (base64Text engine (method ++ (":" ++ password))).toList) :
    buildShadowsocksXrayOutbound parsers
        ((ShareLink.sip002 engine method password).text host port) =
      .ok (.shadowsocks webHost port (percentDecodeOnceLossy method)
        (percentDecodeOnceLossy password)) := by
  have noInfo : (ShareLink.sip002 engine method password).userInfo = none := if_pos slash
  have decoded : decodedMain parsers (base64Text engine (method ++ (":" ++ password)) ++
      ("@" ++ serverText host port)) =
        .ok (base64Text engine (method ++ (":" ++ password)) ++ ("@" ++ serverText host port)) := by
    refine if_pos ?_
    rw [List.contains_iff_mem, String.toList_append, String.toList_append]
    exact List.mem_append_right _ (List.mem_append_left _ List.mem_cons_self)
  exact outbound_of_main reads (free_of_userInfo reads.plain (by decide))
    (free_of_userInfo reads.plain (by decide)) (reads.noPort noInfo) decoded
    (plainCredentials_base64 crate engine single password)

/-- With user info the host and the port are those of the URL. -/
theorem outbound_of_userInfo (reads : UrlReads parsers link host port webHost ownHost)
    {main method password username : String} {secret : Option String}
    (text : link.text host port = "ss://" ++ main) (fragment : '#' ∉ main.toList)
    (query : '?' ∉ main.toList) (info : link.userInfo = some (username, secret))
    (credentials : ∀ url : ProxyUrl, url.username = userinfoEncode username →
      url.password = secret.map userinfoEncode →
      urlCredentials parsers url = some (method, password)) :
    buildShadowsocksXrayOutbound parsers ("ss://" ++ main) =
      .ok (.shadowsocks ownHost port method password) := by
  obtain ⟨url, parsed, name, word, named, given⟩ := reads.userInfo username secret info
  rw [text] at parsed
  have link : shadowsocksLinkOfUrl parsers ("ss://" ++ main) none =
      some ⟨method, password, ownHost, port, ownHost ++ ":" ++ toString port⟩ := by
    unfold shadowsocksLinkOfUrl
    simp only [parsed, Except.toOption, Option.bind_eq_bind, Option.bind_some, named, given,
      credentials url name word, Option.getD_none]
  rw [buildShadowsocksXrayOutbound, parseShadowsocksShareLink_of_free fragment query, link]
  rfl

theorem sip002_outbound_of_noSlash (crate : Base64Crate parsers.decode) {engine : Base64Config}
    {method password : String}
    (reads : UrlReads parsers (.sip002 engine method password) host port webHost ownHost)
    (single : ':' ∉ method.toList)
    (slash : '/' ∉ (base64Text engine (method ++ (":" ++ password))).toList) :
    buildShadowsocksXrayOutbound parsers
        ((ShareLink.sip002 engine method password).text host port) =
      .ok (.shadowsocks ownHost port method password) := by
  have chars : ":".toList = [':'] := rfl
  have nonempty : method ++ (":" ++ password) ≠ "" := ne_empty_of_separated _ (by decide) _
  have encoded : base64Text engine (method ++ (":" ++ password)) ≠ "" :=
    base64Text_ne_empty nonempty
  have once : percentDecodeOnceLossy (userinfoEncode
      (base64Text engine (method ++ (":" ++ password)))) =
        base64Text engine (method ++ (":" ++ password)) :=
    percentDecodeOnceLossy_of_encodes
      (percentEncodes_userinfoEncode (free_of_base64Text (by decide)))
  refine outbound_of_userInfo reads rfl (free_of_userInfo reads.plain (by decide))
    (free_of_userInfo reads.plain (by decide)) (if_neg slash) ?_
  intro url name word
  have named : url.username ≠ "" := by
    intro empty
    rw [← name, empty] at once
    exact encoded (once.symm.trans (by decide))
  have unlocked : ¬(url.username ≠ "" ∧ url.password.isSome) := by
    rw [word]
    exact fun both => Bool.false_ne_true both.2
  unfold urlCredentials
  rw [if_neg unlocked, if_pos named]
  simp only [name, once, decodeBase64String_base64Text crate engine nonempty, Option.bind_some,
    splitOnce_append chars single]

theorem written_ne_empty {text written : String} (nonempty : text ≠ "")
    (encodes : PercentEncodes text.toUTF8.data.toList written.toList) : written ≠ "" := by
  rintro rfl
  have once := percentDecodeOnceLossy_of_encodes encodes
  exact nonempty (once.symm.trans (by decide))

theorem free_of_encodes {bytes : List UInt8} {chars : List Char}
    (encodes : PercentEncodes bytes chars) {c : Char} (reserved : keptInUserinfo c = false) :
    c ∉ chars := by
  intro member
  rw [encodes.kept c member] at reserved
  cases reserved

theorem sip002Percent_outbound {method password writtenMethod writtenPassword : String}
    (reads : UrlReads parsers (.sip002Percent method password writtenMethod writtenPassword) host
      port webHost ownHost)
    (wellFormed : (ShareLink.sip002Percent method password writtenMethod
      writtenPassword).WellFormed) :
    buildShadowsocksXrayOutbound parsers ((ShareLink.sip002Percent method password writtenMethod
        writtenPassword).text host port) =
      .ok (.shadowsocks ownHost port method password) := by
  obtain ⟨nonempty, -, -, first, second⟩ := wellFormed
  have free {c : Char} (here : c ∈ ['@', '#', '?']) (reserved : keptInUserinfo c = false)
      (signs : c ∉ ":".toList ∧ c ∉ "@".toList) :
      c ∉ (writtenMethod ++ (":" ++ writtenPassword) ++ ("@" ++ serverText host port)).toList := by
    simp only [String.toList_append, List.mem_append]
    rintro ((inMethod | inColon | inPassword) | inSign | inServer)
    · exact free_of_encodes first reserved inMethod
    · exact signs.1 inColon
    · exact free_of_encodes second reserved inPassword
    · exact signs.2 inSign
    · exact free_of_serverText reads.plain here inServer
  refine outbound_of_userInfo reads rfl (free (by decide) (by decide) (by decide))
    (free (by decide) (by decide) (by decide)) rfl ?_
  intro url name word
  rw [userinfoEncode_of_encodes first] at name
  rw [Option.map_some, userinfoEncode_of_encodes second] at word
  have both : url.username ≠ "" ∧ url.password.isSome := by
    rw [name, word]
    exact ⟨written_ne_empty nonempty first, rfl⟩
  unfold urlCredentials
  rw [if_pos both, name, word, Option.getD_some, percentDecodeOnceLossy_of_encodes first,
    percentDecodeOnceLossy_of_encodes second]

/-- What is written of a secret is no white space. -/
theorem trim_written_ne_empty {text written : String} (nonempty : text ≠ "")
    (encodes : PercentEncodes text.toUTF8.data.toList written.toList) : trim written ≠ "" := by
  have dark : trim written = written := by
    apply trim_of_free
    intro c member
    have kept := encodes.kept c member
    simp only [keptInUserinfo, Bool.and_eq_true, decide_eq_true_eq] at kept
    simp only [isWhiteSpace, Bool.or_eq_false_iff, Bool.and_eq_false_iff, decide_eq_false_iff_not]
    omega
  rw [dark]
  exact written_ne_empty nonempty encodes

/-- The secret of a trojan link stays as it is written. -/
theorem trojan_outbound {password written : String}
    (reads : UrlReads parsers (.trojan password written) host port webHost ownHost)
    (wellFormed : (ShareLink.trojan password written).WellFormed) :
    buildTrojanXrayOutbound parsers ((ShareLink.trojan password written).text host port) =
      .ok (.trojan ownHost port written) := by
  obtain ⟨nonempty, encodes⟩ := wellFormed
  obtain ⟨url, parsed, name, -, named, given⟩ := reads.userInfo written none rfl
  rw [userinfoEncode_of_encodes encodes] at name
  unfold buildTrojanXrayOutbound
  simp only [parsed, named, given, name, trim_written_ne_empty nonempty encodes, if_false]

theorem vless_outbound {id written : String}
    (reads : UrlReads parsers (.vless id written) host port webHost ownHost)
    (wellFormed : (ShareLink.vless id written).WellFormed) :
    ∃ encryption flow, buildVlessXrayOutbound parsers ((ShareLink.vless id written).text host port) =
      .ok (.vless ownHost port written encryption flow) := by
  obtain ⟨nonempty, encodes⟩ := wellFormed
  obtain ⟨url, parsed, name, -, named, given⟩ := reads.userInfo written none rfl
  rw [userinfoEncode_of_encodes encodes] at name
  unfold buildVlessXrayOutbound
  simp only [parsed, named, given, name, trim_written_ne_empty nonempty encodes, if_false]
  exact ⟨_, _, rfl⟩

theorem shadowsocks_ok_iff {address address' method method' password password' : String} :
    (Except.ok (XrayOutbound.shadowsocks address port method password) : Except String _) =
        .ok (.shadowsocks address' port method' password') ↔
      method = method' ∧ password = password' ∧ address = address' := by
  rw [Except.ok.injEq, XrayOutbound.shadowsocks.injEq]
  tauto

/-- For every link of every form. -/
theorem shareLink_decodes_iff (crate : Base64Crate parsers.decode) (link : ShareLink)
    (wellFormed : link.WellFormed)
    (reads : UrlReads parsers link host port webHost ownHost) :
    link.Decodes parsers host port ↔ link.Keeps host webHost ownHost := by
  cases link with
  | legacy engine method password =>
      obtain ⟨-, single, -⟩ := wellFormed
      rw [ShareLink.Decodes, legacy_outbound crate reads single, shadowsocks_ok_iff,
        percentDecodeOnceLossy_eq_self_iff, percentDecodeOnceLossy_eq_self_iff]
      rfl
  | sip002 engine method password =>
      obtain ⟨-, single, -⟩ := wellFormed
      rw [ShareLink.Decodes, ShareLink.Keeps]
      by_cases slash : '/' ∈ (base64Text engine (method ++ (":" ++ password))).toList
      · rw [sip002_outbound_of_slash crate reads single slash, shadowsocks_ok_iff,
          percentDecodeOnceLossy_eq_self_iff, percentDecodeOnceLossy_eq_self_iff, if_pos slash]
      · rw [sip002_outbound_of_noSlash crate reads single slash, shadowsocks_ok_iff, if_neg slash]
        simp only [true_and]
  | sip002Percent method password writtenMethod writtenPassword =>
      rw [ShareLink.Decodes, sip002Percent_outbound reads wellFormed, shadowsocks_ok_iff]
      simp only [true_and]
      rfl
  | trojan password written =>
      rw [ShareLink.Decodes, trojan_outbound reads wellFormed, Except.ok.injEq,
        XrayOutbound.trojan.injEq]
      unfold ShareLink.Keeps
      tauto
  | vless id written =>
      obtain ⟨encryption, flow, built⟩ := vless_outbound reads wellFormed
      unfold ShareLink.Decodes ShareLink.Keeps
      simp only [built, Except.ok.injEq, XrayOutbound.vless.injEq]
      constructor
      · rintro ⟨_, _, address, -, secret, -⟩
        exact ⟨secret, address⟩
      · rintro ⟨secret, address⟩
        exact ⟨encryption, flow, address, trivial, secret, rfl, rfl⟩

/-- Parsers that know a trojan and a ss link on one server. -/
def secretUrls (text : String) : Except String ProxyUrl :=
  if text = "http://proxy.test:443" then
    .ok ⟨"http", "", none, some "proxy.test", some 443, "http://proxy.test:443/"⟩
  else if text = "trojan://p%40ss@proxy.test:443" then
    .ok ⟨"trojan", "p%40ss", none, some "proxy.test", some 443, text⟩
  else if text = "ss://aes-256-gcm:p%40ss@proxy.test:443" then
    .ok ⟨"ss", "aes-256-gcm", some "p%40ss", some "proxy.test", some 443, text⟩
  else .error "relative URL without a base"

def secretParsers : ShareLinkParsers := ⟨secretUrls, fun _ _ => none, referenceDecoder⟩

theorem percentEncodes_secret :
    PercentEncodes "p@ss".toUTF8.data.toList "p%40ss".toList := by
  have written : userinfoEncode "p@ss" = "p%40ss" := by decide
  rw [← written]
  exact percentEncodes_userinfoEncode (by decide)

theorem secretParsers_server : ∃ url,
    secretParsers.parseUrl ("http://" ++ serverText "proxy.test" 443) = .ok url ∧
      url.host = some "proxy.test" ∧ url.port = some 443 :=
  ⟨⟨"http", "", none, some "proxy.test", some 443, "http://proxy.test:443/"⟩, by decide, rfl, rfl⟩

theorem secretServer_plain : ∀ c ∈ "proxy.test".toList, c ∉ ['@', '/', '?', '#'] :=
  forall_notMem_of_all (by decide)

/-- A ss link is read with the password that it was built with. -/
theorem shareLink_decodes_iff_percent :
    buildShadowsocksXrayOutbound secretParsers "ss://aes-256-gcm:p%40ss@proxy.test:443" =
      .ok (.shadowsocks "proxy.test" 443 "aes-256-gcm" "p@ss") := by
  have method : PercentEncodes "aes-256-gcm".toUTF8.data.toList "aes-256-gcm".toList := by
    have written : userinfoEncode "aes-256-gcm" = "aes-256-gcm" := by decide
    conv_rhs => rw [← written]
    exact percentEncodes_userinfoEncode (by decide)
  have reads : UrlReads secretParsers (.sip002Percent "aes-256-gcm" "p@ss" "aes-256-gcm" "p%40ss")
      "proxy.test" 443 "proxy.test" "proxy.test" := by
    refine ⟨secretServer_plain, secretParsers_server, nofun, ?_⟩
    rintro username password info
    cases info
    exact ⟨⟨"ss", "aes-256-gcm", some "p%40ss", some "proxy.test", some 443,
      "ss://aes-256-gcm:p%40ss@proxy.test:443"⟩, by decide, by decide, by decide, rfl, rfl⟩
  have wellFormed : (ShareLink.sip002Percent "aes-256-gcm" "p@ss" "aes-256-gcm"
      "p%40ss").WellFormed :=
    ⟨by decide, by decide, by decide, method, percentEncodes_secret⟩
  exact (shareLink_decodes_iff base64Crate_referenceDecoder _ wellFormed reads).2 rfl

/-- A trojan link is read with the password as it is written. -/
theorem trojanPassword_staysEncoded :
    ∃ parsers link, Base64Crate (ShareLinkParsers.decode parsers) ∧ link.WellFormed ∧
      UrlReads parsers link "proxy.test" 443 "proxy.test" "proxy.test" ∧
      link = .trojan "p@ss" "p%40ss" ∧
      buildTrojanXrayOutbound parsers (link.text "proxy.test" 443) =
        .ok (.trojan "proxy.test" 443 "p%40ss") ∧
      ¬link.Decodes parsers "proxy.test" 443 := by
  have reads : UrlReads secretParsers (.trojan "p@ss" "p%40ss") "proxy.test" 443 "proxy.test"
      "proxy.test" := by
    refine ⟨secretServer_plain, secretParsers_server, nofun, ?_⟩
    rintro username password info
    cases info
    exact ⟨⟨"trojan", "p%40ss", none, some "proxy.test", some 443,
      "trojan://p%40ss@proxy.test:443"⟩, by decide, by decide, rfl, rfl, rfl⟩
  have wellFormed : (ShareLink.trojan "p@ss" "p%40ss").WellFormed :=
    ⟨by decide, percentEncodes_secret⟩
  have built := trojan_outbound reads wellFormed
  refine ⟨secretParsers, _, base64Crate_referenceDecoder, wellFormed, reads, rfl, built, ?_⟩
  intro decodes
  rw [ShareLink.Decodes, built] at decodes
  exact absurd decodes (by decide)

end TavilyHikari.ForwardProxy
