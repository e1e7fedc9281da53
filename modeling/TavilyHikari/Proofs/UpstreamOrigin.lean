/-
Module: TavilyHikari.Proofs.UpstreamOrigin
Purpose: Which origin the forwarded `Origin` and `Referer` name: that of the upstream exactly
  where it has no port of its own, for only a `Referer` that is rewritten part by part gets
  the port.
Trusted boundary: the setters and the texts of the `url` crate (`UrlCrateLaws`)
Main exports: UrlOrigin, UrlCrateLaws, NamesUpstream, namesUpstream_iff
-/
import TavilyHikari.Library.Utf8
import TavilyHikari.Proofs.HeaderSanitizing

namespace TavilyHikari.Analysis

open Library

/-! ### Origins -/

/-- What two URLs have in common that are of one origin. The port is none where it is the
default of the scheme. -/
structure UrlOrigin where
  scheme : String
  host : Option String
  port : Option Nat
deriving DecidableEq, Repr

def UrlOrigin.text (origin : UrlOrigin) : String :=
  origin.scheme ++ "://" ++ origin.host.getD "" ++ origin.port.elim "" fun port => ":" ++ toString port

section

variable (urls : UrlCrate)

def UrlCrate.origin (url : urls.Url) : UrlOrigin where
  scheme := urls.scheme url
  host := urls.hostStr url
  port := urls.port url

def IsHttp (url : urls.Url) : Prop := urls.scheme url = "http" ∨ urls.scheme url = "https"

/-- The schemes that a setter does not leave. -/
def specialSchemes : List String := ["http", "https", "ws", "wss", "ftp", "file"]

/-- A URL that can be made one of another special scheme. -/
def Rewritable (url : urls.Url) : Prop :=
  urls.scheme url ∈ specialSchemes ∧ (urls.hostStr url).isSome

def NoControls (text : String) : Prop := ∀ c ∈ text.toList, 32 ≤ c.toNat ∧ c.toNat ≠ 127

/-- What the proofs use of the `url` crate: the port that a URL has is the port or the known
default; a URL of HTTP has a host, its text and its host have no control characters, and it is
read back from its text, its origin from scheme and host; the scheme of a URL of HTTP can be set
where the other URL is of a special scheme with a host, and host and port of a URL of HTTP at any
URL of the same scheme. -/
structure UrlCrateLaws (portOrKnownDefault : urls.Url → Option Nat) : Prop where
  explicitPort : ∀ url port, urls.port url = some port → portOrKnownDefault url = some port
  host : ∀ url, IsHttp urls url → (urls.hostStr url).isSome
  text : ∀ url, NoControls (urls.asStr url)
  hostText : ∀ url host, urls.hostStr url = some host → NoControls host
  parsed : ∀ url, IsHttp urls url → urls.parse (urls.asStr url) = some url
  plain : ∀ url, IsHttp urls url →
    ∃ plain, urls.parse { urls.origin url with port := none }.text = some plain ∧
      urls.origin plain = { urls.origin url with port := none }
  unmoved : ∀ url upstream, IsHttp urls upstream → ¬Rewritable urls url →
    urls.setScheme url (urls.scheme upstream) = none
  setScheme : ∀ url upstream, IsHttp urls upstream → Rewritable urls url →
    ∃ moved, urls.setScheme url (urls.scheme upstream) = some moved ∧
      urls.scheme moved = urls.scheme upstream
  setHost : ∀ url upstream, IsHttp urls upstream → urls.scheme url = urls.scheme upstream →
    ∃ moved, urls.setHost url (urls.hostStr upstream) = some moved ∧
      urls.scheme moved = urls.scheme upstream ∧ urls.hostStr moved = urls.hostStr upstream
  setPort : ∀ url upstream, IsHttp urls upstream → urls.scheme url = urls.scheme upstream →
    ∃ moved, urls.setPort url (urls.port upstream) = some moved ∧
      urls.scheme moved = urls.scheme url ∧ urls.hostStr moved = urls.hostStr url ∧
      urls.port moved = urls.port upstream
  setPath : ∀ url path, urls.origin (urls.setPath url path) = urls.origin url

end

/-! ### What is promised -/

def originName : HeaderName where
  text := "origin"
  lower := by decide +kernel

def refererName : HeaderName where
  text := "referer"
  lower := by decide +kernel

/-- Every `Origin` that is sent is the origin of the upstream, and every `Referer` is the text
of a URL with that origin. -/
structure NamesUpstream (urls : UrlCrate) (upstream : urls.Url) (sent : HeaderMap) : Prop where
  origin : ∀ value ∈ sent.getAll originName,
    value.bytes = utf8Bytes (urls.origin upstream).text
  referer : ∀ value ∈ sent.getAll refererName,
    ∃ text url, value.bytes = utf8Bytes text ∧ urls.parse text = some url ∧
      urls.origin url = urls.origin upstream

/-- The URL that a header value is read as. -/
def urlOf (urls : UrlCrate) (value : HeaderValue) : Option urls.Url :=
  value.toStr.bind urls.parse

/-- After every `Referer` that is no URL stands one that is rewritten, and takes its place. -/
def ReferersReplaced (urls : UrlCrate) (referers : List HeaderValue) : Prop :=
  ∀ before value after, referers = before ++ value :: after → urlOf urls value = none →
    ∃ later ∈ after, ∃ url, urlOf urls later = some url ∧ Rewritable urls url

/-! ### Texts of header values -/

theorem all_isHeaderValueByte {text : String} (clean : NoControls text) :
    (utf8Bytes text).all isHeaderValueByte = true := by
  rw [List.all_eq_true]
  intro byte member
  obtain ⟨c, inside, encoded⟩ := List.mem_flatMap.1 member
  obtain ⟨low, delete⟩ := clean c inside
  have kept : 32 ≤ byte.toNat ∧ byte.toNat ≠ 127 := by
    rcases utf8EncodeChar_cases c with ⟨ascii, one⟩ | ⟨_, bytes⟩
    · rw [one, List.mem_singleton] at encoded
      have value : byte.toNat = c.toNat := by
        have small : c.toNat < UInt8.size := Nat.lt_trans ascii (by decide)
        rw [encoded, UInt8.toNat_ofNat_of_lt' small]
      omega
    · have high := bytes byte encoded
      omega
  obtain ⟨printed, other⟩ := kept
  have same : byte ≠ 127 := by
    rintro rfl
    exact other rfl
  simp only [isHeaderValueByte, Bool.or_eq_true, Bool.and_eq_true, decide_eq_true_eq]
  exact Or.inl ⟨printed, same⟩

theorem fromStr_of_noControls {text : String} (clean : NoControls text) :
    ∃ value, HeaderValue.fromStr text = some value ∧ value.bytes = utf8Bytes text :=
  ⟨_, dif_pos (all_isHeaderValueByte clean), rfl⟩

theorem bytes_of_fromStr {text : String} {value : HeaderValue}
    (made : HeaderValue.fromStr text = some value) : value.bytes = utf8Bytes text := by
  unfold HeaderValue.fromStr at made
  split at made
  · cases made
    rfl
  · cases made

theorem utf8Bytes_inj {one two : String} (same : utf8Bytes one = utf8Bytes two) : one = two := by
  unfold utf8Bytes at same
  rw [← bytes_toUTF8, ← bytes_toUTF8, Array.toList_inj] at same
  have bytes : one.toUTF8 = two.toUTF8 := ByteArray.ext same
  have read := fromUTF8?_toUTF8 one
  rw [bytes, fromUTF8?_toUTF8] at read
  exact (Option.some.inj read).symm

/-! ### The origin of the upstream -/

section

variable {urls : UrlCrate} {upstream : urls.Url} {portOrKnownDefault : urls.Url → Option Nat}

/-- The text that is sent never has a port: where there is one, the known default is just that
port. -/
theorem originFromUrl_eq (crate : UrlCrateLaws urls portOrKnownDefault)
    (http : IsHttp urls upstream) :
    originFromUrl urls portOrKnownDefault upstream =
      { urls.origin upstream with port := none : UrlOrigin }.text := by
  obtain ⟨host, has⟩ := Option.isSome_iff_exists.1 (crate.host upstream http)
  have text : { urls.origin upstream with port := none : UrlOrigin }.text =
      urls.scheme upstream ++ "://" ++ host := by
    simp [UrlOrigin.text, UrlCrate.origin, has]
  rw [text, originFromUrl, has]
  cases port : urls.port upstream with
  | none => rfl
  | some own => simp [crate.explicitPort upstream own port]

theorem noControls_of_all {text : String}
    (all : (text.toList.all fun c => 32 ≤ c.toNat ∧ c.toNat ≠ 127) = true) : NoControls text :=
  fun c member => of_decide_eq_true (List.all_eq_true.1 all c member)

theorem noControls_append {one two : String} (first : NoControls one) (second : NoControls two) :
    NoControls (one ++ two) := by
  intro c member
  rw [String.toList_append, List.mem_append] at member
  exact member.elim (first c) (second c)

theorem noControls_origin (crate : UrlCrateLaws urls portOrKnownDefault)
    (http : IsHttp urls upstream) :
    NoControls { urls.origin upstream with port := none : UrlOrigin }.text := by
  obtain ⟨host, has⟩ := Option.isSome_iff_exists.1 (crate.host upstream http)
  have text : { urls.origin upstream with port := none : UrlOrigin }.text =
      urls.scheme upstream ++ "://" ++ host := by
    simp [UrlOrigin.text, UrlCrate.origin, has]
  rw [text]
  refine noControls_append ?_ (crate.hostText upstream host has)
  rcases http with scheme | scheme
  · rw [scheme]
    exact noControls_of_all (by decide)
  · rw [scheme]
    exact noControls_of_all (by decide)

/-- A port makes the text longer. -/
theorem text_eq_iff (origin : UrlOrigin) :
    { origin with port := none : UrlOrigin }.text = origin.text ↔ origin.port = none := by
  constructor
  · intro same
    cases port : origin.port with
    | none => rfl
    | some port =>
        have length := congrArg String.length same
        simp [UrlOrigin.text, port] at length
  · intro none
    rw [← none]

/-! ### What is sent -/

/-- Of the values of a header the last one is sent that can be transformed. -/
theorem mem_sent_iff {origin : String} {headers : HeaderMap} {name : HeaderName}
    {value : HeaderValue} (may : shouldForwardHeader name = true) :
    value ∈ (sanitizeHeadersInner urls upstream origin headers).headers.getAll name ↔
      ((headers.getAll name).filterMap (transformHeaderValue urls upstream origin name)).getLast? =
        some value := by
  rw [sanitizeHeadersInner, getAll_sanitizeWith, if_pos may, Option.mem_toList]

theorem last_of_sent {origin : String} {headers : HeaderMap} {name : HeaderName}
    {value : HeaderValue} (may : shouldForwardHeader name = true)
    (sent : value ∈ (sanitizeHeadersInner urls upstream origin headers).headers.getAll name) :
    ∃ before last after, headers.getAll name = before ++ last :: after ∧
      transformHeaderValue urls upstream origin name last = some value ∧
      ∀ later ∈ after, transformHeaderValue urls upstream origin name later = none := by
  rw [mem_sent_iff may, List.getLast?_filterMap, List.findSome?_eq_some_iff] at sent
  obtain ⟨after, last, before, reversed, kept, dropped⟩ := sent
  refine ⟨before.reverse, last, after.reverse, ?_, kept, ?_⟩
  · rw [← List.reverse_reverse (headers.getAll name), reversed]
    simp
  · intro later member
    exact dropped later (List.mem_reverse.1 member)

theorem getLast?_append_of_forall {α : Type} {a : α} {l : List α} (same : ∀ b ∈ l, b = a)
    (front : List α) : (front ++ a :: l).getLast? = some a := by
  cases l using List.reverseRecOn with
  | nil => exact List.getLast?_concat
  | append_singleton l last =>
      rw [same last (by simp), ← List.cons_append, ← List.append_assoc, List.getLast?_concat]

theorem transform_origin (origin : String) (value : HeaderValue) :
    transformHeaderValue urls upstream origin originName value = HeaderValue.fromStr origin := by
  unfold transformHeaderValue
  rw [originName.lower]
  rfl

theorem transform_referer (origin : String) (value : HeaderValue) :
    transformHeaderValue urls upstream origin refererName value =
      (urlOf urls value).elim (HeaderValue.fromStr origin) (rewriteReferer urls upstream) := by
  unfold transformHeaderValue
  rw [refererName.lower, urlOf]
  cases value.toStr.bind urls.parse <;> rfl

/-- A `Referer` that is rewritten gets scheme, host and port of the upstream. -/
theorem rewriteReferer_of_rewritable (crate : UrlCrateLaws urls portOrKnownDefault)
    (http : IsHttp urls upstream) {url : urls.Url} (rewritable : Rewritable urls url) :
    ∃ value moved, rewriteReferer urls upstream url = some value ∧
      value.bytes = utf8Bytes (urls.asStr moved) ∧ urls.parse (urls.asStr moved) = some moved ∧
      urls.origin moved = urls.origin upstream := by
  obtain ⟨one, schemeSet, scheme⟩ := crate.setScheme url upstream http rewritable
  obtain ⟨two, hostSet, kept, host⟩ := crate.setHost one upstream http scheme
  obtain ⟨three, portSet, keptScheme, keptHost, port⟩ := crate.setPort two upstream http kept
  have same : urls.origin three = urls.origin upstream := by
    simp only [UrlCrate.origin, keptScheme, keptHost, kept, host, port]
  -- The path is no part of the origin.
  obtain ⟨four, path, moved⟩ : ∃ four,
      (if urls.path three = "" then urls.setPath three "/" else three) = four ∧
        urls.origin four = urls.origin upstream := by
    refine ⟨_, rfl, ?_⟩
    split
    · rw [crate.setPath, same]
    · exact same
  obtain ⟨value, made, bytes⟩ := fromStr_of_noControls (crate.text four)
  have httpFour : IsHttp urls four := by
    have scheme : urls.scheme four = urls.scheme upstream := congrArg UrlOrigin.scheme moved
    unfold IsHttp
    rwa [scheme]
  refine ⟨value, four, ?_, bytes, crate.parsed four httpFour, moved⟩
  simp only [rewriteReferer, schemeSet, hostSet, portSet, path, made, Option.bind_eq_bind,
    Option.bind_some]

theorem rewriteReferer_eq_none_iff (crate : UrlCrateLaws urls portOrKnownDefault)
    (http : IsHttp urls upstream) {url : urls.Url} :
    rewriteReferer urls upstream url = none ↔ ¬Rewritable urls url := by
  constructor
  · intro none rewritable
    obtain ⟨value, _, made, _⟩ := rewriteReferer_of_rewritable crate http rewritable
    rw [made] at none
    cases none
  · intro fixed
    simp [rewriteReferer, crate.unmoved url upstream http fixed]

/-! ### The two headers -/

variable (headers : HeaderMap)

/-- Where an `Origin` comes, the upstream is told its origin without a port. -/
theorem originSent_iff (crate : UrlCrateLaws urls portOrKnownDefault)
    (http : IsHttp urls upstream) :
    (∀ value ∈ (sanitizeHeadersInner urls upstream
          (originFromUrl urls portOrKnownDefault upstream) headers).headers.getAll originName,
        value.bytes = utf8Bytes (urls.origin upstream).text) ↔
      urls.port upstream = none ∨ headers.getAll originName = [] := by
  have may : shouldForwardHeader originName = true := by decide +kernel
  obtain ⟨plain, made, bytes⟩ := fromStr_of_noControls (noControls_origin crate http)
  rw [originFromUrl_eq crate http]
  constructor
  · intro named
    cases values : headers.getAll originName using List.reverseRecOn with
    | nil => exact Or.inr rfl
    | append_singleton before last =>
        left
        have sent := named plain ((mem_sent_iff may).2 (by
          rw [values, List.filterMap_append, List.filterMap_cons, transform_origin, made]
          exact List.getLast?_concat))
        rw [bytes] at sent
        exact (text_eq_iff (urls.origin upstream)).1 (utf8Bytes_inj sent)
  · rintro (none | none)
    · intro value sent
      obtain ⟨_, last, _, _, kept, _⟩ := last_of_sent may sent
      rw [transform_origin] at kept
      rw [bytes_of_fromStr kept, (text_eq_iff (urls.origin upstream)).2 none]
    · intro value sent
      obtain ⟨before, last, after, values, _⟩ := last_of_sent may sent
      rw [none] at values
      exact absurd values.symm (List.append_ne_nil_of_right_ne_nil _ (List.cons_ne_nil _ _))

/-- Only the origin that stands for a `Referer` that is no URL lacks the port. -/
theorem refererSent_iff (crate : UrlCrateLaws urls portOrKnownDefault)
    (http : IsHttp urls upstream) :
    (∀ value ∈ (sanitizeHeadersInner urls upstream
          (originFromUrl urls portOrKnownDefault upstream) headers).headers.getAll refererName,
        ∃ text url, value.bytes = utf8Bytes text ∧ urls.parse text = some url ∧
          urls.origin url = urls.origin upstream) ↔
      urls.port upstream = none ∨ ReferersReplaced urls (headers.getAll refererName) := by
  have may : shouldForwardHeader refererName = true := by decide +kernel
  obtain ⟨plain, made, bytes⟩ := fromStr_of_noControls (noControls_origin crate http)
  obtain ⟨portless, read, origin⟩ := crate.plain upstream http
  rw [originFromUrl_eq crate http]
  constructor
  · intro named
    by_contra wrong
    rw [not_or] at wrong
    obtain ⟨port, unreplaced⟩ := wrong
    unfold ReferersReplaced at unreplaced
    push Not at unreplaced
    obtain ⟨before, unread, after, values, noUrl, last⟩ := unreplaced
    -- What comes later is dropped, or no URL either.
    have later (value : HeaderValue) (member : value ∈ after) :
        transformHeaderValue urls upstream
            { urls.origin upstream with port := none : UrlOrigin }.text refererName value = none ∨
          transformHeaderValue urls upstream
            { urls.origin upstream with port := none : UrlOrigin }.text refererName value =
              some plain := by
      rw [transform_referer]
      cases is : urlOf urls value with
      | none => exact Or.inr made
      | some url => exact Or.inl ((rewriteReferer_eq_none_iff crate http).2 (last value member url is))
    have first : transformHeaderValue urls upstream
        { urls.origin upstream with port := none : UrlOrigin }.text refererName unread =
          some plain := by
      rw [transform_referer, noUrl]
      exact made
    have sent := named plain ((mem_sent_iff may).2 (by
      rw [values, List.filterMap_append, List.filterMap_cons, first]
      apply getLast?_append_of_forall
      intro value member
      obtain ⟨source, inside, kept⟩ := List.mem_filterMap.1 member
      rcases later source inside with none | some
      · rw [none] at kept
        cases kept
      · rw [some] at kept
        exact (Option.some.inj kept).symm))
    obtain ⟨text, url, same, readUrl, named⟩ := sent
    rw [bytes] at same
    rw [← utf8Bytes_inj same, read] at readUrl
    cases readUrl
    exact port (congrArg UrlOrigin.port (named.symm.trans origin))
  · intro holds value sent
    obtain ⟨before, last, after, values, kept, dropped⟩ := last_of_sent may sent
    rw [transform_referer] at kept
    cases is : urlOf urls last with
    | some url =>
        rw [is] at kept
        have rewritable : Rewritable urls url := by
          by_contra fixed
          have none := (rewriteReferer_eq_none_iff crate http).2 fixed
          exact Option.some_ne_none _ (kept.symm.trans none)
        obtain ⟨same, moved, sentValue, bytesOf, readMoved, named⟩ :=
          rewriteReferer_of_rewritable crate http rewritable
        cases Option.some.inj (sentValue.symm.trans kept)
        exact ⟨_, moved, bytesOf, readMoved, named⟩
    | none =>
        rw [is] at kept
        rcases holds with none | replaced
        · refine ⟨_, portless, bytes_of_fromStr kept, read, ?_⟩
          rw [origin, ← none]
          rfl
        · obtain ⟨later, member, url, laterIs, rewritable⟩ :=
            replaced before last after values is
          have gone := dropped later member
          rw [transform_referer, laterIs] at gone
          exact absurd rewritable ((rewriteReferer_eq_none_iff crate http).1 gone)

/-- **Upstream origin.** The forwarded `Origin` and `Referer` name the origin of the upstream
exactly where that has no port of its own, or where no `Origin` comes and every `Referer` that
is no URL is replaced by one that is rewritten. -/
theorem namesUpstream_iff (crate : UrlCrateLaws urls portOrKnownDefault)
    (http : IsHttp urls upstream) :
    NamesUpstream urls upstream
        (sanitizeHeadersInner urls upstream
          (originFromUrl urls portOrKnownDefault upstream) headers).headers ↔
      urls.port upstream = none ∨
        (headers.getAll originName = [] ∧ ReferersReplaced urls (headers.getAll refererName)) := by
  have origin := originSent_iff headers crate http
  have referer := refererSent_iff headers crate http
  constructor
  · intro named
    rcases origin.1 named.origin with none | absent
    · exact Or.inl none
    · rcases referer.1 named.referer with none | replaced
      · exact Or.inl none
      · exact Or.inr ⟨absent, replaced⟩
  · rintro (none | ⟨absent, replaced⟩)
    · exact { origin := origin.2 (Or.inl none), referer := referer.2 (Or.inl none) }
    · exact { origin := origin.2 (Or.inr absent), referer := referer.2 (Or.inr replaced) }

end

/-! ### An upstream with a port of its own -/

/-- The pages of the upstream and of the proxy, at the default port or at 8443. -/
structure Page where
  upstream : Bool
  ownPort : Bool
deriving DecidableEq

namespace Page

def host (page : Page) : String := if page.upstream then "mcp.tavily.com" else "proxy.local"

def port (page : Page) : Option Nat := if page.ownPort then some 8443 else none

def portOrKnownDefault (page : Page) : Option Nat := some (page.port.getD 443)

def plain (page : Page) : String := "https://" ++ page.host

def text (page : Page) : String :=
  page.plain ++ (if page.ownPort then ":8443" else "") ++ "/"

/-- Only the slash of the path may be left out. -/
def read (text : String) : Option Page :=
  [⟨true, true⟩, ⟨true, false⟩, ⟨false, true⟩, ⟨false, false⟩].find? fun page : Page =>
    page.text = text || (!page.ownPort && page.plain = text)

theorem read_text (page : Page) : read page.text = some page := by
  rcases page with ⟨_ | _, _ | _⟩ <;> decide

theorem read_plain (page : Page) : read page.plain = some { page with ownPort := false } := by
  rcases page with ⟨_ | _, _ | _⟩ <;> decide

theorem noControls_host (page : Page) : NoControls page.host := by
  apply noControls_of_all
  rcases page with ⟨_ | _, _ | _⟩ <;> decide

theorem noControls_text (page : Page) : NoControls page.text := by
  apply noControls_of_all
  rcases page with ⟨_ | _, _ | _⟩ <;> decide

end Page

def pageUrls : UrlCrate where
  Url := Page
  parse := Page.read
  asStr := Page.text
  scheme _ := "https"
  hostStr page := some page.host
  port := Page.port
  path _ := "/"
  setScheme page scheme := if scheme = "https" then some page else none
  setHost page host :=
    if host = some "mcp.tavily.com" then some { page with upstream := true }
    else if host = some "proxy.local" then some { page with upstream := false }
    else none
  setPort page port :=
    if port = none then some { page with ownPort := false }
    else if port = some 8443 then some { page with ownPort := true }
    else none
  setPath page _ := page

theorem pageUrls_laws : UrlCrateLaws pageUrls Page.portOrKnownDefault where
  explicitPort page port has := by
    have same : page.port = some port := has
    simp [Page.portOrKnownDefault, same]
  host _ _ := rfl
  text := Page.noControls_text
  hostText page host has := by
    cases has
    exact page.noControls_host
  parsed page _ := page.read_text
  plain page _ := by
    refine ⟨{ page with ownPort := false }, ?_, rfl⟩
    have text : { pageUrls.origin page with port := none : UrlOrigin }.text = page.plain := by
      rcases page with ⟨_ | _, _ | _⟩ <;> decide
    rw [text]
    exact page.read_plain
  unmoved _ _ _ fixed := absurd ⟨List.mem_of_elem_eq_true rfl, rfl⟩ fixed
  setScheme page _ _ _ := ⟨page, rfl, rfl⟩
  setHost page upstream _ _ := by
    refine ⟨{ page with upstream := upstream.upstream }, ?_, rfl, rfl⟩
    rcases upstream with ⟨_ | _, _⟩ <;> rfl
  setPort page upstream _ _ := by
    refine ⟨{ page with ownPort := upstream.ownPort }, ?_, rfl, rfl, rfl⟩
    rcases upstream with ⟨_, _ | _⟩ <;> rfl
  setPath _ _ := rfl

def originHeader : HeaderValue where
  bytes := utf8Bytes "https://proxy.local"
  valid := by decide +kernel

def refererHeader : HeaderValue where
  bytes := utf8Bytes "https://proxy.local/"
  valid := by decide +kernel

/-- `Origin: https://proxy.local` and `Referer: https://proxy.local/`. -/
def pageHeaders : HeaderMap :=
  (MultiMap.empty.append originName originHeader).append refererName refererHeader

theorem namesUpstream_iff_default :
    NamesUpstream pageUrls ⟨true, false⟩
      (sanitizeHeadersInner pageUrls ⟨true, false⟩
        (originFromUrl pageUrls Page.portOrKnownDefault ⟨true, false⟩) pageHeaders).headers :=
  (namesUpstream_iff pageHeaders pageUrls_laws (Or.inr rfl)).2 (Or.inl rfl)

/-- With the upstream `https://mcp.tavily.com:8443/` the port is lost. -/
theorem ownPort_isLost :
    UrlCrateLaws pageUrls Page.portOrKnownDefault ∧ IsHttp pageUrls ⟨true, true⟩ ∧
      ¬NamesUpstream pageUrls ⟨true, true⟩
        (sanitizeHeadersInner pageUrls ⟨true, true⟩
          (originFromUrl pageUrls Page.portOrKnownDefault ⟨true, true⟩) pageHeaders).headers := by
  refine ⟨pageUrls_laws, Or.inr rfl, ?_⟩
  intro named
  rcases (originSent_iff pageHeaders pageUrls_laws (Or.inr rfl)).1 named.origin with none | absent
  · cases none
  · revert absent
    decide +kernel

end TavilyHikari.Analysis
