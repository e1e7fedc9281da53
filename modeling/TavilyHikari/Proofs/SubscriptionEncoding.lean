/-
Module: TavilyHikari.Proofs.SubscriptionEncoding
Purpose: A subscription in base64 and the same subscription in plain text: the proxy URLs are
  the same always, the answer to the fetch exactly where the text has no section of a
  configuration file.
Trusted boundary: none
Main exports: EncodesBody, decodeSubscriptionPayload_encoded, subscriptionEncoding_iff
-/
import TavilyHikari.ForwardProxy.SubscriptionBody
import TavilyHikari.Proofs.NativeProxyUrls

namespace TavilyHikari.ForwardProxy

open Library

variable {parsers : ProxyParsers} {decode : Base64Decoder}

/-! ### Plain texts -/

/-- The sections are words of lines. -/
theorem unsupportedStructure_eq (raw : String) :
    subscriptionBodyUsesUnsupportedStructure raw =
      ((wordsOf (fun c => c = '\n') isWhiteSpace raw.toList).map String.ofList).any
        fun line => line ∈ unsupportedSections := by
  rw [← words_lines, subscriptionBodyUsesUnsupportedStructure, List.any_filter]
  congr 1
  funext line
  by_cases section' : line ∈ unsupportedSections
  · have shown : ∀ line ∈ unsupportedSections, line.toList.isEmpty = false := by decide
    simp [section', shown line section']
  · simp [section']

theorem unsupportedStructure_trim (raw : String) :
    subscriptionBodyUsesUnsupportedStructure (trim raw) =
      subscriptionBodyUsesUnsupportedStructure raw := by
  rw [unsupportedStructure_eq, unsupportedStructure_eq, trim, String.toList_ofList,
    wordsOf_trimChars]

theorem contains_trim_link (raw : String) : contains (trim raw) "://" = contains raw "://" := by
  have trimmed : Trimmed isWhiteSpace [':', '/', '/'] := ⟨by decide, by decide⟩
  have nonempty : [':', '/', '/'] ≠ [] := by decide
  have chars : "://".toList = [':', '/', '/'] := rfl
  rw [Bool.eq_iff_iff, contains_iff, contains_iff, chars, trim, String.toList_ofList]
  exact infix_trimChars_iff nonempty trimmed

theorem ne_empty_of_link {text : String} (link : contains text "://" = true) : text ≠ "" := by
  rintro rfl
  exact absurd link (by decide)

/-- A text with a link in it is read as it is. -/
theorem decodeSubscriptionPayload_plain {text : String} (link : contains text "://" = true) :
    decodeSubscriptionPayload decode text = trim text := by
  rw [← contains_trim_link] at link
  unfold decodeSubscriptionPayload
  simp only [ne_empty_of_link link, if_false, link, Bool.true_or, if_true]

theorem parseProxyUrls_of_decoded {raw text : String}
    (decoded : decodeSubscriptionPayload decode raw = text) :
    parseProxyUrlsFromSubscriptionBody parsers decode raw =
      if subscriptionBodyUsesUnsupportedStructure text then []
      else normalizeProxyUrlEntries parsers [text] := by
  unfold parseProxyUrlsFromSubscriptionBody
  simp only [decoded]

theorem parseProxyUrls_plain {text : String} (link : contains text "://" = true) :
    parseProxyUrlsFromSubscriptionBody parsers decode text =
      if subscriptionBodyUsesUnsupportedStructure text then []
      else normalizeProxyUrlEntries parsers [text] := by
  rw [parseProxyUrls_of_decoded (decodeSubscriptionPayload_plain link), unsupportedStructure_trim,
    normalizeProxyUrlEntries, normalizeProxyUrlEntries, List.flatMap_singleton,
    List.flatMap_singleton, entryForms_trim]

/-! ### Encoded texts -/

/-- The body is the text in base64, in one of the engines, with any ASCII white space in it. -/
def EncodesBody (engine : Base64Config) (text body : String) : Prop :=
  (withoutAsciiWhitespace body).toList = engine.encode text.toUTF8.data.toList

/-- What an encoded body is written with. -/
theorem char_of_encodesBody {engine : Base64Config} {text body : String}
    (encodes : EncodesBody engine text body) {c : Char} (member : c ∈ body.toList) :
    c ≠ ':' ∧ (isWhiteSpace c = true → isAsciiWhitespace c = true) := by
  by_cases blank : isAsciiWhitespace c = true
  · refine ⟨?_, fun _ => blank⟩
    rintro rfl
    exact absurd blank (by decide)
  · have kept : c ∈ engine.encode text.toUTF8.data.toList := by
      rw [← encodes, withoutAsciiWhitespace, String.toList_ofList, List.mem_filter]
      exact ⟨member, by simpa using blank⟩
    have letters : ∀ urlSafe, ∀ n < 64, sextetChar urlSafe n ≠ ':' ∧
        isWhiteSpace (sextetChar urlSafe n) = false := by
      decide
    rcases Base64Config.mem_encode kept with rfl | ⟨n, small, rfl⟩
    · exact ⟨by decide, fun white => absurd white (by decide)⟩
    · obtain ⟨other, dark⟩ := letters engine.urlSafe n small
      refine ⟨other, fun white => ?_⟩
      rw [dark] at white
      cases white

theorem filter_trimChars {p q : Char → Bool} {l : List Char}
    (drops : ∀ c ∈ l, q c = true → p c = false) : (trimChars q l).filter p = l.filter p := by
  have start (l : List Char) (drops : ∀ c ∈ l, q c = true → p c = false) :
      (l.dropWhile q).filter p = l.filter p := by
    induction l with
    | nil => rfl
    | cons c l ih =>
        rw [List.forall_mem_cons] at drops
        by_cases here : q c = true
        · rw [List.dropWhile_cons_of_pos here, ih drops.2,
            List.filter_cons_of_neg (by simp [drops.1 here])]
        · rw [List.dropWhile_cons_of_neg here]
  have backwards : ∀ c ∈ (l.dropWhile q).reverse, q c = true → p c = false := fun c member =>
    drops c ((List.dropWhile_suffix q).subset (List.mem_reverse.1 member))
  rw [trimChars, List.rdropWhile, List.filter_reverse, start _ backwards, List.filter_reverse,
    List.reverse_reverse, start l drops]

theorem notMem_colon_of_encodesBody {engine : Base64Config} {text body : String}
    (encodes : EncodesBody engine text body) : ':' ∉ body.toList :=
  fun member => (char_of_encodesBody encodes member).1 rfl

theorem mem_colon_of_contains {text : String} (link : contains text "://" = true) :
    ':' ∈ text.toList := by
  have chars : "://".toList = [':', '/', '/'] := rfl
  rw [contains_iff, chars] at link
  exact link.subset List.mem_cons_self

/-- No line of an encoded body is a section. -/
theorem unsupportedStructure_encoded {engine : Base64Config} {text body : String}
    (encodes : EncodesBody engine text body) :
    subscriptionBodyUsesUnsupportedStructure body = false := by
  rw [unsupportedStructure_eq, List.any_eq_false]
  intro line member section'
  obtain ⟨word, among, rfl⟩ := List.mem_map.1 member
  have colons : ∀ line ∈ unsupportedSections, ':' ∈ line.toList := by decide
  have colon := colons _ (of_decide_eq_true section')
  rw [String.toList_ofList] at colon
  exact notMem_colon_of_encodesBody encodes (mem_of_mem_wordsOf among ':' colon)

/-- An encoded body is decoded to the text, by whichever engine accepts it first. -/
theorem decodeSubscriptionPayload_encoded (crate : Base64Crate decode) {engine : Base64Config}
    {text body : String} (link : contains text "://" = true)
    (encodes : EncodesBody engine text body) : decodeSubscriptionPayload decode body = text := by
  have compact : withoutAsciiWhitespace (trim body) = withoutAsciiWhitespace body := by
    rw [withoutAsciiWhitespace, withoutAsciiWhitespace, trim, String.toList_ofList,
      filter_trimChars]
    intro c member white
    rw [(char_of_encodesBody encodes member).2 white]
    rfl
  have colonless : ':' ∉ (trim body).toList := by
    rw [trim, String.toList_ofList]
    intro member
    have dropped : ':' ∈ body.toList.dropWhile isWhiteSpace :=
      (List.rdropWhile_prefix isWhiteSpace _).subset member
    exact notMem_colon_of_encodesBody encodes ((List.dropWhile_suffix _).subset dropped)
  have whole : contains (trim body) "://" = false := by
    rw [Bool.eq_false_iff]
    exact fun found => colonless (mem_colon_of_contains found)
  have inLines : ((lines (trim body)).filter fun line => trim line ≠ "").any
      (contains · "://") = false := by
    rw [List.any_eq_false]
    intro line member found
    exact colonless (mem_of_mem_lines (List.mem_filter.1 member).1 ':' (mem_colon_of_contains found))
  have nonempty : trim body ≠ "" := by
    intro empty
    have none : engine.encode text.toUTF8.data.toList = [] := by
      rw [← encodes, ← compact, empty]
      rfl
    rw [Base64Config.encode_eq_nil_iff, Array.toList_eq_nil_iff] at none
    have bytes : text.toUTF8.isEmpty = false := isEmpty_toUTF8 (ne_empty_of_link link)
    rw [ByteArray.isEmpty, ByteArray.size, none] at bytes
    cases bytes
  have takes : (String.fromUTF8? text.toUTF8).filter (contains · "://") = some text := by
    rw [fromUTF8?_toUTF8, Option.filter_some, if_pos link]
  have each : (fun engine => ((decode engine (withoutAsciiWhitespace body)).bind
      String.fromUTF8?).filter (contains · "://")) = fun engine =>
        (decode engine (withoutAsciiWhitespace body)).bind fun bytes =>
          (String.fromUTF8? bytes).filter (contains · "://") := by
    funext engine
    cases decode engine (withoutAsciiWhitespace body) with
    | none => simp only [Option.bind_none, Option.filter_none]
    | some bytes => simp only [Option.bind_some]
  have found : (base64Engines.findSome? fun engine =>
      ((decode engine (withoutAsciiWhitespace body)).bind String.fromUTF8?).filter
        (contains · "://")) = some text := by
    rw [each]
    exact findSome?_of_encoding crate _ encodes takes
  unfold decodeSubscriptionPayload
  simp only [nonempty, if_false, whole, inLines, Bool.or_self, Bool.false_eq_true, compact, found,
    Option.getD_some]

/-- The proxy URLs do not depend on the encoding. -/
theorem parseProxyUrls_encoded (crate : Base64Crate decode) {engine : Base64Config}
    {text body : String} (link : contains text "://" = true)
    (encodes : EncodesBody engine text body) :
    parseProxyUrlsFromSubscriptionBody parsers decode body =
      parseProxyUrlsFromSubscriptionBody parsers decode text := by
  rw [parseProxyUrls_of_decoded (decodeSubscriptionPayload_encoded crate link encodes),
    parseProxyUrls_plain link]

/-- For every text with a link in it and every encoding of it. -/
theorem subscriptionEncoding_iff (crate : Base64Crate decode) (engine : Base64Config)
    (text body : String) (link : contains text "://" = true)
    (encodes : EncodesBody engine text body) :
    (parseProxyUrlsFromSubscriptionBody parsers decode body =
        parseProxyUrlsFromSubscriptionBody parsers decode text ∧
      fetchedProxyUrls parsers decode body = fetchedProxyUrls parsers decode text) ↔
        subscriptionBodyUsesUnsupportedStructure text = false := by
  have urls : parseProxyUrlsFromSubscriptionBody parsers decode body =
      parseProxyUrlsFromSubscriptionBody parsers decode text :=
    parseProxyUrls_encoded crate link encodes
  rw [and_iff_right urls, fetchedProxyUrls, fetchedProxyUrls, urls,
    unsupportedStructure_encoded encodes]
  cases structure' : subscriptionBodyUsesUnsupportedStructure text with
  | false => simp
  | true =>
      have none : parseProxyUrlsFromSubscriptionBody parsers decode text = [] := by
        rw [parseProxyUrls_plain link, structure', if_pos rfl]
      simp [none]

/-- A subscription of one link, encoded with a line feed in it. -/
theorem subscriptionEncoding_iff_link :
    contains "http://proxy.test:8080" "://" = true ∧
      fetchedProxyUrls ⟨soleUrl ⟨"http", "", none, "proxy.test", 8080⟩, fun _ => false,
          fun _ => false⟩ referenceDecoder "aHR0cDovL3By\nb3h5LnRlc3Q6ODA4MA==" =
        fetchedProxyUrls ⟨soleUrl ⟨"http", "", none, "proxy.test", 8080⟩, fun _ => false,
          fun _ => false⟩ referenceDecoder "http://proxy.test:8080" := by
  have link : contains "http://proxy.test:8080" "://" = true := by decide
  have encodes : EncodesBody ⟨false, true⟩ "http://proxy.test:8080"
      "aHR0cDovL3By\nb3h5LnRlc3Q6ODA4MA==" := by
    unfold EncodesBody
    decide
  exact ⟨link, ((subscriptionEncoding_iff base64Crate_referenceDecoder _ _ _ link encodes).2
    (by decide)).2⟩

/-- A configuration file: in plain text the fetch fails, in base64 it brings no proxies. -/
theorem configurationFile_isEmptySuccess :
    ∃ parsers text body, contains text "://" = true ∧ EncodesBody ⟨false, true⟩ text body ∧
      fetchedProxyUrls parsers referenceDecoder text =
        .error "subscription contains no supported proxy entries" ∧
      fetchedProxyUrls parsers referenceDecoder body = .ok [] ∧
      ¬(parseProxyUrlsFromSubscriptionBody parsers referenceDecoder body =
          parseProxyUrlsFromSubscriptionBody parsers referenceDecoder text ∧
        fetchedProxyUrls parsers referenceDecoder body =
          fetchedProxyUrls parsers referenceDecoder text) := by
  have link : contains "proxies:\nurl: http://x" "://" = true := by decide
  have encodes : EncodesBody ⟨false, true⟩ "proxies:\nurl: http://x"
      "cHJveGllczoKdXJsOiBodHRwOi8veA==" := by
    unfold EncodesBody
    decide
  have empty : parseProxyUrlsFromSubscriptionBody ⟨fun _ => none, fun _ => false, fun _ => false⟩
      referenceDecoder "proxies:\nurl: http://x" = [] := by
    rw [parseProxyUrls_plain link]
    exact if_pos (by decide)
  have plain : fetchedProxyUrls ⟨fun _ => none, fun _ => false, fun _ => false⟩ referenceDecoder
      "proxies:\nurl: http://x" = .error "subscription contains no supported proxy entries" := by
    rw [fetchedProxyUrls, empty]
    exact if_pos (by decide)
  have encoded : fetchedProxyUrls ⟨fun _ => none, fun _ => false, fun _ => false⟩ referenceDecoder
      "cHJveGllczoKdXJsOiBodHRwOi8veA==" = .ok [] := by
    rw [fetchedProxyUrls, parseProxyUrls_encoded base64Crate_referenceDecoder link encodes, empty,
      unsupportedStructure_encoded encodes]
    rfl
  refine ⟨⟨fun _ => none, fun _ => false, fun _ => false⟩, _, _, link, encodes, plain, encoded, ?_⟩
  rintro ⟨-, same⟩
  rw [plain, encoded] at same
  cases same

end TavilyHikari.ForwardProxy
