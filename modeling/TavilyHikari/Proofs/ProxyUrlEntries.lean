/-
Module: TavilyHikari.Proofs.ProxyUrlEntries
Purpose: Lines of the settings that are links each: they become one entry each, and one
  endpoint, where no link has a separator in it; a share link that has one is cut.
Trusted boundary: none
Main exports: parseForwardProxyEntry_again, OneLinkOneEndpoint, Unseparated, Fragment, OnlyLink,
  normalized_cases, StaysWhole, oneLinkOneEndpoint_iff
-/
import TavilyHikari.ForwardProxy.Entries
import TavilyHikari.Proofs.NativeProxyUrls

namespace TavilyHikari.ForwardProxy

open Library

variable {parsers : ProxyParsers}

/-! ### Normal forms are read as themselves -/

/-- The schemes of share links. -/
def shareSchemes : List String := ["vmess", "vless", "trojan", "ss"]

theorem shareScheme_word : ∀ scheme ∈ shareSchemes,
    scheme.toList ≠ [] ∧ scheme.toList.dropWhile isWhiteSpace = scheme.toList ∧
      ':' ∉ scheme.toList ∧ toAsciiLowercase scheme = scheme := by
  decide

/-- The text of a normalized share link. -/
theorem normalizeShareLinkScheme_spec {candidate scheme normalized : String}
    (word : scheme ∈ shareSchemes)
    (link : normalizeShareLinkScheme candidate scheme = some normalized) :
    trim normalized = normalized ∧ normalized ≠ "" ∧
      (∃ rest, splitOnce "://" normalized = some (scheme, rest)) ∧
      normalizeShareLinkScheme normalized scheme = some normalized := by
  obtain ⟨nonempty, starts, free, -⟩ := shareScheme_word scheme word
  simp only [normalizeShareLinkScheme, Option.bind_eq_bind, Option.bind_eq_some_iff,
    Option.some.injEq, Option.guard_eq_some'] at link
  obtain ⟨⟨_, remainder⟩, _, _, long, rfl⟩ := link
  have chars : "://".toList = [':', '/', '/'] := rfl
  have split : splitOnce "://" (scheme ++ ("://" ++ trim remainder)) =
      some (scheme, trim remainder) := splitOnce_append chars free _
  have more : trim remainder ≠ "" := by
    intro empty
    rw [empty] at long
    simp only [String.utf8ByteSize_append] at long
    have three : "://".utf8ByteSize = 3 := rfl
    have zero : "".utf8ByteSize = 0 := rfl
    omega
  refine ⟨?_, ?_, ⟨_, split⟩, ?_⟩
  · rw [← String.append_assoc]
    refine trim_append ?_ (append_ne_empty nonempty _)
      (trimmed_of_trim (trim_trim remainder)).finish more
    rw [String.toList_append]
    exact dropWhile_of_prefix (List.prefix_append _ _) nonempty starts
  · exact append_ne_empty nonempty _
  · simp only [normalizeShareLinkScheme, split, Option.bind_eq_bind, Option.bind_some, trim_trim]
    rw [guard, if_pos long]
    rfl

/-- A normalized share link is handed to the parser of its scheme. -/
theorem parseForwardProxyEntry_shareLink {candidate scheme normalized : String}
    (word : scheme ∈ shareSchemes)
    (link : normalizeShareLinkScheme candidate scheme = some normalized) :
    parseForwardProxyEntry parsers normalized =
      if scheme = "vmess" then parseVmessForwardProxy parsers normalized
      else if scheme = "vless" then parseVlessForwardProxy parsers normalized
      else if scheme = "trojan" then parseTrojanForwardProxy parsers normalized
      else if scheme = "ss" then parseShadowsocksForwardProxy parsers normalized
      else none := by
  obtain ⟨trimmed, text, ⟨rest, split⟩, -⟩ := normalizeShareLinkScheme_spec word link
  have lower : toAsciiLowercase scheme = scheme := (shareScheme_word scheme word).2.2.2
  have foreign : ∀ scheme ∈ shareSchemes,
      scheme ∉ ["http", "https", "socks5", "socks5h", "socks"] := by
    decide
  unfold parseForwardProxyEntry
  simp only [trimmed, text, if_false, split, lower, foreign scheme word]

theorem parsePayloadShareLink_again {accepts : String → Bool} {candidate scheme : String}
    {protocol : ForwardProxyProtocol} {entry : ParsedForwardProxyEntry}
    (word : scheme ∈ shareSchemes)
    (becomes : parsePayloadShareLink accepts candidate scheme protocol = some entry) :
    normalizeShareLinkScheme candidate scheme = some entry.normalized ∧
      parsePayloadShareLink accepts entry.normalized scheme protocol = some entry := by
  simp only [parsePayloadShareLink, Option.bind_eq_bind, Option.bind_eq_some_iff,
    Option.some.injEq] at becomes
  obtain ⟨normalized, link, _, accepted, rfl⟩ := becomes
  refine ⟨link, ?_⟩
  obtain ⟨-, -, -, again⟩ := normalizeShareLinkScheme_spec word link
  simp only [parsePayloadShareLink, again, Option.bind_eq_bind, Option.bind_some, accepted]

theorem parseUrlShareLink_again {candidate scheme : String} {protocol : ForwardProxyProtocol}
    {entry : ParsedForwardProxyEntry} (word : scheme ∈ shareSchemes)
    (becomes : parseUrlShareLink parsers candidate scheme protocol = some entry) :
    normalizeShareLinkScheme candidate scheme = some entry.normalized ∧
      parseUrlShareLink parsers entry.normalized scheme protocol = some entry := by
  simp only [parseUrlShareLink, Option.bind_eq_bind, Option.bind_eq_some_iff,
    Option.some.injEq] at becomes
  obtain ⟨normalized, link, url, parsed, host, named, port, given, rfl⟩ := becomes
  refine ⟨link, ?_⟩
  obtain ⟨-, -, -, again⟩ := normalizeShareLinkScheme_spec word link
  simp only [parseUrlShareLink, again, Option.bind_eq_bind, Option.bind_some, parsed, named, given]

/-- The normal form of any entry is read as itself. -/
theorem parseForwardProxyEntry_again (crate : UrlCrate parsers.parseUrl) {raw : String}
    {entry : ParsedForwardProxyEntry}
    (becomes : parseForwardProxyEntry parsers raw = some entry) :
    ∃ again, parseForwardProxyEntry parsers entry.normalized = some again ∧
      again.normalized = entry.normalized := by
  unfold parseForwardProxyEntry at becomes
  simp only at becomes
  split at becomes
  · cases becomes
  · split at becomes
    · exact parseNative_again crate becomes
    · split_ifs at becomes
      · exact parseNative_again crate becomes
      · obtain ⟨link, again⟩ := parsePayloadShareLink_again (by decide) becomes
        exact ⟨entry, (parseForwardProxyEntry_shareLink (by decide) link).trans again, rfl⟩
      · obtain ⟨link, again⟩ := parseUrlShareLink_again (by decide) becomes
        exact ⟨entry, (parseForwardProxyEntry_shareLink (by decide) link).trans again, rfl⟩
      · obtain ⟨link, again⟩ := parseUrlShareLink_again (by decide) becomes
        exact ⟨entry, (parseForwardProxyEntry_shareLink (by decide) link).trans again, rfl⟩
      · obtain ⟨link, again⟩ := parsePayloadShareLink_again (by decide) becomes
        exact ⟨entry, (parseForwardProxyEntry_shareLink (by decide) link).trans again, rfl⟩

/-! ### Lines that stay whole -/

/-- The normal form of the link that a line is. -/
def linkForm (parsers : ProxyParsers) (line : String) : Option String :=
  (parseForwardProxyEntry parsers line).map ParsedForwardProxyEntry.normalized

/-- Every link becomes one entry, the entries stay as they are, and each becomes one endpoint. -/
structure OneLinkOneEndpoint (parsers : ProxyParsers) (lines : List String) : Prop where
  exactly : normalizeProxyUrlEntries parsers lines =
    freshKeyed id [] (lines.filterMap (linkForm parsers))
  again : normalizeProxyUrlEntries parsers (normalizeProxyUrlEntries parsers lines) =
    normalizeProxyUrlEntries parsers lines
  endpoints : (normalizeProxyEndpointsFromUrls parsers
      (normalizeProxyUrlEntries parsers lines)).map ForwardProxyEndpoint.key =
    normalizeProxyUrlEntries parsers lines

/-! ### Texts between separators -/

/-- The characters that settings are cut at. -/
def separators : List Char := ['\n', ',', ';']

def Unseparated (text : String) : Prop := ∀ c ∈ text.toList, c ∉ separators

/-- A part of a text without a separator in it, and a separator or an end of the text on each
side. -/
def Fragment (part text : String) : Prop :=
  ∃ before after, text.toList = before ++ (part.toList ++ after) ∧ Unseparated part ∧
    (∀ c ∈ before.getLast?, c ∈ separators) ∧ ∀ c ∈ after.head?, c ∈ separators

/-- What the settings skip. -/
def isComment (part : String) : Bool := startsWith "#" (trim part)

theorem isComment_trim (text : String) : isComment (trim text) = isComment text := by
  unfold isComment
  rw [trim_trim]

theorem unseparated_trim {text : String} (free : Unseparated text) : Unseparated (trim text) := by
  intro c inside
  rw [trim, String.toList_ofList, trimChars] at inside
  exact free c ((List.dropWhile_suffix _).subset ((List.rdropWhile_prefix _ _).subset inside))

theorem unseparated_append {front back : String} (first : Unseparated front)
    (second : Unseparated back) : Unseparated (front ++ back) := by
  intro c inside
  rw [String.toList_append, List.mem_append] at inside
  exact inside.elim (first c) (second c)

/-- The fragments are what the text is cut into. -/
theorem mem_splitAny_iff {part text : String} :
    part ∈ splitAny ['\n', ',', ';'] text ↔ Fragment part text := by
  have cut (c : Char) : ['\n', ',', ';'].contains c = true ↔ c ∈ separators := List.contains_iff_mem
  have kept (c : Char) : ['\n', ',', ';'].contains c = false ↔ c ∉ separators := by
    rw [← cut, Bool.not_eq_true]
  have listed : part ∈ splitAny ['\n', ',', ';'] text ↔
      part.toList ∈ text.toList.splitOnP fun c => ['\n', ',', ';'].contains c := by
    rw [splitAny, List.mem_map]
    constructor
    · rintro ⟨piece, among, rfl⟩
      rwa [String.toList_ofList]
    · intro among
      exact ⟨part.toList, among, String.ofList_toList⟩
  simp only [listed, mem_splitOnP_iff, BetweenCuts, Fragment, Unseparated, cut, kept]

theorem parseForwardProxyEntry_trim (raw : String) :
    parseForwardProxyEntry parsers (trim raw) = parseForwardProxyEntry parsers raw := by
  unfold parseForwardProxyEntry
  rw [trim_trim]

theorem trim_ne_empty {raw : String} {entry : ParsedForwardProxyEntry}
    (becomes : parseForwardProxyEntry parsers raw = some entry) : trim raw ≠ "" := by
  intro empty
  unfold parseForwardProxyEntry at becomes
  simp only [empty, if_true] at becomes
  cases becomes

theorem mem_splitProxyEntryTokens_iff {token text : String} :
    token ∈ splitProxyEntryTokens text ↔
      ∃ part, Fragment part text ∧ isComment part = false ∧ trim part = token ∧ token ≠ "" := by
  rw [splitProxyEntryTokens, List.mem_filter, List.mem_map]
  simp only [mem_splitAny_iff, Bool.and_eq_true, decide_eq_true_eq, Bool.not_eq_true', isComment]
  constructor
  · rintro ⟨⟨part, between, rfl⟩, nonempty, shown⟩
    exact ⟨part, between, shown, rfl, nonempty⟩
  · rintro ⟨part, between, shown, rfl, nonempty⟩
    exact ⟨⟨part, between, rfl⟩, nonempty, shown⟩

/-- The entries of a text are its fragments that are links. -/
theorem mem_entryForms_iff {form text : String} :
    form ∈ entryForms parsers text ↔
      ∃ part entry, Fragment part text ∧ isComment part = false ∧
        parseForwardProxyEntry parsers part = some entry ∧ entry.normalized = form := by
  simp only [entryForms, List.mem_filterMap, Option.map_eq_some_iff]
  constructor
  · rintro ⟨token, among, entry, becomes, same⟩
    obtain ⟨part, between, shown, rfl, -⟩ := mem_splitProxyEntryTokens_iff.1 among
    rw [parseForwardProxyEntry_trim] at becomes
    exact ⟨part, entry, between, shown, becomes, same⟩
  · rintro ⟨part, entry, between, shown, becomes, same⟩
    refine ⟨trim part, ?_, entry, ?_, same⟩
    · exact mem_splitProxyEntryTokens_iff.2 ⟨part, between, shown, rfl, trim_ne_empty becomes⟩
    · rw [parseForwardProxyEntry_trim, becomes]

/-- Some fragment of the text is a link, and all that are have the one normal form. -/
structure OnlyLink (parsers : ProxyParsers) (text form : String) : Prop where
  one : ∃ part, Fragment part text ∧ isComment part = false ∧
    (parseForwardProxyEntry parsers part).isSome
  only : ∀ part entry, Fragment part text → isComment part = false →
    parseForwardProxyEntry parsers part = some entry → entry.normalized = form

theorem onlyLink_iff {text form : String} :
    OnlyLink parsers text form ↔
      entryForms parsers text ≠ [] ∧ ∀ piece ∈ entryForms parsers text, piece = form := by
  constructor
  · rintro ⟨⟨part, between, shown, read⟩, only⟩
    obtain ⟨entry, becomes⟩ := Option.isSome_iff_exists.1 read
    constructor
    · exact List.ne_nil_of_mem (mem_entryForms_iff.2 ⟨part, entry, between, shown, becomes, rfl⟩)
    · intro piece inside
      obtain ⟨part, entry, between, shown, becomes, rfl⟩ := mem_entryForms_iff.1 inside
      exact only part entry between shown becomes
  · rintro ⟨some, only⟩
    obtain ⟨piece, inside⟩ := List.exists_mem_of_ne_nil _ some
    obtain ⟨part, entry, between, shown, becomes, -⟩ := mem_entryForms_iff.1 inside
    constructor
    · exact ⟨part, between, shown, by rw [becomes]; rfl⟩
    · intro part entry between shown becomes
      exact only _ (mem_entryForms_iff.2 ⟨part, entry, between, shown, becomes, rfl⟩)

/-- A link without a separator is its own one fragment. -/
theorem onlyLink_of_unseparated {text form : String} (known : linkForm parsers text = some form)
    (free : Unseparated (trim text)) (shown : isComment text = false) :
    OnlyLink parsers text form := by
  obtain ⟨entry, becomes, rfl⟩ := Option.map_eq_some_iff.1 known
  have single : splitAny ['\n', ',', ';'] (trim text) = [trim text] := splitAny_of_free free
  have whole (part : String) : Fragment part (trim text) ↔ part = trim text := by
    rw [← mem_splitAny_iff, single, List.mem_singleton]
  rw [onlyLink_iff, ← entryForms_trim, ← onlyLink_iff]
  constructor
  · refine ⟨trim text, (whole (trim text)).2 (Eq.refl (trim text)), ?_, ?_⟩
    · exact (isComment_trim text).trans shown
    · rw [parseForwardProxyEntry_trim, becomes, Option.isSome_some]
  · intro part entry' between _ becomes'
    rw [(whole part).1 between, parseForwardProxyEntry_trim, becomes] at becomes'
    cases becomes'
    rfl

/-! ### Share links -/

/-- A link of a scheme that is not the one of a proxy URL. -/
def IsShareLink (line : String) : Prop :=
  ∃ scheme rest, trim line = scheme ++ ("://" ++ rest) ∧ toAsciiLowercase scheme ∈ shareSchemes

theorem native_normalized {candidate : String} {entry : ParsedForwardProxyEntry}
    (becomes : parseNativeForwardProxy parsers candidate = some entry) :
    ∃ scheme rest, scheme ∈ nativeSchemes ∧ entry.normalized = scheme ++ ("://" ++ rest) := by
  simp only [parseNativeForwardProxy, Option.bind_eq_bind, Option.bind_eq_some_iff,
    Option.some.injEq] at becomes
  obtain ⟨url, _, ⟨protocol, scheme⟩, known, host, _, port, _, endpointUrl, _, rfl⟩ := becomes
  refine ⟨scheme, userInfo url ++ normalizedHost host ++ ":" ++ toString port, ?_, ?_⟩
  · unfold nativeProtocol at known
    split_ifs at known <;> cases known <;> decide
  · simp only [String.append_assoc]

/-- The normal form of a share link that a parser of its scheme accepts. -/
theorem share_normalized {raw scheme : String} {entry : ParsedForwardProxyEntry}
    (link : normalizeShareLinkScheme raw scheme = some entry.normalized) :
    ∀ before rest, splitOnce "://" raw = some (before, rest) →
      entry.normalized = scheme ++ ("://" ++ trim rest) := by
  intro before rest split
  simp only [normalizeShareLinkScheme, split, Option.bind_eq_bind, Option.bind_some,
    Option.bind_eq_some_iff, Option.some.injEq] at link
  obtain ⟨_, _, text⟩ := link
  exact text.symm

theorem splitOnce_of_share {line scheme rest : String}
    (text : trim line = scheme ++ ("://" ++ rest)) (word : toAsciiLowercase scheme ∈ shareSchemes) :
    splitOnce "://" (trim line) = some (scheme, rest) := by
  have chars : "://".toList = [':', '/', '/'] := rfl
  have free : ':' ∉ scheme.toList := by
    rw [← mem_toAsciiLowercase (by decide)]
    exact (shareScheme_word _ word).2.2.1
  rw [text, splitOnce_append chars free]

/-- The schemes are of one kind. -/
theorem nativeScheme_notMem : ∀ scheme ∈ nativeSchemes, scheme ∉ shareSchemes := by
  decide

/-- What a link becomes: a share link its scheme in lower case and its rest trimmed, any other
a URL of a native scheme. -/
theorem normalized_cases {raw : String} {entry : ParsedForwardProxyEntry}
    (becomes : parseForwardProxyEntry parsers raw = some entry) :
    (∃ scheme rest, trim raw = scheme ++ ("://" ++ rest) ∧ toAsciiLowercase scheme ∈ shareSchemes ∧
      entry.normalized = toAsciiLowercase scheme ++ ("://" ++ trim rest)) ∨
    ¬IsShareLink raw ∧
      ∃ scheme rest, scheme ∈ nativeSchemes ∧ entry.normalized = scheme ++ ("://" ++ rest) := by
  unfold parseForwardProxyEntry at becomes
  simp only at becomes
  split at becomes
  · cases becomes
  · split at becomes
    case h_1 split =>
      refine .inr ⟨?_, native_normalized becomes⟩
      rintro ⟨scheme, rest, text, word⟩
      rw [splitOnce_of_share text word] at split
      cases split
    case h_2 schemeRaw rest split =>
      have text := eq_of_splitOnce split
      split_ifs at becomes with native vmess vless trojan ss
      · refine .inr ⟨?_, native_normalized becomes⟩
        rintro ⟨scheme, rest', text', word⟩
        rw [splitOnce_of_share text' word] at split
        cases split
        exact nativeScheme_notMem _ native word
      · obtain ⟨link, -⟩ := parsePayloadShareLink_again (by decide) becomes
        exact .inl ⟨schemeRaw, rest, text, by rw [vmess]; decide,
          by rw [vmess]; exact share_normalized link _ _ split⟩
      · obtain ⟨link, -⟩ := parseUrlShareLink_again (by decide) becomes
        exact .inl ⟨schemeRaw, rest, text, by rw [vless]; decide,
          by rw [vless]; exact share_normalized link _ _ split⟩
      · obtain ⟨link, -⟩ := parseUrlShareLink_again (by decide) becomes
        exact .inl ⟨schemeRaw, rest, text, by rw [trojan]; decide,
          by rw [trojan]; exact share_normalized link _ _ split⟩
      · obtain ⟨link, -⟩ := parsePayloadShareLink_again (by decide) becomes
        exact .inl ⟨schemeRaw, rest, text, by rw [ss]; decide,
          by rw [ss]; exact share_normalized link _ _ split⟩

/-- The number of characters of a text that are not white space. -/
def solid (text : String) : ℕ := text.toList.countP fun c => !isWhiteSpace c

theorem solid_trim (text : String) : solid (trim text) = solid text := by
  rw [solid, trim, String.toList_ofList, countP_trimChars, solid]

theorem solid_toAsciiLowercase (text : String) : solid (toAsciiLowercase text) = solid text := by
  rw [solid, toAsciiLowercase, String.toList_ofList, List.countP_map, solid]
  congr 1
  funext c
  rw [Function.comp_apply, isWhiteSpace_toLower]

theorem solid_append (front back : String) : solid (front ++ back) = solid front + solid back := by
  rw [solid, String.toList_append, List.countP_append, solid, solid]

/-- A scheme is no prefix of another one before `://`. -/
theorem scheme_unique {scheme other rest more : String}
    (same : scheme ++ ("://" ++ rest) = other ++ ("://" ++ more)) (free : ':' ∉ scheme.toList)
    (free' : ':' ∉ other.toList) : scheme = other := by
  have chars : "://".toList = [':', '/', '/'] := rfl
  have first := splitOnce_append chars free rest
  rw [same, splitOnce_append chars free' more] at first
  cases first
  rfl

/-- Links of one share form have as many characters. -/
theorem solid_of_share {raw scheme rest : String} {entry : ParsedForwardProxyEntry}
    (becomes : parseForwardProxyEntry parsers raw = some entry) (word : scheme ∈ shareSchemes)
    (form : entry.normalized = scheme ++ ("://" ++ rest)) : solid raw = solid entry.normalized := by
  have free := (shareScheme_word scheme word).2.2.1
  rcases normalized_cases becomes with
    ⟨written, tail, text, _, form'⟩ | ⟨_, native, tail, among, form'⟩
  · rw [form', ← solid_trim raw, text]
    simp only [solid_append, solid_toAsciiLowercase, solid_trim]
  · rw [form] at form'
    have same := scheme_unique form' free (nativeScheme_word native among).2.2.1
    exact absurd (same ▸ word) (nativeScheme_notMem native among)

/-- A share link that keeps its form through the settings has no separator. -/
theorem unseparated_of_onlyLink {line form : String} (known : linkForm parsers line = some form)
    (share : IsShareLink line) (kept : OnlyLink parsers line form) : Unseparated (trim line) := by
  obtain ⟨entry, becomes, rfl⟩ := Option.map_eq_some_iff.1 known
  obtain ⟨part, between, shown, read⟩ := kept.one
  obtain ⟨other, becomes'⟩ := Option.isSome_iff_exists.1 read
  have form := kept.only part other between shown becomes'
  rcases normalized_cases becomes with ⟨scheme, rest, text, word, normalized⟩ | ⟨native, -⟩
  · have all : solid line = solid part := by
      rw [solid_of_share becomes word normalized, ← form]
      exact (solid_of_share becomes' word (form.trans normalized)).symm
    obtain ⟨before, after, around, free, -, -⟩ := between
    rw [solid, around, solid] at all
    -- The fragment has all of the line, so around it there is white space only.
    obtain ⟨front, back⟩ := blank_of_countP_eq all
    have same : trim line = trim part := by
      rw [trim, around, trimChars_between front back, trim]
    rw [same]
    exact unseparated_trim free
  · exact absurd share native

/-! ### Lines that stay whole -/

theorem isComment_of_first {text : String} {c : Char} {more : List Char}
    (chars : text.toList = c :: more) (kept : isWhiteSpace c = false) (other : c ≠ '#') :
    isComment text = false := by
  have trimmed : Trimmed isWhiteSpace [c] := by
    constructor
    · exact List.dropWhile_cons_of_neg (by simp [kept])
    · exact List.rdropWhile_concat_neg isWhiteSpace [] c (by simp [kept])
  have starts : [c] <+: text.toList := ⟨more, by rw [chars, List.singleton_append]⟩
  obtain ⟨rest, first⟩ := prefix_trimChars starts (List.cons_ne_nil c []) trimmed
  have shown : ('#' == c) = false := by simpa using Ne.symm other
  rw [isComment, startsWith, trim, String.toList_ofList, ← first, String.toList_ofList,
    List.singleton_append, List.isPrefixOf_cons_cons, shown, Bool.false_and]

/-- What begins with a scheme is no comment. -/
theorem isComment_of_scheme {text scheme rest : String} (starts : text = scheme ++ ("://" ++ rest))
    (word : toAsciiLowercase scheme ∈ nativeSchemes ++ shareSchemes) : isComment text = false := by
  have first : ∀ word ∈ nativeSchemes ++ shareSchemes,
      (word.toList.head?.any fun c => !isWhiteSpace c && c ≠ '#') = true := by
    decide
  obtain ⟨c, head, begins⟩ := (Option.any_eq_true _ _).1 (first _ word)
  rw [Bool.and_eq_true, Bool.not_eq_true', decide_eq_true_eq] at begins
  obtain ⟨kept, other⟩ := begins
  rw [toAsciiLowercase, String.toList_ofList, List.head?_map, Option.map_eq_some_iff] at head
  obtain ⟨d, head, rfl⟩ := head
  obtain ⟨more, chars⟩ := List.head?_eq_some_iff.1 head
  have text : text.toList = d :: (more ++ ("://" ++ rest).toList) := by
    rw [starts, String.toList_append, chars, List.cons_append]
  rw [isWhiteSpace_toLower] at kept
  refine isComment_of_first text kept ?_
  rintro rfl
  exact other rfl

/-- A link without a separator in it or in its normal form. -/
structure Plain (parsers : ProxyParsers) (line : String) : Prop where
  text : Unseparated (trim line)
  shown : isComment line = false
  form : ∀ form, linkForm parsers line = some form → Unseparated form

/-- No fragment of the line, nor of its normal form, is another link. -/
def KeepsForm (parsers : ProxyParsers) (line : String) : Prop :=
  ∃ form, linkForm parsers line = some form ∧ OnlyLink parsers line form ∧
    OnlyLink parsers form form

/-- A share link has no separator; any other link has no other link among its fragments or
those of its normal form. -/
def StaysWhole (parsers : ProxyParsers) (line : String) : Prop :=
  (IsShareLink line → Unseparated (trim line)) ∧
    (¬IsShareLink line → KeepsForm parsers line)

theorem linkForm_again (crate : UrlCrate parsers.parseUrl) {line form : String}
    (known : linkForm parsers line = some form) : linkForm parsers form = some form := by
  obtain ⟨entry, becomes, rfl⟩ := Option.map_eq_some_iff.1 known
  obtain ⟨again, becomesAgain, same⟩ := parseForwardProxyEntry_again crate becomes
  rw [linkForm, becomesAgain, Option.map_some, same]

theorem isComment_form {line form : String} (known : linkForm parsers line = some form) :
    isComment form = false := by
  obtain ⟨entry, becomes, rfl⟩ := Option.map_eq_some_iff.1 known
  rcases normalized_cases becomes with ⟨scheme, rest, -, word, form⟩ | ⟨-, scheme, rest, word, form⟩
  · refine isComment_of_scheme form (List.mem_append_right _ ?_)
    rwa [toAsciiLowercase_idem]
  · refine isComment_of_scheme form (List.mem_append_left _ ?_)
    rwa [(nativeScheme_word scheme word).2.2.2]

theorem keepsForm_of_plain (crate : UrlCrate parsers.parseUrl) {line form : String}
    (known : linkForm parsers line = some form) (plain : Plain parsers line) :
    KeepsForm parsers line := by
  have free := unseparated_trim (plain.form form known)
  exact ⟨form, known, onlyLink_of_unseparated known plain.text plain.shown,
    onlyLink_of_unseparated (linkForm_again crate known) free (isComment_form known)⟩

/-- A share link without a separator is plain. -/
theorem plain_of_share {line : String} (share : IsShareLink line)
    (free : Unseparated (trim line)) : Plain parsers line := by
  refine ⟨free, ?_, fun form known => ?_⟩
  · obtain ⟨scheme, rest, text, word⟩ := share
    rw [← isComment_trim]
    exact isComment_of_scheme text (List.mem_append_right _ word)
  · obtain ⟨entry, becomes, rfl⟩ := Option.map_eq_some_iff.1 known
    rcases normalized_cases becomes with ⟨scheme, rest, text, word, form⟩ | ⟨native, -⟩
    · have words : ∀ scheme ∈ shareSchemes,
          (scheme.toList.all fun c => !separators.contains c) = true := by
        decide
      have mark : Unseparated "://" := forall_notMem_of_all (by decide)
      have tail : Unseparated rest := by
        intro c inside
        apply free
        rw [text, String.toList_append, String.toList_append]
        exact List.mem_append_right _ (List.mem_append_right _ inside)
      rw [form]
      exact unseparated_append (forall_notMem_of_all (words _ word)) (unseparated_append mark (unseparated_trim tail))
    · exact absurd share native

/-- Seen in the text of the line. -/
theorem keepsForm_iff_staysWhole (crate : UrlCrate parsers.parseUrl) {line form : String}
    (known : linkForm parsers line = some form) :
    KeepsForm parsers line ↔ StaysWhole parsers line := by
  constructor
  · intro keeps
    have ⟨form', known', kept, _⟩ := keeps
    exact ⟨fun share => unseparated_of_onlyLink known' share kept, fun _ => keeps⟩
  · rintro ⟨ofShare, ofNative⟩
    by_cases share : IsShareLink line
    · exact keepsForm_of_plain crate known (plain_of_share share (ofShare share))
    · exact ofNative share

/-- What the entries are. -/
theorem exists_of_mem_normalizeProxyUrlEntries {lines : List String} {form : String}
    (member : form ∈ normalizeProxyUrlEntries parsers lines) :
    ∃ raw entry, parseForwardProxyEntry parsers raw = some entry ∧ entry.normalized = form := by
  obtain ⟨inside, -⟩ := mem_freshKeyed_id.1 member
  obtain ⟨line, -, piece⟩ := List.mem_flatMap.1 inside
  simp only [entryForms, List.mem_filterMap, Option.map_eq_some_iff] at piece
  obtain ⟨token, -, entry, becomes, same⟩ := piece
  exact ⟨token, entry, becomes, same⟩

/-- One endpoint for each entry, whatever the lines are. -/
theorem endpointKeys_of_entries (crate : UrlCrate parsers.parseUrl) (lines : List String) :
    (normalizeProxyEndpointsFromUrls parsers
      (normalizeProxyUrlEntries parsers lines)).map ForwardProxyEndpoint.key =
    normalizeProxyUrlEntries parsers lines := by
  have read : ((normalizeProxyUrlEntries parsers lines).filterMap
      (parseForwardProxyEntry parsers)).map ParsedForwardProxyEntry.normalized =
        normalizeProxyUrlEntries parsers lines := by
    rw [List.map_filterMap]
    conv_rhs => rw [← List.filterMap_some (l := normalizeProxyUrlEntries parsers lines)]
    apply List.filterMap_congr
    intro form member
    obtain ⟨raw, entry, becomes, rfl⟩ := exists_of_mem_normalizeProxyUrlEntries member
    obtain ⟨again, becomesAgain, same⟩ := parseForwardProxyEntry_again crate becomes
    rw [becomesAgain, Option.map_some, same]
  calc
    (normalizeProxyEndpointsFromUrls parsers
        (normalizeProxyUrlEntries parsers lines)).map ForwardProxyEndpoint.key =
        (parsedEntries parsers (normalizeProxyUrlEntries parsers lines)).map
          ParsedForwardProxyEntry.normalized := by
      rw [normalizeProxyEndpointsFromUrls, List.map_map]
      rfl
    _ = freshKeyed id [] (normalizeProxyUrlEntries parsers lines) := by
      rw [parsedEntries, mergeAllKeyed_keepFirst, List.map_nil, List.nil_append, map_freshKeyed,
        read]
    _ = normalizeProxyUrlEntries parsers lines :=
      freshKeyed_id_of_nodup (nodup_freshKeyed_id _ _)

/-- Links that keep their forms stay one entry each. -/
theorem oneLinkOneEndpoint_of_keepsForm (crate : UrlCrate parsers.parseUrl) {lines : List String}
    (keep : ∀ line ∈ lines, KeepsForm parsers line) : OneLinkOneEndpoint parsers lines := by
  have exactly : normalizeProxyUrlEntries parsers lines =
      freshKeyed id [] (lines.filterMap (linkForm parsers)) := by
    apply freshKeyed_id_flatMap
    intro line member
    obtain ⟨form, known, only, -⟩ := keep line member
    exact ⟨form, known, onlyLink_iff.1 only⟩
  refine ⟨exactly, ?_, endpointKeys_of_entries crate lines⟩
  calc
    normalizeProxyUrlEntries parsers (normalizeProxyUrlEntries parsers lines) =
        freshKeyed id [] ((normalizeProxyUrlEntries parsers lines).filterMap some) := by
      apply freshKeyed_id_flatMap
      intro form member
      rw [exactly] at member
      obtain ⟨inside, -⟩ := mem_freshKeyed_id.1 member
      obtain ⟨line, among, known⟩ := List.mem_filterMap.1 inside
      obtain ⟨form', known', -, only⟩ := keep line among
      rw [known] at known'
      cases known'
      exact ⟨form, rfl, onlyLink_iff.1 only⟩
    _ = normalizeProxyUrlEntries parsers lines := by
      rw [List.filterMap_some]
      exact freshKeyed_id_of_nodup (nodup_freshKeyed_id _ _)

/-- A line alone shows whether it keeps its form. -/
theorem keepsForm_of_alone {line form : String} (known : linkForm parsers line = some form)
    (alone : OneLinkOneEndpoint parsers [line]) : KeepsForm parsers line := by
  have entries : normalizeProxyUrlEntries parsers [line] = [form] := by
    rw [alone.exactly, List.filterMap_cons_some known, List.filterMap_nil]
    rfl
  have only (text : String) (one : normalizeProxyUrlEntries parsers [text] = [form]) :
      OnlyLink parsers text form := by
    rw [normalizeProxyUrlEntries, List.flatMap_singleton, freshKeyed_id_eq_singleton_iff] at one
    exact onlyLink_iff.2 one
  have again := alone.again
  rw [entries] at again
  exact ⟨form, known, only line entries, only form again⟩

/-- Every list of links without separators is kept link by link. A list of links and all its
selections are so exactly where every line stays whole. -/
theorem oneLinkOneEndpoint_iff (crate : UrlCrate parsers.parseUrl) (lines : List String)
    (links : ∀ line ∈ lines, (parseForwardProxyEntry parsers line).isSome) :
    ((∀ line ∈ lines, Plain parsers line) → OneLinkOneEndpoint parsers lines) ∧
      ((∀ part, part.Sublist lines → OneLinkOneEndpoint parsers part) ↔
        ∀ line ∈ lines, StaysWhole parsers line) := by
  have known (line : String) (member : line ∈ lines) :
      ∃ form, linkForm parsers line = some form := by
    obtain ⟨entry, becomes⟩ := Option.isSome_iff_exists.1 (links line member)
    exact ⟨entry.normalized, by rw [linkForm, becomes, Option.map_some]⟩
  refine ⟨fun plain => ?_, fun kept line member => ?_, fun whole part selected => ?_⟩
  · apply oneLinkOneEndpoint_of_keepsForm crate
    intro line member
    obtain ⟨form, known⟩ := known line member
    exact keepsForm_of_plain crate known (plain line member)
  · obtain ⟨form, known⟩ := known line member
    rw [← keepsForm_iff_staysWhole crate known]
    exact keepsForm_of_alone known (kept [line] (List.singleton_sublist.2 member))
  · apply oneLinkOneEndpoint_of_keepsForm crate
    intro line member
    obtain ⟨form, known⟩ := known line (selected.mem member)
    exact (keepsForm_iff_staysWhole crate known).2 (whole line (selected.mem member))

/-- A parser that knows two share links and the URL that a piece of one of them is read as. -/
def alpnUrls (text : String) : Option ProxyUrl :=
  if text ∈ ["vless://id@proxy.test:443?alpn=h2,http/1.1", "vless://id@proxy.test:443?alpn=h2"] then
    some ⟨"vless", "id", none, some "proxy.test", some 443, text⟩
  else if text ∈ ["http://http/1.1", "http://http:80"] then
    some ⟨"http", "", none, some "http", some 80, text⟩
  else none

theorem alpnUrls_eq_some {text : String} {url : ProxyUrl} {parts : UrlParts}
    (known : alpnUrls text = some url) (has : url.HasParts parts) :
    (text ∈ ["vless://id@proxy.test:443?alpn=h2,http/1.1", "vless://id@proxy.test:443?alpn=h2"] ∧
        parts = ⟨"vless", "id", none, "proxy.test", 443⟩) ∨
      (text ∈ ["http://http/1.1", "http://http:80"] ∧ parts = ⟨"http", "", none, "http", 80⟩) := by
  unfold alpnUrls at known
  split_ifs at known with share native
  · cases known
    exact .inl ⟨share, hasParts_unique ⟨rfl, rfl, rfl, rfl, rfl⟩ has⟩
  · cases known
    exact .inr ⟨native, hasParts_unique ⟨rfl, rfl, rfl, rfl, rfl⟩ has⟩

theorem urlCrate_alpnUrls : UrlCrate alpnUrls := by
  have accepted : Accepted alpnUrls ⟨"http", "", none, "http", 80⟩ :=
    ⟨⟨"http", "", none, some "http", some 80, "http://http:80"⟩, by decide, rfl, rfl, rfl, rfl, rfl⟩
  refine urlCrate_of_unique accepted ?_ ?_ ?_ (by decide) (by decide) rfl rfl
    (fun address => absurd address (by decide))
  · rintro other ⟨url, known, has⟩
    rcases alpnUrls_eq_some known has with ⟨share, rfl⟩ | ⟨_, rfl⟩
    · exact absurd share (by decide)
    · rfl
  · intro text url known
    unfold alpnUrls at known
    split_ifs at known with share native
    · exact (by decide : ∀ text ∈ ["vless://id@proxy.test:443?alpn=h2,http/1.1",
        "vless://id@proxy.test:443?alpn=h2"], trim text = text) text share
    · exact (by decide : ∀ text ∈ ["http://http/1.1", "http://http:80"], trim text = text) text
        native
  · intro text url other known has native
    rcases alpnUrls_eq_some known has with ⟨_, rfl⟩ | ⟨_, rfl⟩
    · exact absurd native (by decide)
    · rfl

/-- A share link and a proxy URL without a comma stay two links. -/
theorem oneLinkOneEndpoint_iff_alpn :
    OneLinkOneEndpoint ⟨alpnUrls, fun _ => false, fun _ => false⟩
        [" vless://id@proxy.test:443?alpn=h2\n", "http://http/1.1"] ∧
      ∀ line ∈ [" vless://id@proxy.test:443?alpn=h2\n", "http://http/1.1"],
        StaysWhole ⟨alpnUrls, fun _ => false, fun _ => false⟩ line := by
  have crate : UrlCrate (ProxyParsers.parseUrl ⟨alpnUrls, fun _ => false, fun _ => false⟩) :=
    urlCrate_alpnUrls
  have links : ∀ line ∈ [" vless://id@proxy.test:443?alpn=h2\n", "http://http/1.1"],
      (parseForwardProxyEntry ⟨alpnUrls, fun _ => false, fun _ => false⟩ line).isSome := by
    decide
  have kept := oneLinkOneEndpoint_iff crate _ links
  have plain : ∀ line ∈ [" vless://id@proxy.test:443?alpn=h2\n", "http://http/1.1"],
      Plain ⟨alpnUrls, fun _ => false, fun _ => false⟩ line := by
    intro line member
    rcases List.mem_pair.1 member with rfl | rfl
    · have form : linkForm ⟨alpnUrls, fun _ => false, fun _ => false⟩
          " vless://id@proxy.test:443?alpn=h2\n" = some "vless://id@proxy.test:443?alpn=h2" := by
        decide
      refine ⟨forall_notMem_of_all (by decide), by decide, fun other known => ?_⟩
      cases form.symm.trans known
      exact forall_notMem_of_all (by decide)
    · have form : linkForm ⟨alpnUrls, fun _ => false, fun _ => false⟩ "http://http/1.1" =
          some "http://http:80" := by
        decide
      refine ⟨forall_notMem_of_all (by decide), by decide, fun other known => ?_⟩
      cases form.symm.trans known
      exact forall_notMem_of_all (by decide)
  refine ⟨kept.1 plain, kept.2.1 fun part selected => ?_⟩
  have among (line : String) (member : line ∈ part) := selected.mem member
  exact (oneLinkOneEndpoint_iff crate part fun line member => links line (among line member)).1
    fun line member => plain line (among line member)

/-- A link with a comma in its query is cut there, and `http/1.1` becomes a proxy. -/
theorem alpnLink_isCut :
    ∃ parsers lines, UrlCrate (ProxyParsers.parseUrl parsers) ∧
      (∀ line ∈ lines, (parseForwardProxyEntry parsers line).isSome) ∧
      lines = ["vless://id@proxy.test:443?alpn=h2,http/1.1"] ∧
      normalizeProxyUrlEntries parsers lines =
        ["vless://id@proxy.test:443?alpn=h2", "http://http:80"] ∧
      ¬OneLinkOneEndpoint parsers lines := by
  have cut : normalizeProxyUrlEntries ⟨alpnUrls, fun _ => false, fun _ => false⟩
      ["vless://id@proxy.test:443?alpn=h2,http/1.1"] =
        ["vless://id@proxy.test:443?alpn=h2", "http://http:80"] := by
    decide
  refine ⟨⟨alpnUrls, fun _ => false, fun _ => false⟩, _, urlCrate_alpnUrls, by decide, rfl, cut, ?_⟩
  intro whole
  have exactly := whole.exactly
  rw [cut] at exactly
  exact absurd exactly (by decide)

end TavilyHikari.ForwardProxy
