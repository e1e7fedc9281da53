/-
Module: TavilyHikari.Proofs.StoredRequestKind
Purpose: The kinds that are computed for a logged request are those that come back
  unchanged from being stored. Their keys are canonical, and the SQL predicate accepts them.
Trusted boundary: none
Main exports: CanonicalKey, StoredAs, storedAs_classify, storedAs_finalize,
  storedAs_canonicalize, canonicalKey_finalize, canonicalKey_canonicalize,
  tokenRequestKindFromCanonicalKey_isSome_iff
-/
import TavilyHikari.Analysis.StoredRequestKind

namespace TavilyHikari.Analysis

open Library

/-! ### Blanks -/

/-- What is left of a text is the text itself where nothing is trimmed and something is there. -/
theorem nonBlank_eq_some_iff {value text : String} :
    nonBlank value = some text ↔ trim value = text ∧ text ≠ "" := by
  unfold nonBlank
  split
  case isTrue blank =>
    rw [String.isEmpty_iff] at blank
    rw [blank]
    simp
  case isFalse filled =>
    rw [String.isEmpty_iff] at filled
    constructor
    · intro same
      cases Option.some.inj same
      exact ⟨rfl, filled⟩
    · intro same
      exact congrArg some same.1

/-- A detail that has been trimmed once is not changed by trimming it again. -/
theorem bind_nonBlank_twice (value : Option String) :
    (value.bind nonBlank).bind nonBlank = value.bind nonBlank := by
  cases value with
  | none => rfl
  | some text =>
      simp only [Option.bind_some, nonBlank]
      split_ifs with blank
      · rfl
      · simp only [Option.bind_some, nonBlank, trim_trim]
        rw [if_neg blank]

/-! ### Canonical keys -/

/-- A key that is canonical as it stands, nothing trimmed. -/
def CanonicalKey (key : String) : Prop :=
  key ∈ canonicalKeys ∨ ∃ p ∈ canonicalMethodPrefixes, startsWith ("mcp:" ++ p) key = true

/-- The SQL predicate over the stored column accepts every canonical key. -/
theorem CanonicalKey.stored {key : String} (canonical : CanonicalKey key) :
    canonicalRequestKindStoredPredicateSql (some key) = true := by
  simp only [canonicalRequestKindStoredPredicateSql, Option.getD_some, Bool.or_eq_true,
    decide_eq_true_eq, List.any_eq_true]
  rcases canonical with listed | ⟨p, known, starts⟩
  · exact Or.inl listed
  · exact Or.inr ⟨p, known, likePrefix_of_startsWith starts⟩

/-- The predicate of the program trims before it looks. -/
theorem isCanonicalRequestKindKey_iff {key : String} :
    isCanonicalRequestKindKey key = true ↔ CanonicalKey (trim key) := by
  simp only [isCanonicalRequestKindKey, Bool.or_eq_true, decide_eq_true_eq, List.any_eq_true,
    CanonicalKey]

/-- A canonical key is not blank. -/
theorem nonBlank_of_canonical {key : String} (canonical : CanonicalKey (trim key)) :
    nonBlank key = some (trim key) := by
  rw [nonBlank, if_neg]
  rw [String.isEmpty_iff]
  intro empty
  rw [empty] at canonical
  rcases canonical with listed | ⟨p, known, starts⟩
  · exact absurd listed (by decide)
  · simp only [canonicalMethodPrefixes, List.mem_cons, List.not_mem_nil, or_false] at known
    revert starts
    rcases known with rfl | rfl | rfl <;> decide

theorem mem_canonicalKeys_of_label {key label : String}
    (found : canonicalRequestKindLabel key = some label) : trim key ∈ canonicalKeys := by
  rw [canonicalRequestKindLabel, Option.map_eq_some_iff] at found
  obtain ⟨entry, found, _⟩ := found
  have same := List.find?_some found
  simp only [decide_eq_true_eq] at same
  rw [← same]
  exact List.mem_map_of_mem (List.mem_of_find?_eq_some found)

/-- The labels are those of the listed keys, and each of these has one. -/
theorem canonicalRequestKindLabel_isSome {key : String} (listed : trim key ∈ canonicalKeys) :
    (canonicalRequestKindLabel key).isSome = true := by
  obtain ⟨entry, member, same⟩ := List.mem_map.1 listed
  rw [canonicalRequestKindLabel, Option.isSome_map, List.find?_isSome]
  exact ⟨entry, member, decide_eq_true same⟩

/-- A kind that a stored key gives has that key, trimmed. -/
theorem key_of_tokenRequestKindFromCanonicalKey {key : String} {detail : Option String}
    {kind : TokenRequestKind} (known : tokenRequestKindFromCanonicalKey key detail = some kind) :
    kind.key = trim key := by
  unfold tokenRequestKindFromCanonicalKey at known
  simp only [Option.map_eq_some_iff] at known
  obtain ⟨label, _, same⟩ := known
  rw [← same]
  rfl

/-- The keys that give a kind are the canonical ones. -/
theorem tokenRequestKindFromCanonicalKey_isSome_iff {key : String} {detail : Option String} :
    (tokenRequestKindFromCanonicalKey key detail).isSome = true ↔ CanonicalKey (trim key) := by
  unfold tokenRequestKindFromCanonicalKey
  simp only [Option.isSome_map]
  cases found : canonicalRequestKindLabel (trim key) with
  | some label =>
      have listed := mem_canonicalKeys_of_label found
      rw [trim_trim] at listed
      simp [CanonicalKey, listed]
  | none =>
      have unlisted : trim key ∉ canonicalKeys := by
        intro listed
        rw [← trim_trim] at listed
        have some := canonicalRequestKindLabel_isSome listed
        rw [found] at some
        cases some
      simp only [Option.isSome_map, Option.isSome_filter, CanonicalKey, unlisted, false_or]
      constructor
      · intro given
        obtain ⟨rest, stripped, starts⟩ := (Option.any_eq_true _ _).1 given
        obtain ⟨p, known, starts⟩ := List.any_eq_true.1 starts
        refine ⟨p, known, ?_⟩
        rw [stripPrefix_eq_some_iff.1 stripped]
        exact startsWith_append_left _ starts
      · rintro ⟨p, known, starts⟩
        obtain ⟨rest, same⟩ := startsWith_iff.1 starts
        rw [String.append_assoc] at same
        rw [same, stripPrefix_append, Option.any_some, List.any_eq_true]
        exact ⟨p, known, startsWith_append _ _⟩

/-! ### Kinds that come back -/

/-- A kind that its own key stands for. -/
def StoredAs (kind : TokenRequestKind) : Prop :=
  tokenRequestKindFromCanonicalKey kind.key kind.detail = some kind

/-! ### Keys with a label of their own -/

/-- Every entry of the list is found under its own key, and nothing in it is trimmed away. -/
theorem label_of_listed : ∀ entry ∈ canonicalLabels,
    trim entry.1 = entry.1 ∧ canonicalRequestKindLabel entry.1 = some entry.2 ∧
      nonBlank entry.2 = some entry.2 := by
  decide +kernel

/-- A kind with a listed key and its label comes back, whatever its detail. -/
theorem storedAs_listed (key label : String) (detail : Option String)
    (listed : (key, label) ∈ canonicalLabels) : StoredAs (.new key label detail) := by
  obtain ⟨trimmed, labelled, -⟩ := label_of_listed (key, label) listed
  simp only at trimmed labelled
  rw [StoredAs, tokenRequestKindFromCanonicalKey]
  simp only [TokenRequestKind.new, trimmed, labelled, Option.map_some, bind_nonBlank_twice]

/-- What a key gives, it gives again. -/
theorem storedAs_fromCanonicalKey {key : String} {detail : Option String}
    {kind : TokenRequestKind} (known : tokenRequestKindFromCanonicalKey key detail = some kind) :
    StoredAs kind := by
  have sameKey := key_of_tokenRequestKindFromCanonicalKey known
  unfold StoredAs
  unfold tokenRequestKindFromCanonicalKey at known ⊢
  rw [sameKey, trim_trim]
  simp only [Option.map_eq_some_iff] at known ⊢
  obtain ⟨label, labelled, rfl⟩ := known
  refine ⟨label, labelled, ?_⟩
  simp only [TokenRequestKind.new, bind_nonBlank_twice]

/-! ### Methods that keep their name -/

/-- No key of the list is that of a method of its own name. -/
theorem listed_not_prefixed : ∀ entry ∈ canonicalLabels, ∀ p ∈ canonicalMethodPrefixes,
    startsWith ("mcp:" ++ p) entry.1 = false := by
  decide +kernel

/-- A method with one of the prefixes comes back under its own name, since no listed key is in its
way. -/
theorem storedAs_named {method : String} (named : nonBlank method = some method)
    (starts : canonicalMethodPrefixes.any (startsWith · method) = true) :
    StoredAs (buildMcpRequestKind method) := by
  obtain ⟨trimmed, filled⟩ := nonBlank_eq_some_iff.mp named
  have key : trim ("mcp:" ++ method) = "mcp:" ++ method :=
    trim_append (by decide) (by decide) (trimmed_of_trim trimmed).finish filled
  have unlisted : canonicalRequestKindLabel ("mcp:" ++ method) = none := by
    rw [canonicalRequestKindLabel, Option.map_eq_none_iff, List.find?_eq_none]
    intro entry listed same
    rw [decide_eq_true_eq, key] at same
    obtain ⟨p, known, front⟩ := List.any_eq_true.mp starts
    have prefixed : startsWith ("mcp:" ++ p) entry.1 = true := by
      rw [same]
      exact startsWith_append_left "mcp:" front
    rw [listed_not_prefixed entry listed p known] at prefixed
    exact Bool.false_ne_true prefixed
  have sameKey : (buildMcpRequestKind method).key = "mcp:" ++ method := rfl
  rw [StoredAs, sameKey, tokenRequestKindFromCanonicalKey]
  simp only [key, unlisted, stripPrefix_append, Option.filter_some, starts, if_true,
    Option.map_some]
  rfl

/-- The control methods come back: three of them are listed, the others go by their prefix. -/
theorem storedAs_control {method : String} (named : nonBlank method = some method)
    (control : isControlMethod method = true) : StoredAs (buildMcpRequestKind method) := by
  simp only [isControlMethod, Bool.or_eq_true, decide_eq_true_eq, List.mem_cons,
    List.not_mem_nil, or_false] at control
  rcases control with (((rfl | rfl | rfl) | starts) | starts) | starts
  · exact storedAs_listed "mcp:initialize" "MCP | initialize" none (by decide)
  · exact storedAs_listed "mcp:ping" "MCP | ping" none (by decide)
  · exact storedAs_listed "mcp:tools/list" "MCP | tools/list" none (by decide)
  all_goals
    apply storedAs_named named
    simp [canonicalMethodPrefixes, starts]

/-! ### Classification -/

theorem storedAs_unknownPath (path : String) : StoredAs (buildApiUnknownPathKind path) :=
  storedAs_listed "api:unknown-path" "API | unknown path" (some path) (by decide)

theorem storedAs_unsupportedPath (path : String) : StoredAs (buildMcpUnsupportedPathKind path) :=
  storedAs_listed "mcp:unsupported-path" "MCP | unsupported path" (some path) (by decide)

theorem storedAs_unknownPayload (detail : Option String) :
    StoredAs (buildMcpUnknownPayloadKind detail) :=
  storedAs_listed "mcp:unknown-payload" "MCP | unknown payload" detail (by decide)

theorem storedAs_unknownMethod (method : String) : StoredAs (buildMcpUnknownMethodKind method) :=
  storedAs_listed "mcp:unknown-method" "MCP | unknown method" (some method) (by decide)

theorem storedAs_thirdPartyTool (tool : String) : StoredAs (buildMcpThirdPartyToolKind tool) :=
  storedAs_listed "mcp:third-party-tool" "MCP | third-party tool" (some tool) (by decide)

theorem normalizeTavilyToolName_mem {tool kind : String}
    (known : normalizeTavilyToolName tool = some kind) :
    kind ∈ ["search", "extract", "crawl", "map", "research"] := by
  unfold normalizeTavilyToolName at known
  simp only at known
  split_ifs at known <;> cases known <;> decide

/-- A call of a tool comes back, under the name of the Tavily tool or as a tool of a third party. -/
theorem storedAs_toolCall (value : JsonValue) : StoredAs (classifyToolCall value) := by
  unfold classifyToolCall
  simp only
  split
  · split
    case h_1 kind known =>
      have member := normalizeTavilyToolName_mem known
      simp only [List.mem_cons, List.not_mem_nil, or_false] at member
      rcases member with rfl | rfl | rfl | rfl | rfl
      · exact storedAs_listed "mcp:search" "MCP | search" none (by decide)
      · exact storedAs_listed "mcp:extract" "MCP | extract" none (by decide)
      · exact storedAs_listed "mcp:crawl" "MCP | crawl" none (by decide)
      · exact storedAs_listed "mcp:map" "MCP | map" none (by decide)
      · exact storedAs_listed "mcp:research" "MCP | research" none (by decide)
    case h_2 => exact storedAs_thirdPartyTool _
  · exact storedAs_unknownPayload _

/-- What a message of a body is classified as comes back. -/
theorem storedAs_message {value : JsonValue} {kind : TokenRequestKind}
    (classified : classifyMcpRequestKindFromMessage value = some kind) : StoredAs kind := by
  obtain ⟨method, given, rfl⟩ := Option.map_eq_some_iff.mp classified
  obtain ⟨raw, _, trimmed⟩ := Option.bind_eq_some_iff.mp given
  split
  case isTrue control =>
    obtain ⟨same, filled⟩ := nonBlank_eq_some_iff.mp trimmed
    apply storedAs_control _ control
    rw [nonBlank_eq_some_iff, ← same, trim_trim, same]
    exact ⟨rfl, filled⟩
  case isFalse =>
    split
    · exact storedAs_toolCall value
    · exact storedAs_unknownMethod method

/-- Several kinds are one kind, if they are all the same, or a batch. -/
theorem storedAs_batch (path : String) {kinds : List TokenRequestKind}
    (stored : ∀ kind ∈ kinds, StoredAs kind) : StoredAs (classifyBatch path kinds) := by
  cases kinds with
  | nil => exact storedAs_unknownPayload _
  | cons first rest =>
      unfold classifyBatch
      simp only
      split
      · exact stored first List.mem_cons_self
      · exact storedAs_listed "mcp:batch" "MCP | batch" _ (by decide)

/-- Every branch of the classification of a path under `/mcp` comes back. -/
theorem storedAs_mcp (json : SerdeJson) (path : String) (body : Option ByteArray) :
    StoredAs (classifyMcpRequestKind json path body) := by
  have unknown : StoredAs (buildMcpUnknownPayloadKind (some path)) := storedAs_unknownPayload _
  unfold classifyMcpRequestKind
  split
  · exact storedAs_unsupportedPath path
  · cases body with
    | none => exact unknown
    | some body =>
        simp only
        split
        · exact unknown
        · split
          · apply storedAs_batch
            intro kind member
            obtain ⟨item, _, classified⟩ := List.mem_filterMap.mp member
            exact storedAs_message classified
          · rename_i members _
            cases classified : classifyMcpRequestKindFromMessage (.object members) with
            | none => exact unknown
            | some kind => exact storedAs_message classified
          · exact unknown

/-- Whatever the path and the body are, the kind that a request is classified as comes back. -/
theorem storedAs_classify (json : SerdeJson) (path : String) (body : Option ByteArray) :
    StoredAs (classifyTokenRequestKind json path body) := by
  unfold classifyTokenRequestKind
  split_ifs
  · exact storedAs_listed "api:search" "API | search" none (by decide)
  · exact storedAs_listed "api:extract" "API | extract" none (by decide)
  · exact storedAs_listed "api:crawl" "API | crawl" none (by decide)
  · exact storedAs_listed "api:map" "API | map" none (by decide)
  · exact storedAs_listed "api:research" "API | research" none (by decide)
  · exact storedAs_listed "api:usage" "API | usage" none (by decide)
  · exact storedAs_listed "api:research-result" "API | research result" none (by decide)
  · exact storedAs_mcp json path body
  · exact storedAs_unknownPath path

/-! ### Stored kinds -/

/-- A kind under a key of an older release is mapped to one that comes back. -/
theorem storedAs_legacy {path storedKey : String} {key label detail : Option String}
    {kind : TokenRequestKind}
    (known : legacyRequestKind path storedKey key label detail = some kind) : StoredAs kind := by
  unfold legacyRequestKind at known
  split_ifs at known <;> cases known
  · exact storedAs_unknownPath path
  · exact storedAs_unsupportedPath path
  · exact storedAs_thirdPartyTool _
  · exact storedAs_unknownPayload _
  · exact storedAs_unknownMethod _

/-- What the columns of a logged request are finalized to comes back. -/
theorem storedAs_finalize (json : SerdeJson) (path : String) (key label detail : Option String) :
    StoredAs (finalizeTokenRequestKind json path key label detail) := by
  have fallback : StoredAs (deriveTokenRequestKindFallback json path) :=
    storedAs_classify json path none
  unfold finalizeTokenRequestKind
  simp only
  split
  · exact fallback
  · split
    case h_1 kind known => exact storedAs_fromCanonicalKey known
    case h_2 =>
      rename_i storedKey _ _ _
      cases legacy : legacyRequestKind path storedKey (key.bind nonBlank) (label.bind nonBlank)
          (detail.bind nonBlank) with
      | none => exact fallback
      | some kind => exact storedAs_legacy legacy

/-- So does what the migration writes for a row. -/
theorem storedAs_canonicalize (json : SerdeJson) (path : String) (body : Option ByteArray)
    (key label detail : Option String) :
    StoredAs (canonicalizeRequestLogRequestKind json path body key label detail) := by
  unfold canonicalizeRequestLogRequestKind
  split
  case h_1 storedKey _ =>
    cases known : tokenRequestKindFromCanonicalKey storedKey (detail.bind nonBlank) with
    | none => exact storedAs_classify json path body
    | some kind => exact storedAs_fromCanonicalKey known
  case h_2 =>
    simp only
    split
    · exact storedAs_finalize json path key label detail
    · exact storedAs_classify json path body

/-! ### Their keys -/

/-- The key of a kind that comes back is canonical as it stands. -/
theorem StoredAs.canonicalKey {kind : TokenRequestKind} (stored : StoredAs kind) :
    CanonicalKey kind.key := by
  rw [key_of_tokenRequestKindFromCanonicalKey stored]
  apply tokenRequestKindFromCanonicalKey_isSome_iff.mp
  rw [stored]
  rfl

theorem canonicalKey_finalize (json : SerdeJson) (path : String) (key label detail : Option String) :
    CanonicalKey (finalizeTokenRequestKind json path key label detail).key :=
  (storedAs_finalize json path key label detail).canonicalKey

theorem canonicalKey_canonicalize (json : SerdeJson) (path : String) (body : Option ByteArray)
    (key label detail : Option String) :
    CanonicalKey (canonicalizeRequestLogRequestKind json path body key label detail).key :=
  (storedAs_canonicalize json path body key label detail).canonicalKey

end TavilyHikari.Analysis
