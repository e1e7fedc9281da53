/-
Module: TavilyHikari.Proofs.CanonicalRequestKind
Purpose: A computed request kind is a fixed point: stored and computed again, it comes back
  as it was, so that the migration of the stored kinds has nothing to do on a row it has
  updated. The keys of filters are canonical in the same sense.
Trusted boundary: none
Main exports: canonicalKind_of_storedAs, build_none_of_build, canonicalKeyForFilter_idem,
  requestKind_canonicalForm
-/
import TavilyHikari.Proofs.RequestKindMigration

namespace TavilyHikari.Store

open Library Analysis

/-! ### What a computed kind looks like -/

section

variable {kind : TokenRequestKind} (stored : StoredAs kind)
include stored

theorem trim_key_of_storedAs : trim kind.key = kind.key :=
  (key_of_tokenRequestKindFromCanonicalKey stored).symm

theorem detail_of_storedAs : kind.detail.bind nonBlank = kind.detail := by
  have given := stored
  unfold StoredAs tokenRequestKindFromCanonicalKey at given
  simp only [Option.map_eq_some_iff] at given
  obtain ⟨label, _, same⟩ := given
  exact congrArg TokenRequestKind.detail same

/-- Labels neither begin nor end with a blank, also those that name a method. -/
theorem label_of_storedAs : nonBlank kind.label = some kind.label := by
  have given := stored
  unfold StoredAs tokenRequestKindFromCanonicalKey at given
  simp only [Option.map_eq_some_iff] at given
  obtain ⟨label, labelled, same⟩ := given
  have sameLabel : label = kind.label := congrArg TokenRequestKind.label same
  rw [← sameLabel]
  split at labelled
  case h_1 listed found =>
      cases Option.some.inj labelled
      rw [canonicalRequestKindLabel, Option.map_eq_some_iff] at found
      obtain ⟨entry, found, rfl⟩ := found
      exact (label_of_listed entry (List.mem_of_find?_eq_some found)).2.2
  case h_2 =>
      obtain ⟨method, given, rfl⟩ := Option.map_eq_some_iff.mp labelled
      obtain ⟨stripped, starts⟩ := Option.filter_eq_some_iff.mp given
      have key := stripPrefix_eq_some_iff.mp stripped
      have kept : trim ("mcp:" ++ method) = "mcp:" ++ method := by rw [← key, trim_trim]
      have ends := (trimmed_of_trim kept).finish
      rw [String.toList_append] at ends
      rw [nonBlank_eq_some_iff]
      refine ⟨trim_append (by decide) (by decide) (rdropWhile_of_append ends) ?_, by simp⟩
      rintro rfl
      exact absurd starts (by decide)

theorem isCanonical_of_storedAs : isCanonicalRequestKindKey kind.key = true := by
  rw [isCanonicalRequestKindKey_iff, trim_key_of_storedAs stored]
  exact stored.canonicalKey

/-! ### Stored and computed again -/

theorem canonicalKind_of_storedAs (json : SerdeJson) (name : LogTableName)
    (request : LoggedRequest name) (label : Option String) :
    canonicalKind json name request (some kind.key) label kind.detail = kind := by
  have known : tokenRequestKindFromCanonicalKey kind.key none =
      some { kind with detail := none } := by
    have given := tokenRequestKindFromCanonicalKey_detail kind.key kind.detail
    rw [trim_key_of_storedAs stored, show tokenRequestKindFromCanonicalKey kind.key kind.detail =
      some kind from stored] at given
    obtain ⟨bare, known, same⟩ := Option.map_eq_some_iff.mp given.symm
    have noDetail : bare.detail = none := by
      unfold tokenRequestKindFromCanonicalKey at known
      simp only [Option.map_eq_some_iff] at known
      obtain ⟨_, _, rfl⟩ := known
      rfl
    rw [known, ← same, ← noDetail]
  have decided := canonicalKind_of_known json name request known label kind.detail
  rw [trim_key_of_storedAs stored, detail_of_storedAs stored] at decided
  exact decided

theorem finalize_of_storedAs (json : SerdeJson) (path : String) (label : Option String) :
    finalizeTokenRequestKind json path (some kind.key) label kind.detail = kind :=
  canonicalKind_of_storedAs stored json .authTokenLogs
    { method := "", path := path, query := none } label

theorem canonicalize_of_storedAs (json : SerdeJson) (path : String) (body : Option ByteArray)
    (label : Option String) :
    canonicalizeRequestLogRequestKind json path body (some kind.key) label kind.detail = kind :=
  canonicalKind_of_storedAs stored json .requestLogs { path := path, requestBody := body } label

end

theorem storedAs_canonicalKind (json : SerdeJson) (name : LogTableName)
    (request : LoggedRequest name) (key label detail : Option String) :
    StoredAs (canonicalKind json name request key label detail) := by
  cases name with
  | requestLogs =>
      rw [canonicalKind]
      apply storedAs_canonicalize
  | authTokenLogs =>
      rw [canonicalKind]
      apply storedAs_finalize

/-- A row that has been updated is left alone from then on. -/
theorem build_none_of_build {json : SerdeJson} {name : LogTableName}
    {row : LogRow (LoggedRequest name)} {update : RequestKindCanonicalUpdate}
    (built : buildRequestKindBackfillUpdate json name row = some update) :
    buildRequestKindBackfillUpdate json name (row.setKind update) = none := by
  unfold buildRequestKindBackfillUpdate at built
  simp only at built
  split_ifs at built
  have stored := storedAs_canonicalKind json name row.request
    (row.requestKindKey.bind nonBlank) (row.requestKindLabel.bind nonBlank)
    (row.requestKindDetail.bind nonBlank)
  generalize canonicalKind json name row.request (row.requestKindKey.bind nonBlank)
    (row.requestKindLabel.bind nonBlank) (row.requestKindDetail.bind nonBlank) = kind at *
  cases Option.some.inj built
  have key : nonBlank kind.key = some kind.key := by
    have canonical : CanonicalKey (trim kind.key) := by
      rw [trim_key_of_storedAs stored]
      exact stored.canonicalKey
    rw [nonBlank_of_canonical canonical, trim_key_of_storedAs stored]
  have label := label_of_storedAs stored
  have detail := detail_of_storedAs stored
  have again := canonicalKind_of_storedAs stored json name row.request (some kind.label)
  unfold buildRequestKindBackfillUpdate
  simp only [LogRow.setKind, Option.bind_some, key, label, detail, again, and_self, if_true]

/-! ### Keys of filters -/

/-- What a filter is turned into: a canonical key, or the text itself when it is neither an
API nor an MCP key. -/
theorem canonicalKeyForFilter_cases (requestKind : String) :
    (isCanonicalRequestKindKey (canonicalRequestKindKeyForFilter requestKind) = true ∧
        trim (canonicalRequestKindKeyForFilter requestKind) =
          canonicalRequestKindKeyForFilter requestKind) ∨
      (canonicalRequestKindKeyForFilter requestKind = trim requestKind ∧
        startsWith "api:" (trim requestKind) = false ∧
        startsWith "mcp:" (trim requestKind) = false) := by
  unfold canonicalRequestKindKeyForFilter
  simp only
  split
  case isTrue canonical => exact Or.inl ⟨canonical, trim_trim requestKind⟩
  split
  case isTrue => exact Or.inl (by decide +kernel)
  split
  case isTrue => exact Or.inl (by decide +kernel)
  case isFalse.isFalse.isFalse notApi =>
  split
  case isTrue => exact Or.inl (by decide +kernel)
  split
  case isTrue => exact Or.inl (by decide +kernel)
  split
  case h_1 key raw =>
    left
    obtain ⟨path, _, named⟩ := Option.bind_eq_some_iff.mp raw
    split_ifs at named <;> cases named <;> decide +kernel
  case h_2 =>
    split
    case isTrue => exact Or.inl (by decide +kernel)
    case isFalse notMcp =>
      exact Or.inr ⟨rfl, Bool.eq_false_iff.mpr notApi, Bool.eq_false_iff.mpr notMcp⟩

theorem canonicalKeyForFilter_of_canonical {key : String}
    (canonical : isCanonicalRequestKindKey key = true) (kept : trim key = key) :
    canonicalRequestKindKeyForFilter key = key := by
  unfold canonicalRequestKindKeyForFilter
  simp only [kept]
  rw [if_pos canonical]

theorem canonicalKeyForFilter_idem (requestKind : String) :
    canonicalRequestKindKeyForFilter (canonicalRequestKindKeyForFilter requestKind) =
      canonicalRequestKindKeyForFilter requestKind := by
  cases canonicalKeyForFilter_cases requestKind with
  | inl canonical =>
      exact canonicalKeyForFilter_of_canonical canonical.1 canonical.2
  | inr other =>
      rw [other.1]
      conv_rhs => rw [← other.1]
      unfold canonicalRequestKindKeyForFilter
      rw [trim_trim]

theorem canonicalKeyForFilter_isCanonical {requestKind : String}
    (named : startsWith "api:" requestKind = true ∨ startsWith "mcp:" requestKind = true) :
    isCanonicalRequestKindKey (canonicalRequestKindKeyForFilter requestKind) = true := by
  cases canonicalKeyForFilter_cases requestKind with
  | inl canonical => exact canonical.1
  | inr other =>
      obtain ⟨-, notApi, notMcp⟩ := other
      cases named with
      | inl api =>
          rw [startsWith_trim api (by decide) ⟨by decide, by decide⟩] at notApi
          cases notApi
      | inr mcp =>
          rw [startsWith_trim mcp (by decide) ⟨by decide, by decide⟩] at notMcp
          cases notMcp

/-! ### The canonical image -/

/-- **Canonical form.** Whatever a row stores and whatever its request is, the three ways to
compute a kind give one with a canonical key, and each gives that kind back from its key,
label and detail; the migration leaves alone a row it has updated; the keys of filters stay
what they are turned into, which is canonical for each API and MCP key. -/
theorem requestKind_canonicalForm (json : SerdeJson) (path : String) (body : Option ByteArray)
    (key label detail : Option String) :
    (∀ kind ∈ [classifyTokenRequestKind json path body,
        finalizeTokenRequestKind json path key label detail,
        canonicalizeRequestLogRequestKind json path body key label detail],
      isCanonicalRequestKindKey kind.key = true ∧
      finalizeTokenRequestKind json path (some kind.key) (some kind.label) kind.detail = kind ∧
      canonicalizeRequestLogRequestKind json path body (some kind.key) (some kind.label)
        kind.detail = kind) ∧
    (∀ (name : LogTableName) (row : LogRow (LoggedRequest name)),
      (buildRequestKindBackfillUpdate json name row).all fun update =>
        (buildRequestKindBackfillUpdate json name (row.setKind update)).isNone) ∧
    ∀ requestKind,
      canonicalRequestKindKeyForFilter (canonicalRequestKindKeyForFilter requestKind) =
        canonicalRequestKindKeyForFilter requestKind ∧
      (startsWith "api:" requestKind = true ∨ startsWith "mcp:" requestKind = true →
        isCanonicalRequestKindKey (canonicalRequestKindKeyForFilter requestKind) = true) := by
  refine ⟨?_, ?_, ?_⟩
  · have stored : ∀ kind ∈ [classifyTokenRequestKind json path body,
        finalizeTokenRequestKind json path key label detail,
        canonicalizeRequestLogRequestKind json path body key label detail], StoredAs kind := by
      intro kind member
      simp only [List.mem_cons, List.not_mem_nil, or_false] at member
      rcases member with rfl | rfl | rfl
      · exact storedAs_classify json path body
      · exact storedAs_finalize json path key label detail
      · exact storedAs_canonicalize json path body key label detail
    intro kind member
    exact ⟨isCanonical_of_storedAs (stored kind member),
      finalize_of_storedAs (stored kind member) json path (some kind.label),
      canonicalize_of_storedAs (stored kind member) json path body (some kind.label)⟩
  · intro name row
    cases built : buildRequestKindBackfillUpdate json name row with
    | none => rfl
    | some update =>
        rw [Option.all_some, build_none_of_build built]
        rfl
  · intro requestKind
    exact ⟨canonicalKeyForFilter_idem requestKind, canonicalKeyForFilter_isCanonical⟩

end TavilyHikari.Store
