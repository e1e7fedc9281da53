/-
Module: TavilyHikari.Proofs.HeaderSanitizing
Purpose: What the sanitizers forward of a header map: no name that may not pass, a report of
  every entry, and of each name that may pass its last value, so that nothing is lost exactly
  where no such name has two values.
Trusted boundary: none
Main exports: LeaksNothing, Sanitizes, sanitizes_iff
-/
import TavilyHikari.Analysis.Headers

namespace TavilyHikari.Analysis

open Library

/-! ### What a sanitizer promises -/

section

variable (allowed : HeaderName → Bool) (transform : HeaderName → HeaderValue → Option HeaderValue)
  (own : List (HeaderName × HeaderValue)) (headers : HeaderMap) (result : SanitizedHeaders)

/-- An entry whose name may pass and whose value can be transformed. -/
def passes (entry : HeaderName × HeaderValue) : Bool :=
  allowed entry.1 && (transform entry.1 entry.2).isSome

/-- Of other names than those that may pass only the proxy's own headers are sent, nothing
that is blocked is sent, and every entry is reported once, for what was done with it. -/
structure LeaksNothing : Prop where
  names : ∀ name, allowed name = false → result.headers.getAll name = valuesOf name own
  blocked : ∀ name, result.headers.getAll name ≠ [] → name.text ∉ blockedHeaders
  forwarded : result.forwarded =
    ((headers.iter.filter (passes allowed transform)).map fun entry => entry.1.text) ++
      own.map fun entry => entry.1.text
  dropped : result.dropped =
    (headers.iter.filter fun entry => !passes allowed transform entry).map fun entry =>
      entry.1.text

/-- All values of a name that may pass are sent too, each as it is transformed. -/
structure Sanitizes : Prop extends LeaksNothing allowed transform own headers result where
  values : ∀ name, allowed name = true →
    result.headers.getAll name = (headers.getAll name).filterMap (transform name)

end

/-! ### The loop -/

section

variable {allowed : HeaderName → Bool} {transform : HeaderName → HeaderValue → Option HeaderValue}
  {headers : HeaderMap}

/-- The entries that the loop inserts. -/
def inserted (allowed : HeaderName → Bool)
    (transform : HeaderName → HeaderValue → Option HeaderValue)
    (entries : List (HeaderName × HeaderValue)) : List (HeaderName × HeaderValue) :=
  entries.filterMap fun entry =>
    if allowed entry.1 then (transform entry.1 entry.2).map fun value => (entry.1, value) else none

theorem valuesOf_inserted (name : HeaderName) (entries : List (HeaderName × HeaderValue)) :
    valuesOf name (inserted allowed transform entries) =
      if allowed name then (valuesOf name entries).filterMap (transform name) else [] := by
  induction entries with
  | nil => simp [inserted]
  | cons entry entries ih =>
      unfold inserted at ih ⊢
      rw [valuesOf_cons, List.filterMap_cons]
      by_cases same : entry.1 = name
      · subst same
        by_cases may : allowed entry.1 = true
        · cases changed : transform entry.1 entry.2 with
          | none => simp [may, changed, ih]
          | some value => simp [may, changed, ih, valuesOf_cons]
        · simp [may, ih]
      · by_cases may : allowed entry.1 = true
        · cases transform entry.1 entry.2 with
          | none => simp [may, ih, same]
          | some value => simp [may, ih, same, valuesOf_cons]
        · simp [may, ih, same]

/-- What the loop does with the entries it has still to see. -/
theorem foldl_sanitizeEntry (entries : List (HeaderName × HeaderValue))
    (sanitized : SanitizedHeaders) :
    entries.foldl (sanitizeEntry allowed transform) sanitized =
      { headers := sanitized.headers.insertAll (inserted allowed transform entries)
        forwarded := sanitized.forwarded ++
          (entries.filter (passes allowed transform)).map fun entry => entry.1.text
        dropped := sanitized.dropped ++
          (entries.filter fun entry => !passes allowed transform entry).map fun entry =>
            entry.1.text } := by
  induction entries generalizing sanitized with
  | nil => simp [inserted, MultiMap.insertAll]
  | cons entry entries ih =>
      rw [List.foldl_cons, ih]
      by_cases may : allowed entry.1 = true
      · cases changed : transform entry.1 entry.2 with
        | none => simp [sanitizeEntry, inserted, passes, may, changed, entry.1.lower]
        | some value =>
            simp [sanitizeEntry, inserted, passes, may, changed, entry.1.lower,
              MultiMap.insertAll]
      · simp [sanitizeEntry, inserted, passes, may, entry.1.lower]

theorem sanitizeWith_forwarded :
    (sanitizeWith allowed transform headers).forwarded =
      (headers.iter.filter (passes allowed transform)).map fun entry => entry.1.text := by
  rw [sanitizeWith, foldl_sanitizeEntry]
  rfl

theorem sanitizeWith_dropped :
    (sanitizeWith allowed transform headers).dropped =
      (headers.iter.filter fun entry => !passes allowed transform entry).map fun entry =>
        entry.1.text := by
  rw [sanitizeWith, foldl_sanitizeEntry]
  rfl

/-- Of a name that may pass, the loop keeps the last value that is transformed. -/
theorem getAll_sanitizeWith (name : HeaderName) :
    (sanitizeWith allowed transform headers).headers.getAll name =
      if allowed name then (((headers.getAll name).filterMap (transform name)).getLast?).toList
      else [] := by
  rw [sanitizeWith, foldl_sanitizeEntry]
  simp only
  rw [MultiMap.getAll_insertAll, valuesOf_inserted, MultiMap.valuesOf_iter, MultiMap.getAll_empty]
  by_cases may : allowed name = true
  · rw [if_pos may, if_pos may]
    cases ((headers.getAll name).filterMap (transform name)).getLast? <;> rfl
  · rw [if_neg may, if_neg may]
    rfl

/-- The last element is all there is of a list exactly where it has no other. -/
theorem getLast?_toList_eq_iff {α : Type} {l : List α} :
    l.getLast?.toList = l ↔ l.length ≤ 1 := by
  cases l using List.reverseRecOn with
  | nil => simp
  | append_singleton front last => simp

end

/-! ### The rules -/

theorem shouldForwardHeader_not_blocked {name : HeaderName}
    (may : shouldForwardHeader name = true) : name.text ∉ blockedHeaders := by
  intro blocked
  unfold shouldForwardHeader at may
  simp [name.lower, blocked] at may

theorem mcpAllowed_not_blocked {name : HeaderName} (may : mcpAllowed name = true) :
    name.text ∉ blockedHeaders := by
  intro blocked
  have apart : ∀ key ∈ blockedHeaders, key ∉ mcpAllowedHeaders ∧ hasAllowedPrefix key = false := by
    decide +kernel
  obtain ⟨unlisted, unprefixed⟩ := apart name.text blocked
  unfold mcpAllowed at may
  simp [name.lower, unlisted, unprefixed] at may

theorem mcpAllowed_userAgent : mcpAllowed userAgent = false := by decide +kernel

theorem ne_userAgent_of_mcpAllowed {name : HeaderName} (may : mcpAllowed name = true) :
    name ≠ userAgent := by
  rintro rfl
  rw [mcpAllowed_userAgent] at may
  cases may

theorem userAgent_not_blocked : userAgent.text ∉ blockedHeaders := by decide +kernel

/-! ### The two sanitizers -/

section

variable (urls : UrlCrate) (upstream : urls.Url) (upstreamOrigin : String) (headers : HeaderMap)

theorem sanitizeHeadersInner_leaksNothing :
    LeaksNothing shouldForwardHeader (transformHeaderValue urls upstream upstreamOrigin) [] headers
      (sanitizeHeadersInner urls upstream upstreamOrigin headers) where
  names name closed := by
    rw [sanitizeHeadersInner, getAll_sanitizeWith, closed]
    rfl
  blocked name sent := by
    by_cases may : shouldForwardHeader name = true
    · exact shouldForwardHeader_not_blocked may
    · rw [sanitizeHeadersInner, getAll_sanitizeWith, if_neg may] at sent
      exact absurd rfl sent
  forwarded := by rw [sanitizeHeadersInner, sanitizeWith_forwarded, List.map_nil, List.append_nil]
  dropped := sanitizeWith_dropped

/-- The proxy's own name is never one that the loop lets pass. -/
theorem userAgent_notMem_forwarded :
    "user-agent" ∉
      (sanitizeWith mcpAllowed (fun _ value => some value) headers).forwarded := by
  rw [sanitizeWith_forwarded]
  intro member
  obtain ⟨⟨⟨text, lower⟩, value⟩, kept, same⟩ := List.mem_map.1 member
  simp only at same
  subst same
  have may := (List.mem_filter.1 kept).2
  have closed := mcpAllowed_userAgent
  unfold userAgent at closed
  simp [passes, closed] at may

theorem getAll_sanitizeMcpHeadersInner_of_ne {name : HeaderName} (other : name ≠ userAgent) :
    (sanitizeMcpHeadersInner headers).headers.getAll name =
      (sanitizeWith mcpAllowed (fun _ value => some value) headers).headers.getAll name :=
  MultiMap.getAll_insert_of_ne _ other _

theorem sanitizeMcpHeadersInner_leaksNothing :
    LeaksNothing mcpAllowed (fun _ value => some value) [(userAgent, mcpProxyUserAgentValue)]
      headers (sanitizeMcpHeadersInner headers) where
  names name closed := by
    by_cases own : name = userAgent
    · subst own
      exact (MultiMap.getAll_insert_self ..).trans (by simp [valuesOf])
    · rw [getAll_sanitizeMcpHeadersInner_of_ne _ own, getAll_sanitizeWith, closed]
      simp [valuesOf, Ne.symm own]
  blocked name sent := by
    by_cases own : name = userAgent
    · subst own
      exact userAgent_not_blocked
    · by_cases may : mcpAllowed name = true
      · exact mcpAllowed_not_blocked may
      · rw [getAll_sanitizeMcpHeadersInner_of_ne _ own, getAll_sanitizeWith, if_neg may] at sent
        exact absurd rfl sent
  forwarded := by
    unfold sanitizeMcpHeadersInner
    simp only
    rw [if_neg (userAgent_notMem_forwarded headers), sanitizeWith_forwarded]
    rfl
  dropped := sanitizeWith_dropped

/-- Both sanitizers leak nothing and report every entry, and both lose nothing exactly where
no name that may pass has two values that are transformed. -/
theorem sanitizes_iff :
    (Sanitizes shouldForwardHeader (transformHeaderValue urls upstream upstreamOrigin) [] headers
        (sanitizeHeadersInner urls upstream upstreamOrigin headers) ↔
      ∀ name, shouldForwardHeader name = true →
        ((headers.getAll name).filterMap
          (transformHeaderValue urls upstream upstreamOrigin name)).length ≤ 1) ∧
    (Sanitizes mcpAllowed (fun _ value => some value) [(userAgent, mcpProxyUserAgentValue)]
        headers (sanitizeMcpHeadersInner headers) ↔
      ∀ name, mcpAllowed name = true → (headers.getAll name).length ≤ 1) ∧
    LeaksNothing shouldForwardHeader (transformHeaderValue urls upstream upstreamOrigin) []
      headers (sanitizeHeadersInner urls upstream upstreamOrigin headers) ∧
    LeaksNothing mcpAllowed (fun _ value => some value) [(userAgent, mcpProxyUserAgentValue)]
      headers (sanitizeMcpHeadersInner headers) := by
  refine ⟨⟨?_, ?_⟩, ⟨?_, ?_⟩, sanitizeHeadersInner_leaksNothing urls upstream upstreamOrigin headers,
    sanitizeMcpHeadersInner_leaksNothing headers⟩
  · intro sanitizes name may
    have kept := sanitizes.values name may
    rwa [sanitizeHeadersInner, getAll_sanitizeWith, if_pos may, getLast?_toList_eq_iff] at kept
  · intro single
    refine ⟨sanitizeHeadersInner_leaksNothing urls upstream upstreamOrigin headers, ?_⟩
    intro name may
    rw [sanitizeHeadersInner, getAll_sanitizeWith, if_pos may, getLast?_toList_eq_iff]
    exact single name may
  · intro sanitizes name may
    have kept := sanitizes.values name may
    rw [getAll_sanitizeMcpHeadersInner_of_ne _ (ne_userAgent_of_mcpAllowed may),
      getAll_sanitizeWith, if_pos may, getLast?_toList_eq_iff] at kept
    simpa using kept
  · intro single
    refine ⟨sanitizeMcpHeadersInner_leaksNothing headers, ?_⟩
    intro name may
    rw [getAll_sanitizeMcpHeadersInner_of_ne _ (ne_userAgent_of_mcpAllowed may),
      getAll_sanitizeWith, if_pos may, getLast?_toList_eq_iff]
    simpa using single name may

end

/-! ### A list of accepted types in two headers -/

/-- URLs as their parts; no text is parsed for a request without a referer. -/
def partUrls : UrlCrate where
  Url := String × Option String × Option Nat × String
  parse _ := none
  asStr url := url.1 ++ "://" ++ url.2.1.getD "" ++ url.2.2.2
  scheme url := url.1
  hostStr url := url.2.1
  port url := url.2.2.1
  path url := url.2.2.2
  setScheme url scheme := some (scheme, url.2)
  setHost url host := some (url.1, host, url.2.2)
  setPort url port := some (url.1, url.2.1, port, url.2.2.2)
  setPath url path := (url.1, url.2.1, url.2.2.1, path)

def acceptName : HeaderName where
  text := "accept"
  lower := by decide +kernel

def acceptJson : HeaderValue where
  bytes := utf8Bytes "application/json"
  valid := by decide +kernel

def acceptEventStream : HeaderValue where
  bytes := utf8Bytes "text/event-stream"
  valid := by decide +kernel

/-- `Accept: application/json` and `Accept: text/event-stream`. -/
def twoAccepts : HeaderMap :=
  (MultiMap.empty.append acceptName acceptJson).append acceptName acceptEventStream

theorem twoAccepts_loses :
    ¬Sanitizes shouldForwardHeader
        (transformHeaderValue partUrls ("https", some "mcp.tavily.com", none, "/mcp")
          "https://mcp.tavily.com") [] twoAccepts
        (sanitizeHeadersInner partUrls ("https", some "mcp.tavily.com", none, "/mcp")
          "https://mcp.tavily.com" twoAccepts) ∧
    ¬Sanitizes mcpAllowed (fun _ value => some value) [(userAgent, mcpProxyUserAgentValue)]
        twoAccepts (sanitizeMcpHeadersInner twoAccepts) := by
  constructor
  · intro sanitizes
    have kept := sanitizes.values acceptName (by decide +kernel)
    revert kept
    decide +kernel
  · intro sanitizes
    have kept := sanitizes.values acceptName (by decide +kernel)
    revert kept
    decide +kernel

end TavilyHikari.Analysis
