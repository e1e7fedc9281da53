/-
Module: TavilyHikari.Proofs.RetryRepair
Purpose: What the repair of retries hides: every shadow has a later attempt of the same request,
  no attempt stands for two shadows, and the attempts that stand for one stay visible except
  where such an attempt was rejected and made again in turn.
Trusted boundary: none
Main exports: Retries, NextAttempt, ChainedRetry, pairsAttempts, LoadedTogether.finalsKept_iff,
  exists_shown_of_hidden, repair_finalsStay_iff
-/
import Mathlib.Data.Finset.Max
import Mathlib.Data.Prod.Lex
import TavilyHikari.Bin.RetryRepair
import TavilyHikari.Library.GreedyMatching

namespace TavilyHikari.Bin

open Library
open Store (AttemptOutcome)

variable {json : SerdeJson} {shadows finals : List RequestLogRow}

/-! ### Attempts of one request -/

/-- The second row is later, or of the same second with the larger id. -/
def Later (one two : RequestLogRow) : Prop :=
  one.createdAt < two.createdAt ∨ one.createdAt = two.createdAt ∧ one.id < two.id

/-- Both bodies are JSON, and equal without `include_usage`. -/
def SameBody (json : SerdeJson) (one two : RequestLogRow) : Prop :=
  ∃ body removed body' removed',
    normalizeRequestBodyWithoutIncludeUsage json one.requestBody = some (body, removed) ∧
      normalizeRequestBodyWithoutIncludeUsage json two.requestBody = some (body', removed') ∧
      body'.same body = true

/-- The second row is a later attempt of the request of the first, within the gap. -/
structure Retries (json : SerdeJson) (shadow final : RequestLogRow) : Prop where
  key : final.key = shadow.key
  later : Later shadow final
  soon : final.createdAt - shadow.createdAt ≤ maxRetryGapSecs
  body : SameBody json shadow final

/-- A log whose response rejects `include_usage` and whose body has it. -/
def Rejected (json : SerdeJson) (shadow : RequestLogRow) : Prop :=
  responseMentionsIncludeUsageRejection shadow.responseBody = true ∧
    ∃ body, normalizeRequestBodyWithoutIncludeUsage json shadow.requestBody = some (body, true)

/-- The first of the finals that retries a row. -/
structure NextAttempt (json : SerdeJson) (finals : List RequestLogRow)
    (shadow final : RequestLogRow) : Prop where
  mem : final ∈ finals
  retries : Retries json shadow final
  first : ∀ other ∈ finals, Retries json shadow other → attemptOrder final other

/-- The next attempt of a rejected shadow is a rejected shadow itself, and has a later attempt
too. -/
def ChainedRetry (json : SerdeJson) (shadows finals : List RequestLogRow) : Prop :=
  ∃ shadow ∈ shadows, ∃ again ∈ shadows, ∃ last ∈ finals,
    Rejected json shadow ∧ NextAttempt json finals shadow again ∧
      Rejected json again ∧ Retries json again last

theorem SameBody.symm {one two : RequestLogRow} (same : SameBody json one two) :
    SameBody json two one := by
  obtain ⟨body, removed, body', removed', first, second, equal⟩ := same
  exact ⟨body', removed', body, removed, second, first, JsonValue.same_symm equal⟩

theorem SameBody.trans {one two three : RequestLogRow} (first : SameBody json one two)
    (second : SameBody json two three) : SameBody json one three := by
  obtain ⟨body, removed, body', removed', oneBody, twoBody, equal⟩ := first
  obtain ⟨_, _, body'', removed'', twoBody', threeBody, equal'⟩ := second
  rw [twoBody] at twoBody'
  cases twoBody'
  exact ⟨body, removed, body'', removed'', oneBody, threeBody, JsonValue.same_trans equal' equal⟩

/-- Of two rows that one row retries, the later one retries the other. -/
theorem Retries.between {one two final : RequestLogRow} (first : Retries json one final)
    (second : Retries json two final) (later : Later one two) : Retries json one two where
  key := second.key.symm.trans first.key
  later := later
  soon := by
    have soon := first.soon
    have before := second.later
    unfold Later at before
    omega
  body := first.body.trans second.body.symm

theorem later_or_later {one two : RequestLogRow} (other : one.id ≠ two.id) :
    Later one two ∨ Later two one := by
  unfold Later
  omega

theorem not_later_of_attemptOrder {one two : RequestLogRow} (order : attemptOrder one two) :
    ¬ Later two one := by
  unfold Later
  unfold attemptOrder at order
  omega

instance : Std.Total attemptOrder := ⟨fun one two => by
  unfold attemptOrder
  omega⟩

instance : IsTrans RequestLogRow attemptOrder := ⟨fun one two three first second => by
  unfold attemptOrder at *
  omega⟩

/-! ### One shadow -/

theorem saturatingSub_gt_iff {a b : Int} :
    saturatingSub a b > maxRetryGapSecs ↔ maxRetryGapSecs < a - b := by
  simp only [saturatingSub, saturate, maxRetryGapSecs, i64Min, i64Max]
  omega

theorem mem_finalRows {key : AttemptKey} {row : RequestLogRow} :
    row ∈ finalRows finals key ↔ row ∈ finals ∧ row.key = key := by
  rw [finalRows, finalsByKey, MultiMap.getAll_foldl_append, MultiMap.getAll_empty,
    List.nil_append, List.mem_insertionSort, List.mem_filter, decide_eq_true_eq]

/-- What is taken is a test of its own. -/
theorem isFinalOf_eq (taken : List Int) (shadow : RequestLogRow) (body : JsonValue)
    (candidate : RequestLogRow) :
    isFinalOf json taken shadow body candidate =
      (candidate.id ∉ taken && isFinalOf json [] shadow body candidate) := by
  unfold isFinalOf
  by_cases used : candidate.id ∈ taken
  · simp [used]
  · simp [used]

theorem isFinalOf_iff {shadow candidate : RequestLogRow} {body : JsonValue} {removed : Bool}
    (normalized : normalizeRequestBodyWithoutIncludeUsage json shadow.requestBody =
      some (body, removed)) :
    isFinalOf json [] shadow body candidate = true ↔
      candidate.id ≠ shadow.id ∧ Later shadow candidate ∧
        candidate.createdAt - shadow.createdAt ≤ maxRetryGapSecs ∧
        SameBody json shadow candidate := by
  have sameBody : SameBody json shadow candidate ↔ ∃ body' removed',
      normalizeRequestBodyWithoutIncludeUsage json candidate.requestBody =
        some (body', removed') ∧ body'.same body = true := by
    constructor
    · rintro ⟨_, _, body', removed', shadowBody, candidateBody, equal⟩
      rw [normalized] at shadowBody
      cases shadowBody
      exact ⟨body', removed', candidateBody, equal⟩
    · rintro ⟨body', removed', candidateBody, equal⟩
      exact ⟨body, removed, body', removed', normalized, candidateBody, equal⟩
  rw [isFinalOf, sameBody, Later]
  split_ifs with own early late behind
  · simp [(or_iff_left List.not_mem_nil).1 own]
  · simp only [false_iff]
    omega
  · rw [saturatingSub_gt_iff] at late
    simp only [false_iff]
    omega
  · simp only [false_iff]
    omega
  · rw [saturatingSub_gt_iff] at late
    rw [or_iff_left List.not_mem_nil] at own
    have later : shadow.createdAt < candidate.createdAt ∨
        shadow.createdAt = candidate.createdAt ∧ shadow.id < candidate.id := by omega
    rw [and_iff_right own, and_iff_right later, and_iff_right (not_lt.1 late)]
    cases normalizeRequestBodyWithoutIncludeUsage json candidate.requestBody with
    | none => simp
    | some normal =>
        constructor
        · intro equal
          exact ⟨normal.1, normal.2, rfl, equal⟩
        · rintro ⟨body', removed', same, equal⟩
          cases same
          exact equal

theorem normalizedShadowBody_eq_some_iff {shadow : RequestLogRow} {body : JsonValue} :
    normalizedShadowBody json shadow = some body ↔
      responseMentionsIncludeUsageRejection shadow.responseBody = true ∧
        normalizeRequestBodyWithoutIncludeUsage json shadow.requestBody = some (body, true) := by
  unfold normalizedShadowBody
  by_cases mentions : responseMentionsIncludeUsageRejection shadow.responseBody = true
  · rw [if_pos mentions, and_iff_right mentions]
    rcases normalizeRequestBodyWithoutIncludeUsage json shadow.requestBody with _ | ⟨body, removed⟩
    · simp
    · cases removed <;> simp
  · rw [if_neg mentions]
    simp [mentions]

theorem rejected_iff {shadow : RequestLogRow} :
    Rejected json shadow ↔ ∃ body, normalizedShadowBody json shadow = some body := by
  simp only [normalizedShadowBody_eq_some_iff, exists_and_left, Rejected]

/-! ### The pairing as a matching -/

/-- The rows that a shadow may be paired with, none where the tool passes it by. -/
def shadowFinals (json : SerdeJson) (finals : List RequestLogRow) (shadow : RequestLogRow) :
    List RequestLogRow :=
  (normalizedShadowBody json shadow).elim [] fun _ => finalRows finals shadow.key

def fitsShadow (json : SerdeJson) (shadow final : RequestLogRow) : Bool :=
  (normalizedShadowBody json shadow).any fun body => isFinalOf json [] shadow body final

/-- The final of a shadow while these ids are taken. -/
abbrev freeFinal (json : SerdeJson) (finals : List RequestLogRow) (taken : List Int)
    (shadow : RequestLogRow) : Option RequestLogRow :=
  firstFree RequestLogRow.id (shadowFinals json finals) (fitsShadow json) taken shadow

theorem pairShadow_of_find? {shadow final : RequestLogRow} {body : JsonValue} {taken : List Int}
    (candidates : List RetryRepairCandidate)
    (normalized : normalizedShadowBody json shadow = some body)
    (found : (finalRows finals shadow.key).find? (isFinalOf json taken shadow body) = some final) :
    pairShadow json finals { consumedFinalIds := taken, candidates } shadow =
      { consumedFinalIds := final.id :: taken
        candidates := candidates ++ [candidateOf shadow final] } := by
  rw [pairShadow, normalized]
  simp only [found]

theorem pairShadow_eq (pairing : Pairing) (shadow : RequestLogRow) :
    pairShadow json finals pairing shadow =
      (freeFinal json finals pairing.consumedFinalIds shadow).elim pairing fun final =>
        { consumedFinalIds := final.id :: pairing.consumedFinalIds
          candidates := pairing.candidates ++ [candidateOf shadow final] } := by
  unfold pairShadow freeFinal firstFree shadowFinals fitsShadow
  cases normalizedShadowBody json shadow with
  | none => rfl
  | some body =>
      simp only [Option.elim_some, Option.any_some, ← isFinalOf_eq]
      cases (finalRows finals shadow.key).find?
        (isFinalOf json pairing.consumedFinalIds shadow body) with
      | none => rfl
      | some final => rfl

theorem foldl_pairShadow (pairing : Pairing) (shadows : List RequestLogRow) :
    (shadows.foldl (pairShadow json finals) pairing).candidates = pairing.candidates ++
      (greedyMatch RequestLogRow.id (shadowFinals json finals) (fitsShadow json)
        pairing.consumedFinalIds shadows).map fun pair => candidateOf pair.1 pair.2 := by
  induction shadows generalizing pairing with
  | nil => simp [greedyMatch]
  | cons shadow rest ih =>
      rw [List.foldl_cons, ih, pairShadow_eq]
      cases found : freeFinal json finals pairing.consumedFinalIds shadow with
      | none => rw [greedyMatch_of_none rest found, Option.elim_none]
      | some final =>
          rw [greedyMatch_of_some rest found, Option.elim_some, List.map_cons, List.append_assoc]
          rfl

/-- The candidates are a greedy matching of the shadows with the finals. -/
theorem buildCandidates_eq (json : SerdeJson) (shadows finals : List RequestLogRow) :
    buildCandidates json shadows finals =
      (greedyMatch RequestLogRow.id (shadowFinals json finals) (fitsShadow json) [] shadows).map
        fun pair => candidateOf pair.1 pair.2 :=
  (foldl_pairShadow Pairing.empty shadows).trans (List.nil_append _)

theorem fitsShadow_iff {shadow final : RequestLogRow} :
    final ∈ shadowFinals json finals shadow ∧ fitsShadow json shadow final = true ↔
      Rejected json shadow ∧ final ∈ finals ∧ final.id ≠ shadow.id ∧
        Retries json shadow final := by
  rw [rejected_iff]
  unfold shadowFinals fitsShadow
  cases found : normalizedShadowBody json shadow with
  | none => simp
  | some body =>
      rw [Option.elim_some, Option.any_some, mem_finalRows,
        isFinalOf_iff (normalizedShadowBody_eq_some_iff.1 found).2]
      constructor
      · rintro ⟨⟨member, key⟩, other, later, soon, same⟩
        exact ⟨⟨body, rfl⟩, member, other, key, later, soon, same⟩
      · rintro ⟨_, member, other, key, later, soon, same⟩
        exact ⟨⟨member, key⟩, other, later, soon, same⟩

/-- The first row that is found comes before the others that fit. -/
theorem attemptOrder_of_freeFinal {taken : List Int} {shadow final other : RequestLogRow}
    (found : freeFinal json finals taken shadow = some final)
    (member : other ∈ shadowFinals json finals shadow)
    (fits : fitsShadow json shadow other = true) (free : other.id ∉ taken) :
    attemptOrder final other := by
  unfold freeFinal firstFree at found
  unfold shadowFinals at found member
  cases normalized : normalizedShadowBody json shadow with
  | none =>
      rw [normalized] at member
      cases member
  | some body =>
      rw [normalized, Option.elim_some] at found member
      rw [finalRows, List.mem_insertionSort] at member
      apply find?_insertionSort found other member
      rw [fits, Bool.and_true, decide_eq_true_eq]
      exact free

/-- Every candidate pairs a rejected shadow with a later attempt of the same request, and no
final is used twice. -/
structure PairsAttempts (json : SerdeJson) (shadows finals : List RequestLogRow)
    (candidates : List RetryRepairCandidate) : Prop where
  paired : ∀ candidate ∈ candidates, ∃ shadow ∈ shadows, ∃ final ∈ finals,
    candidate = candidateOf shadow final ∧ Rejected json shadow ∧ Retries json shadow final
  once : (candidates.map (·.finalLogId)).Nodup

theorem pairsAttempts (json : SerdeJson) (shadows finals : List RequestLogRow) :
    PairsAttempts json shadows finals (buildCandidates json shadows finals) where
  paired := by
    intro candidate member
    rw [buildCandidates_eq] at member
    obtain ⟨⟨shadow, final⟩, matched, rfl⟩ := List.mem_map.1 member
    obtain ⟨among, candidateRow, _, fits⟩ := mem_greedyMatch matched
    obtain ⟨rejected, mem, _, retries⟩ := fitsShadow_iff.1 ⟨candidateRow, fits⟩
    exact ⟨shadow, among, final, mem, rfl, rejected, retries⟩
  once := by
    rw [buildCandidates_eq, List.map_map]
    have once : ((greedyMatch RequestLogRow.id (shadowFinals json finals) (fitsShadow json) []
        shadows).map fun pair => pair.2.id).Nodup := nodup_greedyMatch [] shadows
    exact once

/-! ### Lists of one load -/

/-- What the two loads of one run return: the shadows are among the finals, and an id is one
row. -/
structure LoadedTogether (shadows finals : List RequestLogRow) : Prop where
  among : ∀ shadow ∈ shadows, shadow ∈ finals
  shadowIds : (shadows.map (·.id)).Nodup
  finalIds : (finals.map (·.id)).Nodup

namespace LoadedTogether

theorem eq_of_id (loaded : LoadedTogether shadows finals) {one two : RequestLogRow}
    (first : one ∈ finals) (second : two ∈ finals) (same : one.id = two.id) : one = two :=
  List.inj_on_of_nodup_map loaded.finalIds first second same

theorem eq_of_attemptOrder (loaded : LoadedTogether shadows finals) {one two : RequestLogRow}
    (first : one ∈ finals) (second : two ∈ finals) (order : attemptOrder one two)
    (order' : attemptOrder two one) : one = two := by
  apply loaded.eq_of_id first second
  unfold attemptOrder at order order'
  omega

theorem fits_of_retries (loaded : LoadedTogether shadows finals) {shadow final : RequestLogRow}
    (member : shadow ∈ shadows) (rejected : Rejected json shadow) (among : final ∈ finals)
    (retries : Retries json shadow final) :
    final ∈ shadowFinals json finals shadow ∧ fitsShadow json shadow final = true := by
  apply fitsShadow_iff.2 ⟨rejected, among, ?_, retries⟩
  intro same
  have equal := loaded.eq_of_id among (loaded.among shadow member) same
  have later := retries.later
  rw [equal, Later] at later
  omega

/-- What the tool finds for a shadow, while nothing is taken, is the next attempt. -/
theorem nextAttempt_of_freeFinal (loaded : LoadedTogether shadows finals)
    {shadow final : RequestLogRow} (member : shadow ∈ shadows)
    (found : freeFinal json finals [] shadow = some final) :
    Rejected json shadow ∧ NextAttempt json finals shadow final := by
  obtain ⟨candidateRow, _, fits⟩ := firstFree_eq_some found
  obtain ⟨rejected, mem, _, retries⟩ := fitsShadow_iff.1 ⟨candidateRow, fits⟩
  refine ⟨rejected, mem, retries, ?_⟩
  intro other among again
  obtain ⟨otherRow, otherFits⟩ := loaded.fits_of_retries member rejected among again
  exact attemptOrder_of_freeFinal found otherRow otherFits List.not_mem_nil

/-- A rejected shadow with a later attempt has a next one. -/
theorem exists_freeFinal (loaded : LoadedTogether shadows finals) {shadow last : RequestLogRow}
    (member : shadow ∈ shadows) (rejected : Rejected json shadow) (among : last ∈ finals)
    (retries : Retries json shadow last) :
    ∃ final, freeFinal json finals [] shadow = some final := by
  obtain ⟨row, fits⟩ := loaded.fits_of_retries member rejected among retries
  cases found : freeFinal json finals [] shadow with
  | some final => exact ⟨final, rfl⟩
  | none =>
      unfold freeFinal firstFree at found
      rw [List.find?_eq_none] at found
      exact absurd (by simpa using fits) (found last row)

theorem freeFinal_iff (loaded : LoadedTogether shadows finals) {shadow final : RequestLogRow}
    (member : shadow ∈ shadows) :
    freeFinal json finals [] shadow = some final ↔
      Rejected json shadow ∧ NextAttempt json finals shadow final := by
  constructor
  · exact loaded.nextAttempt_of_freeFinal member
  · rintro ⟨rejected, next⟩
    obtain ⟨other, found⟩ := loaded.exists_freeFinal member rejected next.mem next.retries
    obtain ⟨_, otherNext⟩ := loaded.nextAttempt_of_freeFinal member found
    have same := loaded.eq_of_attemptOrder next.mem otherNext.mem
      (next.first other otherNext.mem otherNext.retries)
      (otherNext.first final next.mem next.retries)
    rw [found, same]

/-- Two shadows do not have one next attempt: the later of them would come before it. -/
theorem nextAttempt_inj (loaded : LoadedTogether shadows finals) {one two final : RequestLogRow}
    (oneMember : one ∈ shadows) (twoMember : two ∈ shadows)
    (first : NextAttempt json finals one final) (second : NextAttempt json finals two final) :
    one = two := by
  by_contra other
  have ids : one.id ≠ two.id := fun same =>
    other (loaded.eq_of_id (loaded.among one oneMember) (loaded.among two twoMember) same)
  rcases later_or_later ids with later | later
  · have between := first.retries.between second.retries later
    exact not_later_of_attemptOrder (first.first two (loaded.among two twoMember) between)
      second.retries.later
  · have between := second.retries.between first.retries later
    exact not_later_of_attemptOrder (second.first one (loaded.among one oneMember) between)
      first.retries.later

/-- On such lists no shadow ever meets a final that is taken. -/
theorem buildCandidates_eq (loaded : LoadedTogether shadows finals) (json : SerdeJson) :
    buildCandidates json shadows finals = shadows.filterMap fun shadow =>
      (freeFinal json finals [] shadow).map fun final => candidateOf shadow final := by
  have distinct : shadows.Pairwise fun one two => one.id ≠ two.id :=
    List.pairwise_map.1 loaded.shadowIds
  have apart : shadows.Pairwise fun one two => ∀ b c,
      freeFinal json finals [] one = some b → freeFinal json finals [] two = some c →
        b.id ≠ c.id := by
    apply distinct.imp_of_mem
    intro one two oneMember twoMember other b c first second same
    obtain ⟨_, oneNext⟩ := (loaded.freeFinal_iff oneMember).1 first
    obtain ⟨_, twoNext⟩ := (loaded.freeFinal_iff twoMember).1 second
    have equal := loaded.eq_of_id oneNext.mem twoNext.mem same
    rw [← equal] at twoNext
    exact other (congrArg RequestLogRow.id
      (loaded.nextAttempt_inj oneMember twoMember oneNext twoNext))
  rw [Bin.buildCandidates_eq, greedyMatch_eq_filterMap (by simp) apart, List.map_filterMap]
  simp only [Option.map_map, Function.comp_def]

/-- The pairs are the rejected shadows with their next attempts. -/
theorem mem_buildCandidates_iff (loaded : LoadedTogether shadows finals)
    {candidate : RetryRepairCandidate} :
    candidate ∈ buildCandidates json shadows finals ↔
      ∃ shadow ∈ shadows, ∃ final, Rejected json shadow ∧
        NextAttempt json finals shadow final ∧ candidate = candidateOf shadow final := by
  rw [loaded.buildCandidates_eq, List.mem_filterMap]
  constructor
  · rintro ⟨shadow, member, mapped⟩
    obtain ⟨final, found, rfl⟩ := Option.map_eq_some_iff.1 mapped
    obtain ⟨rejected, next⟩ := (loaded.freeFinal_iff member).1 found
    exact ⟨shadow, member, final, rejected, next, rfl⟩
  · rintro ⟨shadow, member, final, rejected, next, rfl⟩
    have found := (loaded.freeFinal_iff member).2 ⟨rejected, next⟩
    exact ⟨shadow, member, by rw [found, Option.map_some]⟩

end LoadedTogether

/-! ### Finals that stay -/

/-- No row that is used as a final is suppressed as a shadow. -/
def FinalsKept (candidates : List RetryRepairCandidate) : Prop :=
  ∀ candidate ∈ candidates, candidate.finalLogId ∉ candidates.map (·.shadowLogId)

/-- A rejected shadow is retried by a row with the id of a rejected shadow that is retried too. -/
def RetriedAgain (json : SerdeJson) (shadows finals : List RequestLogRow) : Prop :=
  ∃ shadow ∈ shadows, ∃ again ∈ shadows, ∃ final ∈ finals, ∃ last ∈ finals,
    Rejected json shadow ∧ Retries json shadow final ∧ final.id = again.id ∧
      Rejected json again ∧ Retries json again last

/-- On lists of any origin. -/
theorem finalsKept_of_not_retriedAgain (once : ¬ RetriedAgain json shadows finals) :
    FinalsKept (buildCandidates json shadows finals) := by
  have pairs := pairsAttempts json shadows finals
  intro candidate member used
  obtain ⟨shadow, shadowMember, final, among, rfl, rejected, retries⟩ := pairs.paired _ member
  obtain ⟨other, otherMember, sameId⟩ := List.mem_map.1 used
  obtain ⟨again, againMember, last, lastAmong, rfl, rejectedAgain, retriesAgain⟩ :=
    pairs.paired _ otherMember
  exact once ⟨shadow, shadowMember, again, againMember, final, among, last, lastAmong, rejected,
    retries, sameId.symm, rejectedAgain, retriesAgain⟩

theorem LoadedTogether.finalsKept_iff (loaded : LoadedTogether shadows finals)
    (json : SerdeJson) :
    FinalsKept (buildCandidates json shadows finals) ↔ ¬ ChainedRetry json shadows finals := by
  constructor
  · rintro kept ⟨shadow, member, again, againMember, last, among, rejected, next, rejectedAgain,
      retries⟩
    obtain ⟨final, found⟩ :=
      loaded.exists_freeFinal againMember rejectedAgain among retries
    obtain ⟨_, nextAgain⟩ := loaded.nextAttempt_of_freeFinal againMember found
    apply kept (candidateOf shadow again)
      (loaded.mem_buildCandidates_iff.2 ⟨shadow, member, again, rejected, next, rfl⟩)
    apply List.mem_map.2 ⟨candidateOf again final, ?_, rfl⟩
    exact loaded.mem_buildCandidates_iff.2
      ⟨again, againMember, final, rejectedAgain, nextAgain, rfl⟩
  · intro unchained candidate member used
    obtain ⟨shadow, shadowMember, final, rejected, next, rfl⟩ :=
      loaded.mem_buildCandidates_iff.1 member
    obtain ⟨other, otherMember, sameId⟩ := List.mem_map.1 used
    obtain ⟨again, againMember, last, rejectedAgain, nextAgain, rfl⟩ :=
      loaded.mem_buildCandidates_iff.1 otherMember
    have same : again = final :=
      loaded.eq_of_id (loaded.among again againMember) next.mem sameId
    subst same
    exact unchained ⟨shadow, shadowMember, again, againMember, last, nextAgain.mem, rejected,
      next, rejectedAgain, nextAgain.retries⟩

theorem Later.trans {one two three : RequestLogRow} (first : Later one two)
    (second : Later two three) : Later one three := by
  unfold Later at *
  omega

/-- Of the later attempts of the request of a suppressed row, the last one is not suppressed. -/
theorem LoadedTogether.exists_kept (loaded : LoadedTogether shadows finals)
    {candidate : RetryRepairCandidate}
    (member : candidate ∈ buildCandidates json shadows finals) :
    ∃ shadow ∈ shadows, shadow.id = candidate.shadowLogId ∧ ∃ last ∈ finals,
      last.key = shadow.key ∧ Later shadow last ∧ SameBody json shadow last ∧
        last.id ∉ (buildCandidates json shadows finals).map (·.shadowLogId) := by
  classical
  obtain ⟨shadow, shadowMember, final, _, next, rfl⟩ := loaded.mem_buildCandidates_iff.1 member
  refine ⟨shadow, shadowMember, rfl, ?_⟩
  let attempts := finals.toFinset.filter fun row =>
    row.key = shadow.key ∧ Later shadow row ∧ SameBody json shadow row
  have mem_attempts {row : RequestLogRow} : row ∈ attempts ↔
      row ∈ finals ∧ row.key = shadow.key ∧ Later shadow row ∧ SameBody json shadow row := by
    rw [Finset.mem_filter, List.mem_toFinset]
  have nonempty : attempts.Nonempty :=
    ⟨final, mem_attempts.2 ⟨next.mem, next.retries.key, next.retries.later, next.retries.body⟩⟩
  obtain ⟨last, lastMember, latest⟩ :=
    attempts.exists_max_image (fun row => toLex (row.createdAt, row.id)) nonempty
  obtain ⟨among, key, later, body⟩ := mem_attempts.1 lastMember
  refine ⟨last, among, key, later, body, ?_⟩
  intro suppressed
  obtain ⟨other, otherMember, sameId⟩ := List.mem_map.1 suppressed
  obtain ⟨again, againMember, after, _, afterNext, rfl⟩ :=
    loaded.mem_buildCandidates_iff.1 otherMember
  have same : again = last := loaded.eq_of_id (loaded.among again againMember) among sameId
  subst same
  have retries := afterNext.retries
  have bound := latest after (mem_attempts.2 ⟨afterNext.mem, retries.key.trans key,
    later.trans retries.later, body.trans retries.body⟩)
  have afterLater := retries.later
  rw [Prod.Lex.toLex_le_toLex] at bound
  unfold Later at afterLater
  omega

/-! ### The loads -/

theorem id_requestLogRow {id : Int} {columns : RequestLogColumns} {row : RequestLogRow}
    (read : requestLogRow id columns = some row) : row.id = id := by
  unfold requestLogRow at read
  obtain ⟨_, _, rest⟩ := Option.bind_eq_some_iff.1 read
  obtain ⟨_, _, same⟩ := Option.bind_eq_some_iff.1 rest
  cases same
  rfl

section

variable {chosen : RequestLogColumns → Bool} {logs : RequestLogs} {rows : List RequestLogRow}

theorem mem_loadLogs_iff (loaded : loadLogs chosen logs = some rows) {row : RequestLogRow} :
    row ∈ rows ↔ ∃ columns, logs.find row.id = some columns ∧ chosen columns = true ∧
      requestLogRow row.id columns = some row := by
  have read := map_of_mapM loaded
  have listed : row ∈ rows ↔ some row ∈ rows.map some :=
    (List.mem_map_of_injective (Option.some_injective _)).symm
  rw [listed, ← read, List.mem_map]
  constructor
  · rintro ⟨⟨id, columns⟩, member, same⟩
    rw [List.mem_insertionSort, List.mem_filter] at member
    have own := id_requestLogRow same
    simp only at own same
    subst own
    exact ⟨columns, KeyedTable.find_eq_some_iff.2 member.1, member.2, same⟩
  · rintro ⟨columns, found, choice, same⟩
    refine ⟨(row.id, columns), ?_, same⟩
    rw [List.mem_insertionSort, List.mem_filter]
    exact ⟨KeyedTable.find_eq_some_iff.1 found, choice⟩

theorem nodup_loadLogs (loaded : loadLogs chosen logs = some rows) :
    (rows.map (·.id)).Nodup := by
  have keys : ((logs.rows.filter fun row => chosen row.2).insertionSort loadOrder).Pairwise
      fun one two => one.1 ≠ two.1 := by
    have distinct := logs.distinct.sublist
      ((List.filter_sublist (p := fun row => chosen row.2)).map Prod.fst)
    have sorted := ((List.perm_insertionSort loadOrder
      (logs.rows.filter fun row => chosen row.2)).map Prod.fst).nodup_iff.2 distinct
    exact List.pairwise_map.1 sorted
  have read : (rows.map some).Pairwise fun one two => ∀ row row', one = some row →
      two = some row' → row.id ≠ row'.id := by
    rw [← map_of_mapM loaded, List.pairwise_map]
    apply keys.imp
    intro one two other row row' first second
    rw [id_requestLogRow first, id_requestLogRow second]
    exact other
  rw [List.pairwise_map] at read
  exact List.pairwise_map.2 (read.imp fun other => other _ _ rfl rfl)

theorem isPotentialFinal_of_isShadow {fromTs toTs : Int} (inRange : toTs ≤ i64Max)
    {columns : RequestLogColumns} (shadow : isShadow fromTs toTs columns = true) :
    isPotentialFinal fromTs toTs columns = true := by
  have bound : toTs ≤ saturatingAdd toTs maxRetryGapSecs := by
    simp only [saturatingAdd, saturate, maxRetryGapSecs]
    omega
  simp only [isShadow, isPotentialFinal, Bool.and_eq_true, decide_eq_true_eq] at shadow ⊢
  obtain ⟨⟨⟨⟨⟨⟨visible, _⟩, _⟩, token⟩, path⟩, lower⟩, upper⟩ := shadow
  exact ⟨⟨⟨⟨visible, token⟩, path⟩, lower⟩, upper.trans bound⟩

theorem loadedTogether_of_loads {fromTs toTs : Int} (inRange : toTs ≤ i64Max)
    (first : loadShadowLogs logs fromTs toTs = some shadows)
    (second : loadPotentialFinalLogs logs fromTs toTs = some finals) :
    LoadedTogether shadows finals where
  among := by
    intro shadow member
    obtain ⟨columns, found, choice, same⟩ := (mem_loadLogs_iff first).1 member
    exact (mem_loadLogs_iff second).2
      ⟨columns, found, isPotentialFinal_of_isShadow inRange choice, same⟩
  shadowIds := nodup_loadLogs first
  finalIds := nodup_loadLogs second

end

/-! ### The suppression -/

/-- The log with this id is shown. -/
def Visible (logs : RequestLogs) (id : Int) : Prop :=
  ∃ columns, logs.find id = some columns ∧ columns.visibility = .visible

theorem visible_suppressRetryShadow {state : Suppression} {candidate : RetryRepairCandidate}
    {id : Int} : Visible (suppressRetryShadow state candidate).logs id ↔
      Visible state.logs id ∧ id ≠ candidate.shadowLogId := by
  unfold Visible suppressRetryShadow
  rw [KeyedTable.find_updateWhere]
  cases state.logs.find id with
  | none => simp
  | some columns =>
      simp only [Option.map_some, Option.some.injEq, exists_eq_left', Bool.and_eq_true,
        decide_eq_true_eq]
      split_ifs with chosen
      · simp [chosen]
      · tauto

theorem visible_foldl_suppressRetryShadow {state : Suppression}
    {candidates : List RetryRepairCandidate} {id : Int} :
    Visible (candidates.foldl suppressRetryShadow state).logs id ↔
      Visible state.logs id ∧ id ∉ candidates.map (·.shadowLogId) := by
  induction candidates generalizing state with
  | nil => simp
  | cons candidate rest ih =>
      rw [List.foldl_cons, ih, visible_suppressRetryShadow, List.map_cons, List.mem_cons, not_or,
        and_assoc]

theorem visible_suppressRetryShadows {logs : RequestLogs} {candidates : List RetryRepairCandidate}
    {id : Int} : Visible (suppressRetryShadows logs candidates).logs id ↔
      Visible logs id ∧ id ∉ candidates.map (·.shadowLogId) :=
  visible_foldl_suppressRetryShadow

theorem mem_suppressed_suppressRetryShadow {state : Suppression}
    {candidate : RetryRepairCandidate} {id : Int} :
    id ∈ (suppressRetryShadow state candidate).suppressed ↔
      id ∈ state.suppressed ∨ Visible state.logs id ∧ id = candidate.shadowLogId := by
  have affected : state.logs.existsWhere (fun id columns =>
      id = candidate.shadowLogId && columns.visibility = .visible) = true ↔
        Visible state.logs candidate.shadowLogId := by
    rw [KeyedTable.existsWhere_eq_true_iff]
    simp [Visible]
  simp only [suppressRetryShadow]
  split_ifs with affects
  · rw [affected] at affects
    rw [List.mem_append, List.mem_singleton]
    constructor
    · rintro (old | rfl)
      · exact Or.inl old
      · exact Or.inr ⟨affects, rfl⟩
    · exact Or.imp_right And.right
  · rw [affected] at affects
    constructor
    · exact Or.inl
    · rintro (old | ⟨shown, rfl⟩)
      · exact old
      · exact absurd shown affects

theorem mem_suppressed_foldl_suppressRetryShadow {state : Suppression}
    {candidates : List RetryRepairCandidate} {id : Int} :
    id ∈ (candidates.foldl suppressRetryShadow state).suppressed ↔
      id ∈ state.suppressed ∨
        Visible state.logs id ∧ id ∈ candidates.map (·.shadowLogId) := by
  induction candidates generalizing state with
  | nil => simp
  | cons candidate rest ih =>
      rw [List.foldl_cons, ih, mem_suppressed_suppressRetryShadow, visible_suppressRetryShadow,
        List.map_cons, List.mem_cons]
      tauto

/-- The ids that the tool reports as suppressed are those it hid. -/
theorem mem_suppressed_iff {logs : RequestLogs} {candidates : List RetryRepairCandidate}
    {id : Int} : id ∈ (suppressRetryShadows logs candidates).suppressed ↔
      Visible logs id ∧ ¬ Visible (suppressRetryShadows logs candidates).logs id := by
  rw [visible_suppressRetryShadows, suppressRetryShadows,
    mem_suppressed_foldl_suppressRetryShadow]
  simp only [List.not_mem_nil, false_or]
  tauto

theorem visible_of_loadPotentialFinalLogs {logs : RequestLogs} {fromTs toTs : Int}
    (loaded : loadPotentialFinalLogs logs fromTs toTs = some finals) {final : RequestLogRow}
    (member : final ∈ finals) : Visible logs final.id := by
  obtain ⟨columns, found, choice, _⟩ := (mem_loadLogs_iff loaded).1 member
  simp only [isPotentialFinal, Bool.and_eq_true, decide_eq_true_eq] at choice
  obtain ⟨⟨⟨⟨visible, _⟩, _⟩, _⟩, _⟩ := choice
  exact ⟨columns, found, visible⟩

/-! ### A run -/

/-- The report and the table of a run over these lists that is not dry. -/
def repaired (json : SerdeJson) (cli : Cli) (logs : RequestLogs)
    (shadows finals : List RequestLogRow) : RetryRepairReport × RequestLogs :=
  let candidates := buildCandidates json shadows finals
  let state := suppressRetryShadows logs candidates
  (buildReport cli candidates state.suppressed !state.suppressed.isEmpty, state.logs)

section

variable {cli : Cli} {logs after : RequestLogs} {report : RetryRepairReport}

theorem main_of_loads (order : cli.fromTs.toInt ≤ cli.toTs.toInt) (wet : cli.dryRun = false)
    (first : loadShadowLogs logs cli.fromTs.toInt cli.toTs.toInt = some shadows)
    (second : loadPotentialFinalLogs logs cli.fromTs.toInt cli.toTs.toInt = some finals) :
    main json cli logs = some (repaired json cli logs shadows finals) := by
  unfold main
  rw [if_neg (not_lt.2 order), first, second, wet]
  rfl

theorem main_cases (run : main json cli logs = some (report, after)) (wet : cli.dryRun = false) :
    ∃ shadows finals, loadShadowLogs logs cli.fromTs.toInt cli.toTs.toInt = some shadows ∧
      loadPotentialFinalLogs logs cli.fromTs.toInt cli.toTs.toInt = some finals ∧
      LoadedTogether shadows finals ∧
      (report, after) = repaired json cli logs shadows finals := by
  unfold main at run
  split at run
  · cases run
  · obtain ⟨shadows, first, rest⟩ := Option.bind_eq_some_iff.1 run
    obtain ⟨finals, second, rest⟩ := Option.bind_eq_some_iff.1 rest
    rw [wet] at rest
    cases rest
    exact ⟨shadows, finals, first, second,
      loadedTogether_of_loads (toInt_le_i64Max cli.toTs) first second, rfl⟩

theorem mem_finalLogIds_iff {id : Int} :
    id ∈ (repaired json cli logs shadows finals).1.finalLogIds ↔
      ∃ candidate ∈ buildCandidates json shadows finals, candidate.finalLogId = id := by
  simp only [repaired, buildReport, List.mem_dedup, List.mem_insertionSort, List.mem_map]

/-- A dry run leaves the table as it is. -/
theorem main_dry (run : main json cli logs = some (report, after)) (dry : cli.dryRun = true) :
    after = logs := by
  unfold main at run
  split at run
  · cases run
  · obtain ⟨shadows, _, rest⟩ := Option.bind_eq_some_iff.1 run
    obtain ⟨finals, _, rest⟩ := Option.bind_eq_some_iff.1 rest
    cases rest
    rfl

/-- A run reports as suppressed what it hid. -/
theorem mem_suppressedLogIds_iff (run : main json cli logs = some (report, after))
    (wet : cli.dryRun = false) {id : Int} :
    id ∈ report.suppressedLogIds ↔ Visible logs id ∧ ¬ Visible after id := by
  obtain ⟨shadows, finals, _, _, _, same⟩ := main_cases run wet
  cases same
  exact mem_suppressed_iff

/-- Every log that a run hid has a later attempt of its request that is still shown. -/
theorem exists_shown_of_hidden (run : main json cli logs = some (report, after))
    (wet : cli.dryRun = false) {id : Int} (shown : Visible logs id)
    (hidden : ¬ Visible after id) :
    ∃ shadow last, shadow.id = id ∧ last.key = shadow.key ∧ Later shadow last ∧
      SameBody json shadow last ∧ Visible after last.id := by
  obtain ⟨shadows, finals, first, second, loaded, same⟩ := main_cases run wet
  cases same
  rw [visible_suppressRetryShadows, not_and, not_not] at hidden
  obtain ⟨candidate, member, rfl⟩ := List.mem_map.1 (hidden shown)
  obtain ⟨shadow, _, own, last, among, key, later, body, kept⟩ := loaded.exists_kept member
  exact ⟨shadow, last, own, key, later, body,
    visible_suppressRetryShadows.2 ⟨visible_of_loadPotentialFinalLogs second among, kept⟩⟩

/-- The finals that a run reports are all shown after it, except where one of the retries it
found was retried in turn. -/
theorem visible_main_iff (run : main json cli logs = some (report, after))
    (wet : cli.dryRun = false) :
    ∃ shadows finals, loadShadowLogs logs cli.fromTs.toInt cli.toTs.toInt = some shadows ∧
      loadPotentialFinalLogs logs cli.fromTs.toInt cli.toTs.toInt = some finals ∧
      LoadedTogether shadows finals ∧
      ((∀ id ∈ report.finalLogIds, Visible after id) ↔ ¬ ChainedRetry json shadows finals) := by
  obtain ⟨shadows, finals, first, second, loaded, same⟩ := main_cases run wet
  cases same
  refine ⟨shadows, finals, first, second, loaded, ?_⟩
  rw [← loaded.finalsKept_iff]
  constructor
  · intro shown candidate member
    have final := shown candidate.finalLogId (mem_finalLogIds_iff.2 ⟨candidate, member, rfl⟩)
    exact (visible_suppressRetryShadows.1 final).2
  · intro kept id listed
    obtain ⟨candidate, member, rfl⟩ := mem_finalLogIds_iff.1 listed
    obtain ⟨shadow, _, final, among, rfl, _⟩ := (pairsAttempts json shadows finals).paired _ member
    exact visible_suppressRetryShadows.2
      ⟨visible_of_loadPotentialFinalLogs second among, kept _ member⟩

end

/-- Every shadow has a later attempt of its request, and no final is used twice; the finals stay
where no rejected shadow's next attempt is a rejected shadow with a later attempt. -/
theorem repair_finalsStay_iff (json : SerdeJson) :
    (∀ shadows finals, PairsAttempts json shadows finals (buildCandidates json shadows finals)) ∧
      (∀ shadows finals, ¬ RetriedAgain json shadows finals →
        FinalsKept (buildCandidates json shadows finals)) ∧
      (∀ shadows finals, LoadedTogether shadows finals →
        (FinalsKept (buildCandidates json shadows finals) ↔
          ¬ ChainedRetry json shadows finals)) ∧
      ∀ cli logs report after, main json cli logs = some (report, after) →
        cli.dryRun = false →
        ∃ shadows finals, loadShadowLogs logs cli.fromTs.toInt cli.toTs.toInt = some shadows ∧
          loadPotentialFinalLogs logs cli.fromTs.toInt cli.toTs.toInt = some finals ∧
          LoadedTogether shadows finals ∧
          ((∀ id ∈ report.finalLogIds, Visible after id) ↔
            ¬ ChainedRetry json shadows finals) :=
  ⟨pairsAttempts json, fun _ _ => finalsKept_of_not_retriedAgain,
    fun _ _ loaded => loaded.finalsKept_iff json, fun _ _ _ _ => visible_main_iff⟩

/-! ### An attempt made three times -/

def usageBody : JsonValue :=
  .object [("method", .string "tools/call"),
    ("params", .object [("arguments", .object [("include_usage", .bool true)])])]

def plainBody : JsonValue :=
  .object [("method", .string "tools/call"), ("params", .object [("arguments", .object [])])]

def usageText : String :=
  "\x7b\"method\":\"tools/call\",\"params\":\x7b\"arguments\":\x7b\"include_usage\":true\x7d\x7d\x7d"

def plainText : String :=
  "\x7b\"method\":\"tools/call\",\"params\":\x7b\"arguments\":\x7b\x7d\x7d\x7d"

def rejection : String := "Unexpected keyword argument: include_usage"

def bodies : SerdeJson := .ofDocuments [(usageText, usageBody), (plainText, plainBody)]

def attemptRow (request response : String) (id createdAt : Int) : RequestLogRow where
  id
  apiKeyId := "key-1"
  authTokenId := "tok-1"
  method := "POST"
  path := "/mcp"
  query := none
  createdAt
  requestBody := request.toUTF8
  responseBody := response.toUTF8

def rejectedRow : Int → Int → RequestLogRow := attemptRow usageText rejection

def acceptedRow : Int → Int → RequestLogRow := attemptRow plainText "accepted"

theorem repair_finalsStay_iff_twoAttempts :
    FinalsKept (buildCandidates bodies [rejectedRow 1 0] [rejectedRow 1 0, acceptedRow 2 1]) := by
  have loaded : LoadedTogether [rejectedRow 1 0] [rejectedRow 1 0, acceptedRow 2 1] :=
    { among := by simp
      shadowIds := by decide
      finalIds := by decide }
  apply ((repair_finalsStay_iff bodies).2.2.1 _ _ loaded).2
  rintro ⟨shadow, member, again, againMember, last, among, rejected, next, _⟩
  rw [List.mem_singleton] at member againMember
  have later := next.retries.later
  rw [member, againMember, Later] at later
  omega

def attemptColumns (resultStatus : AttemptOutcome) (failureKind : Option String)
    (request response : String) (createdAt : Int) : RequestLogColumns where
  apiKeyId := some "key-1"
  authTokenId := some "tok-1"
  method := "POST"
  path := "/mcp"
  query := none
  resultStatus
  failureKind
  requestBody := some request.toUTF8
  responseBody := some response.toUTF8
  visibility := .visible
  createdAt

def rejectedColumns : Int → RequestLogColumns :=
  attemptColumns .error (some failureKindToolArgumentValidation) usageText rejection

def acceptedColumns : Int → RequestLogColumns :=
  attemptColumns .success none plainText "accepted"

/-- Three attempts, one a second, of which the third one succeeded. -/
def threeAttempts : RequestLogs where
  rows := [(1, rejectedColumns 0), (2, rejectedColumns 1), (3, acceptedColumns 2)]
  distinct := by decide

def wholeRange : Cli where
  fromTs := 0
  toTs := 5
  dryRun := false

theorem normalize_usageText :
    normalizeRequestBodyWithoutIncludeUsage bodies usageText.toUTF8 = some (plainBody, true) := by
  rw [normalizeRequestBodyWithoutIncludeUsage, bodies, SerdeJson.fromSlice_ofDocuments]
  simp [usageBody, plainBody, scrub, scrubMembers, removeIncludeUsage, JsonValue.getMember,
    JsonValue.asStr, JsonValue.setMember, JsonValue.removeMember]

theorem normalize_plainText :
    normalizeRequestBodyWithoutIncludeUsage bodies plainText.toUTF8 = some (plainBody, false) := by
  have other : usageText ≠ plainText := by decide
  rw [normalizeRequestBodyWithoutIncludeUsage, bodies, SerdeJson.fromSlice_ofDocuments]
  simp [other, plainBody, scrub, scrubMembers, removeIncludeUsage, JsonValue.getMember,
    JsonValue.asStr]

theorem mentions_rejection :
    responseMentionsIncludeUsageRejection rejection.toUTF8 = true := by
  rw [responseMentionsIncludeUsageRejection_toUTF8]
  decide

theorem normalizedShadowBody_rejectedRow (id createdAt : Int) :
    normalizedShadowBody bodies (rejectedRow id createdAt) = some plainBody :=
  normalizedShadowBody_eq_some_iff.2 ⟨mentions_rejection, normalize_usageText⟩

def shadowAttempts : List RequestLogRow := [rejectedRow 1 0, rejectedRow 2 1]

def allAttempts : List RequestLogRow := [rejectedRow 1 0, rejectedRow 2 1, acceptedRow 3 2]

theorem finalRows_allAttempts (id createdAt : Int) :
    finalRows allAttempts (rejectedRow id createdAt).key = allAttempts := rfl

theorem buildCandidates_threeAttempts :
    buildCandidates bodies shadowAttempts allAttempts =
      [candidateOf (rejectedRow 1 0) (rejectedRow 2 1),
        candidateOf (rejectedRow 2 1) (acceptedRow 3 2)] := by
  have same : plainBody.same plainBody = true := by decide
  have again : isFinalOf bodies [] (rejectedRow 1 0) plainBody (rejectedRow 2 1) = true := by
    rw [isFinalOf, if_neg (by decide), if_neg (by decide), if_neg (by decide),
      if_neg (by decide), rejectedRow, attemptRow, normalize_usageText]
    exact same
  have last : isFinalOf bodies [(rejectedRow 2 1).id] (rejectedRow 2 1) plainBody
      (acceptedRow 3 2) = true := by
    rw [isFinalOf, if_neg (by decide), if_neg (by decide), if_neg (by decide),
      if_neg (by decide), acceptedRow, attemptRow, normalize_plainText]
    exact same
  have first : (finalRows allAttempts (rejectedRow 1 0).key).find?
      (isFinalOf bodies [] (rejectedRow 1 0) plainBody) = some (rejectedRow 2 1) := by
    rw [finalRows_allAttempts, allAttempts, List.find?_cons_of_neg (by rintro ⟨⟩),
      List.find?_cons_of_pos again]
  have second : (finalRows allAttempts (rejectedRow 2 1).key).find?
      (isFinalOf bodies [(rejectedRow 2 1).id] (rejectedRow 2 1) plainBody) =
        some (acceptedRow 3 2) := by
    rw [finalRows_allAttempts, allAttempts, List.find?_cons_of_neg (by rintro ⟨⟩),
      List.find?_cons_of_neg (by rintro ⟨⟩), List.find?_cons_of_pos last]
  rw [buildCandidates, Pairing.empty, shadowAttempts, List.foldl_cons,
    pairShadow_of_find? [] (normalizedShadowBody_rejectedRow 1 0) first, List.foldl_cons,
    pairShadow_of_find? _ (normalizedShadowBody_rejectedRow 2 1) second, List.foldl_nil]
  rfl

/-- The second attempt is the final of the first one, and is hidden. -/
theorem threeAttempts_hidesFinal :
    ¬ FinalsKept (buildCandidates bodies shadowAttempts allAttempts) ∧
      ∃ report after, main bodies wholeRange threeAttempts = some (report, after) ∧
        report.suppressedLogIds = [1, 2] ∧ report.finalLogIds = [2, 3] ∧ ¬ Visible after 2 := by
  constructor
  · rw [buildCandidates_threeAttempts, FinalsKept]
    decide
  · have first : loadShadowLogs threeAttempts 0 5 = some shadowAttempts := rfl
    have second : loadPotentialFinalLogs threeAttempts 0 5 = some allAttempts := rfl
    have run : main bodies wholeRange threeAttempts = _ :=
      main_of_loads (by decide) rfl first second
    rw [repaired, buildCandidates_threeAttempts] at run
    refine ⟨_, _, run, rfl, rfl, ?_⟩
    intro shown
    exact (visible_suppressRetryShadows.1 shown).2 (by decide)

end TavilyHikari.Bin
