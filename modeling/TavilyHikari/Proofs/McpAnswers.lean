/-
Module: TavilyHikari.Proofs.McpAnswers
Purpose: The readers by id, in terms of the messages of an answer: the credits of an
  id are the most that its messages report, and it is in error unless it has messages
  and all of them succeed.
Trusted boundary: none
Main exports: find_creditsById, hasError_eq, parseCreditsValue_nonneg,
  extractUsageCreditsFromValue_nonneg, observedCredits_congr, succeeds_congr
-/
import TavilyHikari.Server.McpCalls

namespace TavilyHikari.Server

open Library Analysis

/-! ### Messages -/

section

variable {α : Type} (json : SerdeJson) (observe : JsonValue → Option α) (merge : α → α → α)

/-- What a message says under its id. -/
def messageEntry (message : JsonValue) : Option (String × α) :=
  (idKey json message).bind fun id => (observe message).map fun value => (id, value)

theorem ingestMessage_eq (out : ById α) (message : JsonValue) :
    ingestMessage json observe merge out message =
      (messageEntry json observe message).elim out fun entry =>
        out.upsert entry.1 entry.2 fun current => merge current entry.2 := by
  unfold ingestMessage messageEntry
  cases idKey json message with
  | none => rfl
  | some id =>
      cases observe message with
      | none => rfl
      | some value => rfl

mutual

/-- Taking a value in is taking its messages in, one after another. -/
theorem ingest_eq (value : JsonValue) (out : ById α) :
    ingest json observe merge value out =
      (leafMessagesOf value).foldl (ingestMessage json observe merge) out := by
  match value with
  | .array items => exact ingestItems_eq items out
  | .object members => rfl
  | .null => rfl
  | .bool _ => rfl
  | .number _ => rfl
  | .string _ => rfl

theorem ingestItems_eq (items : List JsonValue) (out : ById α) :
    ingestItems json observe merge items out =
      (leafMessages items).foldl (ingestMessage json observe merge) out := by
  match items with
  | [] => rfl
  | item :: rest =>
      rw [ingestItems, ingestItems_eq rest, ingest_eq item, leafMessages, List.foldl_append]

end

theorem collectById_eq (response : ByteArray) :
    collectById json observe merge response =
      KeyedTable.collect merge
        ((responseMessages json response).filterMap (messageEntry json observe)) := by
  rw [collectById, ingestItems_eq, KeyedTable.collect, KeyedTable.upsertAll, List.foldl_filterMap]
  congr 1
  funext out message
  rw [ingestMessage_eq]
  cases messageEntry json observe message with
  | none => rfl
  | some entry => rfl

/-- What is kept of an id is what its messages say, merged. -/
theorem find_collectById (response : ByteArray) (id : String) :
    (collectById json observe merge response).find id =
      mergeAll merge
        ((answersTo json (responseMessages json response) id).filterMap observe) := by
  rw [collectById_eq, KeyedTable.find_collect]
  congr 1
  exact valuesOf_filterMap id (idKey json) observe _

end

variable (json : SerdeJson)

theorem find_creditsById (response : ByteArray) (id : String) :
    (extractMcpUsageCreditsByIdFromBytes json response).find id =
      observedCredits json (responseMessages json response) id := by
  rw [extractMcpUsageCreditsByIdFromBytes, find_collectById, mergeAll_max, observedCredits]

/-- An id without an answer counts as in error. -/
theorem hasError_eq (response : ByteArray) (id : String) :
    ((extractMcpHasErrorByIdFromBytes json response).find id).getD true =
      !succeeds json (responseMessages json response) id := by
  rw [extractMcpHasErrorByIdFromBytes, find_collectById, succeeds]
  generalize answersTo json (responseMessages json response) id = answers
  cases answers with
  | nil => rfl
  | cons message rest =>
      have errors : (message :: rest).filterMap (fun message => some !isSuccessMessage json message) =
          (message :: rest).map fun message => !isSuccessMessage json message := by simp
      rw [errors, mergeAll_or (by simp), Option.getD_some, List.any_map]
      simp only [List.isEmpty_cons, Bool.not_false, Bool.true_and, List.not_all_eq_any_not]
      rfl

/-! ### Credits are not negative -/

theorem nonneg_of_filter {found : Option Int} {credits : Int}
    (kept : found.filter (fun v => v ≥ 0) = some credits) : 0 ≤ credits := by
  obtain ⟨_, positive⟩ := Option.filter_eq_some_iff.1 kept
  exact of_decide_eq_true positive

theorem parseCreditsValue_nonneg {value : JsonValue} {credits : Int}
    (found : parseCreditsValue value = some credits) : 0 ≤ credits := by
  cases value with
  | number number =>
      simp only [parseCreditsValue] at found
      split at found
      · cases found
        rename_i kept
        exact nonneg_of_filter kept
      · exact nonneg_of_filter found
  | string raw =>
      simp only [parseCreditsValue] at found
      split at found
      · cases found
        rename_i kept
        exact nonneg_of_filter kept
      · exact nonneg_of_filter found
  | _ => cases found

theorem extractUsageCreditsFromUsageValue_nonneg {value : JsonValue} {credits : Int}
    (found : extractUsageCreditsFromUsageValue value = some credits) : 0 ≤ credits := by
  cases value with
  | object members =>
      obtain ⟨key, _, here⟩ := List.exists_of_findSome?_eq_some found
      obtain ⟨member, _, parsed⟩ := Option.bind_eq_some_iff.1 here
      exact parseCreditsValue_nonneg parsed
  | _ => cases found

mutual

theorem extractUsageCreditsFromValue_nonneg (value : JsonValue) {credits : Int}
    (found : extractUsageCreditsFromValue value = some credits) : 0 ≤ credits := by
  match value with
  | .object members =>
      rw [extractUsageCreditsFromValue] at found
      split at found
      · cases found
        rename_i own
        obtain ⟨usage, _, here⟩ := Option.bind_eq_some_iff.1 own
        exact extractUsageCreditsFromUsageValue_nonneg here
      · exact extractUsageCreditsFromMembers_nonneg members found
  | .array items =>
      rw [extractUsageCreditsFromValue] at found
      exact extractUsageCreditsFromItems_nonneg items found
  | .null => cases found
  | .bool _ => cases found
  | .number _ => cases found
  | .string _ => cases found

theorem extractUsageCreditsFromMembers_nonneg (members : List (String × JsonValue))
    {credits : Int} (found : extractUsageCreditsFromMembers members = some credits) :
    0 ≤ credits := by
  match members with
  | [] => cases found
  | (key, nested) :: rest =>
      rw [extractUsageCreditsFromMembers, extractUsageCreditsFromMember] at found
      split at found
      · cases found
        rename_i here
        exact extractUsageCreditsFromValue_nonneg nested here
      · exact extractUsageCreditsFromMembers_nonneg rest found

theorem extractUsageCreditsFromItems_nonneg (items : List JsonValue) {credits : Int}
    (found : extractUsageCreditsFromItems items = some credits) : 0 ≤ credits := by
  match items with
  | [] => cases found
  | item :: rest =>
      rw [extractUsageCreditsFromItems] at found
      split at found
      · cases found
        rename_i here
        exact extractUsageCreditsFromValue_nonneg item here
      · exact extractUsageCreditsFromItems_nonneg rest found

end

theorem observedCredits_nonneg {messages : List JsonValue} {id : String} {credits : Int}
    (observed : observedCredits json messages id = some credits) : 0 ≤ credits := by
  obtain ⟨member, _⟩ := List.max?_eq_some_iff.1 observed
  obtain ⟨message, _, found⟩ := List.mem_filterMap.1 member
  exact extractUsageCreditsFromValue_nonneg message found

/-! ### Only which messages there are matters -/

/-- Two answers have the same messages for an id, in whatever order and however often. -/
def SameAnswers (one two : List JsonValue) (id : String) : Prop :=
  ∀ message, message ∈ answersTo json one id ↔ message ∈ answersTo json two id

theorem observedCredits_congr {one two : List JsonValue} {id : String}
    (same : SameAnswers json one two id) :
    observedCredits json one id = observedCredits json two id := by
  apply max?_congr
  intro credits
  simp only [List.mem_filterMap, same _]

theorem succeeds_congr {one two : List JsonValue} {id : String}
    (same : SameAnswers json one two id) : succeeds json one id = succeeds json two id := by
  have empty : (answersTo json one id).isEmpty = (answersTo json two id).isEmpty := by
    rw [Bool.eq_iff_iff, List.isEmpty_iff, List.isEmpty_iff, List.eq_nil_iff_forall_not_mem,
      List.eq_nil_iff_forall_not_mem]
    simp only [same _]
  have all : (answersTo json one id).all (isSuccessMessage json) =
      (answersTo json two id).all (isSuccessMessage json) := by
    rw [Bool.eq_iff_iff, List.all_eq_true, List.all_eq_true]
    simp only [same _]
  rw [succeeds, succeeds, empty, all]

/-! ### Usage without ids -/

/-- The total of a table of usages, where it has rows. -/
def tableCredits (usages : ById Int) : Option Int :=
  if usages.rows.isEmpty then none else some (wrapI64 (usages.total (fun _ => true) id))

theorem sseTotal_eq (response : ByteArray) :
    extractUsageCreditsTotalFromSseBytes json response =
      (String.fromUTF8? response).bind fun text =>
        tableCredits (KeyedTable.collect max (streamEntries json text)) := by
  unfold extractUsageCreditsTotalFromSseBytes
  cases String.fromUTF8? response with
  | none => simp only [Option.bind_none]
  | some text =>
      simp only [Option.bind_some]
      generalize filled : List.foldl _ KeyedTable.empty (extractSseJsonMessages json text) = table
      have same : table = KeyedTable.collect max (streamEntries json text) := by
        rw [← filled, KeyedTable.collect, KeyedTable.upsertAll, streamEntries,
          List.foldl_filterMap]
        congr 1
        funext out message
        cases extractUsageCreditsTotalFromValue message with
        | none => rfl
        | some credits => rfl
      rw [same]
      rfl

/-- What the reader of a stream finds, where it finds anything. -/
theorem one_le_sseTotal_iff (response : ByteArray) :
    (∃ credits, extractUsageCreditsTotalFromSseBytes json response = some credits ∧ 1 ≤ credits) ↔
      ∃ text, String.fromUTF8? response = some text ∧
        1 ≤ wrapI64 (streamCredits json text) := by
  rw [sseTotal_eq]
  cases decoded : String.fromUTF8? response with
  | none => simp
  | some text =>
      have total : (KeyedTable.collect max (streamEntries json text)).total (fun _ => true) id =
          streamCredits json text := by
        rw [KeyedTable.total_collect, streamCredits]
        apply sum_map_congr
        intro key _
        rw [mergeAll_max]
        cases (valuesOf key (streamEntries json text)).max? <;> rfl
      simp only [Option.bind_some, tableCredits, total, Option.some.injEq, exists_eq_left']
      cases rows : (KeyedTable.collect max (streamEntries json text)).rows with
      | nil =>
          have nothing : streamCredits json text = 0 := by
            rw [← total, KeyedTable.total, rows]
            rfl
          rw [nothing]
          simp [wrapI64, i64Min]
      | cons row rest => simp

theorem one_le_batch_iff (items : List JsonValue) :
    (∃ credits, sumBatchCredits items = some credits ∧ 1 ≤ credits) ↔
      ∃ item ∈ items, ∃ credits, extractUsageCreditsFromValue item = some credits ∧ 1 ≤ credits := by
  have nonneg : ∀ credits ∈ items.filterMap extractUsageCreditsFromValue, 0 ≤ credits := by
    intro credits member
    obtain ⟨item, _, found⟩ := List.mem_filterMap.1 member
    exact extractUsageCreditsFromValue_nonneg item found
  have added := foldl_saturatingAdd nonneg (le_refl 0) (by decide)
  have positive : 1 ≤ min i64Max (0 + (items.filterMap extractUsageCreditsFromValue).sum) ↔
      ∃ item ∈ items, ∃ credits, extractUsageCreditsFromValue item = some credits ∧
        1 ≤ credits := by
    rw [zero_add, le_min_iff, one_le_sum_iff nonneg]
    simp only [List.mem_filterMap]
    constructor
    · rintro ⟨_, credits, ⟨item, member, found⟩, one⟩
      exact ⟨item, member, credits, found, one⟩
    · rintro ⟨item, member, credits, found, one⟩
      exact ⟨by decide, credits, ⟨item, member, found⟩, one⟩
  rw [← positive, ← added, sumBatchCredits]
  cases found : items.filterMap extractUsageCreditsFromValue with
  | nil => simp
  | cons credits rest => simp

/-- The total of an answer is positive where the answer reports a usage. -/
theorem one_le_total_iff (response : ByteArray) :
    (∃ credits, extractUsageCreditsTotalFromJsonBytes json response = some credits ∧
      1 ≤ credits) ↔ ReportsCredits json response := by
  unfold extractUsageCreditsTotalFromJsonBytes ReportsCredits
  cases parsed : json.fromSlice response with
  | none => exact one_le_sseTotal_iff json response
  | some value =>
      cases value with
      | array items => exact one_le_batch_iff items
      | _ => simp [extractUsageCreditsTotalFromValue, batchItems]

/-- Where nothing is in error, something succeeds. -/
theorem hasAnySuccess_of_no_error {response : ByteArray}
    (clean : mcpResponseHasAnyError json response = false) :
    mcpResponseHasAnySuccess json response = true := by
  unfold mcpResponseHasAnyError at clean
  unfold mcpResponseHasAnySuccess
  cases decoded : String.fromUTF8? response with
  | none => simp [decoded] at clean
  | some text =>
      simp only [decoded, Bool.or_eq_false_iff] at clean ⊢
      cases messages : textMessages json text with
      | nil => simp [messages] at clean
      | cons message rest =>
          have first := List.any_eq_false.1 clean.2 message (by simp [messages])
          simp only [Bool.not_eq_true', Bool.not_eq_false] at first
          simp [first]

/-! ### Bodies on one line -/

/-- A line that is no data is no event. -/
theorem extractSseJsonMessages_of_line {text : String} (single : '\n' ∉ text.toList)
    (noData : startsWith "data:" text = false) : extractSseJsonMessages json text = [] := by
  have noEvent : stripPrefix "data:" (trimEnd text) = none := by
    cases starts : startsWith "data:" (trimEnd text) with
    | false => simp [stripPrefix, starts]
    | true =>
        rw [startsWith_of_trimEnd starts] at noData
        cases noData
  have line : sseLine json ([], "") text = ([], "") := by
    unfold sseLine
    simp only [noEvent]
    split
    · rfl
    · rfl
  have all : (lines text).foldl (sseLine json) ([], "") = ([], "") := by
    rw [lines_of_notMem single]
    split
    · rfl
    · exact line
  rw [extractSseJsonMessages, all]
  rfl

/-- A JSON body on one line has the messages of its items. -/
theorem responseMessages_of_json {text : String} {value : JsonValue}
    (single : '\n' ∉ text.toList) (noData : startsWith "data:" text = false)
    (parsed : json.fromSlice text.toUTF8 = some value) :
    responseMessages json text.toUTF8 = leafMessages (batchItems value) := by
  have messages : textMessages json text = batchItems value := by
    rw [textMessages, extractSseJsonMessages_of_line json single noData, SerdeJson.fromStr, parsed]
    rfl
  rw [responseMessages, bodyMessages, fromUTF8?_toUTF8, Option.map_some, Option.getD_some,
    messages, parsed, Option.map_some, Option.getD_some]
  simp only [ite_self]

end TavilyHikari.Server
