/-
Module: TavilyHikari.Proofs.FreeRide
Purpose: Which billable requests are charged for an answer that reports a usage. The
  plan marks everything as billable that is not proven to be free, but only tool
  calls are entered in the tables that the charge is made from.
Trusted boundary: none
Main exports: BillableExchange, EntersCharge, charged_iff_entersCharge,
  unknownMethod_rides_free
-/
import TavilyHikari.Proofs.McpCharge

namespace TavilyHikari.Server

open Library Analysis

section

variable (json : SerdeJson)

/-! ### Exchanges -/

/-- The message answers an item of the request that is not proven to be free, or the
request is nothing that has items. -/
def ConcernsRequest (request : ByteArray) (message : JsonValue) : Prop :=
  match json.fromSlice request with
  | some (.array items) =>
      ∃ item ∈ items, isNonBillable item = false ∧
        ∃ id, idKey json item = some id ∧ idKey json message = some id
  | some (.object members) =>
      isNonBillable (.object members) = false ∧
        ∃ id, idKey json (.object members) = some id ∧ idKey json message = some id
  | _ => True

/-- A billable request whose answer succeeds in every message and reports a usage. -/
structure BillableExchange (path : String) (request response : ByteArray) : Prop where
  under : startsWith "/mcp" path = true
  billable : (mcpBillingPlan json path request).billableFlag = true
  answered : response.isEmpty = false
  succeeds : ∀ message ∈ responseMessages json response, isSuccessMessage json message = true
  reports : ∃ message ∈ responseMessages json response, ConcernsRequest json request message ∧
    ∃ credits, extractUsageCreditsFromValue message = some credits ∧ 1 ≤ credits

/-- Some paid call has an id that is answered, and its answers report a usage, or
nothing and it is a search or a research. -/
def AnsweredCall (body : JsonValue) (messages : List JsonValue) : Prop :=
  ∃ call ∈ paidCalls body, ∃ id, idKey json call = some id ∧ answersTo json messages id ≠ [] ∧
    1 ≤ (observedCredits json messages id).getD (expectedCredits call)

/-- What it takes for a charge: with ids, a paid call whose own answers make one; and
where some paid call has none, any usage at all, or a search or a research in an
answer without errors. -/
def EntersCharge (request response : ByteArray) : Prop :=
  ∃ body, json.fromSlice request = some body ∧
    ((∀ call ∈ paidCalls body, (idKey json call).isSome = true) →
      AnsweredCall json body (responseMessages json response)) ∧
    ((∃ call ∈ paidCalls body, idKey json call = none) →
      (mcpResponseHasAnySuccess json response = true ∧ ReportsCredits json response) ∨
        (mcpResponseHasAnyError json response = false ∧
          ∃ call ∈ paidCalls body, 1 ≤ expectedCredits call))

/-! ### With ids -/

variable {json}

/-- An id makes a charge where it is answered and one of its calls does. -/
theorem one_le_idCharge_iff {messages calls : List JsonValue} {id : String}
    (succeeding : ∀ message ∈ messages, isSuccessMessage json message = true)
    (called : ∃ call ∈ calls, idKey json call = some id) :
    1 ≤ idCharge json messages (tallyOf json calls) id ↔
      answersTo json messages id ≠ [] ∧
        ∃ call ∈ calls, idKey json call = some id ∧
          1 ≤ (observedCredits json messages id).getD (expectedCredits call) := by
  have success : succeeds json messages id = !(answersTo json messages id).isEmpty := by
    have all : (answersTo json messages id).all (isSuccessMessage json) = true := by
      rw [List.all_eq_true]
      intro message member
      exact succeeding message (List.mem_of_mem_filter member)
    rw [succeeds, all, Bool.and_true]
  rw [idCharge, success]
  by_cases none : answersTo json messages id = []
  · simp [none]
  · have some : (answersTo json messages id).isEmpty = false := by
      rw [Bool.eq_false_iff, Ne, List.isEmpty_iff]
      exact none
    rw [some, Bool.not_false, if_pos rfl]
    cases observed : observedCredits json messages id with
    | none =>
        simp only [Option.getD_none, one_le_unreported_iff]
        exact ⟨fun positive => ⟨none, positive⟩, fun both => both.2⟩
    | some credits =>
        simp only [Option.getD_some]
        constructor
        · intro positive
          obtain ⟨call, member, keyed⟩ := called
          exact ⟨none, call, member, keyed, positive⟩
        · rintro ⟨_, _, _, _, positive⟩
          exact positive

theorem one_le_charge_of_ids {path : String} {request response : ByteArray} {body : JsonValue}
    (exchange : BillableExchange json path request response)
    (parsed : json.fromSlice request = some body)
    (keyed : ∀ call ∈ paidCalls body, (idKey json call).isSome = true) :
    1 ≤ mcpCharge json path request response ↔
      AnsweredCall json body (responseMessages json response) := by
  have nonneg : ∀ charge ∈ (tallyOf json (paidCalls body)).ids.map
      (idCharge json (responseMessages json response) (tallyOf json (paidCalls body))),
      0 ≤ charge := by
    intro charge member
    obtain ⟨id, _, rfl⟩ := List.mem_map.1 member
    exact idCharge_nonneg json _ (paidCalls body) id
  have ids : ∀ id, id ∈ (tallyOf json (paidCalls body)).ids ↔
      ∃ call ∈ paidCalls body, idKey json call = some id := by
    intro id
    rw [ids_tallyOf, mem_foldl_insertId]
    simp only [List.not_mem_nil, false_or, List.mem_filterMap]
  rw [mcpCharge_of_ids json exchange.under parsed keyed exchange.answered, le_min_iff,
    one_le_sum_iff nonneg, AnsweredCall]
  simp only [List.mem_map]
  constructor
  · rintro ⟨_, charge, ⟨id, member, rfl⟩, positive⟩
    obtain ⟨answered, call, member, keyed, positive⟩ :=
      (one_le_idCharge_iff exchange.succeeds ((ids id).1 member)).1 positive
    exact ⟨call, member, id, keyed, answered, positive⟩
  · rintro ⟨call, member, id, keyed, answered, positive⟩
    refine ⟨by decide, _, ⟨id, (ids id).2 ⟨call, member, keyed⟩, rfl⟩, ?_⟩
    exact (one_le_idCharge_iff exchange.succeeds ⟨call, member, keyed⟩).2
      ⟨answered, call, member, keyed, positive⟩

/-! ### Without ids -/

/-- The charge of a request without ids, from what the answer is like. -/
theorem one_le_creditsWithoutIds_iff {plan : McpBillingPlan} {response : ByteArray}
    (answered : response.isEmpty = false) :
    1 ≤ creditsWithoutIds json plan response ↔
      (mcpResponseHasAnySuccess json response = true ∧ ReportsCredits json response) ∨
        (mcpResponseHasAnyError json response = false ∧
          1 ≤ (missingUsageFallbackTotal plan).getD 0) := by
  have allow : allowEmptyBodySearchFallback plan response = false := by
    rw [allowEmptyBodySearchFallback, answered, Bool.false_and]
  have clean := @hasAnySuccess_of_no_error json response
  rw [← one_le_total_iff, creditsWithoutIds, allow]
  simp only [Bool.not_false, Bool.true_and, Bool.false_or]
  cases error : mcpResponseHasAnyError json response with
  | false =>
      -- Without an error there is a success, and the larger of the two amounts counts.
      rw [clean error]
      cases extractUsageCreditsTotalFromJsonBytes json response with
      | none => simp
      | some credits =>
          cases missingUsageFallbackTotal plan with
          | none => simp
          | some expected => simp
  | true =>
      cases mcpResponseHasAnySuccess json response with
      | false => cases extractUsageCreditsTotalFromJsonBytes json response <;> simp
      | true => cases extractUsageCreditsTotalFromJsonBytes json response <;> simp

theorem one_le_missingUsageFallbackTotal_iff (body : JsonValue) (billable lockable : Bool) :
    1 ≤ (missingUsageFallbackTotal ((walkBody json body).plan billable lockable)).getD 0 ↔
      ∃ call ∈ paidCalls body, 1 ≤ expectedCredits call := by
  rw [← one_le_fallbackTotal_iff json (paidCalls body), tallyOf, ← tally_walkBody]
  have expected : ((walkBody json body).plan billable lockable).expectedSearchCredits.getD 0 =
      max (walkBody json body).tally.expectedTotal 0 := by
    simp only [PlanWalk.plan, PlanWalk.tally]
    split
    · rw [Option.getD_some, max_eq_left (by omega)]
    · rw [Option.getD_none, max_eq_right (by omega)]
  have nonneg : 0 ≤ (walkBody json body).tally.expectedTotal := by
    rw [tally_walkBody]
    exact (expectedTotal_pos json (paidCalls body)).1
  rw [missingUsageFallbackTotal, expected, max_eq_left nonneg]
  split
  · exact Iff.rfl
  · rename_i small
    constructor
    · intro positive
      exact absurd positive (by decide)
    · intro positive
      exact absurd (Int.lt_of_lt_of_le Int.zero_lt_one positive) small

theorem one_le_charge_without_ids {path : String} {request response : ByteArray}
    {body : JsonValue} (exchange : BillableExchange json path request response)
    (parsed : json.fromSlice request = some body)
    (missing : ∃ call ∈ paidCalls body, idKey json call = none) :
    1 ≤ mcpCharge json path request response ↔
      (mcpResponseHasAnySuccess json response = true ∧ ReportsCredits json response) ∨
        (mcpResponseHasAnyError json response = false ∧
          ∃ call ∈ paidCalls body, 1 ≤ expectedCredits call) := by
  have without : (walkBody json body).hasBillableMcpWithoutId = true := by
    have tally : (walkBody json body).tally.withoutId = true := by
      rw [tally_walkBody]
      refine (withoutId_tallyOf json (paidCalls body)).trans ?_
      rw [List.any_eq_true]
      obtain ⟨call, member, none⟩ := missing
      exact ⟨call, member, by rw [none]; rfl⟩
    exact tally
  have plan := mcpBillingPlan_eq json exchange.under parsed
  have credits : mcpCredits json (mcpBillingPlan json path request) response =
      creditsWithoutIds json (mcpBillingPlan json path request) response := by
    rw [mcpCredits, plan]
    exact if_pos without
  rw [mcpCharge, exchange.billable, if_pos rfl, credits, le_max_iff,
    one_le_creditsWithoutIds_iff exchange.answered, plan, one_le_missingUsageFallbackTotal_iff]
  simp

/-! ### The condition -/

/-- A billable request that is answered with a usage is charged exactly where it enters
the tables of the charge. -/
theorem charged_iff_entersCharge {path : String} {request response : ByteArray}
    (exchange : BillableExchange json path request response) :
    1 ≤ mcpCharge json path request response ↔ EntersCharge json request response := by
  cases parsed : json.fromSlice request with
  | none =>
      have nothing : mcpCharge json path request response = 0 := by
        simp only [mcpCharge, mcpBillingPlan, exchange.under, parsed, if_true]
        rfl
      rw [nothing]
      constructor
      · intro positive
        exact absurd positive (by decide)
      · rintro ⟨body, some, _⟩
        rw [parsed] at some
        cases some
  | some body =>
      by_cases keyed : ∀ call ∈ paidCalls body, (idKey json call).isSome = true
      · rw [one_le_charge_of_ids exchange parsed keyed]
        constructor
        · intro answered
          refine ⟨body, parsed, fun _ => answered, ?_⟩
          rintro ⟨call, member, none⟩
          have some := keyed call member
          rw [none] at some
          cases some
        · rintro ⟨other, same, answered, _⟩
          rw [parsed] at same
          cases same
          exact answered keyed
      · have missing : ∃ call ∈ paidCalls body, idKey json call = none := by
          simpa using keyed
        rw [one_le_charge_without_ids exchange parsed missing]
        constructor
        · intro enters
          exact ⟨body, parsed, fun all => absurd all keyed, fun _ => enters⟩
        · rintro ⟨other, same, _, enters⟩
          rw [parsed] at same
          cases same
          exact enters missing

end

/-! ### A method that nobody knows -/

/-- A request of a method that the plan does not know. -/
def unknownMethod : JsonValue :=
  .object [("id", .number (.posInt 1)), ("method", .string "tools/invoke")]

def unknownMethodText : String := "\x7b\"id\":1,\"method\":\"tools/invoke\"\x7d"

def searchText : String :=
  "\x7b\"id\":1,\"method\":\"tools/call\",\"params\":\x7b\"name\":\"tavily-search\"\x7d\x7d"

def usageText : String := "\x7b\"id\":1,\"result\":\x7b\"usage\":\x7b\"credits\":5\x7d\x7d\x7d"

/-- The parser, on these documents. -/
def rideJson : SerdeJson :=
  .ofDocuments
    [(unknownMethodText, unknownMethod), (searchText, searchCall 1), (usageText, usageAnswer 1 5)]

theorem unknownMethodText_parsed :
    rideJson.fromSlice unknownMethodText.toUTF8 = some unknownMethod := by
  rw [rideJson, SerdeJson.fromSlice_ofDocuments]
  simp

theorem searchText_parsed : rideJson.fromSlice searchText.toUTF8 = some (searchCall 1) := by
  rw [rideJson, SerdeJson.fromSlice_ofDocuments]
  simp [unknownMethodText, searchText]

theorem usageText_messages :
    responseMessages rideJson usageText.toUTF8 = [usageAnswer 1 5] := by
  have parsed : rideJson.fromSlice usageText.toUTF8 = some (usageAnswer 1 5) := by
    rw [rideJson, SerdeJson.fromSlice_ofDocuments]
    simp [unknownMethodText, searchText, usageText]
  rw [responseMessages_of_json rideJson (by simp [usageText])
    (by simp [usageText, startsWith, List.isPrefixOf]) parsed]
  rfl

/-- An item that is not free and whose answer reports the usage makes an exchange. -/
theorem billableExchange_of_item {text : String} {members : List (String × JsonValue)}
    (parsed : rideJson.fromSlice text.toUTF8 = some (.object members))
    (billed : isNonBillable (.object members) = false)
    (keyed : idKey rideJson (.object members) = some "1") :
    BillableExchange rideJson "/mcp" text.toUTF8 usageText.toUTF8 where
  under := by decide
  billable := by
    rw [billableFlag_eq rideJson (by decide) parsed]
    simp [batchItems, billed]
  answered := isEmpty_toUTF8 (by simp [usageText])
  succeeds := by
    rw [usageText_messages]
    decide
  reports := by
    rw [usageText_messages]
    refine ⟨usageAnswer 1 5, List.mem_singleton.2 rfl, ?_, 5, by decide, by decide⟩
    unfold ConcernsRequest
    rw [parsed]
    exact ⟨billed, "1", keyed, by decide⟩

/-- A search is charged for the usage of its answer. -/
theorem charged_iff_entersCharge_search :
    1 ≤ mcpCharge rideJson "/mcp" searchText.toUTF8 usageText.toUTF8 := by
  have exchange := billableExchange_of_item searchText_parsed (by decide) (by decide)
  apply (charged_iff_entersCharge exchange).2
  refine ⟨searchCall 1, searchText_parsed, fun _ => ?_, ?_⟩
  · rw [usageText_messages]
    exact ⟨searchCall 1, List.mem_singleton.2 rfl, "1", by decide, by decide, by decide⟩
  · rintro ⟨call, member, none⟩
    have only : call = searchCall 1 := List.mem_singleton.1 member
    rw [only] at none
    exact absurd none (by decide)

/-- A request of an unknown method is billable, its answer reports five credits, and it
is charged nothing. -/
theorem unknownMethod_rides_free :
    BillableExchange rideJson "/mcp" unknownMethodText.toUTF8 usageText.toUTF8 ∧
      ¬ 1 ≤ mcpCharge rideJson "/mcp" unknownMethodText.toUTF8 usageText.toUTF8 := by
  refine ⟨billableExchange_of_item unknownMethodText_parsed (by decide) (by decide), ?_⟩
  have keyed : ∀ call ∈ paidCalls unknownMethod, (idKey rideJson call).isSome = true := by decide
  rw [mcpCharge_of_ids rideJson (by decide) unknownMethodText_parsed keyed
    (isEmpty_toUTF8 (by simp [usageText]))]
  decide

end TavilyHikari.Server
