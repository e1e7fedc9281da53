/-
Module: TavilyHikari.Proofs.McpCharge
Purpose: The charge of an `/mcp` request whose paid calls all have ids of their own is
  the sum of what the calls cost, as far as an `i64` goes.
Trusted boundary: none
Main exports: mcpCharge_of_ids, mcpCharge_eq_sum_of_calls
-/
import TavilyHikari.Proofs.McpAnswers
import TavilyHikari.Proofs.McpPlan

namespace TavilyHikari.Server

open Library Analysis

/-! ### The charge of the ids -/

section

variable (json : SerdeJson)

/-- What an id costs, by the tables of the request. -/
def idCharge (messages : List JsonValue) (tally : CallTally) (id : String) : Int :=
  if succeeds json messages id then
    (observedCredits json messages id).getD (tally.unreported id)
  else 0

theorem idCharge_nonneg (messages calls : List JsonValue) (id : String) :
    0 ≤ idCharge json messages (tallyOf json calls) id := by
  unfold idCharge
  split
  · cases observed : observedCredits json messages id with
    | none => exact unreported_nonneg json calls id
    | some credits => exact observedCredits_nonneg json observed
  · exact le_refl 0

/-- With an answer that is not empty, the handler charges an id what it costs. -/
theorem creditsOfId_eq (walk : PlanWalk) (billable lockable : Bool) (response : ByteArray)
    (id : String) :
    creditsOfId (walk.plan billable lockable) false (extractMcpHasErrorByIdFromBytes json response)
        (extractMcpUsageCreditsByIdFromBytes json response) id =
      idCharge json (responseMessages json response) walk.tally id := by
  rw [creditsOfId, idCharge]
  simp only [Bool.false_eq_true, if_false, hasError_eq, find_creditsById]
  cases succeeds json (responseMessages json response) id with
  | false => rfl
  | true =>
      cases observedCredits json (responseMessages json response) id with
      | some credits => rfl
      | none => rfl

theorem creditsByIds_eq (body : JsonValue) (billable lockable : Bool) {response : ByteArray}
    (answered : response.isEmpty = false) :
    creditsByIds json ((walkBody json body).plan billable lockable) response =
      min i64Max ((walkBody json body).tally.ids.map
        (idCharge json (responseMessages json response) (walkBody json body).tally)).sum := by
  have allow : allowEmptyBodySearchFallback ((walkBody json body).plan billable lockable)
      response = false := by
    rw [allowEmptyBodySearchFallback, answered, Bool.false_and]
  have nonneg : ∀ charge ∈ (walkBody json body).tally.ids.map
      (idCharge json (responseMessages json response) (walkBody json body).tally), 0 ≤ charge := by
    intro charge member
    obtain ⟨id, _, rfl⟩ := List.mem_map.1 member
    rw [tally_walkBody]
    exact idCharge_nonneg json _ (paidCalls body) id
  have added := foldl_saturatingAdd nonneg (le_refl 0) (by decide)
  rw [List.foldl_map, zero_add] at added
  rw [creditsByIds, allow, ← added]
  simp only [creditsOfId_eq]
  rfl

/-- A request that is not billable has no paid call. -/
theorem paidCalls_of_not_billable {body : JsonValue}
    (free : (batchItems body).all isNonBillable = true) : paidCalls body = [] := by
  rw [paidCalls, List.filter_eq_nil_iff]
  intro item member paid
  have own := List.all_eq_true.1 free item member
  rw [isPaidCall, Bool.and_eq_true, Bool.not_eq_true'] at paid
  rw [isNonBillable, paid.2, Bool.and_false, Bool.or_false] at own
  have call : itemMethod item = "tools/call" := of_decide_eq_true paid.1
  rw [call, isNonBillableMethod_toolsCall] at own
  cases own

/-- The charge of a request whose paid calls all have an id. -/
theorem mcpCharge_of_ids {path : String} {request response : ByteArray} {body : JsonValue}
    (under : startsWith "/mcp" path = true) (parsed : json.fromSlice request = some body)
    (keyed : ∀ call ∈ paidCalls body, (idKey json call).isSome = true)
    (answered : response.isEmpty = false) :
    mcpCharge json path request response =
      min i64Max ((tallyOf json (paidCalls body)).ids.map
        (idCharge json (responseMessages json response) (tallyOf json (paidCalls body)))).sum := by
  have tally : (walkBody json body).tally = tallyOf json (paidCalls body) := tally_walkBody json body
  have withIds : (walkBody json body).hasBillableMcpWithoutId = false := by
    have without : (walkBody json body).tally.withoutId = false := by
      rw [tally, withoutId_tallyOf, List.any_eq_false]
      intro call member missing
      rw [Option.isNone_iff_eq_none] at missing
      have known := keyed call member
      rw [missing] at known
      cases known
    exact without
  have flag := billableFlag_eq json under parsed
  rw [mcpCharge, flag]
  cases free : (batchItems body).all isNonBillable with
  | true =>
      rw [paidCalls_of_not_billable free]
      rfl
  | false =>
      have plan := mcpBillingPlan_eq json under parsed
      have credits : mcpCredits json (mcpBillingPlan json path request) response =
          min i64Max ((tallyOf json (paidCalls body)).ids.map (idCharge json
            (responseMessages json response) (tallyOf json (paidCalls body)))).sum := by
        have byIds := creditsByIds_eq json body (mcpBillingPlan json path request).billableFlag
          (mcpBillingPlan json path request).lockableTool answered
        rw [tally] at byIds
        rw [plan, mcpCredits, ← byIds]
        exact if_neg (by rw [Bool.not_eq_true]; exact withIds)
      have nonneg : 0 ≤ ((tallyOf json (paidCalls body)).ids.map (idCharge json
          (responseMessages json response) (tallyOf json (paidCalls body)))).sum := by
        apply List.sum_nonneg
        intro charge member
        obtain ⟨id, _, rfl⟩ := List.mem_map.1 member
        exact idCharge_nonneg json _ (paidCalls body) id
      rw [credits, Bool.not_false, if_pos rfl]
      exact max_eq_left (le_min (by decide) nonneg)

/-! ### The charge of the calls -/

/-- Every call has an id, and no two have the same. -/
structure DistinctIds (calls : List JsonValue) : Prop where
  present : ∀ call ∈ calls, (idKey json call).isSome = true
  distinct : (calls.filterMap (idKey json)).Nodup

/-- With ids of their own, the ids cost what the calls do. -/
theorem sum_idCharge {messages calls : List JsonValue} (ids : DistinctIds json calls) :
    ((tallyOf json calls).ids.map (idCharge json messages (tallyOf json calls))).sum =
      (calls.map (callCharge json messages)).sum := by
  rw [ids_tallyOf, foldl_insertId_of_nodup (by simpa using ids.distinct), List.nil_append,
    sum_map_filterMap]
  apply sum_map_congr
  intro call member
  cases keyed : idKey json call with
  | none => simp [callCharge, keyed]
  | some id =>
      have single : callsOf json calls id = [call] :=
        filter_key_eq_singleton ids.distinct member keyed
      rw [callCharge, keyed, Option.elim_some, Option.elim_some, idCharge,
        unreported_of_single json calls single]

/-- What a call costs depends only on which messages answer it. -/
theorem callCharge_congr {one two : List JsonValue} {call : JsonValue}
    (same : ∀ id, idKey json call = some id → SameAnswers json one two id) :
    callCharge json one call = callCharge json two call := by
  cases keyed : idKey json call with
  | none => simp [callCharge, keyed]
  | some id =>
      rw [callCharge, callCharge, keyed, Option.elim_some, Option.elim_some,
        succeeds_congr json (same id keyed), observedCredits_congr json (same id keyed)]

/-- The charge of an exchange: with ids of their own, the paid calls cost what each of
them does, up to the largest `i64`; only the messages that answer them matter, not
their order or how often they come; and a billable batch that has an id twice is
turned away. -/
theorem mcpCharge_exact {path : String} (under : startsWith "/mcp" path = true) :
    (∀ (request response : ByteArray) (body : JsonValue),
      json.fromSlice request = some body → DistinctIds json (paidCalls body) →
      response.isEmpty = false →
      mcpCharge json path request response =
        min i64Max
          ((paidCalls body).map (callCharge json (responseMessages json response))).sum) ∧
    (∀ (request one two : ByteArray) (body : JsonValue),
      json.fromSlice request = some body → DistinctIds json (paidCalls body) →
      one.isEmpty = false → two.isEmpty = false →
      (∀ call ∈ paidCalls body, ∀ id, idKey json call = some id →
        SameAnswers json (responseMessages json one) (responseMessages json two) id) →
      mcpCharge json path request one = mcpCharge json path request two) ∧
    (∀ (request : ByteArray) (items : List JsonValue),
      json.fromSlice request = some (.array items) →
      (mcpBillingPlan json path request).billableFlag = true →
      ¬ (items.filterMap (idKey json)).Nodup →
      rejectsInvalid (mcpBillingPlan json path request) = true) := by
  have charge : ∀ (request response : ByteArray) (body : JsonValue),
      json.fromSlice request = some body → DistinctIds json (paidCalls body) →
      response.isEmpty = false →
      mcpCharge json path request response =
        min i64Max
          ((paidCalls body).map (callCharge json (responseMessages json response))).sum := by
    intro request response body parsed ids answered
    rw [mcpCharge_of_ids json under parsed ids.present answered, sum_idCharge json ids]
  refine ⟨charge, ?_, ?_⟩
  · intro request one two body parsed ids answeredOne answeredTwo same
    rw [charge request one body parsed ids answeredOne,
      charge request two body parsed ids answeredTwo]
    congr 1
    apply sum_map_congr
    intro call member
    exact callCharge_congr json (same call member)
  · intro request items parsed billable repeated
    exact (rejectsInvalid_batch_iff json under parsed).2 ⟨billable, repeated⟩

end

/-- A search under an id. -/
def searchCall (id : UInt64) : JsonValue :=
  .object [("id", .number (.posInt id)), ("method", .string "tools/call"),
    ("params", .object [("name", .string "tavily-search")])]

/-- An answer to an id that reports its usage. -/
def usageAnswer (id credits : UInt64) : JsonValue :=
  .object [("id", .number (.posInt id)),
    ("result", .object [("usage", .object [("credits", .number (.posInt credits))])])]

/-- Two searches. -/
def searchesText : String :=
  "[\x7b\"id\":1,\"method\":\"tools/call\",\"params\":\x7b\"name\":\"tavily-search\"\x7d\x7d," ++
    "\x7b\"id\":2,\"method\":\"tools/call\",\"params\":\x7b\"name\":\"tavily-search\"\x7d\x7d]"

/-- Two searches under one id. -/
def repeatedText : String :=
  "[\x7b\"id\":1,\"method\":\"tools/call\",\"params\":\x7b\"name\":\"tavily-search\"\x7d\x7d," ++
    "\x7b\"id\":1,\"method\":\"tools/call\",\"params\":\x7b\"name\":\"tavily-search\"\x7d\x7d]"

/-- Two answers to the first search, and one to nothing that was asked. -/
def answersText : String :=
  "[\x7b\"id\":1,\"result\":\x7b\"usage\":\x7b\"credits\":1\x7d\x7d\x7d," ++
    "\x7b\"id\":9,\"result\":\x7b\"usage\":\x7b\"credits\":50\x7d\x7d\x7d," ++
    "\x7b\"id\":1,\"result\":\x7b\"usage\":\x7b\"credits\":3\x7d\x7d\x7d]"

/-- The largest usage, for both searches. -/
def largestText : String :=
  "[\x7b\"id\":1,\"result\":\x7b\"usage\":\x7b\"credits\":9223372036854775807\x7d\x7d\x7d," ++
    "\x7b\"id\":2,\"result\":\x7b\"usage\":\x7b\"credits\":9223372036854775807\x7d\x7d\x7d]"

def searchesDocuments : List (String × JsonValue) :=
  [(searchesText, .array [searchCall 1, searchCall 2]),
    (repeatedText, .array [searchCall 1, searchCall 1]),
    (answersText, .array [usageAnswer 1 1, usageAnswer 9 50, usageAnswer 1 3]),
    (largestText, .array
      [usageAnswer 1 9223372036854775807, usageAnswer 2 9223372036854775807])]

/-- The parser, on these documents. -/
def searchesJson : SerdeJson := .ofDocuments searchesDocuments

theorem searchesDocuments_distinct : (searchesDocuments.map Prod.fst).Nodup := by
  decide +kernel

theorem searchesText_parsed :
    searchesJson.fromSlice searchesText.toUTF8 = some (.array [searchCall 1, searchCall 2]) :=
  SerdeJson.fromSlice_of_mem searchesDocuments_distinct (by simp [searchesDocuments])

theorem repeatedText_parsed :
    searchesJson.fromSlice repeatedText.toUTF8 = some (.array [searchCall 1, searchCall 1]) :=
  SerdeJson.fromSlice_of_mem searchesDocuments_distinct (by simp [searchesDocuments])

theorem answersText_messages :
    responseMessages searchesJson answersText.toUTF8 =
      [usageAnswer 1 1, usageAnswer 9 50, usageAnswer 1 3] := by
  have parsed : searchesJson.fromSlice answersText.toUTF8 =
      some (.array [usageAnswer 1 1, usageAnswer 9 50, usageAnswer 1 3]) :=
    SerdeJson.fromSlice_of_mem searchesDocuments_distinct (by simp [searchesDocuments])
  rw [responseMessages_of_json searchesJson (by decide +kernel) (by decide +kernel) parsed]
  rfl

theorem largestText_messages :
    responseMessages searchesJson largestText.toUTF8 =
      [usageAnswer 1 9223372036854775807, usageAnswer 2 9223372036854775807] := by
  have parsed : searchesJson.fromSlice largestText.toUTF8 =
      some (.array [usageAnswer 1 9223372036854775807, usageAnswer 2 9223372036854775807]) :=
    SerdeJson.fromSlice_of_mem searchesDocuments_distinct (by simp [searchesDocuments])
  rw [responseMessages_of_json searchesJson (by decide +kernel) (by decide +kernel) parsed]
  rfl

theorem searches_distinctIds :
    DistinctIds searchesJson (paidCalls (.array [searchCall 1, searchCall 2])) where
  present := by decide
  distinct := by decide

/-- The first search costs the most that its answers report, the second has none. -/
theorem mcpCharge_exact_searches :
    mcpCharge searchesJson "/mcp" searchesText.toUTF8 answersText.toUTF8 = 3 ∧
      rejectsInvalid (mcpBillingPlan searchesJson "/mcp" repeatedText.toUTF8) = true := by
  obtain ⟨charge, _, rejects⟩ := @mcpCharge_exact searchesJson "/mcp" (by decide)
  constructor
  · rw [charge _ _ _ searchesText_parsed searches_distinctIds
      (isEmpty_toUTF8 (by decide +kernel)), answersText_messages]
    decide
  · apply rejects _ _ repeatedText_parsed
    · rw [billableFlag_eq searchesJson (by decide) repeatedText_parsed]
      decide
    · decide

/-- Two searches that report the largest usage are not charged what they cost
together. -/
theorem mcpCharge_stops_at_i64Max :
    mcpCharge searchesJson "/mcp" searchesText.toUTF8 largestText.toUTF8 ≠
      ((paidCalls (.array [searchCall 1, searchCall 2])).map
        (callCharge searchesJson (responseMessages searchesJson largestText.toUTF8))).sum := by
  rw [mcpCharge_of_ids searchesJson (by decide) searchesText_parsed searches_distinctIds.present
    (isEmpty_toUTF8 (by decide +kernel)), sum_idCharge searchesJson searches_distinctIds,
    largestText_messages]
  decide

end TavilyHikari.Server
