/-
Module: TavilyHikari.Proofs.BillingGate
Purpose: The gate of the handler covers the classification of a request: what is
  classified as billable is marked billable and locked, and only requests all of whose
  items are proven to be free are not marked.
Trusted boundary: none
Main exports: FreeItem, isNonBillable_iff, billingGate_covers_classification
-/
import TavilyHikari.Analysis.RequestKind
import TavilyHikari.Proofs.McpPlan

namespace TavilyHikari.Server

open Library Analysis

/-! ### Free items -/

/-- An item that costs nothing: a method of the control plane, or a call of a named tool
whose name, as it is compared, is not one of Tavily's. -/
inductive FreeItem (compared : String → String) : JsonValue → Prop where
  | control {members : List (String × JsonValue)} {method : String}
      (named : JsonValue.getMember members "method" = some (.string method))
      (free : isNonBillableMethod method = true) : FreeItem compared (.object members)
  | otherTool {members params : List (String × JsonValue)} {name : String}
      (called : JsonValue.getMember members "method" = some (.string "tools/call"))
      (withParams : JsonValue.getMember members "params" = some (.object params))
      (named : JsonValue.getMember params "name" = some (.string name))
      (nonBlank : trim name ≠ "")
      (other : startsWith "tavily-" (normalizedTool (compared name)) = false) :
      FreeItem compared (.object members)

theorem itemMethod_eq_iff {members : List (String × JsonValue)} {method : String}
    (nonempty : method ≠ "") :
    itemMethod (.object members) = method ↔
      JsonValue.getMember members "method" = some (.string method) := by
  unfold itemMethod JsonValue.get
  simp only
  cases JsonValue.getMember members "method" with
  | none => simp [Ne.symm nonempty]
  | some value => cases value <;> simp [JsonValue.asStr, Ne.symm nonempty]

/-- An item names another tool where its params are an object with such a name. -/
theorem namesOtherTool_iff {members : List (String × JsonValue)} :
    namesOtherTool (.object members) = true ↔
      ∃ params name, JsonValue.getMember members "params" = some (.object params) ∧
        JsonValue.getMember params "name" = some (.string name) ∧ trim name ≠ "" ∧
        startsWith "tavily-" (normalizedTool (trim name)) = false := by
  have unnamed : trim "" = "" := rfl
  unfold namesOtherTool calledTool JsonValue.get
  rw [Bool.and_eq_true, decide_eq_true_eq, Bool.not_eq_true']
  simp only
  cases given : JsonValue.getMember members "params" with
  | none => simp
  | some value =>
      cases value with
      | object params =>
          cases called : JsonValue.getMember params "name" with
          | none => simp [toolName, JsonValue.get, called, unnamed, normalizedTool_eq_empty_iff]
          | some name =>
              cases name with
              | string text =>
                  simp [toolName, JsonValue.get, JsonValue.asStr, called,
                    normalizedTool_eq_empty_iff]
              | _ =>
                  simp [toolName, JsonValue.get, JsonValue.asStr, called, unnamed,
                    normalizedTool_eq_empty_iff]
      | _ => simp

theorem isNonBillable_of_not_object {item : JsonValue}
    (other : ∀ members, item ≠ .object members) : isNonBillable item = false := by
  rw [isNonBillable, isToolCall, itemMethod_of_not_object other]
  simp [isNonBillableMethod, startsWith]

theorem isNonBillable_iff {item : JsonValue} : isNonBillable item = true ↔ FreeItem trim item := by
  cases item with
  | object members =>
      unfold isNonBillable isToolCall
      rw [Bool.or_eq_true, Bool.and_eq_true, decide_eq_true_eq, namesOtherTool_iff,
        itemMethod_eq_iff (by decide)]
      constructor
      · rintro (free | ⟨called, params, name, withParams, named, nonBlank, other⟩)
        · have nonempty : itemMethod (.object members) ≠ "" := by
            intro empty
            rw [empty] at free
            exact absurd free (by decide)
          exact .control ((itemMethod_eq_iff nonempty).1 rfl) free
        · exact .otherTool called withParams named nonBlank other
      · intro free
        cases free with
        | control named free =>
            rename_i method
            have nonempty : method ≠ "" := by
              rintro rfl
              exact absurd free (by decide)
            rw [(itemMethod_eq_iff nonempty).2 named]
            exact Or.inl free
        | otherTool called withParams named nonBlank other =>
            exact Or.inr ⟨called, _, _, withParams, named, nonBlank, other⟩
  | _ =>
      rw [isNonBillable_of_not_object (by simp)]
      constructor
      · intro absurd
        cases absurd
      · intro free
        cases free

/-! ### Classification of free items -/

theorem startsWith_nonempty {p s : String} (starts : startsWith p s = true) (nonempty : p ≠ "") :
    s.isEmpty = false := by
  rw [Bool.eq_false_iff, Ne, String.isEmpty_iff]
  rintro rfl
  rw [startsWith, List.isPrefixOf_iff_prefix, String.toList_empty, List.prefix_nil] at starts
  exact nonempty (String.toList_inj.1 starts)

/-- A key with the beginning of a free kind is not billable. -/
theorem isNonBillableKind_of_prefix {kind : TokenRequestKind} {p : String}
    (known : p ∈ nonBillablePrefixes) (starts : startsWith p kind.key = true)
    (kept : Trimmed isWhiteSpace p.toList) (mcp : startsWith "mcp:" p = true) :
    isNonBillableKind kind = true := by
  have nonempty : p ≠ "" := by
    rintro rfl
    exact absurd mcp (by decide)
  have trimmed : startsWith p (trim kind.key) = true := startsWith_trim starts nonempty kept
  have group : startsWith "mcp:" (trim kind.key) = true := by
    obtain ⟨tail, rfl⟩ := startsWith_iff.1 mcp
    obtain ⟨rest, same⟩ := startsWith_iff.1 trimmed
    rw [same, String.append_assoc]
    exact startsWith_append _ _
  have free : nonBillablePrefixes.any (startsWith · (trim kind.key)) = true :=
    List.any_eq_true.2 ⟨p, known, trimmed⟩
  simp [isNonBillableKind, tokenRequestKindProtocolGroup, tokenRequestKindBillingGroup, group, free]

/-- What the classification makes of a method of the control plane. -/
structure FreeMethod (method : String) : Prop where
  control : isControlMethod (trim method) = true
  nonempty : (trim method).isEmpty = false
  free : isNonBillableKind (buildMcpRequestKind (trim method)) = true

theorem FreeMethod.of_prefix {p method : String} (starts : startsWith p method = true)
    (known : p ∈ ["resources/", "prompts/", "notifications/"]) : FreeMethod method := by
  simp only [List.mem_cons, List.not_mem_nil, or_false] at known
  have facts : p ≠ "" ∧ Trimmed isWhiteSpace p.toList ∧ ("mcp:" ++ p) ∈ nonBillablePrefixes ∧
      Trimmed isWhiteSpace ("mcp:" ++ p).toList := by
    rcases known with rfl | rfl | rfl <;>
      exact ⟨by decide, ⟨by decide, by decide⟩, by decide, ⟨by decide, by decide⟩⟩
  obtain ⟨nonempty, kept, free, keptKey⟩ := facts
  have trimmed : startsWith p (trim method) = true := startsWith_trim starts nonempty kept
  refine ⟨?_, startsWith_nonempty trimmed nonempty, ?_⟩
  · rcases known with rfl | rfl | rfl <;> simp [isControlMethod, trimmed]
  · apply isNonBillableKind_of_prefix free _ keptKey (startsWith_append "mcp:" p)
    exact startsWith_append_left "mcp:" trimmed

theorem FreeMethod.of_control {method : String} (free : isNonBillableMethod method = true) :
    FreeMethod method := by
  simp only [isNonBillableMethod, Bool.or_eq_true, decide_eq_true_eq, List.mem_cons,
    List.not_mem_nil, or_false] at free
  rcases free with (((rfl | rfl | rfl) | resources) | prompts) | notifications
  · exact ⟨by decide, by decide, by decide⟩
  · exact ⟨by decide, by decide, by decide⟩
  · exact ⟨by decide, by decide, by decide⟩
  · exact FreeMethod.of_prefix resources (by simp)
  · exact FreeMethod.of_prefix prompts (by simp)
  · exact FreeMethod.of_prefix notifications (by simp)

/-- A tool that is not Tavily's has no kind of its own. -/
theorem normalizeTavilyToolName_eq_none {name : String}
    (other : startsWith "tavily-" (normalizedTool (trim name)) = false) :
    normalizeTavilyToolName (trim name) = none := by
  have differs : ∀ tool, startsWith "tavily-" tool = true →
      replaceChar '_' '-' (toAsciiLowercase (trim name)) ≠ tool := by
    intro tool starts same
    rw [normalizedTool, same, starts] at other
    cases other
  unfold normalizeTavilyToolName
  rw [trim_trim]
  simp only [differs "tavily-search" (by decide), differs "tavily-extract" (by decide),
    differs "tavily-crawl" (by decide), differs "tavily-map" (by decide),
    differs "tavily-research" (by decide), if_false]

/-- Every free item has a kind, and it is not billable. -/
theorem classify_freeItem {item : JsonValue} (free : FreeItem trim item) :
    ∃ kind, classifyMcpRequestKindFromMessage item = some kind ∧ isNonBillableKind kind = true := by
  cases free with
  | control named free =>
      rename_i members method
      have method := FreeMethod.of_control free
      refine ⟨_, ?_, method.free⟩
      simp [classifyMcpRequestKindFromMessage, JsonValue.get, named, JsonValue.asStr, nonBlank,
        method.nonempty, method.control]
  | otherTool called withParams named filled other =>
      rename_i members params name
      have blank : (trim name).isEmpty = false := by
        rw [Bool.eq_false_iff, Ne, String.isEmpty_iff]
        exact filled
      have tool : nonBlank name = some (trim name) := by rw [nonBlank, blank]; rfl
      have call : nonBlank "tools/call" = some "tools/call" := by decide
      have notControl : isControlMethod "tools/call" = false := by decide
      have thirdParty : classifyToolCall (.object members) =
          buildMcpThirdPartyToolKind (trim name) := by
        simp only [classifyToolCall, JsonValue.get, withParams, Option.bind_some, named,
          JsonValue.asStr, tool, normalizeTavilyToolName_eq_none other]
      refine ⟨buildMcpThirdPartyToolKind (trim name), ?_, ?_⟩
      · simp only [classifyMcpRequestKindFromMessage, JsonValue.get, called, Option.bind_some,
          JsonValue.asStr, call, Option.map_some, notControl, Bool.false_eq_true, if_false,
          if_true, thirdParty]
      · have key : (buildMcpThirdPartyToolKind (trim name)).key = "mcp:third-party-tool" := rfl
        rw [isNonBillableKind, key]
        decide

/-! ### The gate -/

/-- A key whose kind is not billable is in no billable group, whatever the body. -/
theorem billingGroup_of_nonBillableKind {json : SerdeJson} {kind : TokenRequestKind}
    (free : isNonBillableKind kind = true) (body : Option ByteArray) :
    tokenRequestKindBillingGroupForRequestLog json kind.key body = .nonBillable := by
  rw [isNonBillableKind, Bool.and_eq_true, decide_eq_true_eq, decide_eq_true_eq] at free
  rw [tokenRequestKindBillingGroupForRequestLog, free.2, ite_self]

/-- A batch of free items is not billable. -/
theorem billingGroup_of_batch {json : SerdeJson} {path : String} {request : ByteArray}
    {items : List JsonValue} (parsed : json.fromSlice request = some (.array items))
    (free : ∀ item ∈ items, FreeItem trim item) :
    tokenRequestKindBillingGroupForRequestLog json
      (classifyBatch path (items.filterMap classifyMcpRequestKindFromMessage)).key
      (some request) = .nonBillable := by
  have payload : isNonBillableKind (buildMcpUnknownPayloadKind (some path)) = true := by
    have key : (buildMcpUnknownPayloadKind (some path)).key = "mcp:unknown-payload" := rfl
    rw [isNonBillableKind, key]
    decide
  cases kinds : items.filterMap classifyMcpRequestKindFromMessage with
  | nil => exact billingGroup_of_nonBillableKind payload (some request)
  | cons first rest =>
      have member : first ∈ items.filterMap classifyMcpRequestKindFromMessage := by
        rw [kinds]
        exact List.mem_cons_self
      obtain ⟨item, here, classified⟩ := List.mem_filterMap.1 member
      unfold classifyBatch
      simp only
      split
      · obtain ⟨kind, same, nonBillable⟩ := classify_freeItem (free item here)
        rw [classified] at same
        cases same
        exact billingGroup_of_nonBillableKind nonBillable (some request)
      · -- Different kinds make a batch, and the batch is looked at again.
        have all : mcpRequestBodyAllNonBillable json (some request) = true := by
          simp only [mcpRequestBodyAllNonBillable, Option.bind_some, parsed, Bool.and_eq_true,
            Bool.not_eq_true']
          refine ⟨?_, List.all_eq_true.2 fun other among => ?_⟩
          · rw [Bool.eq_false_iff, Ne, List.isEmpty_iff]
            rintro rfl
            exact List.not_mem_nil here
          · obtain ⟨kind, same, nonBillable⟩ := classify_freeItem (free other among)
            rw [same, Option.any_some, nonBillable]
        have key : requestKindKey "mcp" "batch" = "mcp:batch" := by decide
        have trimmed : trim "mcp:batch" = "mcp:batch" := by decide
        have counts : requestLogCountsBusinessQuota json "mcp:batch" (some request) = false := by
          rw [requestLogCountsBusinessQuota, all, trimmed]
          simp
        simp only [buildMcpRequestKindWithDetail, TokenRequestKind.new, key,
          tokenRequestKindBillingGroupForRequestLog, counts, trimmed, Bool.not_false, and_self,
          if_true]

/-- Unmarked are the requests that parse to an object or an array of free items. -/
theorem billableFlag_eq_false_iff (json : SerdeJson) {path : String} {request : ByteArray}
    (under : startsWith "/mcp" path = true) :
    (mcpBillingPlan json path request).billableFlag = false ↔
      (∃ items, json.fromSlice request = some (.array items) ∧
          ∀ item ∈ items, FreeItem trim item) ∨
        (∃ members, json.fromSlice request = some (.object members) ∧
          FreeItem trim (.object members)) := by
  cases parsed : json.fromSlice request with
  | none =>
      have marked : (mcpBillingPlan json path request).billableFlag = true := by
        simp only [mcpBillingPlan, under, parsed, if_true]
        rfl
      simp [marked]
  | some body =>
      rw [billableFlag_eq json under parsed, Bool.not_eq_false', List.all_eq_true]
      simp only [isNonBillable_iff]
      cases body with
      | array items => simp [batchItems]
      | object members => simp [batchItems]
      | _ =>
          simp only [batchItems, List.mem_singleton, forall_eq, Option.some.injEq, reduceCtorEq,
            false_and, exists_false, or_self, iff_false]
          intro free
          cases free

/-- A request that is not marked is not classified as billable. -/
theorem billingGroup_of_not_billable {json : SerdeJson} {path : String} {request : ByteArray}
    (under : startsWith "/mcp" path = true)
    (free : (mcpBillingPlan json path request).billableFlag = false) :
    tokenRequestKindBillingGroupForRequest json path (some request) = .nonBillable := by
  have fixed : ∀ {kind : TokenRequestKind}, kind.key ∈ ["mcp:unsupported-path",
      "mcp:unknown-payload"] → isNonBillableKind kind = true := by
    intro kind known
    simp only [List.mem_cons, List.not_mem_nil, or_false] at known
    rcases known with key | key <;> rw [isNonBillableKind, key] <;> decide
  have mcp : classifyTokenRequestKind json path (some request) =
      classifyMcpRequestKind json path (some request) := by
    have api : ∀ other, startsWith "/mcp" other = false → path ≠ other := by
      rintro other free rfl
      rw [under] at free
      cases free
    have research : startsWith "/api/tavily/research/" path = false := by
      rw [Bool.eq_false_iff]
      intro starts
      obtain ⟨rest, same⟩ := startsWith_iff.1 starts
      rw [same] at under
      simp [startsWith] at under
    simp only [classifyTokenRequestKind, api "/api/tavily/search" (by decide),
      api "/api/tavily/extract" (by decide), api "/api/tavily/crawl" (by decide),
      api "/api/tavily/map" (by decide), api "/api/tavily/research" (by decide),
      api "/api/tavily/usage" (by decide), research, under, if_false, if_true,
      Bool.false_eq_true]
  rw [tokenRequestKindBillingGroupForRequest, mcp, classifyMcpRequestKind]
  by_cases own : path = "/mcp"
  · rw [if_neg (not_not.2 own)]
    by_cases empty : request.isEmpty = true
    · rw [if_pos empty]
      exact billingGroup_of_nonBillableKind (fixed (by simp [buildMcpUnknownPayloadKind,
        TokenRequestKind.new])) _
    · rw [if_neg empty]
      rcases (billableFlag_eq_false_iff json under).1 free with
        ⟨items, parsed, all⟩ | ⟨members, parsed, one⟩
      · simp only [parsed]
        exact billingGroup_of_batch parsed all
      · obtain ⟨kind, classified, nonBillable⟩ := classify_freeItem one
        simp only [parsed, classified, Option.getD_some]
        exact billingGroup_of_nonBillableKind nonBillable _
  · rw [if_pos own]
    exact billingGroup_of_nonBillableKind (fixed (by simp [buildMcpUnsupportedPathKind,
      TokenRequestKind.new])) _

/-- The handler's gate and the classification: what is classified as billable is marked
and locked, and unmarked are exactly the requests that parse to an object or to an
array and whose items are all free. -/
theorem billingGate_covers_classification (json : SerdeJson) {path : String}
    (under : startsWith "/mcp" path = true) :
    (∀ request : ByteArray,
      tokenRequestKindBillingGroupForRequest json path (some request) = .billable →
        (mcpBillingPlan json path request).billableFlag = true ∧
          (mcpBillingPlan json path request).lockableTool = true) ∧
    (∀ request : ByteArray,
      (mcpBillingPlan json path request).billableFlag = false ↔
        (∃ items, json.fromSlice request = some (.array items) ∧
            ∀ item ∈ items, FreeItem trim item) ∨
          (∃ members, json.fromSlice request = some (.object members) ∧
            FreeItem trim (.object members))) := by
  refine ⟨?_, fun request => billableFlag_eq_false_iff json under⟩
  intro request billable
  have marked : (mcpBillingPlan json path request).billableFlag = true := by
    by_contra unmarked
    rw [Bool.not_eq_true] at unmarked
    rw [billingGroup_of_not_billable under unmarked] at billable
    cases billable
  exact ⟨marked, (lockableTool_eq json path request).trans marked⟩

/-! ### A padded name -/

def pingText : String := "\x7b\"method\":\"ping\"\x7d"

def mapText : String :=
  "\x7b\"method\":\"tools/call\",\"params\":\x7b\"name\":\"tavily_map\"\x7d\x7d"

/-- A call whose tool is Tavily's once its name is trimmed. -/
def paddedText : String :=
  "\x7b\"method\":\"tools/call\",\"params\":\x7b\"name\":\" tavily-map\"\x7d\x7d"

def toolCall (name : String) : JsonValue :=
  .object [("method", .string "tools/call"), ("params", .object [("name", .string name)])]

/-- The parser, on these documents. -/
def gateJson : SerdeJson :=
  .ofDocuments
    [(pingText, .object [("method", .string "ping")]), (mapText, toolCall "tavily_map"),
      (paddedText, toolCall " tavily-map")]

theorem paddedText_parsed : gateJson.fromSlice paddedText.toUTF8 = some (toolCall " tavily-map") := by
  rw [gateJson, SerdeJson.fromSlice_ofDocuments]
  simp [pingText, mapText, paddedText]

/-- A mapping is marked and locked, a ping is not marked. -/
theorem billingGate_covers_mapping :
    ((mcpBillingPlan gateJson "/mcp" mapText.toUTF8).billableFlag = true ∧
      (mcpBillingPlan gateJson "/mcp" mapText.toUTF8).lockableTool = true) ∧
    (mcpBillingPlan gateJson "/mcp" pingText.toUTF8).billableFlag = false := by
  obtain ⟨covers, unmarked⟩ := @billingGate_covers_classification gateJson "/mcp" (by decide)
  have ping : gateJson.fromSlice pingText.toUTF8 = some (.object [("method", .string "ping")]) := by
    rw [gateJson, SerdeJson.fromSlice_ofDocuments]
    simp
  have mapping : gateJson.fromSlice mapText.toUTF8 = some (toolCall "tavily_map") := by
    rw [gateJson, SerdeJson.fromSlice_ofDocuments]
    simp [pingText, mapText]
  refine ⟨covers mapText.toUTF8 ?_, (unmarked pingText.toUTF8).2 (Or.inr ⟨_, ping, ?_⟩)⟩
  · have filled : mapText.toUTF8.isEmpty = false := isEmpty_toUTF8 (by simp [mapText])
    have kind : classifyTokenRequestKind gateJson "/mcp" (some mapText.toUTF8) =
        buildMcpRequestKind "map" := by
      have mcp : classifyTokenRequestKind gateJson "/mcp" (some mapText.toUTF8) =
          classifyMcpRequestKind gateJson "/mcp" (some mapText.toUTF8) := rfl
      rw [mcp, classifyMcpRequestKind]
      simp only [ne_eq, not_true_eq_false, if_false, filled, Bool.false_eq_true, mapping, toolCall]
      decide
    rw [tokenRequestKindBillingGroupForRequest, kind, tokenRequestKindBillingGroupForRequestLog]
    have key : (buildMcpRequestKind "map").key = "mcp:map" := by decide
    have group : tokenRequestKindBillingGroup "mcp:map" = .billable := by decide
    have trimmed : trim "mcp:map" ≠ "mcp:batch" := by decide
    rw [key, group, if_neg fun both => trimmed both.2]
  · exact @FreeItem.control trim _ "ping" rfl (by decide)

/-- A call of ` tavily-map` is marked, although its name does not begin as Tavily's do. -/
theorem paddedName_is_marked :
    ¬ ((mcpBillingPlan gateJson "/mcp" paddedText.toUTF8).billableFlag = false ↔
        (∃ items, gateJson.fromSlice paddedText.toUTF8 = some (.array items) ∧
            ∀ item ∈ items, FreeItem id item) ∨
          (∃ members, gateJson.fromSlice paddedText.toUTF8 = some (.object members) ∧
            FreeItem id (.object members))) := by
  intro same
  have unmarked := same.2 (Or.inr ⟨_, paddedText_parsed,
    @FreeItem.otherTool id _ _ " tavily-map" rfl rfl rfl (by decide) (by decide)⟩)
  rw [billableFlag_eq gateJson (by decide) paddedText_parsed] at unmarked
  exact absurd unmarked (by decide)

end TavilyHikari.Server
