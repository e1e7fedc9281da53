/-
Module: TavilyHikari.Proofs.McpPlan
Purpose: What the billing plan of a request says, in terms of its items: it is
  billable exactly where some item is not proven to be free, and its tables hold the
  paid calls and what they are expected to cost.
Trusted boundary: none
Main exports: billableFlag_iff, lockableTool_eq, CallTally, tally_walkBody,
  mem_ids_tallyOf, find_expectedById, find_fallbackById
-/
import TavilyHikari.Server.McpCalls
import TavilyHikari.Server.McpCharge

namespace TavilyHikari.Server

open Library Analysis

/-! ### Items -/

theorem itemMethod_of_not_object {item : JsonValue}
    (other : ∀ members, item ≠ .object members) : itemMethod item = "" := by
  cases item with
  | object members => exact absurd rfl (other members)
  | _ => rfl

theorem isNonBillableMethod_toolsCall : isNonBillableMethod "tools/call" = false := by decide

theorem normalizedTool_eq_empty_iff {tool : String} : normalizedTool tool = "" ↔ tool = "" := by
  constructor
  · intro empty
    have chars := congrArg String.toList empty
    simp only [normalizedTool, replaceChar, toAsciiLowercase, String.toList_ofList,
      List.map_map, String.toList_empty, List.map_eq_nil_iff] at chars
    exact String.toList_inj.1 (by rw [chars, String.toList_empty])
  · rintro rfl
    rfl

theorem normalizedTool_isEmpty_iff (tool : String) :
    (normalizedTool tool).isEmpty = tool.isEmpty := by
  rw [Bool.eq_iff_iff, String.isEmpty_iff, String.isEmpty_iff, normalizedTool_eq_empty_iff]

/-- Tavily's own tools all have the prefix. -/
theorem startsWith_of_reserved {tool : String} (known : tool ∈ reservedBillableTools) :
    startsWith "tavily-" tool = true := by
  simp only [reservedBillableTools, usageMeteredTools, List.cons_append, List.nil_append,
    List.mem_cons, List.not_mem_nil, or_false] at known
  rcases known with rfl | rfl | rfl | rfl | rfl <;> decide

/-- The effect that every tool call has. -/
def PlanWalk.lock (walk : PlanWalk) : PlanWalk := { walk with anyLockable := true }

/-- A tool call is marked, or handled as Tavily's, unless it names another tool. -/
theorem handleToolCall_eq (json : SerdeJson) (walk : PlanWalk) (item : JsonValue) :
    handleToolCall json walk item =
      if namesOtherTool item then walk.lock
      else if calledTool item = "" then walk.lock.markBillable (idKey json item)
      else handleTavilyTool walk.lock (idKey json item) (calledTool item) (callOptions item) := by
  unfold handleToolCall namesOtherTool calledTool callOptions
  cases params : item.get "params" with
  | none => simp [PlanWalk.lock]
  | some value =>
      cases value with
      | object members =>
          obtain ⟨tool, called⟩ : ∃ tool, toolName (.object members) = tool := ⟨_, rfl⟩
          obtain ⟨name, normalized⟩ : ∃ name, normalizedTool tool = name := ⟨_, rfl⟩
          simp only [called, ← normalizedTool_isEmpty_iff tool, normalized]
          by_cases tavily : startsWith "tavily-" name = true
          · have named : name ≠ "" := by
              rintro rfl
              exact absurd tavily (by decide)
            simp [tavily, named, PlanWalk.lock]
          · have unreserved : name ∉ reservedBillableTools :=
              fun known => tavily (startsWith_of_reserved known)
            by_cases empty : name = ""
            · subst empty
              simp [tavily, unreserved, PlanWalk.lock]
            · simp [tavily, unreserved, empty, PlanWalk.lock]
      | _ => simp [PlanWalk.lock]

/-! ### Whether a request is billable -/

/-- The part of a walk that decides whether the request is billable and whether it
goes on. -/
structure WalkGate where
  anyBillable : Bool
  anyLockable : Bool
  allNonBillable : Bool
  seenIds : List String
  invalidMcpRequestMessage : Option String

def PlanWalk.gate (walk : PlanWalk) : WalkGate where
  anyBillable := walk.anyBillable
  anyLockable := walk.anyLockable
  allNonBillable := walk.allNonBillable
  seenIds := walk.seenIds
  invalidMcpRequestMessage := walk.invalidMcpRequestMessage

/-- What an item does that is not proven to be free. -/
def WalkGate.billable (gate : WalkGate) : WalkGate :=
  { gate with anyBillable := true, anyLockable := true, allNonBillable := false }

/-- What a call of a tool that is not Tavily's does. -/
def WalkGate.otherTool (gate : WalkGate) : WalkGate :=
  { gate with anyLockable := true, allNonBillable := false }

theorem gate_markBillable (walk : PlanWalk) (id : Option String) :
    (walk.lock.markBillable id).gate = walk.gate.billable := by
  cases id with
  | none => rfl
  | some id => rfl

theorem gate_markSearch (walk : PlanWalk) (id : Option String) :
    (walk.markSearch id).gate = walk.gate := by
  cases id with
  | none => rfl
  | some id => rfl

theorem gate_recordReservedCredits (walk : PlanWalk) (reserved : Int) :
    (walk.recordReservedCredits reserved).gate = walk.gate := rfl

theorem gate_recordMissingUsageFallback (walk : PlanWalk) (fallback : Int) (id : Option String) :
    (walk.recordMissingUsageFallback fallback id).gate = walk.gate := by
  cases id with
  | none => rfl
  | some id => rfl

theorem gate_recordExpectedSearch (walk : PlanWalk) (expected : Int) (id : Option String) :
    (walk.recordExpectedSearch expected id).gate = walk.gate := by
  cases id with
  | none => rfl
  | some id => rfl

theorem gate_handleTavilyTool (walk : PlanWalk) (id : Option String) (tool : String)
    (options : JsonValue) :
    (handleTavilyTool walk id tool options).gate = (walk.markBillable id).gate := by
  have searched : (if tool = "tavily-search" then (walk.markBillable id).markSearch id
      else walk.markBillable id).gate = (walk.markBillable id).gate := by
    split
    · exact gate_markSearch _ id
    · rfl
  unfold handleTavilyTool
  simp only
  split
  · split
    · rw [gate_recordExpectedSearch, gate_recordReservedCredits, gate_markSearch]
    · rw [gate_recordReservedCredits]
  · split
    · rw [gate_recordMissingUsageFallback, gate_recordReservedCredits, searched]
    · rw [gate_recordReservedCredits, searched]

theorem gate_handleToolCall (json : SerdeJson) (walk : PlanWalk) (item : JsonValue) :
    (handleToolCall json walk item).gate =
      if namesOtherTool item then walk.lock.gate else walk.gate.billable := by
  rw [handleToolCall_eq]
  by_cases other : namesOtherTool item = true
  · rw [if_pos other, if_pos other]
  · rw [if_neg other, if_neg other]
    by_cases unnamed : calledTool item = ""
    · rw [if_pos unnamed, gate_markBillable]
    · rw [if_neg unnamed, gate_handleTavilyTool, gate_markBillable]

/-- An item is billable unless it is proven to be free. -/
theorem gate_walkItem (json : SerdeJson) (walk : PlanWalk) (item : JsonValue) :
    (walkItem json walk item).gate =
      if isNonBillable item then (if isToolCall item then walk.gate.otherTool else walk.gate)
      else walk.gate.billable := by
  unfold walkItem isNonBillable isToolCall
  by_cases call : itemMethod item = "tools/call"
  · simp only [call, isNonBillableMethod_toolsCall, Bool.false_eq_true, if_false, if_true,
      decide_true, Bool.true_and, Bool.false_or, gate_handleToolCall]
    cases namesOtherTool item with
    | true => rfl
    | false => rfl
  · by_cases free : isNonBillableMethod (itemMethod item) = true
    · simp [call, free]
    · simp [call, free]
      rfl

/-- The check of the ids leaves the flags as they are. -/
theorem gate_checkId (json : SerdeJson) (walk : PlanWalk) (item : JsonValue) :
    (checkId json walk item).gate =
      { walk.gate with
        seenIds := (checkId json walk item).seenIds
        invalidMcpRequestMessage := (checkId json walk item).invalidMcpRequestMessage } := by
  unfold checkId
  split
  · rfl
  · split <;> rfl

/-- Once something is billable, a lock is needed and not everything is free. -/
def WalkGate.Consistent (gate : WalkGate) : Prop :=
  gate.anyBillable = true → gate.anyLockable = true ∧ gate.allNonBillable = false

/-- What items do to the flags, `free` saying whether all are proven to be free. -/
structure GateStep (before after : WalkGate) (free : Bool) : Prop where
  anyBillable : after.anyBillable = (before.anyBillable || !free)
  consistent : before.Consistent → after.Consistent

theorem GateStep.of_billable (before : WalkGate) : GateStep before before.billable false where
  anyBillable := by simp [WalkGate.billable]
  consistent := fun _ _ => ⟨rfl, rfl⟩

theorem gateStep_walkItem (json : SerdeJson) (walk : PlanWalk) (item : JsonValue) :
    GateStep walk.gate (walkItem json walk item).gate (isNonBillable item) := by
  rw [gate_walkItem]
  cases free : isNonBillable item with
  | true =>
      cases isToolCall item with
      | true => exact ⟨by simp [WalkGate.otherTool], fun _ _ => ⟨rfl, rfl⟩⟩
      | false => exact ⟨by simp, id⟩
  | false => exact GateStep.of_billable walk.gate

theorem gateStep_walkBatchItem (json : SerdeJson) (walk : PlanWalk) (item : JsonValue) :
    GateStep walk.gate (walkBatchItem json walk item).gate (isNonBillable item) := by
  cases item with
  | object members =>
      have step := gateStep_walkItem json (checkId json walk (.object members)) (.object members)
      rw [gate_checkId] at step
      exact ⟨step.anyBillable, step.consistent⟩
  | _ => exact GateStep.of_billable walk.gate

theorem gateStep_items (json : SerdeJson) (walk : PlanWalk) (items : List JsonValue) :
    GateStep walk.gate (items.foldl (walkBatchItem json) walk).gate
      (items.all isNonBillable) := by
  induction items generalizing walk with
  | nil => exact ⟨by simp, id⟩
  | cons item items ih =>
      have first := gateStep_walkBatchItem json walk item
      have rest := ih (walkBatchItem json walk item)
      refine ⟨?_, fun start => rest.consistent (first.consistent start)⟩
      rw [List.foldl_cons, rest.anyBillable, first.anyBillable, List.all_cons, Bool.not_and,
        Bool.or_assoc]

theorem gateStep_walkBody (json : SerdeJson) (body : JsonValue) :
    GateStep PlanWalk.start.gate (walkBody json body).gate
      ((batchItems body).all isNonBillable) := by
  cases body with
  | array items => exact gateStep_items json .start items
  | object members =>
      have all : (batchItems (.object members)).all isNonBillable =
          isNonBillable (.object members) := Bool.and_true _
      rw [walkBody, all]
      exact gateStep_walkItem json .start (.object members)
  | _ => exact GateStep.of_billable PlanWalk.start.gate

/-- The plan of a request that parses is what its walk leaves. -/
theorem mcpBillingPlan_eq (json : SerdeJson) {path : String} {request : ByteArray}
    {body : JsonValue} (under : startsWith "/mcp" path = true)
    (parsed : json.fromSlice request = some body) :
    mcpBillingPlan json path request =
      (walkBody json body).plan (mcpBillingPlan json path request).billableFlag
        (mcpBillingPlan json path request).lockableTool := by
  simp only [mcpBillingPlan, under, parsed, if_true]
  rfl

/-- A request that parses is billable where some item is not proven to be free. -/
theorem billableFlag_eq (json : SerdeJson) {path : String} {request : ByteArray} {body : JsonValue}
    (under : startsWith "/mcp" path = true) (parsed : json.fromSlice request = some body) :
    (mcpBillingPlan json path request).billableFlag = !(batchItems body).all isNonBillable := by
  have step := gateStep_walkBody json body
  have consistent := step.consistent fun any => absurd any (by decide)
  have any : (walkBody json body).anyBillable = !(batchItems body).all isNonBillable :=
    step.anyBillable.trans (Bool.false_or _)
  simp only [mcpBillingPlan, under, parsed, if_true, PlanWalk.plan]
  cases billable : (walkBody json body).anyBillable with
  | false => rw [← any, billable, Bool.false_and]
  | true =>
      have some : (walkBody json body).allNonBillable = false := (consistent billable).2
      rw [← any, billable, some]
      rfl

/-- A lock is taken exactly for the billable requests. -/
theorem lockableTool_eq (json : SerdeJson) (path : String) (request : ByteArray) :
    (mcpBillingPlan json path request).lockableTool =
      (mcpBillingPlan json path request).billableFlag := by
  unfold mcpBillingPlan
  by_cases under : startsWith "/mcp" path = true
  · simp only [under, if_true]
    cases parsed : json.fromSlice request with
    | none => rfl
    | some body =>
        have consistent := (gateStep_walkBody json body).consistent fun any =>
          absurd any (by decide)
        simp only [PlanWalk.plan]
        cases billable : (walkBody json body).anyBillable with
        | false => simp
        | true =>
            have lock : (walkBody json body).anyLockable = true := (consistent billable).1
            rw [lock, Bool.true_and]
  · simp only [under]
    rfl

/-! ### Repeated ids -/

/-- Walking over an item only checks its id. -/
theorem ids_walkBatchItem (json : SerdeJson) (walk : PlanWalk) (item : JsonValue) :
    (walkBatchItem json walk item).seenIds = (checkId json walk item).seenIds ∧
      (walkBatchItem json walk item).invalidMcpRequestMessage =
        (checkId json walk item).invalidMcpRequestMessage := by
  cases item with
  | object members =>
      have step := gate_walkItem json (checkId json walk (.object members)) (.object members)
      have kept : (walkBatchItem json walk (.object members)).gate.seenIds =
            (checkId json walk (.object members)).gate.seenIds ∧
          (walkBatchItem json walk (.object members)).gate.invalidMcpRequestMessage =
            (checkId json walk (.object members)).gate.invalidMcpRequestMessage := by
        rw [walkBatchItem, step]
        split
        · split <;> exact ⟨rfl, rfl⟩
        · exact ⟨rfl, rfl⟩
      exact kept
  | _ => exact ⟨rfl, rfl⟩

theorem nodup_checkId (json : SerdeJson) {walk : PlanWalk} (item : JsonValue)
    (distinct : walk.seenIds.Nodup) : (checkId json walk item).seenIds.Nodup := by
  unfold checkId
  split
  · exact distinct
  · split
    · exact distinct
    · rename_i new
      exact (List.perm_append_singleton _ _).nodup_iff.2 (List.nodup_cons.2 ⟨new, distinct⟩)

/-- A batch that has been valid so far stays valid if its ids are all different. -/
theorem invalid_items_iff (json : SerdeJson) (walk : PlanWalk) (items : List JsonValue)
    (distinct : walk.seenIds.Nodup) :
    (items.foldl (walkBatchItem json) walk).invalidMcpRequestMessage = none ↔
      walk.invalidMcpRequestMessage = none ∧
        (walk.seenIds ++ items.filterMap (idKey json)).Nodup := by
  induction items generalizing walk with
  | nil => simp [distinct]
  | cons item items ih =>
      obtain ⟨seen, invalid⟩ := ids_walkBatchItem json walk item
      rw [List.foldl_cons, ih _ (by rw [seen]; exact nodup_checkId json item distinct), seen,
        invalid]
      cases keyed : idKey json item with
      | none => simp [checkId, keyed]
      | some id =>
          by_cases known : id ∈ walk.seenIds
          · simp only [checkId, keyed, known, if_true, List.filterMap_cons]
            constructor
            · rintro ⟨absurd, _⟩
              cases absurd
            · rintro ⟨_, nodup⟩
              exact absurd rfl ((List.nodup_append.1 nodup).2.2 id known id List.mem_cons_self)
          · simp [checkId, keyed, known]

/-- A billable batch is turned away exactly where an id comes twice. -/
theorem rejectsInvalid_batch_iff (json : SerdeJson) {path : String} {request : ByteArray}
    {items : List JsonValue} (under : startsWith "/mcp" path = true)
    (parsed : json.fromSlice request = some (.array items)) :
    rejectsInvalid (mcpBillingPlan json path request) = true ↔
      (mcpBillingPlan json path request).billableFlag = true ∧
        ¬ (items.filterMap (idKey json)).Nodup := by
  have valid := invalid_items_iff json .start items List.nodup_nil
  have message : (mcpBillingPlan json path request).invalidMcpRequestMessage =
      (items.foldl (walkBatchItem json) .start).invalidMcpRequestMessage := by
    simp only [mcpBillingPlan, under, parsed, if_true]
    rfl
  have start : PlanWalk.start.seenIds ++ items.filterMap (idKey json) =
      items.filterMap (idKey json) := List.nil_append _
  rw [rejectsInvalid, Bool.and_eq_true, message, Option.isSome_iff_ne_none, Ne, valid, start]
  have fresh : PlanWalk.start.invalidMcpRequestMessage = none := rfl
  simp only [fresh, true_and]

/-! ### The tables of a walk -/

/-- The part of a walk that the charge depends on. -/
structure CallTally where
  ids : List String
  searchIds : List String
  withoutId : Bool
  expectedTotal : Int
  expectedById : ById Int
  fallbackById : ById Int
  fallbackWithoutId : Int

/-- An amount under an id, where there are both. -/
def idEntry (id : Option String) (amount : Option Int) : Option (String × Int) :=
  id.bind fun id => amount.map fun amount => (id, amount)

/-- The credits of a call, where it calls the named tool. -/
def creditsIf (name tool : String) (credits : Int) : Option Int :=
  if tool = name then some credits else none

def addEntry (credits : ById Int) (entry : String × Int) : ById Int :=
  addCredits credits entry.1 entry.2

namespace CallTally

def start : CallTally where
  ids := []
  searchIds := []
  withoutId := false
  expectedTotal := 0
  expectedById := .empty
  fallbackById := .empty
  fallbackWithoutId := 0

/-- A paid call of a tool. -/
def add (tally : CallTally) (id : Option String) (tool : String) (options : JsonValue) :
    CallTally where
  ids := id.elim tally.ids (insertId tally.ids)
  searchIds :=
    if tool = "tavily-search" then id.elim tally.searchIds (insertId tally.searchIds)
    else tally.searchIds
  withoutId := tally.withoutId || id.isNone
  expectedTotal :=
    if tool = "tavily-search" then
      saturatingAdd tally.expectedTotal (tavilySearchExpectedCredits options)
    else tally.expectedTotal
  expectedById :=
    (idEntry id (creditsIf "tavily-search" tool (tavilySearchExpectedCredits options))).elim
      tally.expectedById (addEntry tally.expectedById)
  fallbackById :=
    (idEntry id (creditsIf "tavily-research" tool (tavilyResearchMinCredits options))).elim
      tally.fallbackById (addEntry tally.fallbackById)
  fallbackWithoutId :=
    if tool = "tavily-research" ∧ id = none then
      saturatingAdd tally.fallbackWithoutId (tavilyResearchMinCredits options)
    else tally.fallbackWithoutId

def addCall (json : SerdeJson) (tally : CallTally) (call : JsonValue) : CallTally :=
  tally.add (idKey json call) (calledTool call) (callOptions call)

end CallTally

def PlanWalk.tally (walk : PlanWalk) : CallTally where
  ids := walk.billableMcpIds
  searchIds := walk.billableSearchMcpIds
  withoutId := walk.hasBillableMcpWithoutId
  expectedTotal := walk.expectedSearchTotal
  expectedById := walk.expectedSearchCreditsById
  fallbackById := walk.missingUsageFallbackCreditsById
  fallbackWithoutId := walk.missingUsageFallbackCreditsWithoutIdTotal

/-- A call without a known tool is only marked. -/
theorem tally_markBillable (walk : PlanWalk) (id : Option String) (options : JsonValue) :
    (walk.markBillable id).tally = walk.tally.add id "" options := by
  cases id with
  | none => simp [PlanWalk.markBillable, PlanWalk.tally, CallTally.add, idEntry, creditsIf]
  | some id => simp [PlanWalk.markBillable, PlanWalk.tally, CallTally.add, idEntry, creditsIf]

theorem tally_handleTavilyTool (walk : PlanWalk) (id : Option String) (tool : String)
    (options : JsonValue) :
    (handleTavilyTool walk id tool options).tally = walk.tally.add id tool options := by
  by_cases search : tool = "tavily-search"
  · subst search
    cases id <;>
      simp [handleTavilyTool, usageMeteredTools, PlanWalk.markBillable, PlanWalk.markSearch,
        PlanWalk.recordReservedCredits, PlanWalk.recordExpectedSearch, PlanWalk.tally,
        CallTally.add, idEntry, creditsIf, addEntry]
  · by_cases research : tool = "tavily-research"
    · subst research
      cases id <;>
        simp [handleTavilyTool, usageMeteredTools, reservedBillableTools, PlanWalk.markBillable,
          PlanWalk.recordReservedCredits, PlanWalk.recordMissingUsageFallback, PlanWalk.tally,
          CallTally.add, idEntry, creditsIf, addEntry, tavilyMcpReservedCredits]
    · -- Any other tool only adds to the reservation.
      have marked : (walk.markBillable id).tally = walk.tally.add id tool options := by
        cases id <;>
          simp [PlanWalk.markBillable, PlanWalk.tally, CallTally.add, idEntry, creditsIf, search,
            research]
      rw [← marked]
      unfold handleTavilyTool
      simp only [search, if_false]
      by_cases metered : tool ∈ usageMeteredTools
      · simp only [metered, if_true]
        rfl
      · have unreserved : tool ∉ reservedBillableTools := by
          simp only [reservedBillableTools, List.mem_append, List.mem_singleton, not_or]
          exact ⟨metered, research⟩
        simp only [metered, unreserved, if_false]
        rfl

theorem tally_handleToolCall (json : SerdeJson) (walk : PlanWalk) (item : JsonValue) :
    (handleToolCall json walk item).tally =
      if namesOtherTool item then walk.tally else walk.tally.addCall json item := by
  have locked : walk.lock.tally = walk.tally := rfl
  rw [handleToolCall_eq]
  by_cases other : namesOtherTool item = true
  · rw [if_pos other, if_pos other, locked]
  · rw [if_neg other, if_neg other]
    by_cases unnamed : calledTool item = ""
    · rw [if_pos unnamed, tally_markBillable _ _ (callOptions item), locked, CallTally.addCall,
        unnamed]
    · rw [if_neg unnamed, tally_handleTavilyTool, locked, CallTally.addCall]

theorem tally_walkItem (json : SerdeJson) (walk : PlanWalk) (item : JsonValue) :
    (walkItem json walk item).tally =
      if isPaidCall item then walk.tally.addCall json item else walk.tally := by
  unfold walkItem isPaidCall isToolCall
  by_cases call : itemMethod item = "tools/call"
  · simp only [call, isNonBillableMethod_toolsCall, Bool.false_eq_true, if_false, if_true,
      decide_true, Bool.true_and, tally_handleToolCall, Bool.not_eq_true']
    cases namesOtherTool item <;> rfl
  · simp only [call, if_false, decide_false, Bool.false_and, Bool.false_eq_true]
    cases isNonBillableMethod (itemMethod item) <;> rfl

theorem tally_checkId (json : SerdeJson) (walk : PlanWalk) (item : JsonValue) :
    (checkId json walk item).tally = walk.tally := by
  unfold checkId
  split
  · rfl
  · split <;> rfl

theorem tally_walkBatchItem (json : SerdeJson) (walk : PlanWalk) (item : JsonValue) :
    (walkBatchItem json walk item).tally =
      if isPaidCall item then walk.tally.addCall json item else walk.tally := by
  cases item with
  | object members =>
      rw [walkBatchItem, tally_walkItem, tally_checkId]
  | _ => rfl

/-- The tables of a body are those of its paid calls. -/
theorem tally_walkBody (json : SerdeJson) (body : JsonValue) :
    (walkBody json body).tally = (paidCalls body).foldl (CallTally.addCall json) .start := by
  cases body with
  | array items =>
      rw [paidCalls, batchItems, List.foldl_filter, walkBody]
      exact (List.foldl_hom PlanWalk.tally fun walk item =>
        (tally_walkBatchItem json walk item).symm).symm
  | object members =>
      have items : batchItems (.object members) = [.object members] := rfl
      rw [walkBody, tally_walkItem, paidCalls, items]
      cases paid : isPaidCall (.object members) with
      | true => simp [paid]; rfl
      | false => simp [paid]; rfl
  | _ => rfl

/-! ### The tables, from the calls -/

theorem mem_foldl_insertId {l ids : List String} {id : String} :
    id ∈ l.foldl insertId ids ↔ id ∈ ids ∨ id ∈ l := by
  induction l generalizing ids with
  | nil => simp
  | cons first l ih =>
      rw [List.foldl_cons, ih, insertId]
      by_cases known : first ∈ ids
      · rw [if_pos known, List.mem_cons]
        constructor
        · rintro (old | later)
          · exact Or.inl old
          · exact Or.inr (Or.inr later)
        · rintro (old | rfl | later)
          · exact Or.inl old
          · exact Or.inl known
          · exact Or.inr later
      · rw [if_neg known, List.mem_append, List.mem_singleton, List.mem_cons, or_assoc]

theorem foldl_insertId_of_nodup {l ids : List String} (distinct : (ids ++ l).Nodup) :
    l.foldl insertId ids = ids ++ l := by
  induction l generalizing ids with
  | nil => simp
  | cons first l ih =>
      have new : first ∉ ids := by
        intro known
        exact (List.nodup_append.1 distinct).2.2 first known first List.mem_cons_self rfl
      rw [List.foldl_cons, insertId, if_neg new, ih (by simpa using distinct)]
      simp

section

variable (json : SerdeJson) (calls : List JsonValue)

/-- The tables of a list of paid calls. -/
def tallyOf : CallTally := calls.foldl (CallTally.addCall json) .start

/-- The expected credits of a call, where it is a search. -/
def searchCredits (call : JsonValue) : Option Int :=
  creditsIf "tavily-search" (calledTool call) (tavilySearchExpectedCredits (callOptions call))

/-- The fallback of a call, where it is a research. -/
def researchCredits (call : JsonValue) : Option Int :=
  creditsIf "tavily-research" (calledTool call) (tavilyResearchMinCredits (callOptions call))

theorem ids_tallyOf :
    (tallyOf json calls).ids = (calls.filterMap (idKey json)).foldl insertId [] := by
  rw [List.foldl_filterMap]
  refine (List.foldl_hom CallTally.ids fun tally call => ?_).symm
  rw [CallTally.addCall]
  cases idKey json call <;> rfl

theorem searchIds_tallyOf :
    (tallyOf json calls).searchIds =
      ((calls.filter fun call => calledTool call = "tavily-search").filterMap
        (idKey json)).foldl insertId [] := by
  rw [List.foldl_filterMap, List.foldl_filter]
  refine (List.foldl_hom CallTally.searchIds fun tally call => ?_).symm
  rw [CallTally.addCall, CallTally.add]
  by_cases search : calledTool call = "tavily-search"
  · simp only [search, if_true, decide_true]
    cases idKey json call <;> rfl
  · simp [search]

theorem withoutId_tallyOf :
    (tallyOf json calls).withoutId = calls.any fun call => (idKey json call).isNone := by
  have hom : (tallyOf json calls).withoutId =
      calls.foldl (fun before call => before || (idKey json call).isNone) false :=
    (List.foldl_hom CallTally.withoutId fun _ _ => rfl).symm
  rw [hom, ← List.foldl_map (g := or), foldl_or, Bool.false_or, List.any_map]
  rfl

theorem expectedById_tallyOf :
    (tallyOf json calls).expectedById =
      KeyedTable.collect saturatingAdd
        (calls.filterMap fun call => idEntry (idKey json call) (searchCredits call)) := by
  rw [KeyedTable.collect, KeyedTable.upsertAll, List.foldl_filterMap]
  refine (List.foldl_hom CallTally.expectedById fun tally call => ?_).symm
  rw [CallTally.addCall, CallTally.add, searchCredits]
  cases idEntry _ _ <;> rfl

theorem fallbackById_tallyOf :
    (tallyOf json calls).fallbackById =
      KeyedTable.collect saturatingAdd
        (calls.filterMap fun call => idEntry (idKey json call) (researchCredits call)) := by
  rw [KeyedTable.collect, KeyedTable.upsertAll, List.foldl_filterMap]
  refine (List.foldl_hom CallTally.fallbackById fun tally call => ?_).symm
  rw [CallTally.addCall, CallTally.add, researchCredits]
  cases idEntry _ _ <;> rfl

/-- The calls of an id. -/
def callsOf (id : String) : List JsonValue := calls.filter fun call => idKey json call = some id

theorem find_expectedById (id : String) :
    (tallyOf json calls).expectedById.find id =
      mergeAll saturatingAdd ((callsOf json calls id).filterMap searchCredits) := by
  rw [expectedById_tallyOf, KeyedTable.find_collect]
  congr 1
  exact valuesOf_filterMap id (idKey json) searchCredits calls

theorem find_fallbackById (id : String) :
    (tallyOf json calls).fallbackById.find id =
      mergeAll saturatingAdd ((callsOf json calls id).filterMap researchCredits) := by
  rw [fallbackById_tallyOf, KeyedTable.find_collect]
  congr 1
  exact valuesOf_filterMap id (idKey json) researchCredits calls

/-- What an id costs when its answers do not say. -/
def CallTally.unreported (tally : CallTally) (id : String) : Int :=
  match (if id ∈ tally.searchIds then tally.expectedById.find id else none) with
  | some expected => expected
  | none => (tally.fallbackById.find id).getD 0

/-- A call of an id has credits for a table where it calls the tool of the table. -/
theorem creditsOf_ne_nil_iff {credits : JsonValue → Option Int} {name : String} {id : String}
    (called : ∀ call, (∃ amount, credits call = some amount) ↔ calledTool call = name) :
    (callsOf json calls id).filterMap credits ≠ [] ↔
      ∃ call ∈ calls, idKey json call = some id ∧ calledTool call = name := by
  simp only [filterMap_ne_nil_iff, called, callsOf, List.mem_filter, decide_eq_true_eq, and_assoc]

theorem searchCredits_eq_some_iff (call : JsonValue) :
    (∃ amount, searchCredits call = some amount) ↔ calledTool call = "tavily-search" := by
  by_cases search : calledTool call = "tavily-search" <;> simp [searchCredits, creditsIf, search]

theorem researchCredits_eq_some_iff (call : JsonValue) :
    (∃ amount, researchCredits call = some amount) ↔ calledTool call = "tavily-research" := by
  by_cases research : calledTool call = "tavily-research" <;>
    simp [researchCredits, creditsIf, research]

theorem mem_searchIds_iff {id : String} :
    id ∈ (tallyOf json calls).searchIds ↔ (callsOf json calls id).filterMap searchCredits ≠ [] := by
  rw [searchIds_tallyOf, mem_foldl_insertId,
    creditsOf_ne_nil_iff json calls searchCredits_eq_some_iff]
  simp only [List.not_mem_nil, false_or, List.mem_filterMap, List.mem_filter, decide_eq_true_eq]
  constructor
  · rintro ⟨call, ⟨member, search⟩, keyed⟩
    exact ⟨call, member, keyed, search⟩
  · rintro ⟨call, member, keyed, search⟩
    exact ⟨call, ⟨member, search⟩, keyed⟩

/-- The searches of an id come before its researches. -/
theorem unreported_tallyOf (id : String) :
    (tallyOf json calls).unreported id =
      (mergeAll saturatingAdd ((callsOf json calls id).filterMap searchCredits)).getD
        ((mergeAll saturatingAdd ((callsOf json calls id).filterMap researchCredits)).getD 0) := by
  rw [CallTally.unreported, find_expectedById, find_fallbackById]
  by_cases searched : id ∈ (tallyOf json calls).searchIds
  · rw [if_pos searched]
    cases mergeAll saturatingAdd ((callsOf json calls id).filterMap searchCredits) <;> rfl
  · have none : (callsOf json calls id).filterMap searchCredits = [] := by
      by_contra some
      exact searched ((mem_searchIds_iff json calls).2 some)
    rw [if_neg searched, none]
    rfl

/-- An id of one call costs what the call is expected to. -/
theorem unreported_of_single {id : String} {call : JsonValue}
    (single : callsOf json calls id = [call]) :
    (tallyOf json calls).unreported id = expectedCredits call := by
  rw [unreported_tallyOf, single, expectedCredits]
  by_cases search : calledTool call = "tavily-search"
  · simp [searchCredits, creditsIf, search]
  · by_cases research : calledTool call = "tavily-research"
    · simp [searchCredits, researchCredits, creditsIf, research]
    · simp [searchCredits, researchCredits, creditsIf, search, research]

theorem searchCredits_pos {call : JsonValue} {credits : Int}
    (found : searchCredits call = some credits) : 1 ≤ credits := by
  obtain ⟨_, same⟩ := Option.ite_none_right_eq_some.1 found
  rw [← Option.some.inj same]
  exact tavilySearchExpectedCredits_pos (callOptions call)

theorem researchCredits_pos {call : JsonValue} {credits : Int}
    (found : researchCredits call = some credits) : 1 ≤ credits := by
  obtain ⟨_, same⟩ := Option.ite_none_right_eq_some.1 found
  rw [← Option.some.inj same]
  exact tavilyResearchMinCredits_pos (callOptions call)

theorem one_le_expectedCredits_iff {call : JsonValue} :
    1 ≤ expectedCredits call ↔
      calledTool call = "tavily-search" ∨ calledTool call = "tavily-research" := by
  have search := tavilySearchExpectedCredits_pos (callOptions call)
  have research := tavilyResearchMinCredits_pos (callOptions call)
  unfold expectedCredits
  by_cases searches : calledTool call = "tavily-search"
  · rw [if_pos searches]
    exact ⟨fun _ => Or.inl searches, fun _ => search⟩
  · by_cases researches : calledTool call = "tavily-research"
    · rw [if_neg searches, if_pos researches]
      exact ⟨fun _ => Or.inr researches, fun _ => research⟩
    · rw [if_neg searches, if_neg researches]
      constructor
      · intro positive
        exact absurd positive (by decide)
      · rintro (tool | tool)
        · exact absurd tool searches
        · exact absurd tool researches

/-- Positive amounts of an id merge to a positive one, if there are any. -/
theorem mergeAll_credits {credits : JsonValue → Option Int}
    (positive : ∀ {call amount}, credits call = some amount → 1 ≤ amount) {id : String}
    (found : (callsOf json calls id).filterMap credits ≠ []) :
    ∃ total, mergeAll saturatingAdd ((callsOf json calls id).filterMap credits) = some total ∧
      1 ≤ total := by
  have all : ∀ amount ∈ (callsOf json calls id).filterMap credits, 1 ≤ amount := by
    intro amount member
    obtain ⟨call, _, here⟩ := List.mem_filterMap.1 member
    exact positive here
  cases values : (callsOf json calls id).filterMap credits with
  | nil => exact absurd values found
  | cons first rest =>
      rw [values] at all
      refine ⟨_, rfl, ?_⟩
      exact one_le_foldl_saturatingAdd
        (fun amount member => all amount (List.mem_cons_of_mem _ member))
        (all first List.mem_cons_self)

/-- An id costs something where one of its calls is expected to. -/
theorem one_le_unreported_iff {id : String} :
    1 ≤ (tallyOf json calls).unreported id ↔
      ∃ call ∈ calls, idKey json call = some id ∧ 1 ≤ expectedCredits call := by
  have searches := @creditsOf_ne_nil_iff json calls _ _ id searchCredits_eq_some_iff
  have researches := @creditsOf_ne_nil_iff json calls _ _ id researchCredits_eq_some_iff
  rw [unreported_tallyOf]
  simp only [one_le_expectedCredits_iff, and_or_left, exists_or, ← searches, ← researches]
  by_cases searched : (callsOf json calls id).filterMap searchCredits = []
  · rw [searched]
    by_cases researched : (callsOf json calls id).filterMap researchCredits = []
    · simp [researched]
    · obtain ⟨total, merged, positive⟩ := mergeAll_credits json calls researchCredits_pos researched
      simp [merged, positive, researched]
  · obtain ⟨total, merged, positive⟩ := mergeAll_credits json calls searchCredits_pos searched
    simp [merged, positive, searched]

/-- No id costs less than nothing. -/
theorem unreported_nonneg (id : String) : 0 ≤ (tallyOf json calls).unreported id := by
  rw [unreported_tallyOf]
  by_cases searched : (callsOf json calls id).filterMap searchCredits = []
  · rw [searched]
    by_cases researched : (callsOf json calls id).filterMap researchCredits = []
    · simp [researched]
    · obtain ⟨total, merged, positive⟩ := mergeAll_credits json calls researchCredits_pos researched
      simp only [merged, mergeAll_nil, Option.getD_none, Option.getD_some]
      omega
  · obtain ⟨total, merged, positive⟩ := mergeAll_credits json calls searchCredits_pos searched
    simp only [merged, Option.getD_some]
    omega

/-! ### The totals -/

theorem expectedTotal_tallyOf :
    (tallyOf json calls).expectedTotal = (calls.filterMap searchCredits).foldl saturatingAdd 0 := by
  rw [List.foldl_filterMap]
  refine (List.foldl_hom CallTally.expectedTotal fun tally call => ?_).symm
  by_cases search : calledTool call = "tavily-search" <;>
    simp [CallTally.addCall, CallTally.add, searchCredits, creditsIf, search]

/-- The fallback of a call without an id, where it is a research. -/
def researchWithoutId (call : JsonValue) : Option Int :=
  if idKey json call = none then researchCredits call else none

theorem fallbackWithoutId_tallyOf :
    (tallyOf json calls).fallbackWithoutId =
      (calls.filterMap (researchWithoutId json)).foldl saturatingAdd 0 := by
  rw [List.foldl_filterMap]
  refine (List.foldl_hom CallTally.fallbackWithoutId fun tally call => ?_).symm
  by_cases research : calledTool call = "tavily-research" <;>
    by_cases keyed : idKey json call = none <;>
      simp [CallTally.addCall, CallTally.add, researchWithoutId, researchCredits, creditsIf,
        research, keyed]

/-- What an id has in the table of fallbacks, nothing where no call of it is a
research. -/
theorem fallback_of_id (id : String) :
    0 ≤ ((tallyOf json calls).fallbackById.find id).elim 0 (fun amount => amount) ∧
      (1 ≤ ((tallyOf json calls).fallbackById.find id).elim 0 (fun amount => amount) ↔
        (callsOf json calls id).filterMap researchCredits ≠ []) := by
  rw [find_fallbackById]
  by_cases none : (callsOf json calls id).filterMap researchCredits = []
  · simp [none]
  · obtain ⟨total, merged, positive⟩ := mergeAll_credits json calls researchCredits_pos none
    rw [merged, Option.elim_some]
    exact ⟨by omega, fun _ => none, fun _ => positive⟩

/-- The fallbacks by id add up to something where a research has an id. -/
theorem fallbackById_total :
    0 ≤ (tallyOf json calls).fallbackById.total (fun _ => true) id ∧
      (1 ≤ (tallyOf json calls).fallbackById.total (fun _ => true) id ↔
        ∃ id, (callsOf json calls id).filterMap researchCredits ≠ []) := by
  have keys := (tallyOf json calls).fallbackById.total_eq_sum_keys id
    (tallyOf json calls).fallbackById.distinct fun _ => Iff.rfl
  have nonneg : ∀ amount ∈ ((tallyOf json calls).fallbackById.rows.map Prod.fst).map fun key =>
      ((tallyOf json calls).fallbackById.find key).elim 0 id, 0 ≤ amount := by
    intro amount member
    obtain ⟨key, _, rfl⟩ := List.mem_map.1 member
    exact (fallback_of_id json calls key).1
  rw [keys, one_le_sum_iff nonneg]
  refine ⟨List.sum_nonneg nonneg, ?_⟩
  constructor
  · rintro ⟨amount, member, positive⟩
    obtain ⟨key, _, rfl⟩ := List.mem_map.1 member
    exact ⟨key, (fallback_of_id json calls key).2.1 positive⟩
  · rintro ⟨key, some⟩
    have positive := (fallback_of_id json calls key).2.2 some
    refine ⟨_, List.mem_map.2 ⟨key, ?_, rfl⟩, positive⟩
    by_contra absent
    rw [KeyedTable.find_eq_none_iff.2 absent] at positive
    exact absurd positive (by decide)

/-- The searches of a request are expected to cost something where there are any. -/
theorem expectedTotal_pos :
    0 ≤ (tallyOf json calls).expectedTotal ∧
      (1 ≤ (tallyOf json calls).expectedTotal ↔ calls.filterMap searchCredits ≠ []) := by
  rw [expectedTotal_tallyOf]
  apply foldl_saturatingAdd_pos
  intro amount member
  obtain ⟨call, _, found⟩ := List.mem_filterMap.1 member
  exact searchCredits_pos found

/-- The fallback total of a request is positive where one of its calls is expected to
cost something. -/
theorem one_le_fallbackTotal_iff :
    1 ≤ saturatingAdd (saturatingAdd (tallyOf json calls).expectedTotal
        ((tallyOf json calls).fallbackById.total (fun _ => true) id))
        (tallyOf json calls).fallbackWithoutId ↔
      ∃ call ∈ calls, 1 ≤ expectedCredits call := by
  have searches := expectedTotal_pos json calls
  have without : 0 ≤ (tallyOf json calls).fallbackWithoutId ∧
      (1 ≤ (tallyOf json calls).fallbackWithoutId ↔
        calls.filterMap (researchWithoutId json) ≠ []) := by
    rw [fallbackWithoutId_tallyOf]
    apply foldl_saturatingAdd_pos
    intro amount member
    obtain ⟨call, _, found⟩ := List.mem_filterMap.1 member
    exact researchCredits_pos (Option.ite_none_right_eq_some.1 found).2
  have byId := fallbackById_total json calls
  have inner := one_le_saturatingAdd_iff searches.1 byId.1
  rw [(one_le_saturatingAdd_iff inner.1 without.1).2, inner.2, searches.2, byId.2, without.2]
  simp only [one_le_expectedCredits_iff]
  have isSearch : calls.filterMap searchCredits ≠ [] ↔
      ∃ call ∈ calls, calledTool call = "tavily-search" := by
    simp only [filterMap_ne_nil_iff, searchCredits_eq_some_iff]
  have withId : (∃ id, (callsOf json calls id).filterMap researchCredits ≠ []) ↔
      ∃ call ∈ calls, idKey json call ≠ none ∧ calledTool call = "tavily-research" := by
    simp only [creditsOf_ne_nil_iff json calls researchCredits_eq_some_iff,
      Option.ne_none_iff_exists']
    constructor
    · rintro ⟨id, call, member, keyed, research⟩
      exact ⟨call, member, ⟨id, keyed⟩, research⟩
    · rintro ⟨call, member, ⟨id, keyed⟩, research⟩
      exact ⟨id, call, member, keyed, research⟩
  have withoutId : calls.filterMap (researchWithoutId json) ≠ [] ↔
      ∃ call ∈ calls, idKey json call = none ∧ calledTool call = "tavily-research" := by
    have own : ∀ call, (∃ amount, researchWithoutId json call = some amount) ↔
        idKey json call = none ∧ calledTool call = "tavily-research" := by
      intro call
      rw [← researchCredits_eq_some_iff]
      by_cases keyed : idKey json call = none <;> simp [researchWithoutId, keyed]
    simp only [filterMap_ne_nil_iff, own]
  rw [isSearch, withId, withoutId]
  constructor
  · rintro ((⟨call, member, search⟩ | ⟨call, member, _, research⟩) | ⟨call, member, _, research⟩)
    · exact ⟨call, member, Or.inl search⟩
    · exact ⟨call, member, Or.inr research⟩
    · exact ⟨call, member, Or.inr research⟩
  · rintro ⟨call, member, search | research⟩
    · exact Or.inl (Or.inl ⟨call, member, search⟩)
    · by_cases keyed : idKey json call = none
      · exact Or.inr ⟨call, member, keyed, research⟩
      · exact Or.inl (Or.inr ⟨call, member, keyed, research⟩)

end

end TavilyHikari.Server
