/-
Module: TavilyHikari.Proofs.TokenLogPaging
Purpose: Paging through the requests of a token by the id of the last one seen: every request
  is seen exactly once where the ids and the order of the pages agree at every end of a page.
Trusted boundary: none
Main exports: tokenLogRecords, walkTokenLogs_eq, tokenLogPaging_iff
-/
import TavilyHikari.Library.Collect
import TavilyHikari.Library.KeysetPaging
import TavilyHikari.Store.TokenLogs

namespace TavilyHikari.Store

open Library
open Analysis

variable (json : SerdeJson) (tokenId : String) (limit : Nat) (logs : TokenLogs)

/-- All records of a token, in the order of the pages. -/
def tokenLogRecords : List TokenLogRecord :=
  (selectTokenLogs (fun row => row.2.tokenId = tokenId) logs).map (mapTokenLogRow json)

instance : IsTrans (Int × TokenLogRow) latestFirst where
  trans one two three first second := by
    unfold latestFirst at first second ⊢
    omega

instance : Std.Total latestFirst where
  total one two := by
    unfold latestFirst
    omega

/-- A call with an id selects from the records of the token. -/
theorem fetchTokenLogs_some (bid : Int) :
    fetchTokenLogs json tokenId limit (some bid) logs =
      ((tokenLogRecords json tokenId logs).filter fun record => record.id < bid).take
        (clampLimit limit) := by
  have selected : selectTokenLogs (fun row => row.2.tokenId = tokenId && row.1 < bid) logs =
      (selectTokenLogs (fun row => row.2.tokenId = tokenId) logs).filter fun row => row.1 < bid := by
    unfold selectTokenLogs
    rw [filter_insertionSort, List.filter_filter]
    congr 1
    apply List.filter_congr
    intro row _
    exact Bool.and_comm _ _
  unfold fetchTokenLogs tokenLogRecords
  simp only
  rw [selected, List.map_take, List.filter_map]
  rfl

theorem fetchTokenLogs_none :
    fetchTokenLogs json tokenId limit none logs =
      (tokenLogRecords json tokenId logs).take (clampLimit limit) := by
  unfold fetchTokenLogs tokenLogRecords
  simp only
  rw [List.map_take]

theorem clampLimit_pos : 0 < clampLimit limit := by
  unfold clampLimit
  omega

theorem ids_distinct : ((tokenLogRecords json tokenId logs).map TokenLogRecord.id).Nodup := by
  unfold tokenLogRecords selectTokenLogs
  rw [List.map_map]
  have sorted := (List.perm_insertionSort latestFirst
    (logs.table.rows.filter fun row => row.2.tokenId = tokenId)).map Prod.fst
  refine sorted.nodup_iff.2 ?_
  exact logs.table.distinct.sublist (List.filter_sublist.map Prod.fst)

/-- The calls after one with an id walk through the records below it. -/
theorem walkTokenLogs_some (calls : Nat) (bid : Int) :
    walkTokenLogs json tokenId limit logs calls (some bid) =
      walkPages TokenLogRecord.id (clampLimit limit) calls
        ((tokenLogRecords json tokenId logs).filter fun record => record.id < bid) := by
  induction calls generalizing bid with
  | zero => rfl
  | succ calls ih =>
      rw [walkTokenLogs, walkPages]
      simp only [fetchTokenLogs_some]
      cases found : (((tokenLogRecords json tokenId logs).filter fun record =>
          record.id < bid).take (clampLimit limit)).getLast? with
      | none => rfl
      | some last =>
          have below : last.id < bid := by
            have member := List.mem_of_mem_take (List.mem_of_getLast? found)
            exact of_decide_eq_true (List.mem_filter.1 member).2
          have same : ((tokenLogRecords json tokenId logs).filter fun record =>
                record.id < last.id) =
              ((tokenLogRecords json tokenId logs).filter fun record => record.id < bid).filter
                fun record => record.id < last.id := by
            rw [List.filter_filter]
            apply List.filter_congr
            intro record _
            rw [Bool.eq_iff_iff]
            simp only [decide_eq_true_eq, Bool.and_eq_true]
            omega
          simp only
          rw [ih, same]

theorem walkTokenLogs_none (calls : Nat) :
    walkTokenLogs json tokenId limit logs calls none =
      walkPages TokenLogRecord.id (clampLimit limit) calls
        (tokenLogRecords json tokenId logs) := by
  cases calls with
  | zero => rfl
  | succ calls =>
      rw [walkTokenLogs, walkPages]
      simp only [fetchTokenLogs_none]
      cases ((tokenLogRecords json tokenId logs).take (clampLimit limit)).getLast? with
      | none => rfl
      | some last =>
          simp only
          rw [walkTokenLogs_some]

theorem length_tokenLogRecords_le :
    (tokenLogRecords json tokenId logs).length ≤ logs.table.rows.length := by
  unfold tokenLogRecords selectTokenLogs
  rw [List.length_map, List.length_insertionSort]
  exact List.length_filter_le _ _

/-- With one call more than there are rows, or any number more, every record of the token is
seen exactly once where at the end of every page of the whole order the ids agree with it, and
nowhere else. -/
theorem tokenLogPaging_iff (more : Nat) :
    (walkTokenLogs json tokenId limit logs (logs.table.rows.length + 1 + more) none).Perm
        (tokenLogRecords json tokenId logs) ↔
      CutsAgree TokenLogRecord.id (clampLimit limit) (tokenLogRecords json tokenId logs) := by
  rw [walkTokenLogs_none]
  have few := length_tokenLogRecords_le json tokenId logs
  exact walkPages_perm_iff (clampLimit_pos limit) (by omega) (ids_distinct json tokenId logs)

/-! ### A slow writer -/

/-- A request of the token, by the time its writer read. -/
def loggedAt (createdAt : Int) : TokenLogRow where
  tokenId := "token"
  apiKeyId := none
  method := "POST"
  path := "/mcp"
  query := none
  httpStatus := some 200
  mcpStatus := none
  businessCredits := none
  billingState := "none"
  requestKindKey := none
  requestKindLabel := none
  requestKindDetail := none
  countsBusinessQuota := 1
  resultStatus := "success"
  errorMessage := none
  failureKind := none
  keyEffectCode := "none"
  keyEffectSummary := none
  createdAt := createdAt

/-- The writer that read its time first inserted its row last. -/
def slowWriter : TokenLogs := (AutoIncrement.empty.insert (loggedAt 20)).insert (loggedAt 10)

theorem slowWriter_loses :
    ¬(walkTokenLogs (SerdeJson.ofDocuments []) "token" 1 slowWriter
        (slowWriter.table.rows.length + 1) none).Perm
      (tokenLogRecords (SerdeJson.ofDocuments []) "token" slowWriter) := by
  intro seen
  have counts := seen.length_eq
  revert counts
  decide +kernel

end TavilyHikari.Store
