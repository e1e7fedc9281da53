/-
Module: TavilyHikari.Proofs.LogRetention
Purpose: When the deletes of the retention go through: exactly when no row that is still
  there refers to one of the rows to delete; and a row that a maintenance record refers to
  blocks them in every later state.
Trusted boundary: none
Main exports: retention_deletes_exactly_iff, retention_blocked_forever
-/
import TavilyHikari.Store.RequestLogs

namespace TavilyHikari.Store

open Library

/-! ### One batch -/

/-- The number of rows before a threshold. -/
def oldRequestLogs (threshold : Int) (db : LogDb) : List (Int × RequestLogEntry) :=
  db.requestLogs.table.rows.filter fun row => row.2.createdAt < threshold

def oldTokenLogs (threshold : Int) (db : LogDb) : List (Int × TokenLogEntry) :=
  db.authTokenLogs.table.rows.filter fun row => row.2.createdAt < threshold

/-- The database without the request logs before a threshold. -/
def withoutOldRequestLogs (threshold : Int) (db : LogDb) : LogDb :=
  { db with requestLogs := db.requestLogs.deleteWhere fun _ row => row.createdAt < threshold }

def withoutOldTokenLogs (threshold : Int) (db : LogDb) : LogDb :=
  { db with authTokenLogs := db.authTokenLogs.deleteWhere fun _ row => row.createdAt < threshold }

/-- No request log before the threshold is referred to. -/
def OldRequestLogsFree (threshold : Int) (db : LogDb) : Prop :=
  ∀ row ∈ oldRequestLogs threshold db, db.requestLogReferenced row.1 = false

def OldTokenLogsFree (threshold : Int) (db : LogDb) : Prop :=
  ∀ row ∈ oldTokenLogs threshold db, db.tokenLogReferenced row.1 = false

theorem oldRequestLogIds_eq_nil {threshold : Int} {db : LogDb} :
    oldRequestLogIds threshold db = [] ↔ oldRequestLogs threshold db = [] := by
  unfold oldRequestLogIds oldRequestLogs deleteBatchSize
  rw [List.map_eq_nil_iff, List.take_eq_nil_iff]
  constructor
  · rintro (zero | empty)
    · cases zero
    · have perm := List.perm_insertionSort
        (fun a b : Int × RequestLogEntry => a.2.createdAt < b.2.createdAt ∨
          a.2.createdAt = b.2.createdAt ∧ a.1 ≤ b.1)
        (db.requestLogs.table.rows.filter fun row => row.2.createdAt < threshold)
      rw [empty] at perm
      exact perm.symm.eq_nil
  · intro empty
    right
    rw [empty]
    rfl

/-- The rows of a batch are the old rows with its ids. -/
theorem mem_oldRequestLogs_of_batch {threshold : Int} {db : LogDb} {row : Int × RequestLogEntry}
    (stored : row ∈ db.requestLogs.table.rows) (batch : row.1 ∈ oldRequestLogIds threshold db) :
    row ∈ oldRequestLogs threshold db := by
  obtain ⟨entry, found, old⟩ := oldRequestLogIds_subset batch
  have here : db.requestLogs.find row.1 = some row.2 := AutoIncrement.find_eq_some_iff.2 stored
  rw [here] at found
  rw [oldRequestLogs, List.mem_filter, decide_eq_true_eq, Option.some.inj found]
  exact ⟨stored, old⟩

/-- The database after a batch. -/
def afterBatch (threshold : Int) (db : LogDb) : LogDb :=
  { db with
    requestLogs := db.requestLogs.deleteWhere fun id _ => id ∈ oldRequestLogIds threshold db }

/-- What is deleted in a batch and what is deleted after it is what is old. -/
theorem withoutOldRequestLogs_afterBatch (threshold : Int) (db : LogDb) :
    withoutOldRequestLogs threshold (afterBatch threshold db) =
      withoutOldRequestLogs threshold db := by
  have rows : (db.requestLogs.table.rows.filter fun row =>
        !decide (row.1 ∈ oldRequestLogIds threshold db)).filter
          (fun row => !decide (row.2.createdAt < threshold)) =
      db.requestLogs.table.rows.filter fun row => !decide (row.2.createdAt < threshold) := by
    rw [List.filter_filter]
    apply List.filter_congr
    intro row stored
    by_cases batch : row.1 ∈ oldRequestLogIds threshold db
    · have old := mem_oldRequestLogs_of_batch stored batch
      rw [oldRequestLogs, List.mem_filter, decide_eq_true_eq] at old
      simp [old.2]
    · simp [batch]
  simp only [withoutOldRequestLogs, afterBatch, AutoIncrement.deleteWhere, KeyedTable.deleteWhere,
    rows]

theorem oldRequestLogs_afterBatch (threshold : Int) (db : LogDb) :
    oldRequestLogs threshold (afterBatch threshold db) =
      (oldRequestLogs threshold db).filter fun row =>
        !decide (row.1 ∈ oldRequestLogIds threshold db) := by
  simp only [oldRequestLogs, afterBatch, AutoIncrement.deleteWhere, KeyedTable.deleteWhere,
    List.filter_filter, Bool.and_comm]

/-- A batch and what is left make up what is old. -/
theorem length_oldRequestLogs (threshold : Int) (db : LogDb) :
    (oldRequestLogs threshold db).length =
      (oldRequestLogIds threshold db).length +
        (oldRequestLogs threshold (afterBatch threshold db)).length := by
  rw [oldRequestLogs_afterBatch]
  obtain ⟨sorted, sort⟩ : ∃ sorted, (oldRequestLogs threshold db).insertionSort
      (fun a b => a.2.createdAt < b.2.createdAt ∨ a.2.createdAt = b.2.createdAt ∧ a.1 ≤ b.1) =
        sorted := ⟨_, rfl⟩
  have ids : oldRequestLogIds threshold db = (sorted.take deleteBatchSize).map Prod.fst := by
    rw [← sort]
    rfl
  have perm : (oldRequestLogs threshold db).Perm sorted := by
    rw [← sort]
    exact (List.perm_insertionSort _ _).symm
  have distinct : (sorted.map Prod.fst).Nodup := by
    apply (perm.map Prod.fst).nodup_iff.1
    exact db.requestLogs.table.distinct.sublist (List.filter_sublist.map Prod.fst)
  rw [← List.take_append_drop deleteBatchSize sorted, List.map_append, ← ids] at distinct
  have apart := List.disjoint_of_nodup_append distinct
  rw [(perm.filter _).length_eq, perm.length_eq]
  conv =>
    lhs
    rw [← List.take_append_drop deleteBatchSize sorted]
  conv =>
    rhs
    rw [← List.take_append_drop deleteBatchSize sorted]
  have taken : (sorted.take deleteBatchSize).filter
      (fun row => !decide (row.1 ∈ oldRequestLogIds threshold db)) = [] := by
    rw [List.filter_eq_nil_iff]
    intro row member
    have listed : row.1 ∈ oldRequestLogIds threshold db := by
      rw [ids]
      exact List.mem_map_of_mem member
    simp [listed]
  have left : (sorted.drop deleteBatchSize).filter
      (fun row => !decide (row.1 ∈ oldRequestLogIds threshold db)) =
        sorted.drop deleteBatchSize := by
    rw [List.filter_eq_self]
    intro row member
    have other : row.1 ∉ oldRequestLogIds threshold db := fun listed =>
      apart listed (List.mem_map_of_mem member)
    simp [other]
  rw [List.filter_append, taken, left, List.nil_append, List.length_append, ids, List.length_map]

theorem OldRequestLogsFree.afterBatch {threshold : Int} {db : LogDb}
    (free : OldRequestLogsFree threshold db) :
    OldRequestLogsFree threshold (afterBatch threshold db) := by
  intro row member
  rw [oldRequestLogs_afterBatch] at member
  exact free row (List.mem_of_mem_filter member)

theorem deleteRequestLogBatch_of_free {threshold : Int} {db : LogDb}
    (free : OldRequestLogsFree threshold db) :
    deleteRequestLogBatch threshold db =
      some (((oldRequestLogIds threshold db).length : Int), afterBatch threshold db) := by
  unfold deleteRequestLogBatch
  simp only
  rw [if_neg]
  · rfl
  · rw [Bool.not_eq_true, List.any_eq_false]
    intro id member
    obtain ⟨row, found, old⟩ := oldRequestLogIds_subset member
    have stored := AutoIncrement.find_eq_some_iff.1 found
    rw [Bool.not_eq_true]
    exact free (id, row) (List.mem_filter.2 ⟨stored, by simpa using old⟩)

/-! ### All batches -/

/-- Where nothing is old, nothing is deleted. -/
theorem withoutOldRequestLogs_of_none {threshold : Int} {db : LogDb}
    (none : oldRequestLogs threshold db = []) : withoutOldRequestLogs threshold db = db := by
  have rows : (db.requestLogs.table.rows.filter fun row => !decide (row.2.createdAt < threshold)) =
      db.requestLogs.table.rows := by
    rw [List.filter_eq_self]
    intro row member
    have recent := List.filter_eq_nil_iff.1 none row member
    simpa using recent
  simp only [withoutOldRequestLogs, AutoIncrement.deleteWhere, KeyedTable.deleteWhere, rows]

/-- Where nothing refers to the old rows, all of them are deleted and nothing else is. -/
theorem deleteOldRequestLogs_of_free {threshold : Int} (total : Int) {db : LogDb}
    (free : OldRequestLogsFree threshold db) :
    deleteOldRequestLogs threshold total db =
      (some (total + (oldRequestLogs threshold db).length), withoutOldRequestLogs threshold db) := by
  -- By induction on the batches.
  fun_induction deleteOldRequestLogs threshold total db with
  | case1 total db rejected =>
      rw [deleteRequestLogBatch_of_free free] at rejected
      cases rejected
  | case2 total db db' ran =>
      rw [deleteRequestLogBatch_of_free free] at ran
      obtain ⟨zero, same⟩ := Prod.mk.inj (Option.some.inj ran)
      have ids : oldRequestLogIds threshold db = [] :=
        List.length_eq_zero_iff.1 (Int.ofNat_eq_zero.1 zero)
      have none : oldRequestLogs threshold db = [] := oldRequestLogIds_eq_nil.1 ids
      have noneAfter : oldRequestLogs threshold (afterBatch threshold db) = [] := by
        rw [oldRequestLogs_afterBatch, none]
        rfl
      have kept := withoutOldRequestLogs_of_none noneAfter
      rw [withoutOldRequestLogs_afterBatch] at kept
      rw [none, kept, same]
      simp
  | case3 total db deleted db' ran more ih =>
      rw [deleteRequestLogBatch_of_free free] at ran
      obtain ⟨count, same⟩ := Prod.mk.inj (Option.some.inj ran)
      subst same
      rw [ih free.afterBatch, withoutOldRequestLogs_afterBatch, length_oldRequestLogs threshold db,
        ← count]
      push_cast
      rw [Int.add_assoc]

/-! ### References -/

/-- A request log that a row refers to survives the deletes, and the reference with it. -/
theorem find_deleteOldRequestLogs_of_referenced {threshold : Int} (total : Int) {db : LogDb}
    {id : Int} (referenced : db.requestLogReferenced id = true) :
    (deleteOldRequestLogs threshold total db).2.requestLogs.find id = db.requestLogs.find id ∧
      (deleteOldRequestLogs threshold total db).2.authTokenLogs = db.authTokenLogs ∧
      (deleteOldRequestLogs threshold total db).2.maintenanceRecords = db.maintenanceRecords := by
  have batch {db db' : LogDb} {deleted : Int} (referenced : db.requestLogReferenced id = true)
      (ran : deleteRequestLogBatch threshold db = some (deleted, db')) :
      db'.requestLogs.find id = db.requestLogs.find id ∧
        db'.authTokenLogs = db.authTokenLogs ∧ db'.maintenanceRecords = db.maintenanceRecords := by
    unfold deleteRequestLogBatch at ran
    simp only at ran
    split_ifs at ran with free
    obtain ⟨_, same⟩ := Prod.mk.inj (Option.some.inj ran)
    subst same
    refine ⟨?_, rfl, rfl⟩
    have kept : id ∉ oldRequestLogIds threshold db := fun member =>
      free (List.any_eq_true.2 ⟨id, member, referenced⟩)
    rw [AutoIncrement.find_deleteWhere]
    cases db.requestLogs.find id with
    | none => rfl
    | some row => simp [kept]
  fun_induction deleteOldRequestLogs threshold total db with
  | case1 total db rejected => exact ⟨rfl, rfl, rfl⟩
  | case2 total db db' ran => exact batch referenced ran
  | case3 total db deleted db' ran more ih =>
      obtain ⟨found, tokens, records⟩ := batch referenced ran
      have still : db'.requestLogReferenced id = true := by
        rw [LogDb.requestLogReferenced, tokens, records]
        exact referenced
      obtain ⟨foundAfter, tokensAfter, recordsAfter⟩ := ih still
      exact ⟨foundAfter.trans found, tokensAfter.trans tokens, recordsAfter.trans records⟩

theorem find_withoutOldRequestLogs {threshold : Int} {db : LogDb} {row : Int × RequestLogEntry}
    (old : row ∈ oldRequestLogs threshold db) :
    (withoutOldRequestLogs threshold db).requestLogs.find row.1 = none := by
  rw [oldRequestLogs, List.mem_filter, decide_eq_true_eq] at old
  have found : db.requestLogs.find row.1 = some row.2 := AutoIncrement.find_eq_some_iff.2 old.1
  simp [withoutOldRequestLogs, AutoIncrement.find_deleteWhere, found, old.2]

/-- In every state of the database and for every threshold: the deletes succeed and delete
exactly the rows before it, if and only if no row that is there refers to one of those. -/
theorem retention_deletes_exactly_iff (db : LogDb) (threshold : Int) :
    (deleteOldAuthTokenLogs threshold db =
        (some ((oldTokenLogs threshold db).length : Int), withoutOldTokenLogs threshold db) ↔
      OldTokenLogsFree threshold db) ∧
    (deleteOldRequestLogs threshold 0 db =
        (some ((oldRequestLogs threshold db).length : Int), withoutOldRequestLogs threshold db) ↔
      OldRequestLogsFree threshold db) := by
  constructor
  · unfold deleteOldAuthTokenLogs
    simp only
    split_ifs with referenced
    · obtain ⟨row, old, refers⟩ := List.any_eq_true.1 referenced
      constructor
      · intro absurd
        cases (Prod.mk.inj absurd).1
      · intro free
        rw [free row old] at refers
        cases refers
    · rw [Bool.not_eq_true, List.any_eq_false] at referenced
      constructor
      · intro _ row old
        exact Bool.eq_false_iff.2 (referenced row old)
      · intro _
        rfl
  · constructor
    · intro exact_ row old
      by_contra refers
      rw [Bool.not_eq_false] at refers
      have kept := (@find_deleteOldRequestLogs_of_referenced threshold 0 db row.1 refers).1
      rw [exact_, find_withoutOldRequestLogs old] at kept
      rw [oldRequestLogs, List.mem_filter] at old
      rw [AutoIncrement.find_eq_some_iff.2 old.1] at kept
      cases kept
    · intro free
      rw [deleteOldRequestLogs_of_free 0 free, Int.zero_add]

/-! ### Runs -/

/-- A maintenance record refers to a request log of this time. -/
def Blocks (record : ApiKeyMaintenanceRecord) (id createdAt : Int) (s : LogState) : Prop :=
  record ∈ s.db.maintenanceRecords ∧ record.requestLogId = some id ∧
    ∃ row, s.db.requestLogs.find id = some row ∧ row.createdAt = createdAt

theorem Blocks.referenced {record : ApiKeyMaintenanceRecord} {id createdAt : Int} {s : LogState}
    (blocks : Blocks record id createdAt s) : s.db.requestLogReferenced id = true := by
  obtain ⟨member, refers, _⟩ := blocks
  rw [LogDb.requestLogReferenced, Bool.or_eq_true]
  right
  exact List.any_eq_true.2 ⟨record, member, by simpa using refers⟩

/-- One step keeps the record and the row it refers to. -/
theorem blocks_step {localDayBucketStartUtcTs : Int → Int} {record : ApiKeyMaintenanceRecord}
    {id createdAt : Int} {s s' : LogState} {action : LogAction}
    (blocks : Blocks record id createdAt s)
    (taken : (logSystem localDayBucketStartUtcTs).step s action = some s') :
    Blocks record id createdAt s' := by
  have referenced := blocks.referenced
  obtain ⟨member, refers, row, found, time⟩ := blocks
  cases action with
  | logAttempt now keyId outcome =>
      cases taken
      exact ⟨member, refers, row, AutoIncrement.find_insert_of_found found _, time⟩
  | insertTokenLog now requestLogId =>
      cases taken
      unfold insertTokenLog
      split
      · exact ⟨member, refers, row, found, time⟩
      · exact ⟨member, refers, row, found, time⟩
  | insertMaintenanceRecord other =>
      cases taken
      unfold insertApiKeyMaintenanceRecord
      split
      · exact ⟨List.mem_append_left _ member, refers, row, found, time⟩
      · exact ⟨member, refers, row, found, time⟩
  | deleteOldAuthTokenLogs threshold =>
      cases taken
      simp only [deleteOldAuthTokenLogs]
      split
      · exact ⟨member, refers, row, found, time⟩
      · exact ⟨member, refers, row, found, time⟩
  | deleteOldRequestLogs threshold =>
      cases taken
      obtain ⟨kept, _, records⟩ :=
        @find_deleteOldRequestLogs_of_referenced threshold 0 s.db id referenced
      refine ⟨?_, refers, row, ?_, time⟩
      · simp only [records]
        exact member
      · simp only [kept]
        exact found
  | suppressRetryShadow other =>
      cases taken
      by_cases same : id = other
      · subst same
        refine ⟨member, refers,
          if row.visibility = .visible then { row with visibility := .suppressedRetryShadow }
          else row, ?_, ?_⟩
        · simp only [suppressRetryShadow, AutoIncrement.find_modify_self, found, Option.map_some]
        · split <;> exact time
      · refine ⟨member, refers, row, ?_, time⟩
        simp only [suppressRetryShadow]
        rw [AutoIncrement.find_modify_of_ne _ same]
        exact found
  | rebuild now =>
      cases taken
      unfold rebuildApiKeyUsageBuckets
      simp only
      cases rebuildLoop now none _ .empty with
      | none => exact ⟨member, refers, row, found, time⟩
      | some buckets => exact ⟨member, refers, row, found, time⟩

/-- Once a maintenance record refers to a request log, no later delete past the time of the
row goes through. -/
theorem retention_blocked_forever {localDayBucketStartUtcTs : Int → Int}
    {record : ApiKeyMaintenanceRecord} {id createdAt threshold : Int} {s s' : LogState}
    {actions : List LogAction} (blocks : Blocks record id createdAt s)
    (ran : (logSystem localDayBucketStartUtcTs).run s actions = some s')
    (past : createdAt < threshold) :
    deleteOldRequestLogs threshold 0 s'.db ≠
      (some ((oldRequestLogs threshold s'.db).length : Int),
        withoutOldRequestLogs threshold s'.db) := by
  have along := (logSystem localDayBucketStartUtcTs).alongRun_of_preserved
    (fun _ _ _ invariant taken => blocks_step invariant taken) blocks actions
  have later := along.last _ ran
  have referenced := later.referenced
  obtain ⟨_, _, row, found, time⟩ := later
  intro exact_
  have free := (retention_deletes_exactly_iff s'.db threshold).2.1 exact_ (id, row)
    (List.mem_filter.2 ⟨AutoIncrement.find_eq_some_iff.1 found, by
      rw [decide_eq_true_eq, time]
      exact past⟩)
  rw [referenced] at free
  cases free

/-- Where a foreign key rejects the first batch, nothing is deleted. -/
theorem deleteOldRequestLogs_of_rejected {threshold total : Int} {db : LogDb}
    (rejected : deleteRequestLogBatch threshold db = none) :
    deleteOldRequestLogs threshold total db = (none, db) := by
  rw [deleteOldRequestLogs]
  split
  · rfl
  · rename_i ran
    rw [rejected] at ran
    cases ran

/-- A request and its token log on the first day; ten days later the deletes run, in the
order of the schedulers, with a retention of seven days for request logs. -/
theorem retention_stuck_on_linked_log :
    ∃ s, (logSystem id).run .initial
        [.logAttempt 0 (some "key") .success, .insertTokenLog 0 (some 1)] = some s ∧
      gcAuthTokenLogs (10 * 86400) s.db = (some 0, s.db) ∧
      gcRequestLogs (3 * 86400) s.db = (none, s.db) ∧
      (oldRequestLogs (3 * 86400) s.db).length = 1 := by
  refine ⟨_, rfl, rfl, ?_, rfl⟩
  apply deleteOldRequestLogs_of_rejected
  rfl

end TavilyHikari.Store
