/-
Module: TavilyHikari.Proofs.UsageRollup
Purpose: What the usage statistics hold in every state of every run, and exactly
  when that is every consumed row once: a failure with a NULL status beside a
  status that is no error is counted nowhere.
Trusted boundary: none
Main exports: usageContribution_get, UsageTallied, rollup_step_tallied,
  CountedOnce, rollup_counts_each_row_once
-/
import Mathlib.Data.List.Dedup
import TavilyHikari.Store.UsageRollup

namespace TavilyHikari.Store

open Library Tx

/-! ### The four cases on one row -/

/-- The statuses of the row decide one of the four cases: the result does, or one
of the statuses is an error, or both are known not to be. -/
def Classified (row : AuthTokenLog) : Prop :=
  row.resultStatus = outcomeSuccess ∨ row.resultStatus = outcomeQuotaExhausted ∨
    (SqlBool.between row.httpStatus 400 599).holds = true ∨
    (SqlBool.between row.mcpStatus 400 599).holds = true ∨
    (row.httpStatus ≠ none ∧ row.mcpStatus ≠ none)

instance (row : AuthTokenLog) : Decidable (Classified row) :=
  inferInstanceAs (Decidable (_ ∨ _ ∨ _ ∨ _ ∨ (_ ∧ _)))

/-- The counter of a classified row. -/
def usageCounterOf (row : AuthTokenLog) : UsageCounter :=
  if row.resultStatus = outcomeSuccess then .success
  else if row.resultStatus = outcomeQuotaExhausted then .quotaExhausted
  else if (hasErrorStatus row).holds then .systemFailure
  else .externalFailure

theorem hasErrorStatus_eq_some_false_iff {row : AuthTokenLog} :
    hasErrorStatus row = some false ↔
      (hasErrorStatus row).holds = false ∧ row.httpStatus ≠ none ∧ row.mcpStatus ≠ none := by
  unfold hasErrorStatus
  cases http : row.httpStatus with
  | none =>
      simp [SqlBool.or_eq_some_false_iff, SqlBool.between]
  | some status =>
      cases mcp : row.mcpStatus with
      | none => simp [SqlBool.or_eq_some_false_iff, SqlBool.between]
      | some status' =>
          simp only [SqlBool.between, Option.map_some]
          generalize decide (400 ≤ status ∧ status ≤ 599) = first
          generalize decide (400 ≤ status' ∧ status' ≤ 599) = second
          cases first <;> cases second <;> simp [SqlBool.or, SqlBool.holds]

/-- A row adds 1 to the counter of its case, and nothing where it has none. -/
theorem usageContribution_get (row : AuthTokenLog) (counter : UsageCounter) :
    (usageContribution row).get counter =
      if Classified row ∧ usageCounterOf row = counter then 1 else 0 := by
  have notBoth : outcomeSuccess ≠ outcomeQuotaExhausted := by decide
  unfold TokenUsageStats.get usageContribution
  by_cases success : row.resultStatus = outcomeSuccess
  · have classified : Classified row := Or.inl success
    cases counter <;>
      simp [caseOne, isFailure, usageCounterOf, success, classified, notBoth]
  · by_cases quota : row.resultStatus = outcomeQuotaExhausted
    · have classified : Classified row := Or.inr (Or.inl quota)
      cases counter <;>
        simp [caseOne, isFailure, usageCounterOf, quota, classified, notBoth.symm]
    · have failure : (isFailure row).holds = true := by simp [isFailure, success, quota]
      by_cases error : (hasErrorStatus row).holds = true
      · have classified : Classified row := by
          rw [hasErrorStatus, SqlBool.holds_or, Bool.or_eq_true] at error
          rcases error with http | mcp
          · exact Or.inr (Or.inr (Or.inl http))
          · exact Or.inr (Or.inr (Or.inr (Or.inl mcp)))
        have unknown : (hasErrorStatus row).not.holds = false := by
          rw [Bool.eq_false_iff, Ne, SqlBool.holds_not_iff]
          rintro known
          rw [known] at error
          cases error
        cases counter <;>
          simp [caseOne, usageCounterOf, success, quota, failure, error, classified, unknown]
      · have known : (hasErrorStatus row).not.holds = true ↔ Classified row := by
          rw [SqlBool.holds_not_iff, hasErrorStatus_eq_some_false_iff]
          have neither := error
          rw [hasErrorStatus, SqlBool.holds_or, Bool.or_eq_true, not_or] at neither
          simp only [Classified, success, quota, neither, error, false_or]
          tauto
        cases counter <;>
          simp [caseOne, usageCounterOf, success, quota, failure, error, known]

/-- All four counters of a row together. -/
def TokenUsageStats.sum (stats : TokenUsageStats) : Int :=
  stats.successCount + stats.systemFailureCount + stats.externalFailureCount +
    stats.quotaExhaustedCount

theorem TokenUsageStats.sum_eq (stats : TokenUsageStats) :
    stats.sum = stats.get .success + stats.get .systemFailure + stats.get .externalFailure +
      stats.get .quotaExhausted := rfl

theorem usageContribution_sum (row : AuthTokenLog) :
    (usageContribution row).sum = if Classified row then 1 else 0 := by
  rw [TokenUsageStats.sum_eq]
  simp only [usageContribution_get]
  by_cases classified : Classified row
  · cases usageCounterOf row <;> simp [classified]
  · simp [classified]

theorem usageContribution_sum_bounds (row : AuthTokenLog) :
    0 ≤ (usageContribution row).sum ∧ (usageContribution row).sum ≤ 1 := by
  rw [usageContribution_sum]
  split <;> decide

/-! ### What the buckets hold -/

/-- The business rows up to the cursor. -/
def consumedRows (db : BillingDb) (cursor : Int) : List (Int × AuthTokenLog) :=
  db.authTokenLogs.table.rows.filter fun row =>
    row.2.countsBusinessQuota = 1 ∧ row.1 ≤ cursor

/-- A counter of a bucket, 0 without the bucket. -/
def usageCount (db : BillingDb) (key : TokenUsageStatsKey) (counter : UsageCounter) : Int :=
  (db.tokenUsageStats.find key).elim 0 fun stats => stats.get counter

/-- What rows add to a counter of a bucket. -/
def usageTally (rows : List (Int × AuthTokenLog)) (key : TokenUsageStatsKey)
    (counter : UsageCounter) : Int :=
  ((rows.filter fun row => usageBucketKey row.2 = key).map fun row =>
    (usageContribution row.2).get counter).sum

theorem usageTally_eq (rows : List (Int × AuthTokenLog)) (key : TokenUsageStatsKey)
    (counter : UsageCounter) :
    usageTally rows key counter =
      (rows.map fun row =>
        if usageBucketKey row.2 = key then (usageContribution row.2).get counter else 0).sum := by
  unfold usageTally
  rw [sum_map_filter]
  simp only [decide_eq_true_eq]

/-- The invariant of every run: the cursor is stored, and each counter holds what
the rows up to the cursor add to it. -/
structure UsageTallied (db : BillingDb) (cursor : Int) : Prop where
  stored : db.getMetaI64 metaKeyTokenUsageRollupLogIdV2 = some cursor
  cursor_nonneg : 0 ≤ cursor
  cursor_le : cursor ≤ db.authTokenLogs.last
  last_le : db.authTokenLogs.last ≤ maxRowId
  tallied : ∀ key counter,
    usageCount db key counter = usageTally (consumedRows db cursor) key counter

theorem usageGroups_nodup (rows : List (Int × AuthTokenLog)) :
    ((usageGroups rows).map Prod.fst).Nodup := by
  have keys : (usageGroups rows).map Prod.fst =
      (rows.map fun row => usageBucketKey row.2).dedup := by
    simp [usageGroups, List.map_map, Function.comp_def]
  rw [keys]
  exact List.nodup_dedup _

/-- The upsert of the groups adds to every counter what the rows add to it. -/
theorem usageCount_upsert (stats : KeyedTable TokenUsageStatsKey TokenUsageStats)
    (rows : List (Int × AuthTokenLog)) (key : TokenUsageStatsKey) (counter : UsageCounter) :
    ((stats.upsertAll id TokenUsageStats.add (usageGroups rows)).find key).elim 0
        (fun stats => stats.get counter) =
      (stats.find key).elim 0 (fun stats => stats.get counter) +
        usageTally rows key counter := by
  by_cases listed : key ∈ rows.map fun row => usageBucketKey row.2
  · have member : (key, _) ∈ usageGroups rows :=
      List.mem_map.2 ⟨key, List.mem_dedup.2 listed, rfl⟩
    rw [stats.find_upsertAll_of_mem _ _ (usageGroups_nodup rows) member]
    cases stats.find key with
    | none => cases counter <;> exact (Int.zero_add _).symm
    | some old => cases counter <;> rfl
  · have absent : key ∉ (usageGroups rows).map Prod.fst := by
      simpa [usageGroups, List.map_map, Function.comp_def] using listed
    have none' : (rows.filter fun row => decide (usageBucketKey row.2 = key)) = [] := by
      rw [List.filter_eq_nil_iff]
      intro row member same
      exact listed (List.mem_map.2 ⟨row, member, of_decide_eq_true same⟩)
    rw [stats.find_upsertAll_of_notMem _ _ absent, usageTally, none']
    exact (Int.add_zero _).symm

/-- Moving the cursor on consumes the rows in between. -/
theorem usageTally_split (rows : List (Int × AuthTokenLog)) {cursor maxLogId : Int}
    (later : cursor ≤ maxLogId) (key : TokenUsageStatsKey) (counter : UsageCounter) :
    usageTally (rows.filter fun row => row.2.countsBusinessQuota = 1 ∧ row.1 ≤ maxLogId) key
        counter =
      usageTally (rows.filter fun row => row.2.countsBusinessQuota = 1 ∧ row.1 ≤ cursor) key
          counter +
        usageTally
          (rows.filter fun row =>
            row.2.countsBusinessQuota = 1 ∧ row.1 > cursor ∧ row.1 ≤ maxLogId)
          key counter := by
  simp only [usageTally_eq, sum_map_filter, decide_eq_true_eq, ← sum_map_add]
  apply sum_map_congr
  intro row _
  by_cases business : row.2.countsBusinessQuota = 1
  · by_cases before : row.1 ≤ cursor
    · have upto : row.1 ≤ maxLogId := by omega
      have notPast : ¬ cursor < row.1 := by omega
      simp [business, before, upto, notPast]
    · have past : cursor < row.1 := by omega
      simp [business, before, past]
  · simp [business]

/-! ### The steps -/

theorem insert_rows (t : AutoIncrement AuthTokenLog) (row : AuthTokenLog) :
    (t.insert row).table.rows = t.table.rows ++ [(t.last + 1, row)] :=
  KeyedTable.rows_upsert_of_absent t.find_next row id

/-- A new row is past the cursor. -/
theorem UsageTallied.insert {db : BillingDb} {cursor : Int} (tallied : UsageTallied db cursor)
    (room : db.authTokenLogs.last < maxRowId) (row : AuthTokenLog) :
    UsageTallied { db with authTokenLogs := db.authTokenLogs.insert row } cursor where
  stored := tallied.stored
  cursor_nonneg := tallied.cursor_nonneg
  cursor_le := by
    have bound := tallied.cursor_le
    simp only [AutoIncrement.last_insert]
    omega
  last_le := by
    simp only [AutoIncrement.last_insert]
    omega
  tallied := by
    intro key counter
    have bound := tallied.cursor_le
    have past : ¬ db.authTokenLogs.last + 1 ≤ cursor := by omega
    have same : consumedRows { db with authTokenLogs := db.authTokenLogs.insert row } cursor =
        consumedRows db cursor := by
      simp [consumedRows, insert_rows, past]
    rw [same]
    exact tallied.tallied key counter

/-- The largest id of the rows past the cursor is past it, and is handed out. -/
theorem rowsPast_max {db : BillingDb} {cursor maxLogId : Int}
    (found : ((rowsPast db ⟨cursor, none⟩).map Prod.fst).max? = some maxLogId) :
    cursor < maxLogId ∧ maxLogId ≤ db.authTokenLogs.last := by
  have member := List.max?_mem found
  obtain ⟨row, listed, rfl⟩ := List.mem_map.1 member
  obtain ⟨stored, past⟩ := List.mem_filter.1 listed
  have past : row.2.countsBusinessQuota = 1 ∧ row.1 > cursor := of_decide_eq_true past
  have id := AutoIncrement.le_last (t := db.authTokenLogs) (KeyedTable.find_eq_some_iff.2 stored)
  exact ⟨past.2, id⟩

theorem getMetaI64_setMetaI64_self {db : BillingDb} {key : String} {value : Int}
    (nonneg : 0 ≤ value) (small : value ≤ maxRowId) :
    (db.setMetaI64 key value).getMetaI64 key = some value := by
  obtain ⟨n, rfl⟩ := Int.eq_ofNat_of_zero_le nonneg
  unfold BillingDb.getMetaI64 BillingDb.setMetaI64
  rw [KeyedTable.find_upsert_self]
  cases db.metaValues.find key <;> exact parseI64_toString small

theorem getMetaI64_setMetaI64_of_ne {db : BillingDb} {key other : String}
    (different : other ≠ key) (value : Int) :
    (db.setMetaI64 key value).getMetaI64 other = db.getMetaI64 other := by
  unfold BillingDb.getMetaI64 BillingDb.setMetaI64
  rw [KeyedTable.find_upsert_of_ne _ different]

theorem rollupScope_yields {db db' : BillingDb} {scope : RollupScope} {cursor : Int}
    (stored : db.getMetaI64 metaKeyTokenUsageRollupLogIdV2 = some cursor)
    (yields : Yields rollupScope db scope db') : scope = ⟨cursor, none⟩ ∧ db' = db := by
  obtain ⟨v2Cursor, mid, read, rest⟩ := yields.of_bind
  obtain ⟨rfl, same⟩ := read.of_query
  rw [stored] at rest
  obtain ⟨rfl, kept⟩ := rest.of_pure
  exact ⟨rfl, kept.trans same⟩

theorem writeLegacyTs_yields {maxCreatedAt result : Option Int} {db db' : BillingDb}
    (yields : Yields (writeLegacyTs maxCreatedAt) db result db') :
    db'.authTokenLogs = db.authTokenLogs ∧ db'.tokenUsageStats = db.tokenUsageStats ∧
      db'.getMetaI64 metaKeyTokenUsageRollupLogIdV2 =
        db.getMetaI64 metaKeyTokenUsageRollupLogIdV2 := by
  cases maxCreatedAt with
  | none =>
      obtain ⟨_, rfl⟩ := yields.of_pure
      exact ⟨rfl, rfl, rfl⟩
  | some ts =>
      obtain ⟨legacyTs, mid, read, rest⟩ := yields.of_bind
      obtain ⟨_, written, write, done⟩ := rest.of_bind
      obtain ⟨_, rfl⟩ := done.of_pure
      obtain ⟨_, rfl⟩ := read.of_query
      rw [write.of_execute]
      exact ⟨rfl, rfl, getMetaI64_setMetaI64_of_ne (by decide) _⟩

/-- What a committed run does, once the v2 cursor exists: nothing, or one batch. -/
theorem rollupTx_yields {db db' : BillingDb} {result : Int × Option Int} {cursor : Int}
    (stored : db.getMetaI64 metaKeyTokenUsageRollupLogIdV2 = some cursor)
    (yields : Yields rollupTx db result db') :
    db' = db ∨
      ∃ maxLogId, ((rowsPast db ⟨cursor, none⟩).map Prod.fst).max? = some maxLogId ∧
        db'.authTokenLogs = db.authTokenLogs ∧
        db'.tokenUsageStats = (addUsageGroups ⟨cursor, none⟩ maxLogId db).2.tokenUsageStats ∧
        ∃ mid : BillingDb, db'.getMetaI64 metaKeyTokenUsageRollupLogIdV2 =
          (mid.setMetaI64 metaKeyTokenUsageRollupLogIdV2 maxLogId).getMetaI64
            metaKeyTokenUsageRollupLogIdV2 := by
  obtain ⟨scope, begun, readScope, rest⟩ := yields.of_bind
  obtain ⟨rfl, rfl⟩ := rollupScope_yields stored readScope
  obtain ⟨rows, queried, readRows, rest⟩ := rest.of_bind
  obtain ⟨rfl, rfl⟩ := readRows.of_query
  cases found : ((rowsPast queried ⟨cursor, none⟩).map Prod.fst).max? with
  | none =>
      rw [found] at rest
      change Yields (finishWithoutRows ⟨cursor, none⟩) _ _ _ at rest
      obtain ⟨_, kept, skip, done⟩ := rest.of_bind
      obtain ⟨_, rfl⟩ := done.of_pure
      exact Or.inl skip.of_pure.2
  | some maxLogId =>
      rw [found] at rest
      right
      obtain ⟨_, added, add, rest⟩ := rest.of_bind
      obtain ⟨_, moved, write, rest⟩ := rest.of_bind
      obtain ⟨_, clamped, legacy, done⟩ := rest.of_bind
      obtain ⟨_, rfl⟩ := done.of_pure
      have adds := congrArg Prod.snd add.of_statement
      obtain ⟨logs, stats, cursorKept⟩ := writeLegacyTs_yields legacy
      have moves := write.of_execute
      subst moves
      subst adds
      exact ⟨maxLogId, rfl, logs, stats, _, cursorKept⟩

/-- A run of the rollup, complete or broken, keeps every counter at what the
consumed rows add to it. -/
theorem UsageTallied.rollup {db : BillingDb} {cursor : Int} (tallied : UsageTallied db cursor)
    (healthy : Option Nat) :
    ∃ cursor', UsageTallied (rollupTokenUsageStats healthy db).2 cursor' := by
  unfold rollupTokenUsageStats
  rcases transaction_cases .database rollupTx healthy db with
    ⟨e, failed⟩ | ⟨result, db', committed, yields⟩
  · rw [failed]
    exact ⟨cursor, tallied⟩
  · rw [committed]
    rcases rollupTx_yields tallied.stored yields with rfl | ⟨maxLogId, found, logs, stats, mid, moved⟩
    · exact ⟨cursor, tallied⟩
    · obtain ⟨later, handedOut⟩ := rowsPast_max found
      have nonneg := tallied.cursor_nonneg
      have bound := tallied.last_le
      refine ⟨maxLogId, ?_, by omega, ?_, ?_, ?_⟩
      · rw [moved]
        exact getMetaI64_setMetaI64_self (by omega) (by omega)
      · rw [logs]
        exact handedOut
      · rw [logs]
        exact bound
      · intro key counter
        have split := usageTally_split db.authTokenLogs.table.rows (Int.le_of_lt later) key counter
        unfold usageCount consumedRows
        rw [logs, split, stats]
        refine (usageCount_upsert _ _ key counter).trans ?_
        exact congrArg (· + _) (tallied.tallied key counter)

/-- The invariant over both kinds of step. -/
theorem UsageTallied.step {db db' : BillingDb} {action : UsageRollupAction}
    (tallied : ∃ cursor, UsageTallied db cursor)
    (taken : usageRollupSystem.step db action = some db') :
    ∃ cursor, UsageTallied db' cursor := by
  obtain ⟨cursor, tallied⟩ := tallied
  cases action with
  | insert row =>
      simp only [usageRollupSystem, BillingDb.usageRollupStep, Option.ite_none_right_eq_some,
        Option.some.injEq] at taken
      obtain ⟨room, rfl⟩ := taken
      exact ⟨cursor, tallied.insert room row⟩
  | rollup healthy =>
      cases taken
      exact tallied.rollup healthy

/-! ### Every row once -/

/-- The cursor the store would go on from. -/
def rollupCursor (db : BillingDb) : Int :=
  (db.getMetaI64 metaKeyTokenUsageRollupLogIdV2).getD 0

theorem UsageTallied.rollupCursor_eq {db : BillingDb} {cursor : Int}
    (tallied : UsageTallied db cursor) : rollupCursor db = cursor := by
  rw [rollupCursor, tallied.stored]
  rfl

/-- Each consumed row has added 1 to one counter of its bucket, and no other row
anything. -/
def CountedOnce (db : BillingDb) : Prop :=
  ∃ counterOf : Int → UsageCounter, ∀ key counter,
    usageCount db key counter =
      ((consumedRows db (rollupCursor db)).countP fun row =>
        usageBucketKey row.2 = key ∧ counterOf row.1 = counter : Nat)

/-- All four counters of all buckets. -/
def usageTotal (db : BillingDb) : Int :=
  db.tokenUsageStats.total (fun _ => true) TokenUsageStats.sum

def ConsumedClassified (db : BillingDb) : Prop :=
  ∀ row ∈ consumedRows db (rollupCursor db), Classified row.2

theorem countP_eq_sum (rows : List (Int × AuthTokenLog)) (p : Int × AuthTokenLog → Bool) :
    (rows.countP p : Int) = (rows.map fun row => if p row then (1 : Int) else 0).sum := by
  induction rows with
  | nil => rfl
  | cons row rows ih =>
      cases chosen : p row
      · simp [chosen, ih]
      · simp [chosen, ih, Int.add_comm]

/-- Where every consumed row has a case, the cases say which counter it is in. -/
theorem UsageTallied.countedOnce {db : BillingDb} {cursor : Int}
    (tallied : UsageTallied db cursor) (classified : ConsumedClassified db) :
    CountedOnce db := by
  refine ⟨fun logId =>
    (db.authTokenLogs.find logId).elim .success usageCounterOf, fun key counter => ?_⟩
  rw [tallied.rollupCursor_eq, tallied.tallied, usageTally_eq, countP_eq_sum]
  apply sum_map_congr
  intro row member
  have case := classified row (by rwa [tallied.rollupCursor_eq])
  have found : db.authTokenLogs.find row.1 = some row.2 :=
    KeyedTable.find_eq_some_iff.2 (List.mem_filter.1 member).1
  rw [usageContribution_get]
  by_cases bucket : usageBucketKey row.2 = key <;> simp [bucket, case, found]

/-- The four counters of a bucket together count its classified rows. -/
theorem UsageTallied.bucket_sum {db : BillingDb} {cursor : Int}
    (tallied : UsageTallied db cursor) (key : TokenUsageStatsKey) :
    usageCount db key .success + usageCount db key .systemFailure +
        usageCount db key .externalFailure + usageCount db key .quotaExhausted =
      ((consumedRows db cursor).map fun row =>
        if usageBucketKey row.2 = key then (usageContribution row.2).sum else 0).sum := by
  simp only [tallied.tallied, usageTally_eq, ← sum_map_add]
  apply sum_map_congr
  intro row _
  by_cases bucket : usageBucketKey row.2 = key
  · simp [bucket, TokenUsageStats.sum_eq]
  · simp [bucket]

/-- Every consumed row is in one counter only where every one has a case. -/
theorem UsageTallied.classified {db : BillingDb} {cursor : Int}
    (tallied : UsageTallied db cursor) (once : CountedOnce db) : ConsumedClassified db := by
  obtain ⟨counterOf, counted⟩ := once
  rw [tallied.rollupCursor_eq] at counted
  unfold ConsumedClassified
  rw [tallied.rollupCursor_eq]
  intro row member
  -- In the bucket of the row, what the cases add up to is the number of its rows.
  have sums := tallied.bucket_sum (usageBucketKey row.2)
  simp only [counted, countP_eq_sum, ← sum_map_add] at sums
  have same := (sum_map_le_iff (l := consumedRows db cursor)
    (f := fun other => if usageBucketKey other.2 = usageBucketKey row.2 then
      (usageContribution other.2).sum else 0)
    (g := fun other => if usageBucketKey other.2 = usageBucketKey row.2 then 1 else 0)
    (by
      intro other _
      have bounds := usageContribution_sum_bounds other.2
      split <;> omega)).2.1
  have equal := same (by
    rw [← sums]
    apply sum_map_congr
    intro other _
    by_cases bucket : usageBucketKey other.2 = usageBucketKey row.2
    · cases counterOf other.1 <;> simp [bucket]
    · simp [bucket]) row member
  simp only [if_true, usageContribution_sum] at equal
  by_contra unclassified
  rw [if_neg unclassified] at equal
  cases equal

/-- The counters of all buckets add up to the number of consumed rows that have a
case. -/
theorem UsageTallied.usageTotal_eq {db : BillingDb} {cursor : Int}
    (tallied : UsageTallied db cursor) :
    usageTotal db = ((consumedRows db cursor).countP fun row => Classified row.2 : Nat) := by
  have buckets : usageTotal db =
      ((db.tokenUsageStats.rows.map Prod.fst).map fun key =>
        (((consumedRows db cursor).filter fun row => usageBucketKey row.2 = key).map fun row =>
          (usageContribution row.2).sum).sum).sum := by
    unfold usageTotal KeyedTable.total
    rw [List.filter_true, List.map_map]
    apply sum_map_congr
    intro row member
    have sums := tallied.bucket_sum row.1
    have found := KeyedTable.find_eq_some_iff.2 member
    simp only [usageCount, found, Option.elim_some] at sums
    simp only [Function.comp_apply, sum_map_filter, decide_eq_true_eq]
    exact sums
  rw [buckets, sum_map_groups db.tokenUsageStats.distinct fun row : Int × AuthTokenLog =>
    usageBucketKey row.2, countP_eq_sum]
  apply sum_map_congr
  intro row member
  rw [usageContribution_sum]
  by_cases listed : usageBucketKey row.2 ∈ db.tokenUsageStats.rows.map Prod.fst
  · simp [listed]
  · -- A bucket that does not exist has no classified row.
    have none' := KeyedTable.find_eq_none_iff.2 listed
    have sums := tallied.bucket_sum (usageBucketKey row.2)
    simp only [usageCount, none', Option.elim_none] at sums
    have same := (sum_map_le_iff (l := consumedRows db cursor) (f := fun _ => 0)
      (g := fun other => if usageBucketKey other.2 = usageBucketKey row.2 then
        (usageContribution other.2).sum else 0)
      (by
        intro other _
        have bounds := usageContribution_sum_bounds other.2
        split <;> omega)).2.1
    have equal := same (by
      rw [← sums]
      simp) row member
    simp only [if_true, usageContribution_sum] at equal
    rw [if_neg listed]
    simpa using equal

theorem UsageTallied.usageTotal_eq_length_iff {db : BillingDb} {cursor : Int}
    (tallied : UsageTallied db cursor) :
    usageTotal db = (consumedRows db (rollupCursor db)).length ↔ ConsumedClassified db := by
  unfold ConsumedClassified
  rw [tallied.usageTotal_eq, tallied.rollupCursor_eq, Int.ofNat_inj, List.countP_eq_length]
  simp only [decide_eq_true_eq]

/-! ### Runs -/

/-- Every business row of the log has a case. -/
def BusinessRowsClassified (db : BillingDb) : Prop :=
  ∀ row ∈ db.authTokenLogs.table.rows, row.2.countsBusinessQuota = 1 → Classified row.2

/-- The step inserts no business row without a case. -/
def InsertsClassified (_ : BillingDb) : UsageRollupAction → Prop
  | .insert row => row.countsBusinessQuota = 1 → Classified row
  | .rollup _ => True

theorem BusinessRowsClassified.consumed {db : BillingDb} (all : BusinessRowsClassified db) :
    ConsumedClassified db := by
  intro row member
  obtain ⟨stored, business⟩ := List.mem_filter.1 member
  have business : row.2.countsBusinessQuota = 1 ∧ row.1 ≤ rollupCursor db :=
    of_decide_eq_true business
  exact all row stored business.1

/-- A run of the rollup leaves the log alone. -/
theorem rollup_logs {db : BillingDb} {cursor : Int} (tallied : UsageTallied db cursor)
    (healthy : Option Nat) :
    (rollupTokenUsageStats healthy db).2.authTokenLogs = db.authTokenLogs := by
  unfold rollupTokenUsageStats
  rcases transaction_cases .database rollupTx healthy db with
    ⟨e, failed⟩ | ⟨result, db', committed, yields⟩
  · rw [failed]
  · rw [committed]
    rcases rollupTx_yields tallied.stored yields with rfl | ⟨_, _, logs, _⟩
    · rfl
    · exact logs

theorem BusinessRowsClassified.step {db db' : BillingDb} {action : UsageRollupAction}
    (tallied : ∃ cursor, UsageTallied db cursor) (all : BusinessRowsClassified db)
    (good : InsertsClassified db action)
    (taken : usageRollupSystem.step db action = some db') : BusinessRowsClassified db' := by
  cases action with
  | insert row =>
      simp only [usageRollupSystem, BillingDb.usageRollupStep, Option.ite_none_right_eq_some,
        Option.some.injEq] at taken
      obtain ⟨_, rfl⟩ := taken
      intro other member
      simp only [insert_rows, List.mem_append, List.mem_singleton] at member
      rcases member with old | rfl
      · exact all other old
      · exact good
  | rollup healthy =>
      obtain ⟨cursor, tallied⟩ := tallied
      cases taken
      unfold BusinessRowsClassified
      rw [rollup_logs tallied healthy]
      exact all

/-- In every state of every run the statistics count every consumed row once, and
add up to their number, exactly when each consumed row has a case. So they do in
every run that inserts only such business rows. -/
theorem rollup_counts_each_row_once {db : BillingDb} {cursor : Int}
    (tallied : UsageTallied db cursor) (actions : List UsageRollupAction) :
    usageRollupSystem.AlongRun
      (fun t => (CountedOnce t ↔ ConsumedClassified t) ∧
        (usageTotal t = (consumedRows t (rollupCursor t)).length ↔ ConsumedClassified t))
      db actions ∧
    (BusinessRowsClassified db → usageRollupSystem.Guarded InsertsClassified db actions →
      usageRollupSystem.AlongRun
        (fun t => CountedOnce t ∧
          usageTotal t = (consumedRows t (rollupCursor t)).length) db actions) := by
  constructor
  · have along := usageRollupSystem.alongRun_of_preserved
      (fun _ _ _ before taken => UsageTallied.step before taken) ⟨cursor, tallied⟩ actions
    apply along.mono
    rintro t ⟨_, here⟩
    exact ⟨⟨here.classified, here.countedOnce⟩, here.usageTotal_eq_length_iff⟩
  · intro all guarded
    have preserved : ∀ t action t',
        (∃ cursor, UsageTallied t cursor) ∧ BusinessRowsClassified t →
          InsertsClassified t action → usageRollupSystem.step t action = some t' →
          (∃ cursor, UsageTallied t' cursor) ∧ BusinessRowsClassified t' :=
      fun _ _ _ before good taken =>
        ⟨UsageTallied.step before.1 taken, before.2.step before.1 good taken⟩
    have along := usageRollupSystem.alongRun_of_guarded preserved ⟨⟨cursor, tallied⟩, all⟩ guarded
    apply along.mono
    rintro t ⟨⟨_, here⟩, classified⟩
    exact ⟨here.countedOnce classified.consumed,
      here.usageTotal_eq_length_iff.2 classified.consumed⟩

/-- An empty store after its first rollup. -/
def rolledUpStore : BillingDb :=
  { BillingDb.empty with
    metaValues := KeyedTable.empty.upsert metaKeyTokenUsageRollupLogIdV2 "0" id }

theorem rolledUpStore_tallied : UsageTallied rolledUpStore 0 where
  stored := by decide
  cursor_nonneg := by decide
  cursor_le := by decide
  last_le := by decide
  tallied := fun _ _ => rfl

/-- A business row as the handler logs a failed transport: an error without any
status. -/
def transportFailure : AuthTokenLog where
  tokenId := "t"
  httpStatus := none
  mcpStatus := none
  resultStatus := "error"
  errorMessage := some "http error"
  countsBusinessQuota := 1
  businessCredits := none
  billingSubject := none
  billingState := "none"
  apiKeyId := none
  requestLogId := none
  createdAt := default

theorem rollup_loses_transport_failure :
    UsageTallied rolledUpStore 0 ∧
      ∃ t, usageRollupSystem.run rolledUpStore [.insert transportFailure, .rollup none] =
          some t ∧
        (consumedRows t (rollupCursor t)).length = 1 ∧ usageTotal t = 0 ∧ ¬ CountedOnce t := by
  refine ⟨rolledUpStore_tallied, ?_⟩
  have along := usageRollupSystem.alongRun_of_preserved
    (fun _ _ _ before taken => UsageTallied.step before taken) ⟨0, rolledUpStore_tallied⟩
    [.insert transportFailure, .rollup none]
  obtain ⟨t, ran, consumed, total, unclassified⟩ : ∃ t,
      usageRollupSystem.run rolledUpStore [.insert transportFailure, .rollup none] = some t ∧
        (consumedRows t (rollupCursor t)).length = 1 ∧ usageTotal t = 0 ∧
        ¬ ConsumedClassified t := by
    refine ⟨_, rfl, by decide, by decide, ?_⟩
    intro classified
    exact absurd (classified (1, transportFailure) (by decide)) (by decide)
  obtain ⟨_, tallied⟩ := along.last _ ran
  exact ⟨t, ran, consumed, total, fun once => unclassified (tallied.classified once)⟩

/-- The same run with an HTTP status of the upstream. -/
theorem rollup_counts_upstream_failure :
    usageRollupSystem.AlongRun
      (fun t => CountedOnce t ∧
        usageTotal t = (consumedRows t (rollupCursor t)).length)
      rolledUpStore
      [.insert { transportFailure with httpStatus := some 502 }, .rollup (some 1),
        .rollup none] := by
  refine (rollup_counts_each_row_once rolledUpStore_tallied _).2 ?_ ?_
  · intro row member
    cases member
  · exact fun _ _ => ⟨fun _ => by decide, fun _ _ => ⟨trivial, fun _ _ => ⟨trivial, trivial⟩⟩⟩

end TavilyHikari.Store
