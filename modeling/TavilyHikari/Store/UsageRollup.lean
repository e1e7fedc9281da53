/-
Module: TavilyHikari.Store.UsageRollup
Purpose: The hourly usage statistics of `store/mod.rs`: one transaction adds the
  business log rows past the stored cursor to the buckets of their token and
  hour, and moves the cursor.
Trusted boundary: human-reviewed spec (the meaning of the queries)
Main exports: usageContribution, rollupTokenUsageStats, UsageRollupAction,
  usageRollupSystem
-/
import TavilyHikari.Library.SqlLogic
import TavilyHikari.Library.Transaction
import TavilyHikari.Library.TransitionSystem
import TavilyHikari.Store.BillingDb

namespace TavilyHikari.Store

open Library

/-- `META_KEY_TOKEN_USAGE_ROLLUP_TS`. -/
def metaKeyTokenUsageRollupTs : String := "token_usage_rollup_last_ts"

/-- `META_KEY_TOKEN_USAGE_ROLLUP_LOG_ID_V2`. -/
def metaKeyTokenUsageRollupLogIdV2 : String := "token_usage_rollup_last_log_id_v2"

/-- `TOKEN_USAGE_STATS_BUCKET_SECS`. -/
def tokenUsageStatsBucketSecs : Int := secsPerHour

/-- `OUTCOME_QUOTA_EXHAUSTED`. -/
def outcomeQuotaExhausted : String := "quota_exhausted"

/-! ### What a row adds -/

/-- `(http_status BETWEEN 400 AND 599) OR (mcp_status BETWEEN 400 AND 599)`. -/
def hasErrorStatus (row : AuthTokenLog) : SqlBool :=
  (SqlBool.between row.httpStatus 400 599).or (SqlBool.between row.mcpStatus 400 599)

/-- `result_status != 'success' AND result_status != 'quota_exhausted'`. -/
def isFailure (row : AuthTokenLog) : SqlBool :=
  (SqlBool.known (row.resultStatus ≠ outcomeSuccess)).and
    (SqlBool.known (row.resultStatus ≠ outcomeQuotaExhausted))

/-- `CASE WHEN condition THEN 1 ELSE 0 END`. -/
def caseOne (condition : SqlBool) : Int := if condition.holds then 1 else 0

/-- The four `CASE`s of the rollup on one row. -/
def usageContribution (row : AuthTokenLog) : TokenUsageStats where
  successCount := caseOne (SqlBool.known (row.resultStatus = outcomeSuccess))
  systemFailureCount := caseOne ((isFailure row).and (hasErrorStatus row))
  externalFailureCount := caseOne ((isFailure row).and (hasErrorStatus row).not)
  quotaExhaustedCount := caseOne (SqlBool.known (row.resultStatus = outcomeQuotaExhausted))

/-- The bucket of a row. `created_at / 3600` truncates. -/
def usageBucketKey (row : AuthTokenLog) : TokenUsageStatsKey where
  tokenId := row.tokenId
  bucketStart := row.createdAt.secs.tdiv tokenUsageStatsBucketSecs * tokenUsageStatsBucketSecs
  bucketSecs := tokenUsageStatsBucketSecs

/-- The four counters of a bucket. -/
inductive UsageCounter where
  | success
  | systemFailure
  | externalFailure
  | quotaExhausted
deriving DecidableEq, Repr

def TokenUsageStats.get (stats : TokenUsageStats) : UsageCounter → Int
  | .success => stats.successCount
  | .systemFailure => stats.systemFailureCount
  | .externalFailure => stats.externalFailureCount
  | .quotaExhausted => stats.quotaExhaustedCount

/-! ### The transaction -/

/-- The rows one run selects: of all with `counts_business_quota = 1`, those past
the v2 cursor, or on the first v2 run those from the legacy timestamp on. -/
structure RollupScope where
  lastLogId : Int
  migrationLegacyTs : Option Int
deriving DecidableEq, Repr

/-- The `WHERE` that finds the maximal id. The legacy timestamp is no part of
it. -/
def RollupScope.past (scope : RollupScope) (logId : Int) (row : AuthTokenLog) : Bool :=
  match scope.migrationLegacyTs with
  | some _ => row.countsBusinessQuota = 1
  | none => row.countsBusinessQuota = 1 ∧ logId > scope.lastLogId

/-- The `WHERE` of the rows that are added. -/
def RollupScope.selects (scope : RollupScope) (maxLogId logId : Int) (row : AuthTokenLog) :
    Bool :=
  match scope.migrationLegacyTs with
  | some legacyTs =>
      row.countsBusinessQuota = 1 ∧ row.createdAt.secs ≥ legacyTs ∧ logId ≤ maxLogId
  | none => row.countsBusinessQuota = 1 ∧ logId > scope.lastLogId ∧ logId ≤ maxLogId

/-- `MAX(created_at)`, from the legacy timestamp on where there is one. -/
def RollupScope.maxCreatedAt (scope : RollupScope) (rows : List (Int × AuthTokenLog)) :
    Option Int :=
  let created := rows.map fun row => row.2.createdAt.secs
  match scope.migrationLegacyTs with
  | some legacyTs => (created.filter fun createdAt => createdAt ≥ legacyTs).max?
  | none => created.max?

def rowsPast (db : BillingDb) (scope : RollupScope) : List (Int × AuthTokenLog) :=
  db.authTokenLogs.table.rows.filter fun row => scope.past row.1 row.2

/-- The groups of `GROUP BY token_id, bucket_start`, with their four sums. -/
def usageGroups (rows : List (Int × AuthTokenLog)) :
    List (TokenUsageStatsKey × TokenUsageStats) :=
  (rows.map fun row => usageBucketKey row.2).dedup.map fun key =>
    let mine := rows.filter fun row => usageBucketKey row.2 = key
    let sum (counter : UsageCounter) : Int :=
      (mine.map fun row => (usageContribution row.2).get counter).sum
    (key,
      { successCount := sum .success
        systemFailureCount := sum .systemFailure
        externalFailureCount := sum .externalFailure
        quotaExhaustedCount := sum .quotaExhausted })

def TokenUsageStats.add (excluded stored : TokenUsageStats) : TokenUsageStats where
  successCount := stored.successCount + excluded.successCount
  systemFailureCount := stored.systemFailureCount + excluded.systemFailureCount
  externalFailureCount := stored.externalFailureCount + excluded.externalFailureCount
  quotaExhaustedCount := stored.quotaExhaustedCount + excluded.quotaExhaustedCount

/-- `INSERT INTO token_usage_stats SELECT ... GROUP BY ... ON CONFLICT DO
UPDATE`, with the number of rows affected. -/
def addUsageGroups (scope : RollupScope) (maxLogId : Int) (db : BillingDb) : Int × BillingDb :=
  let groups := usageGroups
    (db.authTokenLogs.table.rows.filter fun row => scope.selects maxLogId row.1 row.2)
  (groups.length,
    { db with tokenUsageStats := db.tokenUsageStats.upsertAll id TokenUsageStats.add groups })

abbrev RollupTx := Tx ProxyError BillingDb

def readMetaI64 (key : String) : RollupTx (Option Int) :=
  Tx.query .database fun db => db.getMetaI64 key

def writeMetaI64 (key : String) (value : Int) : RollupTx PUnit :=
  Tx.execute .database fun db => db.setMetaI64 key value

def rollupScope : RollupTx RollupScope := do
  let v2Cursor ← readMetaI64 metaKeyTokenUsageRollupLogIdV2
  match v2Cursor with
  | some id => pure { lastLogId := id, migrationLegacyTs := none }
  | none => do
      let legacyTs ← readMetaI64 metaKeyTokenUsageRollupTs
      pure { lastLogId := 0, migrationLegacyTs := legacyTs }

/-- A migration that finds no rows is complete. -/
def completeMigration (scope : RollupScope) : RollupTx PUnit :=
  if scope.migrationLegacyTs.isSome then writeMetaI64 metaKeyTokenUsageRollupLogIdV2 0
  else pure ⟨⟩

def finishWithoutRows (scope : RollupScope) : RollupTx (Int × Option Int) := do
  completeMigration scope
  pure (0, none)

/-- The legacy timestamp cursor never goes back. -/
def writeLegacyTs (maxCreatedAt : Option Int) : RollupTx (Option Int) :=
  match maxCreatedAt with
  | none => pure none
  | some ts => do
      let legacyTs ← readMetaI64 metaKeyTokenUsageRollupTs
      let clampedTs := legacyTs.elim ts fun old => max old ts
      writeMetaI64 metaKeyTokenUsageRollupTs clampedTs
      pure (some clampedTs)

def rollupTx : RollupTx (Int × Option Int) := do
  let scope ← rollupScope
  let rows ← Tx.query .database fun db => rowsPast db scope
  match (rows.map Prod.fst).max? with
  | none => finishWithoutRows scope
  | some maxLogId => do
      let affected ← Tx.statement .database (addUsageGroups scope maxLogId)
      writeMetaI64 metaKeyTokenUsageRollupLogIdV2 maxLogId
      let newLastRollupTs ← writeLegacyTs (scope.maxCreatedAt rows)
      pure (affected, newLastRollupTs)

/-- `rollup_token_usage_stats`, which breaks after `healthy` statements. -/
def rollupTokenUsageStats (healthy : Option Nat) (db : BillingDb) :
    Except ProxyError (Int × Option Int) × BillingDb :=
  Tx.transaction .database rollupTx healthy db

/-! ### Inserts and rollups in any order -/

inductive UsageRollupAction where
  /-- An insert into `auth_token_logs`, of whatever row. -/
  | insert (row : AuthTokenLog)
  /-- A run of the rollup, complete or broken. -/
  | rollup (healthy : Option Nat)
deriving Repr

/-- The largest id SQLite hands out; a full table refuses the insert. -/
def maxRowId : Int := 9223372036854775807

namespace BillingDb

def usageRollupStep (db : BillingDb) : UsageRollupAction → Option BillingDb
  | .insert row =>
      if db.authTokenLogs.last < maxRowId then
        some { db with authTokenLogs := db.authTokenLogs.insert row }
      else none
  | .rollup healthy => some (rollupTokenUsageStats healthy db).2

end BillingDb

def usageRollupSystem : TransitionSystem BillingDb UsageRollupAction where
  step := BillingDb.usageRollupStep

end TavilyHikari.Store
