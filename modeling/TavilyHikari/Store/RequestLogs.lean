/-
Module: TavilyHikari.Store.RequestLogs
Purpose: The logs of requests and what refers to them (`store/mod.rs`): the log of an
  attempt with its daily bucket, the log of a token, maintenance records, the deletes of
  the retention, the suppression of retries, and the rebuild of the buckets.
Trusted boundary: human-reviewed spec (foreign keys are checked at the end of a statement)
Main exports: LogDb, logAttempt, insertTokenLog, insertApiKeyMaintenanceRecord,
  deleteOldAuthTokenLogs, deleteOldRequestLogs, rebuildApiKeyUsageBuckets, logSystem
-/
import TavilyHikari.Library.AutoIncrement
import TavilyHikari.Library.TransitionSystem

namespace TavilyHikari.Store

open Library

/-! ### Rows -/

/-- The outcomes an attempt is logged with. -/
inductive AttemptOutcome where
  | success
  | error
  | quotaExhausted
  | unknown
deriving DecidableEq, Repr

inductive RequestLogVisibility where
  | visible
  | suppressedRetryShadow
deriving DecidableEq, Repr

structure RequestLogEntry where
  apiKeyId : Option String
  resultStatus : AttemptOutcome
  visibility : RequestLogVisibility
  createdAt : Int
deriving DecidableEq, Repr

structure TokenLogEntry where
  requestLogId : Option Int
  createdAt : Int
deriving DecidableEq, Repr

structure ApiKeyMaintenanceRecord where
  requestLogId : Option Int
  authTokenLogId : Option Int
deriving DecidableEq, Repr

structure BucketCounts where
  totalRequests : Int
  successCount : Int
  errorCount : Int
  quotaExhaustedCount : Int
deriving DecidableEq, Repr

structure ApiKeyUsageBucket where
  counts : BucketCounts
  updatedAt : Int
deriving DecidableEq, Repr

/-- The key of a bucket: the API key and the start of the local day. -/
abbrev BucketKey := String × Int

structure LogDb where
  requestLogs : AutoIncrement RequestLogEntry
  authTokenLogs : AutoIncrement TokenLogEntry
  maintenanceRecords : List ApiKeyMaintenanceRecord
  apiKeyUsageBuckets : KeyedTable BucketKey ApiKeyUsageBucket

def LogDb.empty : LogDb where
  requestLogs := .empty
  authTokenLogs := .empty
  maintenanceRecords := []
  apiKeyUsageBuckets := .empty

/-! ### Counts -/

namespace BucketCounts

def zero : BucketCounts where
  totalRequests := 0
  successCount := 0
  errorCount := 0
  quotaExhaustedCount := 0

/-- The counts with one attempt more. -/
def add (counts : BucketCounts) (outcome : AttemptOutcome) : BucketCounts :=
  let counts := { counts with totalRequests := counts.totalRequests + 1 }
  match outcome with
  | .success => { counts with successCount := counts.successCount + 1 }
  | .error => { counts with errorCount := counts.errorCount + 1 }
  | .quotaExhausted => { counts with quotaExhaustedCount := counts.quotaExhaustedCount + 1 }
  | .unknown => counts

end BucketCounts

/-! ### Logging -/

/-- `log_attempt`: the row, and the bucket of its key and day. -/
def logAttempt (localDayBucketStartUtcTs : Int → Int) (now : Int) (keyId : Option String)
    (outcome : AttemptOutcome) (db : LogDb) : LogDb :=
  let row : RequestLogEntry :=
    { apiKeyId := keyId, resultStatus := outcome, visibility := .visible, createdAt := now }
  { db with
    requestLogs := db.requestLogs.insert row
    apiKeyUsageBuckets :=
      match keyId with
      | none => db.apiKeyUsageBuckets
      | some keyId =>
          db.apiKeyUsageBuckets.upsert (keyId, localDayBucketStartUtcTs now)
            { counts := BucketCounts.zero.add outcome, updatedAt := now }
            fun bucket => { counts := bucket.counts.add outcome, updatedAt := now } }

/-- A reference that the database accepts: to nothing, or to a row that is there. -/
def referenceHolds {ν : Type} (t : AutoIncrement ν) : Option Int → Bool
  | none => true
  | some id => (t.find id).isSome

/-- `insert_token_log` and `insert_token_log_pending_billing`. -/
def insertTokenLog (now : Int) (requestLogId : Option Int) (db : LogDb) : Option LogDb :=
  if referenceHolds db.requestLogs requestLogId then
    some { db with
      authTokenLogs := db.authTokenLogs.insert { requestLogId, createdAt := now } }
  else none

/-- `insert_api_key_maintenance_record`. -/
def insertApiKeyMaintenanceRecord (record : ApiKeyMaintenanceRecord) (db : LogDb) :
    Option LogDb :=
  if referenceHolds db.requestLogs record.requestLogId ∧
      referenceHolds db.authTokenLogs record.authTokenLogId then
    some { db with maintenanceRecords := db.maintenanceRecords ++ [record] }
  else none

/-! ### Retention -/

/-- A token log or a maintenance record refers to the request log. -/
def LogDb.requestLogReferenced (db : LogDb) (id : Int) : Bool :=
  (db.authTokenLogs.table.rows.any fun row => row.2.requestLogId = some id) ||
    db.maintenanceRecords.any fun record => record.requestLogId = some id

/-- A maintenance record refers to the token log. -/
def LogDb.tokenLogReferenced (db : LogDb) (id : Int) : Bool :=
  db.maintenanceRecords.any fun record => record.authTokenLogId = some id

/-- `delete_old_auth_token_logs`: the number of rows, `none` where a foreign key rejects the
statement. -/
def deleteOldAuthTokenLogs (threshold : Int) (db : LogDb) : Option Int × LogDb :=
  let old := db.authTokenLogs.table.rows.filter fun row => row.2.createdAt < threshold
  if old.any fun row => db.tokenLogReferenced row.1 then (none, db)
  else
    (some old.length,
      { db with
        authTokenLogs := db.authTokenLogs.deleteWhere fun _ row => row.createdAt < threshold })

def deleteBatchSize : Nat := 5000

/-- The ids of one batch, the oldest first. -/
def oldRequestLogIds (threshold : Int) (db : LogDb) : List Int :=
  (((db.requestLogs.table.rows.filter fun row => row.2.createdAt < threshold).insertionSort
    fun a b => a.2.createdAt < b.2.createdAt ∨ a.2.createdAt = b.2.createdAt ∧ a.1 ≤ b.1).take
      deleteBatchSize).map Prod.fst

/-- One batch of `delete_old_request_logs`, `none` where a foreign key rejects it. -/
def deleteRequestLogBatch (threshold : Int) (db : LogDb) : Option (Int × LogDb) :=
  let ids := oldRequestLogIds threshold db
  if ids.any db.requestLogReferenced then none
  else some (ids.length, { db with requestLogs := db.requestLogs.deleteWhere fun id _ => id ∈ ids })

theorem oldRequestLogIds_subset {threshold : Int} {db : LogDb} {id : Int}
    (member : id ∈ oldRequestLogIds threshold db) :
    ∃ row, db.requestLogs.find id = some row ∧ row.createdAt < threshold := by
  obtain ⟨row, taken, rfl⟩ := List.mem_map.1 member
  have sorted := List.mem_of_mem_take taken
  rw [List.mem_insertionSort, List.mem_filter, decide_eq_true_eq] at sorted
  exact ⟨row.2, AutoIncrement.find_eq_some_iff.2 sorted.1, sorted.2⟩

/-- A batch that deletes anything leaves fewer rows. -/
theorem length_deleteRequestLogBatch {threshold : Int} {db db' : LogDb} {deleted : Int}
    (ran : deleteRequestLogBatch threshold db = some (deleted, db')) (some_ : deleted ≠ 0) :
    db'.requestLogs.table.rows.length < db.requestLogs.table.rows.length := by
  unfold deleteRequestLogBatch at ran
  simp only at ran
  split_ifs at ran
  cases ran
  cases ids : oldRequestLogIds threshold db with
  | nil => simp [ids] at some_
  | cons first rest =>
      have member : first ∈ oldRequestLogIds threshold db := by
        rw [ids]
        exact List.mem_cons_self
      obtain ⟨row, found, _⟩ := oldRequestLogIds_subset member
      apply List.length_filter_lt_length_iff_exists.2
      exact ⟨(first, row), AutoIncrement.find_eq_some_iff.1 found, by simp⟩

/-- `delete_old_request_logs`: batch after batch, until one is empty. -/
def deleteOldRequestLogs (threshold : Int) (totalDeleted : Int) (db : LogDb) :
    Option Int × LogDb :=
  match _ran : deleteRequestLogBatch threshold db with
  | none => (none, db)
  | some (deleted, db') =>
      if _empty : deleted = 0 then (some totalDeleted, db')
      else deleteOldRequestLogs threshold (totalDeleted + deleted) db'
termination_by db.requestLogs.table.rows.length
decreasing_by exact length_deleteRequestLogBatch ‹_› ‹_›

def authTokenLogRetentionSecs : Int := 90 * 86400

/-- `gc_auth_token_logs`. -/
def gcAuthTokenLogs (now : Int) (db : LogDb) : Option Int × LogDb :=
  deleteOldAuthTokenLogs (now - authTokenLogRetentionSecs) db

/-- `gc_request_logs`. The threshold is the start of a local day, six days before today or
earlier. -/
def gcRequestLogs (threshold : Int) (db : LogDb) : Option Int × LogDb :=
  deleteOldRequestLogs threshold 0 db

/-! ### The rebuild of the buckets -/

/-- `suppress_retry_shadows`, one row. -/
def suppressRetryShadow (id : Int) (db : LogDb) : LogDb :=
  { db with
    requestLogs := db.requestLogs.modify id fun row =>
      if row.visibility = .visible then { row with visibility := .suppressedRetryShadow }
      else row }

/-- The bucket and the outcome of a row that counts. -/
def bucketEntry (localDayBucketStartUtcTs : Int → Int) (row : RequestLogEntry) :
    Option (BucketKey × AttemptOutcome) :=
  match row.apiKeyId with
  | some keyId =>
      if row.visibility = .visible then
        some ((keyId, localDayBucketStartUtcTs row.createdAt), row.resultStatus)
      else none
  | none => none

/-- The order of the rebuild: by key, then time, then id. -/
def rebuildOrder (a b : Int × RequestLogEntry) : Prop :=
  let aKey := a.2.apiKeyId.getD ""
  let bKey := b.2.apiKeyId.getD ""
  aKey < bKey ∨ aKey = bKey ∧
    (a.2.createdAt < b.2.createdAt ∨ a.2.createdAt = b.2.createdAt ∧ a.1 ≤ b.1)

instance : DecidableRel rebuildOrder := fun _ _ => by
  unfold rebuildOrder
  infer_instance

/-- `flush_bucket`, `none` where the bucket is there already. -/
def flushBucket (now : Int) (key : BucketKey) (counts : BucketCounts)
    (buckets : KeyedTable BucketKey ApiKeyUsageBucket) :
    Option (KeyedTable BucketKey ApiKeyUsageBucket) :=
  if counts.totalRequests ≤ 0 then some buckets
  else
    match buckets.find key with
    | some _ => none
    | none => some (buckets.upsert key { counts, updatedAt := now } id)

/-- The loop over the rows, with the bucket it is in and its counts so far. -/
def rebuildLoop (now : Int) (current : Option (BucketKey × BucketCounts)) :
    List (BucketKey × AttemptOutcome) → KeyedTable BucketKey ApiKeyUsageBucket →
      Option (KeyedTable BucketKey ApiKeyUsageBucket)
  | [], buckets =>
      match current with
      | none => some buckets
      | some (key, counts) => flushBucket now key counts buckets
  | (key, outcome) :: rows, buckets =>
      match current with
      | none => rebuildLoop now (some (key, BucketCounts.zero.add outcome)) rows buckets
      | some (currentKey, counts) =>
          if currentKey = key then
            rebuildLoop now (some (key, counts.add outcome)) rows buckets
          else
            (flushBucket now currentKey counts buckets).bind fun buckets =>
              rebuildLoop now (some (key, BucketCounts.zero.add outcome)) rows buckets

/-- `rebuild_api_key_usage_buckets`: one transaction, `none` where it is rolled back. -/
def rebuildApiKeyUsageBuckets (localDayBucketStartUtcTs : Int → Int) (now : Int) (db : LogDb) :
    Option LogDb :=
  let rows := db.requestLogs.table.rows.insertionSort rebuildOrder
  let entries := rows.filterMap fun row => bucketEntry localDayBucketStartUtcTs row.2
  (rebuildLoop now none entries .empty).map fun buckets =>
    { db with apiKeyUsageBuckets := buckets }

/-! ### Runs -/

/-- An attempt that was logged, with what became of its row: it is as it was when the
retention deleted it, if it did. -/
structure LoggedAttempt where
  entry : RequestLogEntry
  deleted : Bool

/-- The database, and all attempts that were ever logged. -/
structure LogState where
  db : LogDb
  history : List (Int × LoggedAttempt)

def LogState.initial : LogState where
  db := .empty
  history := []

inductive LogAction where
  | logAttempt (now : Int) (keyId : Option String) (outcome : AttemptOutcome)
  | insertTokenLog (now : Int) (requestLogId : Option Int)
  | insertMaintenanceRecord (record : ApiKeyMaintenanceRecord)
  | deleteOldAuthTokenLogs (threshold : Int)
  | deleteOldRequestLogs (threshold : Int)
  | suppressRetryShadow (id : Int)
  | rebuild (now : Int)
deriving DecidableEq, Repr

/-- An attempt whose row is no longer there was deleted. -/
def LoggedAttempt.afterDelete (db : LogDb) (id : Int) (attempt : LoggedAttempt) : LoggedAttempt :=
  { attempt with deleted := attempt.deleted || (db.requestLogs.find id).isNone }

/-- The suppression of a row that is there. -/
def LoggedAttempt.suppress (attempt : LoggedAttempt) : LoggedAttempt :=
  if attempt.deleted then attempt
  else { attempt with entry :=
    if attempt.entry.visibility = .visible then
      { attempt.entry with visibility := .suppressedRetryShadow }
    else attempt.entry }

/-- A statement that the database rejects changes nothing. -/
def logStep (localDayBucketStartUtcTs : Int → Int) (s : LogState) : LogAction → Option LogState
  | .logAttempt now keyId outcome =>
      let db := logAttempt localDayBucketStartUtcTs now keyId outcome s.db
      let entry : RequestLogEntry :=
        { apiKeyId := keyId, resultStatus := outcome, visibility := .visible, createdAt := now }
      some { db, history := s.history ++ [(db.requestLogs.last, { entry, deleted := false })] }
  | .insertTokenLog now requestLogId =>
      some { s with db := (insertTokenLog now requestLogId s.db).getD s.db }
  | .insertMaintenanceRecord record =>
      some { s with db := (insertApiKeyMaintenanceRecord record s.db).getD s.db }
  | .deleteOldAuthTokenLogs threshold =>
      some { s with db := (deleteOldAuthTokenLogs threshold s.db).2 }
  | .deleteOldRequestLogs threshold =>
      let db := (deleteOldRequestLogs threshold 0 s.db).2
      some { db, history := s.history.map fun row => (row.1, row.2.afterDelete db row.1) }
  | .suppressRetryShadow id =>
      some
        { db := suppressRetryShadow id s.db
          history := s.history.map fun row => if row.1 = id then (row.1, row.2.suppress) else row }
  | .rebuild now =>
      some { s with db := (rebuildApiKeyUsageBuckets localDayBucketStartUtcTs now s.db).getD s.db }

def logSystem (localDayBucketStartUtcTs : Int → Int) : TransitionSystem LogState LogAction where
  step := logStep localDayBucketStartUtcTs

end TavilyHikari.Store
