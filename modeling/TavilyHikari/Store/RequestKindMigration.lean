/-
Module: TavilyHikari.Store.RequestKindMigration
Purpose: The migration of the stored request kinds to canonical keys (`store/mod.rs`):
  the update of one row, the markers in the meta table, the statements of a claim, a
  batch and a finish, and the processes that run it side by side.
Trusted boundary: human-reviewed spec
Main exports: LogRow, LogTable, buildRequestKindBackfillUpdate, MigrationMeta,
  tryClaimRequestKindCanonicalMigration, finishRequestKindCanonicalMigration,
  migrationSystem
-/
import Mathlib.Logic.Function.Basic
import TavilyHikari.Analysis.StoredRequestKind
import TavilyHikari.Library.AutoIncrement
import TavilyHikari.Library.Int64
import TavilyHikari.Library.TransitionSystem

namespace TavilyHikari.Store

open Library Analysis

/-! ### Rows and their updates -/

/-- The two tables the migration goes over, in its order. -/
inductive LogTableName where
  | requestLogs
  | authTokenLogs
deriving DecidableEq, Repr

structure RequestLogRequest where
  path : String
  requestBody : Option ByteArray

structure TokenLogRequest where
  method : String
  path : String
  query : Option String

/-- What a row of a table says about its request. -/
def LoggedRequest : LogTableName → Type
  | .requestLogs => RequestLogRequest
  | .authTokenLogs => TokenLogRequest

/-- A row, as the migration reads it. -/
structure LogRow (Request : Type) where
  request : Request
  requestKindKey : Option String
  requestKindLabel : Option String
  requestKindDetail : Option String

structure RequestKindCanonicalUpdate where
  requestKindKey : String
  requestKindLabel : String
  requestKindDetail : Option String
deriving DecidableEq

/-- The kind a row of a table should store, from what it stores. -/
def canonicalKind (json : SerdeJson) :
    (name : LogTableName) → LoggedRequest name → Option String → Option String →
      Option String → TokenRequestKind
  | .requestLogs, request, key, label, detail =>
      canonicalizeRequestLogRequestKind json request.path request.requestBody key label detail
  | .authTokenLogs, request, key, label, detail =>
      finalizeTokenRequestKind json request.path key label detail

/-- `build_request_kind_backfill_request_log_update` and
`build_request_kind_backfill_token_log_update`, which differ in `canonicalKind` only. A
blank field is `None` there, and no field keeps the blanks around it. -/
def buildRequestKindBackfillUpdate (json : SerdeJson) (name : LogTableName)
    (row : LogRow (LoggedRequest name)) : Option RequestKindCanonicalUpdate :=
  let currentKey := row.requestKindKey.bind nonBlank
  let currentLabel := row.requestKindLabel.bind nonBlank
  let currentDetail := row.requestKindDetail.bind nonBlank
  let kind := canonicalKind json name row.request currentKey currentLabel currentDetail
  let desiredDetail := kind.detail.bind nonBlank
  if currentKey = some kind.key ∧ currentLabel = some kind.label ∧
      currentDetail = desiredDetail then
    none
  else some { requestKindKey := kind.key, requestKindLabel := kind.label,
              requestKindDetail := desiredDetail }

/-- `UPDATE ... SET request_kind_key = ?, request_kind_label = ?, request_kind_detail = ?`. -/
def LogRow.setKind {Request : Type} (row : LogRow Request) (update : RequestKindCanonicalUpdate) :
    LogRow Request :=
  { row with
    requestKindKey := some update.requestKindKey
    requestKindLabel := some update.requestKindLabel
    requestKindDetail := update.requestKindDetail }

/-! ### Tables -/

/-- A log table. Its ids start at 1. -/
structure LogTable (Request : Type) where
  rows : AutoIncrement (LogRow Request)
  nonneg : 0 ≤ rows.last
  positive : ∀ id row, rows.find id = some row → 0 < id

namespace LogTable

variable {Request : Type}

def empty : LogTable Request where
  rows := .empty
  nonneg := le_refl 0
  positive := by simp

def find (t : LogTable Request) (id : Int) : Option (LogRow Request) := t.rows.find id

def insert (t : LogTable Request) (row : LogRow Request) : LogTable Request where
  rows := t.rows.insert row
  nonneg := by
    have start := t.nonneg
    rw [AutoIncrement.last_insert]
    omega
  positive := by
    intro id stored found
    by_cases new : id = t.rows.last + 1
    · have start := t.nonneg
      omega
    · rw [t.rows.find_insert_of_ne new] at found
      exact t.positive id stored found

def setKind (t : LogTable Request) (id : Int) (update : RequestKindCanonicalUpdate) :
    LogTable Request where
  rows := t.rows.modify id (·.setKind update)
  nonneg := t.nonneg
  positive := by
    intro other stored found
    by_cases same : other = id
    · subst same
      rw [AutoIncrement.find_modify_self, Option.map_eq_some_iff] at found
      obtain ⟨old, found, _⟩ := found
      exact t.positive other old found
    · rw [t.rows.find_modify_of_ne same] at found
      exact t.positive other stored found

/-- The updates of a batch, one statement after the other. -/
def applyUpdates (t : LogTable Request) (updates : List (Int × RequestKindCanonicalUpdate)) :
    LogTable Request :=
  updates.foldl (fun t update => t.setKind update.1 update.2) t

/-- `SELECT COALESCE(MAX(id), 0)`. -/
def maxId (t : LogTable Request) : Int := ((t.rows.table.rows.map Prod.fst).max?).getD 0

/-- `SELECT ... WHERE id > ? AND id <= ? ORDER BY id ASC LIMIT ?`. -/
def selectBatch (t : LogTable Request) (cursor upperBound : Int) (limit : Nat) :
    List (Int × LogRow Request) :=
  ((t.rows.table.rows.filter fun row => cursor < row.1 ∧ row.1 ≤ upperBound).insertionSort
    fun a b => a.1 ≤ b.1).take limit

end LogTable

/-! ### Markers -/

inductive RequestKindCanonicalMigrationState where
  | running (heartbeatAt : Int) (ownerPid : Option Nat)
  | failed (failedAt : Int)
  | done (doneAt : Int)
deriving DecidableEq, Repr

/-- `as_meta_value`. -/
def RequestKindCanonicalMigrationState.asMetaValue : RequestKindCanonicalMigrationState → String
  | .running heartbeatAt (some ownerPid) =>
      "running:" ++ toString heartbeatAt ++ ":" ++ toString ownerPid
  | .running heartbeatAt none => "running:" ++ toString heartbeatAt
  | .failed failedAt => "failed:" ++ toString failedAt
  | .done doneAt => "done:" ++ toString doneAt

/-- `parse_request_kind_canonical_migration_state`. -/
def parseRequestKindCanonicalMigrationState (value : String) :
    Option RequestKindCanonicalMigrationState :=
  match splitAt ':' value with
  | kind :: timestamp :: rest =>
      (parseI64 timestamp).bind fun timestamp =>
        if kind = "running" then
          match rest with
          | [] => some (.running timestamp none)
          | [pid] => (parseU32 pid).map fun pid => .running timestamp (some pid)
          | _ => none
        else if kind = "failed" ∧ rest = [] then some (.failed timestamp)
        else if kind = "done" ∧ rest = [] then some (.done timestamp)
        else none
  | _ => none

def requestKindCanonicalMigrationStaleSecs : Int := 300

/-- `request_kind_canonical_migration_is_fresh`. -/
def requestKindCanonicalMigrationIsFresh (nowTs startedAt : Int) : Bool :=
  saturatingSub nowTs startedAt < requestKindCanonicalMigrationStaleSecs

/-- `request_kind_canonical_migration_state_blocks_reentry`. `live` tells the processes
that are there. -/
def requestKindCanonicalMigrationStateBlocksReentry (live : Nat → Bool) (nowTs : Int) :
    RequestKindCanonicalMigrationState → Option Int
  | .running heartbeatAt (some ownerPid) =>
      if requestKindCanonicalMigrationIsFresh nowTs heartbeatAt ∧ live ownerPid then
        some heartbeatAt
      else none
  | .running heartbeatAt none =>
      if requestKindCanonicalMigrationIsFresh nowTs heartbeatAt then some heartbeatAt else none
  | _ => none

/-- The meta rows of the migration, each as what it is read back as. -/
structure MigrationMeta where
  done : Option Int
  state : Option RequestKindCanonicalMigrationState
  upperBound : LogTableName → Option Int
  cursor : LogTableName → Option Int

/-- `RequestKindCanonicalBackfillUpperBounds`. -/
abbrev UpperBounds := LogTableName → Int

namespace MigrationMeta

def empty : MigrationMeta where
  done := none
  state := none
  upperBound := fun _ => none
  cursor := fun _ => none

/-- `read_request_kind_canonical_migration_status`. -/
def status (m : MigrationMeta) : Option RequestKindCanonicalMigrationState :=
  match m.done with
  | some doneAt => some (.done doneAt)
  | none => m.state

/-- `read_request_kind_canonical_backfill_upper_bounds`: both or none. -/
def upperBounds (m : MigrationMeta) : Option UpperBounds :=
  match m.upperBound .requestLogs, m.upperBound .authTokenLogs with
  | some requestLogs, some authTokenLogs =>
      some fun
        | .requestLogs => requestLogs
        | .authTokenLogs => authTokenLogs
  | _, _ => none

end MigrationMeta

/-- The log tables and the markers. -/
structure MigrationDb where
  tables : (name : LogTableName) → LogTable (LoggedRequest name)
  markers : MigrationMeta

namespace MigrationDb

/-- `capture_request_kind_canonical_backfill_upper_bounds_with_connection`. -/
def captureUpperBounds (db : MigrationDb) : UpperBounds := fun name => (db.tables name).maxId

/-- The bounds a claim writes: those of a run that did not finish, else the present ends of
the tables. -/
def claimUpperBounds (db : MigrationDb) : UpperBounds :=
  match db.markers.status with
  | some (.running _ _) | some (.failed _) =>
      db.markers.upperBounds.getD db.captureUpperBounds
  | _ => db.captureUpperBounds

end MigrationDb

inductive RequestKindCanonicalMigrationClaim where
  | claimed
  | runningElsewhere (heartbeatAt : Int)
  | alreadyDone (doneAt : Int)
deriving DecidableEq, Repr

/-- The reads of `try_claim_request_kind_canonical_migration_v1` before its transaction,
`none` where it goes on to claim. -/
def lookAtMigration (live : Nat → Bool) (nowTs : Int) (db : MigrationDb) :
    Option RequestKindCanonicalMigrationClaim :=
  match db.markers.status with
  | some (.done doneAt) => some (.alreadyDone doneAt)
  | some state =>
      (requestKindCanonicalMigrationStateBlocksReentry live nowTs state).map .runningElsewhere
  | none => none

/-- The transaction of `try_claim_request_kind_canonical_migration_v1`. -/
def tryClaimRequestKindCanonicalMigration (live : Nat → Bool) (nowTs : Int) (pid : Nat)
    (db : MigrationDb) : RequestKindCanonicalMigrationClaim × MigrationDb :=
  match lookAtMigration live nowTs db with
  | some (.alreadyDone doneAt) =>
      (.alreadyDone doneAt,
        { db with markers := { db.markers with done := some doneAt, state := some (.done doneAt) } })
  | some claim => (claim, db)
  | none =>
      (.claimed,
        { db with
          markers := { db.markers with
            upperBound := fun name => some (db.claimUpperBounds name)
            state := some (.running nowTs (some pid))
            done := none } })

/-- `finish_request_kind_canonical_migration_v1`. -/
def finishRequestKindCanonicalMigration (state : RequestKindCanonicalMigrationState)
    (db : MigrationDb) : MigrationDb :=
  match db.markers.done with
  | some doneAt => { db with markers := { db.markers with state := some (.done doneAt) } }
  | none =>
      match state with
      | .done doneAt =>
          { db with markers := { db.markers with done := some doneAt, state := some state } }
      | .running _ _ => db
      | .failed _ => { db with markers := { db.markers with state := some state } }

/-- `reset_request_kind_canonical_migration_v1_markers`. -/
def resetRequestKindCanonicalMigrationMarkers (db : MigrationDb) : MigrationDb :=
  { db with markers := .empty }

/-! ### Batches -/

def requestKindCanonicalBackfillBatchSize : Nat := 500

/-- A batch that was read: the updates of its rows and its last id. -/
structure Batch where
  updates : List (Int × RequestKindCanonicalUpdate)
  maxId : Int

/-- The next batch of a table after the cursor, `none` where no row is left. -/
def readBatch (json : SerdeJson) (db : MigrationDb) (name : LogTableName)
    (cursor upperBound : Int) : Option Batch :=
  let rows := (db.tables name).selectBatch cursor upperBound requestKindCanonicalBackfillBatchSize
  rows.getLast?.map fun last =>
    { updates := rows.filterMap fun row =>
        (buildRequestKindBackfillUpdate json name row.2).map fun update => (row.1, update)
      maxId := last.1 }

/-- The transaction of a batch: its updates, the cursor, and a heartbeat. -/
def commitBatch (pid : Nat) (nowTs : Int) (name : LogTableName) (batch : Batch)
    (db : MigrationDb) : MigrationDb where
  tables := Function.update db.tables name ((db.tables name).applyUpdates batch.updates)
  markers := { db.markers with
    cursor := Function.update db.markers.cursor name (some batch.maxId)
    state := some (.running nowTs (some pid)) }

/-! ### Processes -/

/-- Where a process is in `ensure_request_kind_canonical_migration_v1`. -/
inductive MigrationPhase where
  | idle
  | claiming (nowTs : Int)
  | claimed
  | opening (name : LogTableName) (bounds : UpperBounds)
  | scanning (name : LogTableName) (bounds : UpperBounds) (cursor : Int)
  | writing (name : LogTableName) (bounds : UpperBounds) (batch : Batch)
  | completed (bounds : UpperBounds)
  | failed

structure MigrationSystemState extends MigrationDb where
  phases : Nat → MigrationPhase

/-- `insert` is a request that is logged meanwhile, with the kind its writer gives it.
`crash` ends a process, or a call that returns an error before it has claimed. -/
inductive MigrationAction where
  | insert (name : LogTableName) (row : LogRow (LoggedRequest name))
  | look (pid : Nat) (nowTs : Int) (live : Nat → Bool)
  | claim (pid : Nat) (live : Nat → Bool)
  | readBounds (pid : Nat)
  | openTable (pid : Nat)
  | select (pid : Nat)
  | commit (pid : Nat) (nowTs : Int)
  | fail (pid : Nat)
  | finish (pid : Nat) (nowTs : Int)
  | crash (pid : Nat)
  | reset

/-- What follows the last batch of a table. -/
def afterTable (bounds : UpperBounds) : LogTableName → MigrationPhase
  | .requestLogs => .opening .authTokenLogs bounds
  | .authTokenLogs => .completed bounds

namespace MigrationSystemState

def setPhase (s : MigrationSystemState) (pid : Nat) (phase : MigrationPhase) :
    MigrationSystemState :=
  { s with phases := Function.update s.phases pid phase }

def setDb (s : MigrationSystemState) (db : MigrationDb) : MigrationSystemState :=
  { s with toMigrationDb := db }

end MigrationSystemState

/-- One step of the processes. -/
def migrationStep (json : SerdeJson) (s : MigrationSystemState) :
    MigrationAction → Option MigrationSystemState
  | .insert name row =>
      some (s.setDb { s.toMigrationDb with
        tables := Function.update s.tables name ((s.tables name).insert row) })
  | .look pid nowTs live =>
      match s.phases pid with
      | .idle =>
          match lookAtMigration live nowTs s.toMigrationDb with
          | some _ => some s
          | none => some (s.setPhase pid (.claiming nowTs))
      | _ => none
  | .claim pid live =>
      match s.phases pid with
      | .claiming nowTs =>
          match tryClaimRequestKindCanonicalMigration live nowTs pid s.toMigrationDb with
          | (.claimed, db) => some ((s.setDb db).setPhase pid .claimed)
          | (_, db) => some ((s.setDb db).setPhase pid .idle)
      | _ => none
  | .readBounds pid =>
      match s.phases pid with
      | .claimed =>
          match s.markers.upperBounds with
          | some bounds => some (s.setPhase pid (.opening .requestLogs bounds))
          | none => some (s.setPhase pid .idle)
      | _ => none
  | .openTable pid =>
      match s.phases pid with
      | .opening name bounds =>
          some (s.setPhase pid (.scanning name bounds ((s.markers.cursor name).getD 0)))
      | _ => none
  | .select pid =>
      match s.phases pid with
      | .scanning name bounds cursor =>
          match readBatch json s.toMigrationDb name cursor (bounds name) with
          | some batch => some (s.setPhase pid (.writing name bounds batch))
          | none => some (s.setPhase pid (afterTable bounds name))
      | _ => none
  | .commit pid nowTs =>
      match s.phases pid with
      | .writing name bounds batch =>
          some ((s.setDb (commitBatch pid nowTs name batch s.toMigrationDb)).setPhase pid
            (.scanning name bounds batch.maxId))
      | _ => none
  | .fail pid =>
      match s.phases pid with
      | .opening _ _ | .scanning _ _ _ | .writing _ _ _ => some (s.setPhase pid .failed)
      | _ => none
  | .finish pid nowTs =>
      match s.phases pid with
      | .completed _ =>
          some ((s.setDb (finishRequestKindCanonicalMigration (.done nowTs)
            s.toMigrationDb)).setPhase pid .idle)
      | .failed =>
          some ((s.setDb (finishRequestKindCanonicalMigration (.failed nowTs)
            s.toMigrationDb)).setPhase pid .idle)
      | _ => none
  | .crash pid => some (s.setPhase pid .idle)
  | .reset => some (s.setDb (resetRequestKindCanonicalMigrationMarkers s.toMigrationDb))

def migrationSystem (json : SerdeJson) : TransitionSystem MigrationSystemState MigrationAction where
  step := migrationStep json

/-- Any contents of the log tables, no marker yet, and no process at work. -/
def MigrationSystemState.initial (tables : (name : LogTableName) → LogTable (LoggedRequest name)) :
    MigrationSystemState where
  tables := tables
  markers := .empty
  phases := fun _ => .idle

end TavilyHikari.Store
