/-
Module: TavilyHikari.Store.KeyHealth
Purpose: The statuses and quarantines of API keys (`store/mod.rs`): the statements that
  change them, the changes with an audit record (`tavily_proxy/mod.rs`), the queries that
  lease a key, and all of them side by side, statement by statement.
Trusted boundary: human-reviewed spec (foreign and unique keys reject a statement)
Main exports: KeyDb, resetMonthly, markQuotaExhausted, restoreActiveStatus, insertQuarantine,
  addOrUndeleteKey, syncKeys, HealthCall, AcquireKind, keyHealthSystem
-/
import Mathlib.Logic.Function.Basic
import TavilyHikari.Library.Calendar
import TavilyHikari.Library.KeyedTable
import TavilyHikari.Library.TransitionSystem
import TavilyHikari.Library.Trim

namespace TavilyHikari.Store

open Library

/-! ### Tables -/

inductive KeyStatus where
  | active
  | exhausted
  | disabled
deriving DecidableEq, Repr

structure ApiKeyRow where
  apiKey : String
  groupName : Option String
  registrationIp : Option String
  registrationRegion : Option String
  status : KeyStatus
  createdAt : Int
  statusChangedAt : Option Int
  lastUsedAt : Int
  deletedAt : Option Int
deriving DecidableEq, Repr

structure ApiKeyQuarantine where
  keyId : String
  source : String
  reasonCode : String
  reasonSummary : String
  reasonDetail : String
  createdAt : Int
  clearedAt : Option Int
deriving DecidableEq, Repr

/-- A maintenance record of a change of a key's health. -/
structure KeyHealthRecord where
  keyId : String
  source : String
  operationCode : String
  operationSummary : String
  reasonCode : Option String
  reasonSummary : Option String
  reasonDetail : Option String
  authTokenId : Option String
  actorUserId : Option String
  actorDisplayName : Option String
  statusBefore : Option KeyStatus
  statusAfter : Option KeyStatus
  quarantineBefore : Bool
  quarantineAfter : Bool
  createdAt : Int
deriving DecidableEq, Repr

/-- The tables that hold the health of the keys. -/
structure KeyDb where
  apiKeys : KeyedTable String ApiKeyRow
  apiKeyQuarantines : KeyedTable String ApiKeyQuarantine
  maintenanceRecords : List KeyHealthRecord
  authTokens : List String

structure ApiKeyLease where
  id : String
  secret : String
deriving DecidableEq, Repr

namespace KeyDb

/-- The key has a quarantine that is not cleared. -/
def quarantined (db : KeyDb) (keyId : String) : Bool :=
  db.apiKeyQuarantines.existsWhere fun _ row => row.keyId = keyId && row.clearedAt.isNone

/-- `UPDATE api_keys SET f WHERE p`, and whether it affects a row. -/
def updateKeys (db : KeyDb) (p : String → ApiKeyRow → Bool) (f : ApiKeyRow → ApiKeyRow) :
    Bool × KeyDb :=
  (db.apiKeys.existsWhere p, { db with apiKeys := db.apiKeys.updateWhere p f })

/-- `SELECT ... FROM api_keys WHERE api_key = ?`. -/
def findBySecret (db : KeyDb) (secret : String) : Option (String × ApiKeyRow) :=
  db.apiKeys.rows.find? fun row => row.2.apiKey = secret

end KeyDb

/-! ### Status -/

def resetMonthly (now : Int) (db : KeyDb) : KeyDb :=
  let monthStart := startOfMonthTs now
  (db.updateKeys
    (fun _ row => row.status = .exhausted && row.statusChangedAt.any fun at' => at' < monthStart)
    fun row => { row with status := .active, statusChangedAt := some now }).2

def markQuotaExhausted (now : Int) (secret : String) (db : KeyDb) : Bool × KeyDb :=
  db.updateKeys
    (fun _ row => row.apiKey = secret && !(row.status = .disabled || row.status = .exhausted) &&
      row.deletedAt.isNone)
    fun row => { row with
      status := .exhausted, statusChangedAt := some now, lastUsedAt := now }

def restoreActiveStatus (now : Int) (secret : String) (db : KeyDb) : Bool × KeyDb :=
  db.updateKeys
    (fun _ row => row.apiKey = secret && row.status = .exhausted && row.deletedAt.isNone)
    fun row => { row with status := .active, statusChangedAt := some now }

def disableKeyById (now : Int) (keyId : String) (db : KeyDb) : KeyDb :=
  (db.updateKeys (fun id row => id = keyId && row.deletedAt.isNone)
    fun row => { row with status := .disabled, statusChangedAt := some now }).2

def enableKeyById (now : Int) (keyId : String) (db : KeyDb) : KeyDb :=
  (db.updateKeys
    (fun id row => id = keyId && (row.status = .disabled || row.status = .exhausted) &&
      row.deletedAt.isNone)
    fun row => { row with status := .active, statusChangedAt := some now }).2

def softDeleteKeyById (now : Int) (keyId : String) (db : KeyDb) : KeyDb :=
  (db.updateKeys (fun id _ => id = keyId) fun row => { row with deletedAt := some now }).2

def touchKey (secret : String) (timestamp : Int) (db : KeyDb) : KeyDb :=
  (db.updateKeys (fun _ row => row.apiKey = secret)
    fun row => { row with lastUsedAt := timestamp }).2

/-! ### Quarantine -/

structure QuarantineDecision where
  reasonCode : String
  reasonSummary : String
  reasonDetail : String
deriving DecidableEq, Repr

/-- The INSERT of `quarantine_key_by_id`, and whether it inserts a row. A row that is open
already wins over the new one; `none` where the database rejects the statement. -/
def insertQuarantine (now : Int) (quarantineId keyId source : String)
    (decision : QuarantineDecision) (db : KeyDb) : Option (Bool × KeyDb) :=
  if db.quarantined keyId then some (false, db)
  else if (db.apiKeys.find keyId).isNone ∨ (db.apiKeyQuarantines.find quarantineId).isSome then none
  else
    let row : ApiKeyQuarantine :=
      { keyId, source, reasonCode := decision.reasonCode, reasonSummary := decision.reasonSummary,
        reasonDetail := decision.reasonDetail, createdAt := now, clearedAt := none }
    some (true, { db with
      apiKeyQuarantines := db.apiKeyQuarantines.upsert quarantineId row fun _ => row })

/-- The UPDATE of `quarantine_key_by_id`, where the key has an open quarantine. -/
def updateOpenQuarantine (keyId source : String) (decision : QuarantineDecision) (db : KeyDb) :
    KeyDb :=
  { db with
    apiKeyQuarantines := db.apiKeyQuarantines.updateWhere
      (fun _ row => row.keyId = keyId && row.clearedAt.isNone)
      fun row => { row with source, reasonCode := decision.reasonCode,
                            reasonSummary := decision.reasonSummary,
                            reasonDetail := decision.reasonDetail } }

def clearKeyQuarantineById (now : Int) (keyId : String) (db : KeyDb) : Bool × KeyDb :=
  (db.quarantined keyId, { db with
    apiKeyQuarantines := db.apiKeyQuarantines.updateWhere
      (fun _ row => row.keyId = keyId && row.clearedAt.isNone)
      fun row => { row with clearedAt := some now } })

/-! ### Adding keys -/

/-- `generate_unique_key_id`: the first of the random candidates that no key has. -/
def generateUniqueKeyId (db : KeyDb) : List String → Option (String × List String)
  | [] => none
  | candidate :: rest =>
      if (db.apiKeys.find candidate).isNone then some (candidate, rest)
      else generateUniqueKeyId db rest

def insertKey (id : String) (row : ApiKeyRow) (db : KeyDb) : KeyDb :=
  { db with apiKeys := db.apiKeys.upsert id row fun _ => row }

/-- `add_or_undelete_key_with_status_in_group_and_registration`, without the proxies of the
key. A transaction that fails is rolled back and leaves no trace. -/
def addOrUndeleteKey (now : Int) (candidates : List String) (secret : String)
    (group registrationIp registrationRegion : Option String) (db : KeyDb) : Option KeyDb :=
  let group := trimmedNonEmpty group
  let registrationIp := trimmedNonEmpty registrationIp
  let registrationRegion := trimmedNonEmpty registrationRegion
  match db.findBySecret secret with
  | some (id, existing) =>
      let existingEmpty := (trimmedNonEmpty existing.groupName).isNone
      let refreshRegistration := registrationIp.isSome || registrationRegion.isSome
      some { db with
        apiKeys := db.apiKeys.modify id fun row => { row with
          deletedAt := none
          groupName := if group.isSome ∧ existingEmpty then group else row.groupName
          registrationIp := if refreshRegistration then registrationIp else row.registrationIp
          registrationRegion :=
            if refreshRegistration then registrationRegion else row.registrationRegion } }
  | none =>
      (generateUniqueKeyId db candidates).map fun (id, _) =>
        insertKey id
          { apiKey := secret, groupName := group, registrationIp, registrationRegion,
            status := .active, createdAt := now, statusChangedAt := some now, lastUsedAt := 0,
            deletedAt := none } db

/-- The loop of `sync_keys` over the keys that are to be there. -/
def syncPresentKeys (now : Int) : List String → List String → KeyDb → Option KeyDb
  | [], _, db => some db
  | key :: keys, candidates, db =>
      match db.findBySecret key with
      | some (id, _) =>
          syncPresentKeys now keys candidates
            { db with apiKeys := db.apiKeys.modify id fun row => { row with deletedAt := none } }
      | none =>
          match generateUniqueKeyId db candidates with
          | none => none
          | some (id, candidates) =>
              syncPresentKeys now keys candidates
                (insertKey id
                  { apiKey := key, groupName := none, registrationIp := none,
                    registrationRegion := none, status := .active, createdAt := now,
                    statusChangedAt := some now, lastUsedAt := 0, deletedAt := none } db)

/-- `sync_keys`. -/
def syncKeys (now : Int) (candidates keys : List String) (db : KeyDb) : Option KeyDb :=
  (syncPresentKeys now keys candidates db).map fun db =>
    (db.updateKeys (fun _ row => row.deletedAt.isNone && row.apiKey ∉ keys)
      fun row => { row with deletedAt := some now }).2

/-! ### Changes with an audit record -/

inductive HealthChange where
  | restoreActiveStatus (secret : String)
  | markQuotaExhausted (secret : String)
  | quarantineKeyById (source : String) (decision : QuarantineDecision)
  | clearKeyQuarantineById
deriving DecidableEq, Repr

structure KeyEffect where
  code : String
  summary : Option String
deriving DecidableEq, Repr

def KeyEffect.none : KeyEffect := { code := "none", summary := .none }

/-- Who asked for a manual change. -/
structure MaintenanceActor where
  authTokenId : Option String
  actorUserId : Option String
  actorDisplayName : Option String
deriving DecidableEq, Repr

/-- A change of a key's health, with what its record says and its effect. -/
structure HealthCall where
  keyId : String
  change : HealthChange
  recordSource : String
  operationCode : String
  operationSummary : String
  reasonCode : Option String
  reasonSummary : Option String
  reasonDetail : Option String
  actor : MaintenanceActor
  effect : KeyEffect
deriving DecidableEq, Repr

inductive KeyHealthAction where
  | none
  | markExhausted
  | quarantine (decision : QuarantineDecision)
deriving DecidableEq, Repr

/-- The actor of a change that the system makes. -/
def systemActor (authTokenId : Option String) : MaintenanceActor where
  authTokenId := authTokenId
  actorUserId := none
  actorDisplayName := none

/-- `reconcile_key_health`, up to its first statement: the change it makes, if any. -/
def reconcileKeyHealth (lease : ApiKeyLease) (source : String) (succeeded : Bool)
    (authTokenId : Option String) : KeyHealthAction → Option HealthCall
  | .none =>
      if succeeded then
        some {
          keyId := lease.id
          change := .restoreActiveStatus lease.secret
          recordSource := "system"
          operationCode := "auto_restore_active"
          operationSummary := "自动恢复为 active"
          reasonCode := .none
          reasonSummary := some "成功请求触发从 exhausted 恢复"
          reasonDetail := some ("source=" ++ source)
          actor := systemActor authTokenId
          effect :=
            { code := "restored_active"
              summary := some "The system automatically restored this exhausted key to active" } }
      else .none
  | .markExhausted =>
      some {
        keyId := lease.id
        change := .markQuotaExhausted lease.secret
        recordSource := "system"
        operationCode := "auto_mark_exhausted"
        operationSummary := "自动标记为 exhausted"
        reasonCode := some "quota_exhausted"
        reasonSummary := some "上游额度耗尽"
        reasonDetail := some ("source=" ++ source)
        actor := systemActor authTokenId
        effect :=
          { code := "marked_exhausted"
            summary := some "The system automatically marked this key as exhausted" } }
  | .quarantine decision =>
      some {
        keyId := lease.id
        change := .quarantineKeyById source decision
        recordSource := "system"
        operationCode := "auto_quarantine"
        operationSummary := "自动隔离 Key"
        reasonCode := some decision.reasonCode
        reasonSummary := some decision.reasonSummary
        reasonDetail := some decision.reasonDetail
        actor := systemActor authTokenId
        effect :=
          { code := "quarantined"
            summary := some "The system automatically quarantined this key" } }

/-- `maybe_quarantine_usage_error`, once the error is classified. -/
def quarantineUsageError (keyId source : String) (decision : QuarantineDecision) : HealthCall where
  keyId := keyId
  change := .quarantineKeyById source decision
  recordSource := "system"
  operationCode := "auto_quarantine"
  operationSummary := "自动隔离 Key"
  reasonCode := some decision.reasonCode
  reasonSummary := some decision.reasonSummary
  reasonDetail := some decision.reasonDetail
  actor := systemActor none
  effect := .none

/-- `clear_key_quarantine_by_id_with_actor`. -/
def clearKeyQuarantineByIdWithActor (keyId : String) (actor : MaintenanceActor) : HealthCall where
  keyId := keyId
  change := .clearKeyQuarantineById
  recordSource := "admin"
  operationCode := "manual_clear_quarantine"
  operationSummary := "管理员手动解除隔离"
  reasonCode := none
  reasonSummary := some "管理员解除当前 quarantine"
  reasonDetail := none
  actor := actor
  effect := .none

/-- `mark_key_quota_exhausted_by_secret_with_actor`, once the key is found. -/
def markKeyQuotaExhaustedBySecretWithActor (keyId secret : String) (actor : MaintenanceActor) :
    HealthCall where
  keyId := keyId
  change := .markQuotaExhausted secret
  recordSource := "admin"
  operationCode := "manual_mark_exhausted"
  operationSummary := "管理员手动标记 exhausted"
  reasonCode := some "manual_mark_exhausted"
  reasonSummary := some "确认该 Key 额度耗尽"
  reasonDetail := none
  actor := actor
  effect := .none

structure KeyStateSnapshot where
  status : Option KeyStatus
  quarantined : Bool
deriving DecidableEq, Repr

/-- The first SELECT of `fetch_key_state_snapshot`. -/
def snapshotStatus (db : KeyDb) (keyId : String) : Option KeyStatus :=
  ((db.apiKeys.find keyId).filter fun row => row.deletedAt.isNone).map ApiKeyRow.status

/-- `insert_api_key_maintenance_record`. -/
def insertHealthRecord (record : KeyHealthRecord) (db : KeyDb) : Option KeyDb :=
  if (db.apiKeys.find record.keyId).isSome then
    some { db with
      maintenanceRecords := db.maintenanceRecords ++
        [{ record with authTokenId := record.authTokenId.filter fun id => id ∈ db.authTokens }] }
  else none

/-- The statement that makes the change, and whether it affects a row. -/
def changeStatement (now : Int) (quarantineId : String) (call : HealthCall) (db : KeyDb) :
    Option (Bool × KeyDb) :=
  match call.change with
  | .restoreActiveStatus secret => some (restoreActiveStatus now secret db)
  | .markQuotaExhausted secret => some (markQuotaExhausted now secret db)
  | .quarantineKeyById source decision =>
      insertQuarantine now quarantineId call.keyId source decision db
  | .clearKeyQuarantineById => some (clearKeyQuarantineById now call.keyId db)

/-- Where a change is, between its statements. -/
inductive HealthPhase where
  | idle
  | started (call : HealthCall)
  | gotStatus (call : HealthCall) (status : Option KeyStatus)
  | gotSnapshot (call : HealthCall) (before : KeyStateSnapshot)
  | alreadyQuarantined (call : HealthCall) (source : String) (decision : QuarantineDecision)
  | changed (call : HealthCall) (before : KeyStateSnapshot)
  | gotStatusAfter (call : HealthCall) (before : KeyStateSnapshot) (status : Option KeyStatus)
  | gotSnapshotAfter (call : HealthCall) (before after : KeyStateSnapshot)
deriving DecidableEq, Repr

/-- The next statement of a change: its effect once it has returned, and the database. -/
def healthStep (now : Int) (quarantineId : String) (db : KeyDb) :
    HealthPhase → Option (HealthPhase × Option KeyEffect × KeyDb)
  | .idle => none
  | .started call => some (.gotStatus call (snapshotStatus db call.keyId), none, db)
  | .gotStatus call status =>
      some (.gotSnapshot call { status, quarantined := db.quarantined call.keyId }, none, db)
  | .gotSnapshot call before =>
      match changeStatement now quarantineId call db with
      | none => some (.idle, none, db)
      | some (true, db) => some (.changed call before, none, db)
      | some (false, db) =>
          match call.change with
          | .quarantineKeyById source decision =>
              some (.alreadyQuarantined call source decision, none, db)
          | _ => some (.idle, some .none, db)
  | .alreadyQuarantined call source decision =>
      some (.idle, some .none, updateOpenQuarantine call.keyId source decision db)
  | .changed call before =>
      some (.gotStatusAfter call before (snapshotStatus db call.keyId), none, db)
  | .gotStatusAfter call before status =>
      some (.gotSnapshotAfter call before
        { status, quarantined := db.quarantined call.keyId }, none, db)
  | .gotSnapshotAfter call before after =>
      let record : KeyHealthRecord :=
        { keyId := call.keyId, source := call.recordSource, operationCode := call.operationCode,
          operationSummary := call.operationSummary, reasonCode := call.reasonCode,
          reasonSummary := call.reasonSummary, reasonDetail := call.reasonDetail,
          authTokenId := call.actor.authTokenId, actorUserId := call.actor.actorUserId,
          actorDisplayName := call.actor.actorDisplayName, statusBefore := before.status,
          statusAfter := after.status, quarantineBefore := before.quarantined,
          quarantineAfter := after.quarantined, createdAt := now }
      match insertHealthRecord record db with
      | some db => some (.idle, some call.effect, db)
      | none => some (.idle, none, db)

/-! ### Leasing a key -/

/-- The three ways to lease a key. -/
inductive AcquireKind where
  | acquireKey
  | acquireActiveKeyExcluding (excludedKeyId : Option String)
  | tryAcquireSpecificKey (keyId : String)
deriving DecidableEq, Repr

/-- The condition on the id of the key. -/
def AcquireKind.allows : AcquireKind → String → Bool
  | .acquireKey, _ => true
  | .acquireActiveKeyExcluding excludedKeyId, id => excludedKeyId ≠ some id
  | .tryAcquireSpecificKey keyId, id => id = keyId

/-- `ORDER BY last_used_at ASC, id ASC`. -/
def leastRecentlyUsed (a b : String × ApiKeyRow) : Prop :=
  a.2.lastUsedAt < b.2.lastUsedAt ∨ a.2.lastUsedAt = b.2.lastUsedAt ∧ a.1 ≤ b.1

instance : DecidableRel leastRecentlyUsed := fun _ _ => by
  unfold leastRecentlyUsed
  infer_instance

/-- `ORDER BY CASE WHEN status_changed_at IS NULL THEN 1 ELSE 0 END ASC,
status_changed_at ASC, id ASC`. -/
def longestExhausted (a b : String × ApiKeyRow) : Prop :=
  match a.2.statusChangedAt, b.2.statusChangedAt with
  | some x, some y => x < y ∨ x = y ∧ a.1 ≤ b.1
  | some _, none => True
  | none, some _ => False
  | none, none => a.1 ≤ b.1

instance : DecidableRel longestExhausted := fun a b => by
  unfold longestExhausted
  split <;> infer_instance

/-- The WHERE clause of the SELECTs. -/
def KeyDb.eligible (db : KeyDb) (kind : AcquireKind) (status : KeyStatus) (id : String)
    (row : ApiKeyRow) : Bool :=
  kind.allows id && row.status = status && row.deletedAt.isNone && !db.quarantined id

/-- The key that a SELECT finds, as a lease. -/
def leaseOf (found : Option (String × ApiKeyRow)) : Option ApiKeyLease :=
  found.map fun (id, row) => { id, secret := row.apiKey }

def selectActiveKey (kind : AcquireKind) (db : KeyDb) : Option ApiKeyLease :=
  leaseOf (db.apiKeys.firstWhere (db.eligible kind .active) leastRecentlyUsed)

def selectExhaustedKey (kind : AcquireKind) (db : KeyDb) : Option ApiKeyLease :=
  leaseOf (db.apiKeys.firstWhere (db.eligible kind .exhausted) longestExhausted)

/-- A lease, with the states that the SELECT for an active key and the SELECT that found the
key have read. -/
structure LeasedKey where
  kind : AcquireKind
  lease : ApiKeyLease
  activeRead : KeyDb
  readFrom : KeyDb

inductive AcquirePhase where
  | idle
  | started (kind : AcquireKind)
  | monthReset (kind : AcquireKind)
  | noActive (kind : AcquireKind) (now : Int) (activeRead : KeyDb)
  | selected (now : Int) (leased : LeasedKey)

/-- The next statement of a call that leases a key: the lease once it has returned, and the
database. Where no key is found the call returns `NoAvailableKeys`, or `None` if it was for
one key. -/
def acquireStep (now : Int) (db : KeyDb) :
    AcquirePhase → Option (AcquirePhase × Option LeasedKey × KeyDb)
  | .idle => none
  | .started kind => some (.monthReset kind, none, resetMonthly now db)
  | .monthReset kind =>
      match selectActiveKey kind db with
      | some lease =>
          some (.selected now { kind, lease, activeRead := db, readFrom := db }, none, db)
      | none => some (.noActive kind now db, none, db)
  | .noActive kind calledAt activeRead =>
      match selectExhaustedKey kind db with
      | some lease => some (.selected calledAt { kind, lease, activeRead, readFrom := db }, none, db)
      | none => some (.idle, none, db)
  | .selected calledAt leased =>
      some (.idle, some leased, touchKey leased.lease.secret calledAt db)

/-! ### The transition system -/

structure KeyHealthState where
  db : KeyDb
  health : Nat → HealthPhase
  acquires : Nat → AcquirePhase
  effects : List KeyEffect
  leases : List LeasedKey

/-- The steps. Every statement comes with the time that its clock read. -/
inductive KeyHealthStep where
  | startHealth (task : Nat) (call : HealthCall)
  | healthStatement (task : Nat) (now : Int) (quarantineId : String)
  | abandonHealth (task : Nat)
  | startAcquire (task : Nat) (kind : AcquireKind)
  | acquireStatement (task : Nat) (now : Int)
  | abandonAcquire (task : Nat)
  | resetMonthly (now : Int)
  | enableKeyById (now : Int) (keyId : String)
  | disableKeyById (now : Int) (keyId : String)
  | softDeleteKeyById (now : Int) (keyId : String)
  | addOrUndeleteKey (now : Int) (candidates : List String) (secret : String)
      (group registrationIp registrationRegion : Option String)
  | syncKeys (now : Int) (candidates keys : List String)
deriving DecidableEq, Repr

namespace KeyHealthState

def initial (db : KeyDb) : KeyHealthState where
  db := db
  health := fun _ => .idle
  acquires := fun _ => .idle
  effects := []
  leases := []

end KeyHealthState

def keyHealthStep (s : KeyHealthState) : KeyHealthStep → Option KeyHealthState
  | .startHealth task call =>
      match s.health task with
      | .idle => some { s with health := Function.update s.health task (.started call) }
      | _ => none
  | .healthStatement task now quarantineId =>
      (healthStep now quarantineId s.db (s.health task)).map fun (phase, effect, db) =>
        { s with
          db
          health := Function.update s.health task phase
          effects := s.effects ++ effect.toList }
  | .abandonHealth task => some { s with health := Function.update s.health task .idle }
  | .startAcquire task kind =>
      match s.acquires task with
      | .idle => some { s with acquires := Function.update s.acquires task (.started kind) }
      | _ => none
  | .acquireStatement task now =>
      (acquireStep now s.db (s.acquires task)).map fun (phase, leased, db) =>
        { s with
          db
          acquires := Function.update s.acquires task phase
          leases := s.leases ++ leased.toList }
  | .abandonAcquire task => some { s with acquires := Function.update s.acquires task .idle }
  | .resetMonthly now => some { s with db := resetMonthly now s.db }
  | .enableKeyById now keyId => some { s with db := enableKeyById now keyId s.db }
  | .disableKeyById now keyId => some { s with db := disableKeyById now keyId s.db }
  | .softDeleteKeyById now keyId => some { s with db := softDeleteKeyById now keyId s.db }
  | .addOrUndeleteKey now candidates secret group registrationIp registrationRegion =>
      (addOrUndeleteKey now candidates secret group registrationIp registrationRegion s.db).map
        fun db => { s with db }
  | .syncKeys now candidates keys =>
      (syncKeys now candidates keys s.db).map fun db => { s with db }

def keyHealthSystem : TransitionSystem KeyHealthState KeyHealthStep where
  step := keyHealthStep

end TavilyHikari.Store
