/-
Module: TavilyHikari.Store.HealthTrail
Purpose: The key health system with a memory of its calls: the databases that the statements of
  a call have met, the change that it has made and the records that it has written.
Trusted boundary: human-reviewed spec
Main exports: CallTrail, TrailState, healthTrailSystem, OneRecord, Truthful, Undisturbed
-/
import TavilyHikari.Store.KeyHealth

namespace TavilyHikari.Store

open Library

/-- `fetch_key_state_snapshot`, run without anybody else in between. -/
def keySnapshot (db : KeyDb) (keyId : String) : KeyStateSnapshot where
  status := snapshotStatus db keyId
  quarantined := db.quarantined keyId

/-- The two states that a record tells of. -/
def KeyHealthRecord.states (record : KeyHealthRecord) : KeyStateSnapshot × KeyStateSnapshot :=
  ({ status := record.statusBefore, quarantined := record.quarantineBefore },
    { status := record.statusAfter, quarantined := record.quarantineAfter })

/-- What a call has met and done so far. -/
structure CallTrail where
  call : HealthCall
  /-- What the first and the second statement have read from. -/
  statusRead : Option KeyDb
  quarantineRead : Option KeyDb
  /-- The database around the guarded statement, where it has affected a row. -/
  change : Option (KeyDb × KeyDb)
  /-- What the last two statements before the record have read from. -/
  statusReread : Option KeyDb
  quarantineReread : Option KeyDb
  records : List KeyHealthRecord

namespace CallTrail

def started (call : HealthCall) : CallTrail where
  call := call
  statusRead := none
  quarantineRead := none
  change := none
  statusReread := none
  quarantineReread := none
  records := []

/-- The change that the guarded statement makes on a database. -/
def changeOn (now : Int) (quarantineId : String) (call : HealthCall) (db : KeyDb) :
    Option (KeyDb × KeyDb) :=
  match changeStatement now quarantineId call db with
  | some (true, db') => some (db, db')
  | _ => none

/-- The trail after a statement that takes the database from `db` to `db'`. -/
def observe (now : Int) (quarantineId : String) (db db' : KeyDb) (trail : CallTrail)
    (phase : HealthPhase) : CallTrail :=
  let trail :=
    { trail with
      records := trail.records ++ db'.maintenanceRecords.drop db.maintenanceRecords.length }
  match phase with
  | .started _ => { trail with statusRead := some db }
  | .gotStatus _ _ => { trail with quarantineRead := some db }
  | .gotSnapshot call _ => { trail with change := changeOn now quarantineId call db }
  | .changed _ _ => { trail with statusReread := some db }
  | .gotStatusAfter _ _ _ => { trail with quarantineReread := some db }
  | _ => trail

/-- The call has written one record of its key if its guarded statement has changed the key, and
none otherwise. -/
def OneRecord (trail : CallTrail) : Prop :=
  trail.records.map KeyHealthRecord.keyId = (trail.change.map fun _ => trail.call.keyId).toList

/-- And the record tells the states of the key right before and right after the change. -/
def Truthful (trail : CallTrail) : Prop :=
  trail.records.map KeyHealthRecord.states =
    (trail.change.map fun (before, after) =>
      (keySnapshot before trail.call.keyId, keySnapshot after trail.call.keyId)).toList

instance (trail : CallTrail) : Decidable trail.Truthful :=
  inferInstanceAs (Decidable (_ = _))

/-- What the others have done to the key between the reads and the change, and between the change
and the second reads, has left it as it was. -/
structure Still (trail : CallTrail) (before after : KeyDb) : Prop where
  status : trail.statusRead.map (snapshotStatus · trail.call.keyId) =
    some (snapshotStatus before trail.call.keyId)
  quarantine : trail.quarantineRead.map (KeyDb.quarantined · trail.call.keyId) =
    some (before.quarantined trail.call.keyId)
  statusAfter : trail.statusReread.map (snapshotStatus · trail.call.keyId) =
    some (snapshotStatus after trail.call.keyId)
  quarantineAfter : trail.quarantineReread.map (KeyDb.quarantined · trail.call.keyId) =
    some (after.quarantined trail.call.keyId)

/-- Nobody has disturbed the call around its change, if it has made one. -/
def Undisturbed (trail : CallTrail) : Prop :=
  ∀ before after, trail.change = some (before, after) → trail.Still before after

end CallTrail

/-! ### The transition system -/

/-- The key health system, the trails of the calls that are under way, and the trails of those
that have returned without an error. -/
structure TrailState where
  keys : KeyHealthState
  trails : Nat → Option CallTrail
  returned : List CallTrail

namespace TrailState

def initial (db : KeyDb) : TrailState where
  keys := .initial db
  trails := fun _ => none
  returned := []

/-- A step of the key health system, with what the trails remember of it. A call has returned
where the step adds its effect. -/
def step (s : TrailState) (action : KeyHealthStep) : Option TrailState :=
  (keyHealthStep s.keys action).map fun keys =>
    match action with
    | .startHealth task call =>
        { s with keys, trails := Function.update s.trails task (some (.started call)) }
    | .healthStatement task now quarantineId =>
        let trail := (s.trails task).map fun trail =>
          trail.observe now quarantineId s.keys.db keys.db (s.keys.health task)
        if s.keys.effects.length < keys.effects.length then
          { keys
            trails := Function.update s.trails task none
            returned := s.returned ++ trail.toList }
        else { s with keys, trails := Function.update s.trails task trail }
    | _ => { s with keys }

end TrailState

def healthTrailSystem : TransitionSystem TrailState KeyHealthStep where
  step := TrailState.step

/-! ### Steps that disturb nobody -/

/-- A step from `db` to `db'` leaves alone what a call in this phase has read and goes on to
change or to read again. -/
def HealthPhase.HoldsStill (db db' : KeyDb) : HealthPhase → Prop
  | .gotStatus call _ => snapshotStatus db' call.keyId = snapshotStatus db call.keyId
  | .gotSnapshot call _ => keySnapshot db' call.keyId = keySnapshot db call.keyId
  | .changed call _ => keySnapshot db' call.keyId = keySnapshot db call.keyId
  | .gotStatusAfter call _ _ => db'.quarantined call.keyId = db.quarantined call.keyId
  | _ => True

/-- The step leaves the key of every other call alone, as long as that call looks at it. -/
def LeavesOthersAlone (s : TrailState) (action : KeyHealthStep) : Prop :=
  ∀ keys, keyHealthStep s.keys action = some keys →
    ∀ task, (∀ now quarantineId, action ≠ .healthStatement task now quarantineId) →
      (s.keys.health task).HoldsStill s.keys.db keys.db

end TavilyHikari.Store
