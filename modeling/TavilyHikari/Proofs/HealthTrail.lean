/-
Module: TavilyHikari.Proofs.HealthTrail
Purpose: The maintenance trail of the key health: a call that returns has written one record if
  it has changed its key and none otherwise, and the record is true exactly where nobody has
  disturbed the call between its reads and its change.
Trusted boundary: none
Main exports: Follows, TrailSound, maintenanceTrail_truthful_iff
-/
import TavilyHikari.Store.HealthTrail

namespace TavilyHikari.Store

open Library

/-! ### What a call knows in a phase -/

/-- The trail of a call in a phase: what it holds of the key it has read from the databases that
the trail names, and it has written nothing yet. -/
inductive Follows : HealthPhase → CallTrail → Prop where
  | started (call : HealthCall) : Follows (.started call) (.started call)
  | gotStatus (call : HealthCall) (read : KeyDb) :
      Follows (.gotStatus call (snapshotStatus read call.keyId))
        { CallTrail.started call with statusRead := some read }
  | gotSnapshot (call : HealthCall) (read read' : KeyDb) :
      Follows
        (.gotSnapshot call
          { status := snapshotStatus read call.keyId
            quarantined := read'.quarantined call.keyId })
        { CallTrail.started call with statusRead := some read, quarantineRead := some read' }
  | alreadyQuarantined (call : HealthCall) (source : String) (decision : QuarantineDecision)
      (read read' : KeyDb) :
      Follows (.alreadyQuarantined call source decision)
        { CallTrail.started call with statusRead := some read, quarantineRead := some read' }
  | changed (call : HealthCall) (read read' before after : KeyDb) :
      Follows
        (.changed call
          { status := snapshotStatus read call.keyId
            quarantined := read'.quarantined call.keyId })
        { CallTrail.started call with
          statusRead := some read, quarantineRead := some read', change := some (before, after) }
  | gotStatusAfter (call : HealthCall) (read read' before after reread : KeyDb) :
      Follows
        (.gotStatusAfter call
          { status := snapshotStatus read call.keyId
            quarantined := read'.quarantined call.keyId }
          (snapshotStatus reread call.keyId))
        { CallTrail.started call with
          statusRead := some read, quarantineRead := some read', change := some (before, after)
          statusReread := some reread }
  | gotSnapshotAfter (call : HealthCall) (read read' before after reread reread' : KeyDb) :
      Follows
        (.gotSnapshotAfter call
          { status := snapshotStatus read call.keyId
            quarantined := read'.quarantined call.keyId }
          { status := snapshotStatus reread call.keyId
            quarantined := reread'.quarantined call.keyId })
        { CallTrail.started call with
          statusRead := some read, quarantineRead := some read', change := some (before, after)
          statusReread := some reread, quarantineReread := some reread' }

/-- What a call that has returned leaves behind. -/
structure Told (trail : CallTrail) : Prop where
  oneRecord : trail.OneRecord
  truthful_iff : trail.Truthful ↔ trail.Undisturbed

/-- A call that has changed nothing and written nothing tells no untruth. -/
theorem Told.of_nothing {trail : CallTrail} (unchanged : trail.change = none)
    (unwritten : trail.records = []) : Told trail := by
  constructor
  · unfold CallTrail.OneRecord
    rw [unchanged, unwritten]
    rfl
  · constructor
    · intro _ before after changed
      rw [unchanged] at changed
      cases changed
    · intro _
      unfold CallTrail.Truthful
      rw [unchanged, unwritten]
      rfl

/-- The one record of a call that has changed its key. -/
theorem Told.of_record {trail : CallTrail} {read read' before after reread reread' : KeyDb}
    {record : KeyHealthRecord} (statusRead : trail.statusRead = some read)
    (quarantineRead : trail.quarantineRead = some read')
    (change : trail.change = some (before, after))
    (statusReread : trail.statusReread = some reread)
    (quarantineReread : trail.quarantineReread = some reread')
    (records : trail.records = [record]) (keyId : record.keyId = trail.call.keyId)
    (states : record.states =
      ({ status := snapshotStatus read trail.call.keyId
         quarantined := read'.quarantined trail.call.keyId },
        { status := snapshotStatus reread trail.call.keyId
          quarantined := reread'.quarantined trail.call.keyId })) : Told trail := by
  constructor
  · unfold CallTrail.OneRecord
    rw [records, change, List.map_singleton, keyId]
    rfl
  · unfold CallTrail.Truthful CallTrail.Undisturbed
    rw [records, change, List.map_singleton, states]
    simp only [Option.map_some, Option.toList_some, List.cons.injEq, and_true, Prod.mk.injEq,
      keySnapshot, KeyStateSnapshot.mk.injEq]
    constructor
    · intro same before' after' changed
      cases changed
      obtain ⟨⟨status, quarantine⟩, statusAfter, quarantineAfter⟩ := same
      constructor
      · rw [statusRead, Option.map_some, status]
      · rw [quarantineRead, Option.map_some, quarantine]
      · rw [statusReread, Option.map_some, statusAfter]
      · rw [quarantineReread, Option.map_some, quarantineAfter]
    · intro still
      obtain ⟨status, quarantine, statusAfter, quarantineAfter⟩ := still before after rfl
      rw [statusRead, Option.map_some, Option.some.injEq] at status
      rw [quarantineRead, Option.map_some, Option.some.injEq] at quarantine
      rw [statusReread, Option.map_some, Option.some.injEq] at statusAfter
      rw [quarantineReread, Option.map_some, Option.some.injEq] at quarantineAfter
      exact ⟨⟨status, quarantine⟩, statusAfter, quarantineAfter⟩

/-! ### The statements of a call -/

theorem changeStatement_records {now : Int} {quarantineId : String} {call : HealthCall}
    {db db' : KeyDb} {changed : Bool}
    (ran : changeStatement now quarantineId call db = some (changed, db')) :
    db'.maintenanceRecords = db.maintenanceRecords := by
  unfold changeStatement at ran
  split at ran
  · cases ran
    rfl
  · cases ran
    rfl
  · unfold insertQuarantine at ran
    split at ran
    · cases ran
      rfl
    · split at ran
      · cases ran
      · cases ran
        rfl
  · cases ran
    rfl

/-- What the guarded statement may do: it fails, changes the key, or finds nothing to change. -/
theorem healthStep_gotSnapshot {now : Int} {quarantineId : String} {call : HealthCall}
    {before : KeyStateSnapshot} {phase : HealthPhase} {effect : Option KeyEffect}
    {db db' : KeyDb}
    (ran : healthStep now quarantineId db (.gotSnapshot call before) =
      some (phase, effect, db')) :
    phase = .idle ∧ effect = none ∨
      db'.maintenanceRecords = db.maintenanceRecords ∧
        (CallTrail.changeOn now quarantineId call db = some (db, db') ∧
            phase = .changed call before ∧ effect = none ∨
          CallTrail.changeOn now quarantineId call db = none ∧
            ((∃ source decision, phase = .alreadyQuarantined call source decision ∧
                effect = none) ∨
              phase = .idle ∧ effect = some .none)) := by
  simp only [healthStep] at ran
  unfold CallTrail.changeOn
  cases changed : changeStatement now quarantineId call db with
  | none =>
      rw [changed] at ran
      cases ran
      exact Or.inl ⟨rfl, rfl⟩
  | some result =>
      obtain ⟨affected, db''⟩ := result
      have records := changeStatement_records changed
      rw [changed] at ran
      cases affected with
      | true =>
          cases ran
          exact Or.inr ⟨records, Or.inl ⟨rfl, rfl, rfl⟩⟩
      | false =>
          simp only at ran
          split at ran
          · cases ran
            exact Or.inr ⟨records, Or.inr ⟨rfl, Or.inl ⟨_, _, rfl, rfl⟩⟩⟩
          · cases ran
            exact Or.inr ⟨records, Or.inr ⟨rfl, Or.inr ⟨rfl, rfl⟩⟩⟩

/-- Records are added at the end, so what is new is what comes after the old ones. -/
theorem drop_records {db db' : KeyDb} {written : List KeyHealthRecord}
    (same : db'.maintenanceRecords = db.maintenanceRecords ++ written) :
    db'.maintenanceRecords.drop db.maintenanceRecords.length = written := by
  rw [same, List.drop_left]

theorem drop_records_of_same {db db' : KeyDb}
    (same : db'.maintenanceRecords = db.maintenanceRecords) :
    db'.maintenanceRecords.drop db.maintenanceRecords.length = [] :=
  drop_records (same.trans (List.append_nil _).symm)

/-- The next statement of a call takes it to its next phase, ends it with an error, or returns. -/
theorem Follows.statement {phase phase' : HealthPhase} {trail : CallTrail}
    (follows : Follows phase trail) {now : Int} {quarantineId : String} {db db' : KeyDb}
    {effect : Option KeyEffect}
    (ran : healthStep now quarantineId db phase = some (phase', effect, db')) :
    (effect = none ∧
        (phase' = .idle ∨ Follows phase' (trail.observe now quarantineId db db' phase))) ∨
      ∃ returned, effect = some returned ∧ phase' = .idle ∧
        Told (trail.observe now quarantineId db db' phase) := by
  cases follows with
  | started call =>
      cases ran
      left
      refine ⟨rfl, Or.inr ?_⟩
      unfold CallTrail.observe
      rw [drop_records_of_same rfl]
      exact Follows.gotStatus call db
  | gotStatus call read =>
      cases ran
      left
      refine ⟨rfl, Or.inr ?_⟩
      unfold CallTrail.observe
      rw [drop_records_of_same rfl]
      exact Follows.gotSnapshot call read db
  | gotSnapshot call read read' =>
      rcases healthStep_gotSnapshot ran with ⟨rfl, rfl⟩ | ⟨records, outcome⟩
      · exact Or.inl ⟨rfl, Or.inl rfl⟩
      · have written := drop_records_of_same records
        unfold CallTrail.observe
        rcases outcome with ⟨change, rfl, rfl⟩ | ⟨change, ⟨source, decision, rfl, rfl⟩ | ⟨rfl, rfl⟩⟩
        · refine Or.inl ⟨rfl, Or.inr ?_⟩
          simp only [written, change]
          exact Follows.changed call read read' db db'
        · refine Or.inl ⟨rfl, Or.inr ?_⟩
          simp only [written, change]
          exact Follows.alreadyQuarantined call source decision read read'
        · refine Or.inr ⟨_, rfl, rfl, ?_⟩
          simp only [written, change]
          exact Told.of_nothing rfl rfl
  | alreadyQuarantined call source decision read read' =>
      cases ran
      right
      refine ⟨_, rfl, rfl, ?_⟩
      have written := drop_records_of_same (show (updateOpenQuarantine call.keyId source decision
        db).maintenanceRecords = db.maintenanceRecords from rfl)
      unfold CallTrail.observe
      rw [written]
      exact Told.of_nothing rfl rfl
  | changed call read read' before after =>
      cases ran
      left
      refine ⟨rfl, Or.inr ?_⟩
      unfold CallTrail.observe
      rw [drop_records_of_same rfl]
      exact Follows.gotStatusAfter call read read' before after db
  | gotStatusAfter call read read' before after reread =>
      cases ran
      left
      refine ⟨rfl, Or.inr ?_⟩
      unfold CallTrail.observe
      rw [drop_records_of_same rfl]
      exact Follows.gotSnapshotAfter call read read' before after reread db
  | gotSnapshotAfter call read read' before after reread reread' =>
      unfold healthStep insertHealthRecord at ran
      by_cases known : (db.apiKeys.find call.keyId).isSome
      · simp only [if_pos known] at ran
        cases ran
        right
        refine ⟨_, rfl, rfl, ?_⟩
        unfold CallTrail.observe
        rw [drop_records rfl]
        exact Told.of_record rfl rfl rfl rfl rfl rfl rfl rfl
      · simp only [if_neg known] at ran
        cases ran
        exact Or.inl ⟨rfl, Or.inl rfl⟩

/-! ### The runs -/

/-- Every call that is under way follows its statements, and every call that has returned has
told what it did. -/
structure TrailSound (s : TrailState) : Prop where
  underWay : ∀ task, s.keys.health task = .idle ∨
    ∃ trail, s.trails task = some trail ∧ Follows (s.keys.health task) trail
  returned : ∀ trail ∈ s.returned, Told trail

theorem TrailSound.initial (db : KeyDb) : TrailSound (.initial db) where
  underWay := fun _ => Or.inl rfl
  returned := by
    intro trail member
    cases member

/-- The steps that are none of the calls' own. -/
def KeyHealthStep.isOther : KeyHealthStep → Bool
  | .startHealth _ _ => false
  | .healthStatement _ _ _ => false
  | _ => true

/-- Such a step ends calls at most. -/
theorem health_of_other {s keys : KeyHealthState} {action : KeyHealthStep}
    (other : action.isOther = true) (stepped : keyHealthStep s action = some keys) (task : Nat) :
    keys.health task = .idle ∨ keys.health task = s.health task := by
  cases action with
  | startHealth task call => cases other
  | healthStatement task now quarantineId => cases other
  | abandonHealth abandoned =>
      cases stepped
      by_cases same : task = abandoned
      · left
        rw [same]
        exact Function.update_self _ _ _
      · right
        exact Function.update_of_ne same _ _
  | startAcquire acquirer kind =>
      simp only [keyHealthStep] at stepped
      split at stepped
      · cases stepped
        exact Or.inr rfl
      · cases stepped
  | acquireStatement acquirer now =>
      obtain ⟨_, _, rfl⟩ := Option.map_eq_some_iff.1 stepped
      exact Or.inr rfl
  | addOrUndeleteKey now candidates secret group registrationIp registrationRegion =>
      obtain ⟨_, _, rfl⟩ := Option.map_eq_some_iff.1 stepped
      exact Or.inr rfl
  | syncKeys now candidates present =>
      obtain ⟨_, _, rfl⟩ := Option.map_eq_some_iff.1 stepped
      exact Or.inr rfl
  | _ =>
      cases stepped
      exact Or.inr rfl

theorem step_of_other {s : TrailState} {action : KeyHealthStep} (other : action.isOther = true) :
    healthTrailSystem.step s action =
      (keyHealthStep s.keys action).map fun keys => { s with keys } := by
  cases action with
  | startHealth task call => cases other
  | healthStatement task now quarantineId => cases other
  | _ => rfl

theorem TrailSound.other {s : TrailState} (sound : TrailSound s) {keys : KeyHealthState}
    (phases : ∀ task, keys.health task = .idle ∨ keys.health task = s.keys.health task) :
    TrailSound { s with keys } where
  underWay := by
    intro task
    change keys.health task = .idle ∨ ∃ trail, _ ∧ Follows (keys.health task) trail
    rcases phases task with idle | same
    · exact Or.inl idle
    · rw [same]
      exact sound.underWay task
  returned := sound.returned

/-- What a step does to one call is all that it does to the calls. -/
theorem TrailSound.update {s : TrailState} (sound : TrailSound s) {task : Nat}
    {phase : HealthPhase} {trail : Option CallTrail}
    (next : phase = .idle ∨ ∃ followed, trail = some followed ∧ Follows phase followed) :
    ∀ other, Function.update s.keys.health task phase other = .idle ∨
      ∃ followed, Function.update s.trails task trail other = some followed ∧
        Follows (Function.update s.keys.health task phase other) followed := by
  intro other
  by_cases same : other = task
  · rw [same, Function.update_self, Function.update_self]
    exact next
  · rw [Function.update_of_ne same, Function.update_of_ne same]
    exact sound.underWay other

theorem TrailSound.startHealth {s : TrailState} (sound : TrailSound s) {task : Nat}
    {call : HealthCall} {keys : KeyHealthState}
    (stepped : keyHealthStep s.keys (.startHealth task call) = some keys) :
    TrailSound { s with
      keys, trails := Function.update s.trails task (some (.started call)) } := by
  simp only [keyHealthStep] at stepped
  split at stepped
  · cases stepped
    constructor
    · exact sound.update (Or.inr ⟨.started call, rfl, Follows.started call⟩)
    · exact sound.returned
  · cases stepped

/-- A statement of a call that is under way. -/
theorem TrailSound.statement {s s' : TrailState} (sound : TrailSound s) {task : Nat} {now : Int}
    {quarantineId : String}
    (taken : healthTrailSystem.step s (.healthStatement task now quarantineId) = some s') :
    TrailSound s' := by
  obtain ⟨keys, stepped, rfl⟩ := Option.map_eq_some_iff.1 taken
  obtain ⟨⟨phase, effect, db⟩, ran, rfl⟩ := Option.map_eq_some_iff.1 stepped
  rcases sound.underWay task with idle | ⟨trail, known, follows⟩
  · rw [idle] at ran
    cases ran
  · simp only [known, Option.map_some]
    rcases follows.statement ran with ⟨rfl, next⟩ | ⟨returned, rfl, rfl, told⟩
    · rw [if_neg (by simp)]
      constructor
      · apply sound.update
        rcases next with ended | next
        · exact Or.inl ended
        · exact Or.inr ⟨_, rfl, next⟩
      · exact sound.returned
    · rw [if_pos (by simp)]
      constructor
      · exact sound.update (Or.inl rfl)
      · intro other member
        rcases List.mem_append.1 member with old | new
        · exact sound.returned other old
        · rw [Option.mem_toList, Option.some.injEq] at new
          rw [← new]
          exact told

theorem trailSound_step {s s' : TrailState} {action : KeyHealthStep} (sound : TrailSound s)
    (taken : healthTrailSystem.step s action = some s') : TrailSound s' := by
  cases other : action.isOther with
  | true =>
      rw [step_of_other other] at taken
      obtain ⟨keys, stepped, rfl⟩ := Option.map_eq_some_iff.1 taken
      exact sound.other (health_of_other other stepped)
  | false =>
      cases action with
      | startHealth task call =>
          obtain ⟨keys, stepped, rfl⟩ := Option.map_eq_some_iff.1 taken
          exact sound.startHealth stepped
      | healthStatement task now quarantineId => exact sound.statement taken
      | _ => cases other

/-! ### Calls that nobody disturbs -/

/-- What a call has read of its key still holds, or held when the call made its change. -/
def HealthPhase.Current (db : KeyDb) (change : Option (KeyDb × KeyDb)) : HealthPhase → Prop
  | .gotStatus call status => snapshotStatus db call.keyId = status
  | .gotSnapshot call before => keySnapshot db call.keyId = before
  | .changed call before => ∃ changed changed', change = some (changed, changed') ∧
      keySnapshot changed call.keyId = before ∧
      keySnapshot db call.keyId = keySnapshot changed' call.keyId
  | .gotStatusAfter call before status => ∃ changed changed', change = some (changed, changed') ∧
      keySnapshot changed call.keyId = before ∧ snapshotStatus changed' call.keyId = status ∧
      db.quarantined call.keyId = changed'.quarantined call.keyId
  | .gotSnapshotAfter call before after => ∃ changed changed',
      change = some (changed, changed') ∧ keySnapshot changed call.keyId = before ∧
      keySnapshot changed' call.keyId = after
  | _ => True

/-- A step that leaves the key alone leaves what has been read of it current. -/
theorem HealthPhase.Current.of_holdsStill {db db' : KeyDb} {change : Option (KeyDb × KeyDb)}
    {phase : HealthPhase} (current : phase.Current db change)
    (still : phase.HoldsStill db db') : phase.Current db' change := by
  cases phase with
  | idle => trivial
  | started call => trivial
  | gotStatus call status => exact Eq.trans still current
  | gotSnapshot call before => exact Eq.trans still current
  | alreadyQuarantined call source decision => trivial
  | changed call before =>
      obtain ⟨changed, changed', same, told, current⟩ := current
      exact ⟨changed, changed', same, told, Eq.trans still current⟩
  | gotStatusAfter call before status =>
      obtain ⟨changed, changed', same, told, status, current⟩ := current
      exact ⟨changed, changed', same, told, status, Eq.trans still current⟩
  | gotSnapshotAfter call before after => exact current

/-- The next statement of a call that has not been disturbed. -/
theorem Follows.current {phase phase' : HealthPhase} {trail : CallTrail}
    (follows : Follows phase trail) {now : Int} {quarantineId : String} {db db' : KeyDb}
    (current : phase.Current db trail.change) {effect : Option KeyEffect}
    (ran : healthStep now quarantineId db phase = some (phase', effect, db')) :
    phase'.Current db' (trail.observe now quarantineId db db' phase).change ∧
      (effect.isSome → (trail.observe now quarantineId db db' phase).Undisturbed) := by
  have unchanged {trail : CallTrail} (none' : trail.change = none) : trail.Undisturbed := by
    intro before after changed
    rw [none'] at changed
    cases changed
  cases follows with
  | started call =>
      cases ran
      exact ⟨rfl, fun _ => unchanged rfl⟩
  | gotStatus call read =>
      cases ran
      refine ⟨?_, fun _ => unchanged rfl⟩
      exact congrArg (KeyStateSnapshot.mk · (db.quarantined call.keyId)) current
  | gotSnapshot call read read' =>
      rcases healthStep_gotSnapshot ran with ⟨rfl, rfl⟩ | ⟨_, outcome⟩
      · exact ⟨trivial, fun returned => absurd returned Bool.false_ne_true⟩
      · rcases outcome with ⟨change, rfl, rfl⟩ | ⟨change, ⟨source, decision, rfl, rfl⟩ | ⟨rfl, rfl⟩⟩
        · refine ⟨⟨db, db', change, current, rfl⟩, ?_⟩
          exact fun returned => absurd returned Bool.false_ne_true
        · exact ⟨trivial, fun _ => unchanged change⟩
        · exact ⟨trivial, fun _ => unchanged change⟩
  | alreadyQuarantined call source decision read read' =>
      cases ran
      exact ⟨trivial, fun _ => unchanged rfl⟩
  | changed call read read' before after =>
      cases ran
      obtain ⟨changed, changed', same, told, here⟩ := current
      obtain ⟨status, quarantine⟩ := KeyStateSnapshot.mk.inj here
      refine ⟨⟨changed, changed', same, told, status.symm, quarantine⟩, ?_⟩
      exact fun returned => absurd returned Bool.false_ne_true
  | gotStatusAfter call read read' before after reread =>
      cases ran
      obtain ⟨changed, changed', same, told, status, quarantine⟩ := current
      refine ⟨⟨changed, changed', same, told, ?_⟩, ?_⟩
      · exact congr (congrArg KeyStateSnapshot.mk status) quarantine.symm
      · exact fun returned => absurd returned Bool.false_ne_true
  | gotSnapshotAfter call read read' before after reread reread' =>
      obtain ⟨changed, changed', same, told, later⟩ := current
      obtain ⟨status, quarantine⟩ := KeyStateSnapshot.mk.inj told
      obtain ⟨statusAfter, quarantineAfter⟩ := KeyStateSnapshot.mk.inj later
      constructor
      · simp only [healthStep] at ran
        split at ran
        · cases ran
          trivial
        · cases ran
          trivial
      · intro _ first second pair
        obtain ⟨rfl, rfl⟩ := Prod.mk.inj (Option.some.inj (same.symm.trans pair))
        exact ⟨congrArg some status.symm, congrArg some quarantine.symm,
          congrArg some statusAfter.symm, congrArg some quarantineAfter.symm⟩

/-- In a run that leaves every call alone, what the calls have read is current. -/
structure TrailCurrent (s : TrailState) : Prop where
  sound : TrailSound s
  current : ∀ task trail, s.trails task = some trail →
    (s.keys.health task).Current s.keys.db trail.change
  returned : ∀ trail ∈ s.returned, trail.Undisturbed

theorem TrailCurrent.initial (db : KeyDb) : TrailCurrent (.initial db) where
  sound := .initial db
  current := fun _ _ _ => trivial
  returned := by
    intro trail member
    cases member

theorem TrailCurrent.other {s : TrailState} (current : TrailCurrent s) {keys : KeyHealthState}
    (phases : ∀ task, keys.health task = .idle ∨ keys.health task = s.keys.health task)
    (still : ∀ task, (s.keys.health task).HoldsStill s.keys.db keys.db) :
    TrailCurrent { s with keys } where
  sound := current.sound.other phases
  current := by
    intro task trail known
    change (keys.health task).Current keys.db trail.change
    rcases phases task with idle | same
    · rw [idle]
      trivial
    · rw [same]
      exact (current.current task trail known).of_holdsStill (still task)
  returned := current.returned

theorem TrailCurrent.startHealth {s : TrailState} (current : TrailCurrent s) {task : Nat}
    {call : HealthCall} {keys : KeyHealthState}
    (stepped : keyHealthStep s.keys (.startHealth task call) = some keys) :
    TrailCurrent { s with
      keys, trails := Function.update s.trails task (some (.started call)) } where
  sound := current.sound.startHealth stepped
  current := by
    simp only [keyHealthStep] at stepped
    split at stepped
    · cases stepped
      intro other trail known
      by_cases same : other = task
      · change (Function.update s.keys.health task (.started call) other).Current _ _
        rw [same, Function.update_self]
        trivial
      · change (Function.update s.keys.health task (.started call) other).Current _ _
        rw [Function.update_of_ne same]
        change Function.update s.trails task _ other = some trail at known
        rw [Function.update_of_ne same] at known
        exact current.current other trail known
    · cases stepped
  returned := current.returned

/-- What a statement does to its own call, and leaves to the others. -/
theorem TrailCurrent.update {s : TrailState} (current : TrailCurrent s) {task : Nat}
    {phase : HealthPhase} {db : KeyDb} {trail : Option CallTrail}
    (own : ∀ followed, trail = some followed → phase.Current db followed.change)
    (still : ∀ other, other ≠ task → (s.keys.health other).HoldsStill s.keys.db db) :
    ∀ other followed, Function.update s.trails task trail other = some followed →
      (Function.update s.keys.health task phase other).Current db followed.change := by
  intro other followed known
  by_cases same : other = task
  · rw [same, Function.update_self] at known ⊢
    exact own followed known
  · rw [Function.update_of_ne same] at known ⊢
    exact (current.current other followed known).of_holdsStill (still other same)

theorem TrailCurrent.statement {s s' : TrailState} (current : TrailCurrent s) {task : Nat}
    {now : Int} {quarantineId : String}
    (alone : LeavesOthersAlone s (.healthStatement task now quarantineId))
    (taken : healthTrailSystem.step s (.healthStatement task now quarantineId) = some s') :
    TrailCurrent s' := by
  have sound := current.sound.statement taken
  obtain ⟨keys, stepped, rfl⟩ := Option.map_eq_some_iff.1 taken
  have still : ∀ other, other ≠ task →
      (s.keys.health other).HoldsStill s.keys.db keys.db := by
    intro other different
    apply alone keys stepped
    intro now' quarantineId' same
    exact different (KeyHealthStep.healthStatement.inj same).1.symm
  obtain ⟨⟨phase, effect, db⟩, ran, rfl⟩ := Option.map_eq_some_iff.1 stepped
  rcases current.sound.underWay task with idle | ⟨trail, known, follows⟩
  · rw [idle] at ran
    cases ran
  · obtain ⟨next, returns⟩ := follows.current (current.current task trail known) ran
    refine ⟨sound, ?_, ?_⟩
    · simp only [known, Option.map_some]
      split
      · apply current.update _ still
        intro followed impossible
        cases impossible
      · apply current.update _ still
        intro followed same
        cases same
        exact next
    · simp only [known, Option.map_some]
      split
      · rename_i added
        intro other member
        rcases List.mem_append.1 member with old | new
        · exact current.returned other old
        · rw [Option.mem_toList, Option.some.injEq] at new
          rw [← new]
          apply returns
          cases effect with
          | none => simp at added
          | some returned => rfl
      · exact current.returned

theorem trailCurrent_step {s s' : TrailState} {action : KeyHealthStep}
    (current : TrailCurrent s) (alone : LeavesOthersAlone s action)
    (taken : healthTrailSystem.step s action = some s') : TrailCurrent s' := by
  cases other : action.isOther with
  | true =>
      rw [step_of_other other] at taken
      obtain ⟨keys, stepped, rfl⟩ := Option.map_eq_some_iff.1 taken
      apply current.other (health_of_other other stepped)
      intro task
      apply alone keys stepped
      rintro now quarantineId rfl
      cases other
  | false =>
      cases action with
      | startHealth task call =>
          obtain ⟨keys, stepped, rfl⟩ := Option.map_eq_some_iff.1 taken
          exact current.startHealth stepped
      | healthStatement task now quarantineId => exact current.statement alone taken
      | _ => cases other

/-! ### The trail -/

/-- Over every order of the steps: a call that has returned has written one record if its own
guarded statement has changed the key, and none otherwise, and the record tells the states right
before and right after the change exactly where nobody has disturbed the call. So where no step
touches the key of another call while that call looks at it, every record is true. -/
theorem maintenanceTrail_truthful_iff (db : KeyDb) (steps : List KeyHealthStep) :
    healthTrailSystem.AlongRun
        (fun s => ∀ trail ∈ s.returned,
          trail.OneRecord ∧ (trail.Truthful ↔ trail.Undisturbed)) (.initial db) steps ∧
      (healthTrailSystem.Guarded LeavesOthersAlone (.initial db) steps →
        healthTrailSystem.AlongRun (fun s => ∀ trail ∈ s.returned, trail.Truthful)
          (.initial db) steps) := by
  constructor
  · apply TransitionSystem.AlongRun.mono _ _
      (healthTrailSystem.alongRun_of_preserved (fun _ _ _ sound taken =>
        trailSound_step sound taken) (TrailSound.initial db) steps)
    intro s sound trail member
    have told := sound.returned trail member
    exact ⟨told.oneRecord, told.truthful_iff⟩
  · intro guarded
    apply TransitionSystem.AlongRun.mono _ _
      (healthTrailSystem.alongRun_of_guarded (fun _ _ _ current alone taken =>
        trailCurrent_step current alone taken) (TrailCurrent.initial db) guarded)
    intro s current trail member
    exact (current.sound.returned trail member).truthful_iff.2 (current.returned trail member)

/-! ### Calls of few tasks -/

/-- The step begins a call of one of the first `n` tasks or takes it on. -/
def KeyHealthStep.isBelow (n : Nat) : KeyHealthStep → Bool
  | .startHealth task _ => task < n
  | .healthStatement task _ _ => task < n
  | _ => false

instance (db db' : KeyDb) : (phase : HealthPhase) → Decidable (phase.HoldsStill db db')
  | .gotStatus _ _ => inferInstanceAs (Decidable (_ = _))
  | .gotSnapshot _ _ => inferInstanceAs (Decidable (_ = _))
  | .changed _ _ => inferInstanceAs (Decidable (_ = _))
  | .gotStatusAfter _ _ _ => inferInstanceAs (Decidable (_ = _))
  | .idle => isTrue trivial
  | .started _ => isTrue trivial
  | .alreadyQuarantined _ _ _ => isTrue trivial
  | .gotSnapshotAfter _ _ _ => isTrue trivial

/-- The step is a statement of the task. -/
def KeyHealthStep.isStatementOf (task : Nat) : KeyHealthStep → Bool
  | .healthStatement task' _ _ => task' = task
  | _ => false

/-- `LeavesOthersAlone`, for the calls of the first `n` tasks. -/
def LeavesFewAlone (n : Nat) (s : TrailState) (action : KeyHealthStep) : Prop :=
  ∀ keys ∈ keyHealthStep s.keys action, ∀ task < n, action.isStatementOf task = false →
    (s.keys.health task).HoldsStill s.keys.db keys.db

instance (n : Nat) (s : TrailState) (action : KeyHealthStep) :
    Decidable (LeavesFewAlone n s action) := by
  unfold LeavesFewAlone
  infer_instance

/-- The calls of the other tasks do not begin. -/
theorem health_of_isBelow {n : Nat} {s keys : KeyHealthState} {step : KeyHealthStep}
    (below : step.isBelow n = true) (stepped : keyHealthStep s step = some keys) {task : Nat}
    (outside : n ≤ task) : keys.health task = s.health task := by
  cases step with
  | startHealth task' call =>
      have inside : task' < n := of_decide_eq_true below
      simp only [keyHealthStep] at stepped
      split at stepped
      · cases stepped
        exact Function.update_of_ne (by omega) _ _
      · cases stepped
  | healthStatement task' now quarantineId =>
      have inside : task' < n := of_decide_eq_true below
      obtain ⟨⟨phase, effect, db⟩, ran, rfl⟩ := Option.map_eq_some_iff.1 stepped
      exact Function.update_of_ne (by omega) _ _
  | _ => cases below

/-- Where only the first `n` tasks have calls, only these can be disturbed. -/
theorem guarded_of_few {n : Nat} {steps : List KeyHealthStep}
    (below : ∀ step ∈ steps, step.isBelow n = true) {s : TrailState}
    (idle : ∀ task, n ≤ task → s.keys.health task = .idle)
    (few : healthTrailSystem.Guarded (LeavesFewAlone n) s steps) :
    healthTrailSystem.Guarded LeavesOthersAlone s steps := by
  induction steps generalizing s with
  | nil => trivial
  | cons step rest ih =>
      intro s' taken
      obtain ⟨here, later⟩ := few s' taken
      have known := taken
      obtain ⟨keys, stepped, same⟩ := Option.map_eq_some_iff.1 known
      have keysOf : s'.keys = keys := by
        rw [← same]
        cases step with
        | healthStatement =>
            simp only
            split <;> rfl
        | _ => rfl
      constructor
      · intro keys stepped task notOwn
        by_cases inside : task < n
        · refine here keys stepped task inside ?_
          cases step with
          | healthStatement task' now quarantineId =>
              refine decide_eq_false fun own => notOwn now quarantineId ?_
              rw [own]
          | _ => rfl
        · rw [idle task (Nat.not_lt.1 inside)]
          trivial
      · refine ih (fun other member => below other (List.mem_cons_of_mem step member)) ?_ later
        intro task outside
        rw [keysOf, health_of_isBelow (below step List.mem_cons_self) stepped outside]
        exact idle task outside

/-- One key that is active. -/
def oneKeyDb : KeyDb where
  apiKeys :=
    { rows :=
        [("k", { apiKey := "tvly-k", groupName := none, registrationIp := none,
                 registrationRegion := none, status := .active, createdAt := 0,
                 statusChangedAt := none, lastUsedAt := 0, deletedAt := none })]
      distinct := by decide }
  apiKeyQuarantines := .empty
  maintenanceRecords := []
  authTokens := []

/-- The calls of two requests that finish on the key, one out of quota and one with a success. -/
def exhaustedCall : Option HealthCall :=
  reconcileKeyHealth { id := "k", secret := "tvly-k" } "/search" false none .markExhausted

def succeededCall : Option HealthCall :=
  reconcileKeyHealth { id := "k", secret := "tvly-k" } "/search" true none .none

/-- The second request restores the key while the first is about to read it again. -/
def crossedRun : List KeyHealthStep :=
  exhaustedCall.toList.map (.startHealth 0) ++ List.replicate 3 (.healthStatement 0 1 "q") ++
    succeededCall.toList.map (.startHealth 1) ++ List.replicate 3 (.healthStatement 1 2 "r") ++
    List.replicate 3 (.healthStatement 0 3 "s")

/-- A second key, which is out of quota. -/
def limitedKeysDb : KeyDb :=
  { oneKeyDb with
    apiKeys := oneKeyDb.apiKeys.upsert "l"
      { apiKey := "tvly-l", groupName := none, registrationIp := none,
        registrationRegion := none, status := .exhausted, createdAt := 0,
        statusChangedAt := none, lastUsedAt := 0, deletedAt := none } id }

/-- Where the second request has finished on the other key, both records are true. -/
def parallelRun : List KeyHealthStep :=
  exhaustedCall.toList.map (.startHealth 0) ++ List.replicate 3 (.healthStatement 0 1 "q") ++
    (reconcileKeyHealth { id := "l", secret := "tvly-l" } "/search" true none .none).toList.map
      (.startHealth 1) ++
    List.replicate 6 (.healthStatement 1 2 "r") ++ List.replicate 3 (.healthStatement 0 3 "s")

theorem maintenanceTrail_truthful_parallelRun :
    (∃ s, healthTrailSystem.run (.initial limitedKeysDb) parallelRun = some s ∧
        s.returned.flatMap CallTrail.records ≠ [] ∧
        s.returned.map (fun trail => trail.call.keyId) = ["l", "k"]) ∧
      healthTrailSystem.AlongRun (fun s => ∀ trail ∈ s.returned, trail.Truthful)
        (.initial limitedKeysDb) parallelRun := by
  have below : ∀ step ∈ parallelRun, step.isBelow 2 = true := by decide
  have few : healthTrailSystem.Guarded (LeavesFewAlone 2) (.initial limitedKeysDb) parallelRun := by
    decide +kernel
  refine ⟨⟨_, rfl, ?_, ?_⟩, (maintenanceTrail_truthful_iff limitedKeysDb parallelRun).2
    (guarded_of_few below (fun _ _ => rfl) few)⟩
  · decide +kernel
  · decide +kernel

theorem maintenanceTrail_untruthful_crossedRun :
    ¬ healthTrailSystem.AlongRun (fun s => ∀ trail ∈ s.returned, trail.Truthful)
      (.initial oneKeyDb) crossedRun := by
  decide +kernel

end TavilyHikari.Store
