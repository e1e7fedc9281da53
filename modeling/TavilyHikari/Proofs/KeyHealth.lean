/-
Module: TavilyHikari.Proofs.KeyHealth
Purpose: The health of API keys over every order of statements: a disabled key stays
  disabled until it is enabled, a key has at most one open quarantine, and what is leased
  was eligible in the state its SELECT read.
Trusted boundary: none
Main exports: KeyDb.Disabled, OneOpenQuarantine, LeaseEligible, keyHealth_stateMachine
-/
import TavilyHikari.Store.KeyHealth

namespace TavilyHikari.Store

open Library

/-! ### Disabled keys -/

/-- The key is there and its status is disabled. -/
def KeyDb.Disabled (db : KeyDb) (keyId : String) : Prop :=
  ∃ row, db.apiKeys.find keyId = some row ∧ row.status = .disabled

variable {db : KeyDb} {keyId : String}

/-- An update keeps a disabled key disabled if it does so wherever it applies. -/
theorem KeyDb.Disabled.updateKeys (disabled : db.Disabled keyId)
    {p : String → ApiKeyRow → Bool} {f : ApiKeyRow → ApiKeyRow}
    (keeps : ∀ row, p keyId row = true → row.status = .disabled → (f row).status = .disabled) :
    (db.updateKeys p f).2.Disabled keyId := by
  obtain ⟨row, found, status⟩ := disabled
  refine ⟨if p keyId row then f row else row, ?_, ?_⟩
  · simp [KeyDb.updateKeys, found]
  · split
    · rename_i chosen
      exact keeps row chosen status
    · exact status

theorem KeyDb.Disabled.modify (disabled : db.Disabled keyId) (id : String)
    {f : ApiKeyRow → ApiKeyRow} (keeps : ∀ row, (f row).status = row.status) :
    KeyDb.Disabled { db with apiKeys := db.apiKeys.modify id f } keyId := by
  obtain ⟨row, found, status⟩ := disabled
  by_cases same : keyId = id
  · subst same
    exact ⟨f row, by simp [found], by rw [keeps, status]⟩
  · exact ⟨row, by simp [KeyedTable.find_modify_of_ne _ same, found], status⟩

/-- A new id is that of no key. -/
theorem find_of_generateUniqueKeyId {candidates rest : List String} {id : String}
    (generated : generateUniqueKeyId db candidates = some (id, rest)) :
    db.apiKeys.find id = none := by
  induction candidates with
  | nil => cases generated
  | cons candidate candidates ih =>
      rw [generateUniqueKeyId] at generated
      split at generated
      · rename_i free
        cases generated
        exact Option.isNone_iff_eq_none.1 free
      · exact ih generated

theorem KeyDb.Disabled.insertKey (disabled : db.Disabled keyId) {id : String}
    (free : db.apiKeys.find id = none) (new : ApiKeyRow) :
    (insertKey id new db).Disabled keyId := by
  obtain ⟨row, found, status⟩ := disabled
  have other : keyId ≠ id := by
    rintro rfl
    rw [free] at found
    cases found
  refine ⟨row, ?_, status⟩
  simp only [Store.insertKey, KeyedTable.find_upsert_of_ne _ other]
  exact found

theorem KeyDb.Disabled.addOrUndeleteKey (disabled : db.Disabled keyId) {now : Int}
    {candidates : List String} {secret : String}
    {group registrationIp registrationRegion : Option String} {db' : KeyDb}
    (added : addOrUndeleteKey now candidates secret group registrationIp registrationRegion db =
      some db') : db'.Disabled keyId := by
  unfold Store.addOrUndeleteKey at added
  simp only at added
  split at added
  · cases added
    exact disabled.modify _ fun _ => rfl
  · obtain ⟨⟨id, rest⟩, generated, same⟩ := Option.map_eq_some_iff.1 added
    cases same
    exact disabled.insertKey (find_of_generateUniqueKeyId generated) _

theorem KeyDb.Disabled.syncPresentKeys (disabled : db.Disabled keyId) {now : Int}
    {keys candidates : List String} {db' : KeyDb}
    (synced : syncPresentKeys now keys candidates db = some db') : db'.Disabled keyId := by
  induction keys generalizing db candidates with
  | nil =>
      cases synced
      exact disabled
  | cons key keys ih =>
      rw [Store.syncPresentKeys] at synced
      split at synced
      · apply ih ?_ synced
        exact disabled.modify _ fun _ => rfl
      · split at synced
        · cases synced
        · rename_i generated
          exact ih (disabled.insertKey (find_of_generateUniqueKeyId generated) _) synced

theorem KeyDb.Disabled.syncKeys (disabled : db.Disabled keyId) {now : Int}
    {candidates keys : List String} {db' : KeyDb}
    (synced : syncKeys now candidates keys db = some db') : db'.Disabled keyId := by
  obtain ⟨mid, present, same⟩ := Option.map_eq_some_iff.1 synced
  cases same
  exact (disabled.syncPresentKeys present).updateKeys fun _ _ status => status

/-- Statements on the other tables leave the keys alone. -/
theorem KeyDb.Disabled.of_apiKeys {db' : KeyDb} (disabled : db.Disabled keyId)
    (same : db'.apiKeys = db.apiKeys) : db'.Disabled keyId := by
  unfold KeyDb.Disabled
  rw [same]
  exact disabled

theorem KeyDb.Disabled.resetMonthly (disabled : db.Disabled keyId) (now : Int) :
    (resetMonthly now db).Disabled keyId :=
  disabled.updateKeys fun row chosen status => by simp [status] at chosen

theorem KeyDb.Disabled.changeStatement (disabled : db.Disabled keyId) {now : Int}
    {quarantineId : String} {call : HealthCall} {changed : Bool} {db' : KeyDb}
    (taken : changeStatement now quarantineId call db = some (changed, db')) :
    db'.Disabled keyId := by
  unfold Store.changeStatement at taken
  split at taken
  · cases taken
    exact disabled.updateKeys fun row chosen status => by simp [status] at chosen
  · cases taken
    exact disabled.updateKeys fun row chosen status => by simp [status] at chosen
  · unfold insertQuarantine at taken
    split at taken
    · cases taken
      exact disabled
    · split at taken
      · cases taken
      · cases taken
        exact disabled.of_apiKeys rfl
  · cases taken
    exact disabled.of_apiKeys rfl

theorem KeyDb.Disabled.insertHealthRecord (disabled : db.Disabled keyId)
    {record : KeyHealthRecord} {db' : KeyDb}
    (inserted : insertHealthRecord record db = some db') : db'.Disabled keyId := by
  unfold Store.insertHealthRecord at inserted
  split at inserted
  · cases inserted
    exact disabled.of_apiKeys rfl
  · cases inserted

theorem KeyDb.Disabled.healthStep (disabled : db.Disabled keyId) {now : Int}
    {quarantineId : String} {phase phase' : HealthPhase} {effect : Option KeyEffect} {db' : KeyDb}
    (taken : healthStep now quarantineId db phase = some (phase', effect, db')) :
    db'.Disabled keyId := by
  cases phase with
  | idle => cases taken
  | started call =>
      cases taken
      exact disabled
  | gotStatus call status =>
      cases taken
      exact disabled
  | gotSnapshot call before =>
      simp only [Store.healthStep] at taken
      split at taken
      · cases taken
        exact disabled
      · rename_i changed
        cases taken
        exact disabled.changeStatement changed
      · rename_i unchanged
        split at taken <;> cases taken <;> exact disabled.changeStatement unchanged
  | alreadyQuarantined call source decision =>
      cases taken
      exact disabled.of_apiKeys rfl
  | changed call before =>
      cases taken
      exact disabled
  | gotStatusAfter call before status =>
      cases taken
      exact disabled
  | gotSnapshotAfter call before after =>
      simp only [Store.healthStep] at taken
      split at taken
      · rename_i inserted
        cases taken
        exact disabled.insertHealthRecord inserted
      · cases taken
        exact disabled

theorem KeyDb.Disabled.acquireStep (disabled : db.Disabled keyId) {now : Int}
    {phase phase' : AcquirePhase} {leased : Option LeasedKey} {db' : KeyDb}
    (taken : acquireStep now db phase = some (phase', leased, db')) : db'.Disabled keyId := by
  cases phase with
  | idle => cases taken
  | started kind =>
      cases taken
      exact disabled.resetMonthly now
  | monthReset kind =>
      simp only [Store.acquireStep] at taken
      split at taken <;> cases taken <;> exact disabled
  | noActive kind calledAt activeRead =>
      simp only [Store.acquireStep] at taken
      split at taken <;> cases taken <;> exact disabled
  | selected calledAt leased =>
      cases taken
      exact disabled.updateKeys fun _ _ status => status

/-- No step other than `enable_key_by_id` for the key takes it out of its disabled status. -/
theorem disabled_step {s s' : KeyHealthState} {step : KeyHealthStep}
    (disabled : s.db.Disabled keyId) (other : ∀ now, step ≠ .enableKeyById now keyId)
    (taken : keyHealthSystem.step s step = some s') : s'.db.Disabled keyId := by
  cases step with
  | startHealth task call =>
      simp only [keyHealthSystem, keyHealthStep] at taken
      split at taken
      · cases taken
        exact disabled
      · cases taken
  | healthStatement task now quarantineId =>
      obtain ⟨⟨phase, effect, db'⟩, statement, same⟩ := Option.map_eq_some_iff.1 taken
      cases same
      exact disabled.healthStep statement
  | abandonHealth task =>
      cases taken
      exact disabled
  | startAcquire task kind =>
      simp only [keyHealthSystem, keyHealthStep] at taken
      split at taken
      · cases taken
        exact disabled
      · cases taken
  | acquireStatement task now =>
      obtain ⟨⟨phase, leased, db'⟩, statement, same⟩ := Option.map_eq_some_iff.1 taken
      cases same
      exact disabled.acquireStep statement
  | abandonAcquire task =>
      cases taken
      exact disabled
  | resetMonthly now =>
      cases taken
      exact disabled.resetMonthly now
  | enableKeyById now id =>
      cases taken
      -- The update is on another key.
      refine disabled.updateKeys fun row chosen status => ?_
      have here : keyId = id := by
        simp only [Bool.and_eq_true, decide_eq_true_eq] at chosen
        exact chosen.1.1
      exact absurd (by rw [here]) (other now)
  | disableKeyById now id =>
      cases taken
      exact disabled.updateKeys fun _ _ _ => rfl
  | softDeleteKeyById now id =>
      cases taken
      exact disabled.updateKeys fun _ _ status => status
  | addOrUndeleteKey now candidates secret group registrationIp registrationRegion =>
      obtain ⟨db', added, same⟩ := Option.map_eq_some_iff.1 taken
      cases same
      exact disabled.addOrUndeleteKey added
  | syncKeys now candidates keys =>
      obtain ⟨db', synced, same⟩ := Option.map_eq_some_iff.1 taken
      cases same
      exact disabled.syncKeys synced

theorem disabled_run {s s' : KeyHealthState} {steps : List KeyHealthStep}
    (disabled : s.db.Disabled keyId) (other : ∀ now, .enableKeyById now keyId ∉ steps)
    (ran : keyHealthSystem.run s steps = some s') : s'.db.Disabled keyId := by
  induction steps generalizing s with
  | nil =>
      cases ran
      exact disabled
  | cons step steps ih =>
      obtain ⟨mid, taken, ran⟩ := keyHealthSystem.run_cons.1 ran
      refine ih (disabled_step disabled (fun now same => other now ?_) taken)
        (fun now later => other now (List.mem_cons_of_mem _ later)) ran
      rw [same]
      exact List.mem_cons_self

/-! ### Quarantines -/

/-- Each key has at most one open quarantine. -/
def OneOpenQuarantine (db : KeyDb) : Prop :=
  ∀ (id id' : String) (row row' : ApiKeyQuarantine),
    db.apiKeyQuarantines.find id = some row → db.apiKeyQuarantines.find id' = some row' →
      row.keyId = row'.keyId → row.clearedAt = none → row'.clearedAt = none → id = id'

theorem OneOpenQuarantine.of_quarantines {db db' : KeyDb} (one : OneOpenQuarantine db)
    (same : db'.apiKeyQuarantines = db.apiKeyQuarantines) : OneOpenQuarantine db' := by
  unfold OneOpenQuarantine
  rw [same]
  exact one

/-- An update that opens no quarantine and moves none to another key. -/
theorem OneOpenQuarantine.updateWhere {db : KeyDb} (one : OneOpenQuarantine db)
    (p : String → ApiKeyQuarantine → Bool) {f : ApiKeyQuarantine → ApiKeyQuarantine}
    (sameKey : ∀ row, (f row).keyId = row.keyId)
    (opens : ∀ row, (f row).clearedAt = none → row.clearedAt = none) :
    OneOpenQuarantine { db with apiKeyQuarantines := db.apiKeyQuarantines.updateWhere p f } := by
  intro id id' row row' found found' sameKeyId isOpen isOpen'
  rw [KeyedTable.find_updateWhere, Option.map_eq_some_iff] at found found'
  obtain ⟨old, found, rfl⟩ := found
  obtain ⟨old', found', rfl⟩ := found'
  have keyId : ∀ id row, (if p id row then f row else row).keyId = row.keyId := by
    intro id row
    split
    · exact sameKey row
    · rfl
  have wasOpen : ∀ id row, (if p id row then f row else row).clearedAt = none →
      row.clearedAt = none := by
    intro id row
    split
    · exact opens row
    · exact fun cleared => cleared
  rw [keyId, keyId] at sameKeyId
  exact one _ _ _ _ found found' sameKeyId (wasOpen _ _ isOpen) (wasOpen _ _ isOpen')

theorem quarantined_eq_true_iff {db : KeyDb} {keyId : String} :
    db.quarantined keyId = true ↔ ∃ id row,
      db.apiKeyQuarantines.find id = some row ∧ row.keyId = keyId ∧ row.clearedAt = none := by
  simp [KeyDb.quarantined, KeyedTable.existsWhere_eq_true_iff, Option.isNone_iff_eq_none]

/-- The new row is the only open one of its key, by the conflict clause. -/
theorem OneOpenQuarantine.insertQuarantine {db db' : KeyDb} (one : OneOpenQuarantine db)
    {now : Int} {quarantineId keyId source : String} {decision : QuarantineDecision}
    {changed : Bool}
    (inserted : insertQuarantine now quarantineId keyId source decision db =
      some (changed, db')) : OneOpenQuarantine db' := by
  unfold Store.insertQuarantine at inserted
  split at inserted
  · cases inserted
    exact one
  · rename_i free
    split at inserted
    · cases inserted
    · cases inserted
      have noneOpen : ∀ {id row}, db.apiKeyQuarantines.find id = some row →
          row.keyId = keyId → row.clearedAt = none → False := by
        intro id row found sameKey isOpen
        exact free (quarantined_eq_true_iff.2 ⟨id, row, found, sameKey, isOpen⟩)
      rename_i accepted
      have newId : db.apiKeyQuarantines.find quarantineId = none := by
        simpa using (not_or.1 accepted).2
      intro id id' row row' found found' sameKeyId isOpen isOpen'
      by_cases first : id = quarantineId
      · by_cases second : id' = quarantineId
        · rw [first, second]
        · subst first
          rw [KeyedTable.find_upsert_self, newId] at found
          rw [KeyedTable.find_upsert_of_ne _ second] at found'
          cases found
          exact (noneOpen found' sameKeyId.symm isOpen').elim
      · rw [KeyedTable.find_upsert_of_ne _ first] at found
        by_cases second : id' = quarantineId
        · subst second
          rw [KeyedTable.find_upsert_self, newId] at found'
          cases found'
          exact (noneOpen found sameKeyId isOpen).elim
        · rw [KeyedTable.find_upsert_of_ne _ second] at found'
          exact one _ _ _ _ found found' sameKeyId isOpen isOpen'

theorem OneOpenQuarantine.changeStatement {db db' : KeyDb} (one : OneOpenQuarantine db)
    {now : Int} {quarantineId : String} {call : HealthCall} {changed : Bool}
    (taken : changeStatement now quarantineId call db = some (changed, db')) :
    OneOpenQuarantine db' := by
  unfold Store.changeStatement at taken
  split at taken
  · cases taken
    exact one.of_quarantines rfl
  · cases taken
    exact one.of_quarantines rfl
  · exact one.insertQuarantine taken
  · cases taken
    apply one.updateWhere
    · exact fun _ => rfl
    · simp

theorem OneOpenQuarantine.healthStep {db db' : KeyDb} (one : OneOpenQuarantine db) {now : Int}
    {quarantineId : String} {phase phase' : HealthPhase} {effect : Option KeyEffect}
    (taken : healthStep now quarantineId db phase = some (phase', effect, db')) :
    OneOpenQuarantine db' := by
  cases phase with
  | idle => cases taken
  | started call =>
      cases taken
      exact one
  | gotStatus call status =>
      cases taken
      exact one
  | gotSnapshot call before =>
      simp only [Store.healthStep] at taken
      split at taken
      · cases taken
        exact one
      · rename_i changed
        cases taken
        exact one.changeStatement changed
      · rename_i unchanged
        split at taken <;> cases taken <;> exact one.changeStatement unchanged
  | alreadyQuarantined call source decision =>
      cases taken
      apply one.updateWhere
      · exact fun _ => rfl
      · exact fun _ isOpen => isOpen
  | changed call before =>
      cases taken
      exact one
  | gotStatusAfter call before status =>
      cases taken
      exact one
  | gotSnapshotAfter call before after =>
      simp only [Store.healthStep, insertHealthRecord] at taken
      split at taken
      · rename_i inserted
        cases taken
        split at inserted
        · cases inserted
          exact one.of_quarantines rfl
        · cases inserted
      · cases taken
        exact one

theorem syncPresentKeys_quarantines {now : Int} {keys candidates : List String} {db db' : KeyDb}
    (synced : syncPresentKeys now keys candidates db = some db') :
    db'.apiKeyQuarantines = db.apiKeyQuarantines := by
  induction keys generalizing db candidates with
  | nil =>
      cases synced
      rfl
  | cons key keys ih =>
      rw [syncPresentKeys] at synced
      split at synced
      · have later := ih synced
        exact later
      · split at synced
        · cases synced
        · have later := ih synced
          exact later

theorem acquireStep_quarantines {now : Int} {phase phase' : AcquirePhase}
    {leased : Option LeasedKey} {db db' : KeyDb}
    (taken : acquireStep now db phase = some (phase', leased, db')) :
    db'.apiKeyQuarantines = db.apiKeyQuarantines := by
  cases phase with
  | idle => cases taken
  | started kind =>
      cases taken
      rfl
  | monthReset kind =>
      simp only [acquireStep] at taken
      split at taken <;> cases taken <;> rfl
  | noActive kind calledAt activeRead =>
      simp only [acquireStep] at taken
      split at taken <;> cases taken <;> rfl
  | selected calledAt leased =>
      cases taken
      rfl

theorem oneOpenQuarantine_step {s s' : KeyHealthState} {step : KeyHealthStep}
    (one : OneOpenQuarantine s.db) (taken : keyHealthSystem.step s step = some s') :
    OneOpenQuarantine s'.db := by
  cases step with
  | startHealth task call =>
      simp only [keyHealthSystem, keyHealthStep] at taken
      split at taken
      · cases taken
        exact one
      · cases taken
  | healthStatement task now quarantineId =>
      obtain ⟨⟨phase, effect, db'⟩, statement, same⟩ := Option.map_eq_some_iff.1 taken
      cases same
      exact one.healthStep statement
  | abandonHealth task =>
      cases taken
      exact one
  | startAcquire task kind =>
      simp only [keyHealthSystem, keyHealthStep] at taken
      split at taken
      · cases taken
        exact one
      · cases taken
  | acquireStatement task now =>
      obtain ⟨⟨phase, leased, db'⟩, statement, same⟩ := Option.map_eq_some_iff.1 taken
      cases same
      exact one.of_quarantines (acquireStep_quarantines statement)
  | abandonAcquire task =>
      cases taken
      exact one
  | resetMonthly now =>
      cases taken
      exact one.of_quarantines rfl
  | enableKeyById now id =>
      cases taken
      exact one.of_quarantines rfl
  | disableKeyById now id =>
      cases taken
      exact one.of_quarantines rfl
  | softDeleteKeyById now id =>
      cases taken
      exact one.of_quarantines rfl
  | addOrUndeleteKey now candidates secret group registrationIp registrationRegion =>
      obtain ⟨db', added, same⟩ := Option.map_eq_some_iff.1 taken
      cases same
      apply one.of_quarantines
      unfold addOrUndeleteKey at added
      simp only at added
      split at added
      · cases added
        rfl
      · obtain ⟨generated, _, same⟩ := Option.map_eq_some_iff.1 added
        cases same
        rfl
  | syncKeys now candidates keys =>
      obtain ⟨db', synced, same⟩ := Option.map_eq_some_iff.1 taken
      cases same
      obtain ⟨mid, present, same⟩ := Option.map_eq_some_iff.1 synced
      cases same
      have quarantines := syncPresentKeys_quarantines present
      exact one.of_quarantines quarantines

/-! ### Leases -/

/-- In the state that the SELECT for active keys read, the call had no active key that is
neither deleted nor quarantined, but for the one it excludes. -/
def NoActiveKey (kind : AcquireKind) (activeRead : KeyDb) : Prop :=
  ∀ id row, activeRead.apiKeys.find id = some row → row.status = .active →
    row.deletedAt = none → activeRead.quarantined id = false →
      kind = .acquireActiveKeyExcluding (some id)

/-- The key was neither disabled nor deleted nor quarantined in the state its SELECT read, and
unless the call was for that key, it was exhausted only where no active one was there. -/
structure LeaseEligible (leased : LeasedKey) (row : ApiKeyRow) : Prop where
  found : leased.readFrom.apiKeys.find leased.lease.id = some row
  secret : row.apiKey = leased.lease.secret
  enabled : row.status ≠ .disabled
  present : row.deletedAt = none
  free : leased.readFrom.quarantined leased.lease.id = false
  exhausted : row.status = .exhausted →
    (∃ keyId, leased.kind = .tryAcquireSpecificKey keyId) ∨
      NoActiveKey leased.kind leased.activeRead

/-- The key that a SELECT finds, and its row. -/
theorem eligible_of_leaseOf {db : KeyDb} {kind : AcquireKind} {status : KeyStatus}
    {le : String × ApiKeyRow → String × ApiKeyRow → Prop} [DecidableRel le] {lease : ApiKeyLease}
    (found : leaseOf (db.apiKeys.firstWhere (db.eligible kind status) le) = some lease) :
    ∃ row, db.apiKeys.find lease.id = some row ∧ row.apiKey = lease.secret ∧
      row.status = status ∧ row.deletedAt = none ∧ db.quarantined lease.id = false := by
  obtain ⟨⟨id, row⟩, first, same⟩ := Option.map_eq_some_iff.1 found
  cases same
  obtain ⟨stored, eligible⟩ := KeyedTable.find_of_firstWhere first
  simp only [KeyDb.eligible, Bool.and_eq_true, decide_eq_true_eq, Option.isNone_iff_eq_none,
    Bool.not_eq_true'] at eligible
  exact ⟨row, stored, rfl, eligible.1.1.2, eligible.1.2, eligible.2⟩

/-- Where the SELECT finds no active key, every one is of another call. -/
theorem noActiveKey_of_select {db : KeyDb} {kind : AcquireKind}
    (missing : selectActiveKey kind db = none) :
    (∃ keyId, kind = .tryAcquireSpecificKey keyId) ∨ NoActiveKey kind db := by
  have notAllowed : ∀ id row, db.apiKeys.find id = some row → row.status = .active →
      row.deletedAt = none → db.quarantined id = false → kind.allows id = false := by
    intro id row found active present free
    have here := KeyedTable.firstWhere_eq_none (Option.map_eq_none_iff.1 missing) found
    simpa [KeyDb.eligible, active, present, free] using here
  cases kind with
  | acquireKey =>
      right
      intro id row found active present free
      cases notAllowed id row found active present free
  | acquireActiveKeyExcluding excludedKeyId =>
      right
      intro id row found active present free
      have excluded := notAllowed id row found active present free
      simp only [AcquireKind.allows, ne_eq, decide_not, Bool.not_eq_false',
        decide_eq_true_eq] at excluded
      rw [excluded]
  | tryAcquireSpecificKey keyId => exact .inl ⟨keyId, rfl⟩

def AcquireInvariant : AcquirePhase → Prop
  | .noActive kind _ activeRead =>
      (∃ keyId, kind = .tryAcquireSpecificKey keyId) ∨ NoActiveKey kind activeRead
  | .selected _ leased => ∃ row, LeaseEligible leased row
  | _ => True

theorem acquireInvariant_acquireStep {now : Int} {db db' : KeyDb} {phase phase' : AcquirePhase}
    {leased : Option LeasedKey} (invariant : AcquireInvariant phase)
    (taken : acquireStep now db phase = some (phase', leased, db')) :
    AcquireInvariant phase' ∧ ∀ key ∈ leased, ∃ row, LeaseEligible key row := by
  cases phase with
  | idle => cases taken
  | started kind =>
      cases taken
      exact ⟨trivial, by simp⟩
  | monthReset kind =>
      simp only [acquireStep] at taken
      split at taken
      · rename_i lease selected
        cases taken
        refine ⟨?_, by simp⟩
        obtain ⟨row, found, secret, active, present, free⟩ := eligible_of_leaseOf selected
        exact ⟨row, found, secret, by simp [active], present, free, by simp [active]⟩
      · rename_i missing
        cases taken
        exact ⟨noActiveKey_of_select missing, by simp⟩
  | noActive kind calledAt activeRead =>
      simp only [acquireStep] at taken
      split at taken
      · rename_i lease selected
        cases taken
        refine ⟨?_, by simp⟩
        obtain ⟨row, found, secret, exhausted, present, free⟩ := eligible_of_leaseOf selected
        exact ⟨row, found, secret, by simp [exhausted], present, free, fun _ => invariant⟩
      · cases taken
        exact ⟨trivial, by simp⟩
  | selected calledAt key =>
      cases taken
      refine ⟨trivial, ?_⟩
      intro other member
      cases member
      exact invariant

structure LeaseInvariant (s : KeyHealthState) : Prop where
  phases : ∀ task, AcquireInvariant (s.acquires task)
  leases : ∀ leased ∈ s.leases, ∃ row, LeaseEligible leased row

/-- One call goes on to a phase whose invariant holds. -/
theorem LeaseInvariant.update {s : KeyHealthState} (invariant : LeaseInvariant s) {task : Nat}
    {phase : AcquirePhase} (holds : AcquireInvariant phase) (other : Nat) :
    AcquireInvariant (Function.update s.acquires task phase other) := by
  by_cases same : other = task
  · subst same
    rw [Function.update_self]
    exact holds
  · rw [Function.update_of_ne same]
    exact invariant.phases other

theorem leaseInvariant_step {s s' : KeyHealthState} {step : KeyHealthStep}
    (invariant : LeaseInvariant s) (taken : keyHealthSystem.step s step = some s') :
    LeaseInvariant s' := by
  cases step with
  | startHealth task call =>
      simp only [keyHealthSystem, keyHealthStep] at taken
      split at taken
      · cases taken
        exact ⟨invariant.phases, invariant.leases⟩
      · cases taken
  | healthStatement task now quarantineId =>
      obtain ⟨⟨phase, effect, db'⟩, statement, same⟩ := Option.map_eq_some_iff.1 taken
      cases same
      exact ⟨invariant.phases, invariant.leases⟩
  | abandonHealth task =>
      cases taken
      exact ⟨invariant.phases, invariant.leases⟩
  | startAcquire task kind =>
      simp only [keyHealthSystem, keyHealthStep] at taken
      split at taken
      · cases taken
        exact ⟨invariant.update trivial, invariant.leases⟩
      · cases taken
  | acquireStatement task now =>
      obtain ⟨⟨phase, leased, db'⟩, statement, same⟩ := Option.map_eq_some_iff.1 taken
      cases same
      obtain ⟨holds, returned⟩ := acquireInvariant_acquireStep (invariant.phases task) statement
      refine ⟨invariant.update holds, ?_⟩
      intro key member
      rcases List.mem_append.1 member with old | new
      · exact invariant.leases key old
      · exact returned key (Option.mem_toList.1 new)
  | abandonAcquire task =>
      cases taken
      exact ⟨invariant.update trivial, invariant.leases⟩
  | resetMonthly now =>
      cases taken
      exact ⟨invariant.phases, invariant.leases⟩
  | enableKeyById now id =>
      cases taken
      exact ⟨invariant.phases, invariant.leases⟩
  | disableKeyById now id =>
      cases taken
      exact ⟨invariant.phases, invariant.leases⟩
  | softDeleteKeyById now id =>
      cases taken
      exact ⟨invariant.phases, invariant.leases⟩
  | addOrUndeleteKey now candidates secret group registrationIp registrationRegion =>
      obtain ⟨db', added, same⟩ := Option.map_eq_some_iff.1 taken
      cases same
      exact ⟨invariant.phases, invariant.leases⟩
  | syncKeys now candidates keys =>
      obtain ⟨db', synced, same⟩ := Option.map_eq_some_iff.1 taken
      cases same
      exact ⟨invariant.phases, invariant.leases⟩

/-! ### The state machine -/

/-- Over every order of the steps, from tables with the unique index on open quarantines: a
disabled key stays disabled until `enable_key_by_id`, no key gets a second open quarantine,
and every lease was eligible. -/
theorem keyHealth_stateMachine (db : KeyDb) (indexed : OneOpenQuarantine db)
    (steps : List KeyHealthStep) :
    (∀ first second s s' keyId, steps = first ++ second →
      keyHealthSystem.run (.initial db) first = some s → keyHealthSystem.run s second = some s' →
      s.db.Disabled keyId → (∀ now, .enableKeyById now keyId ∉ second) → s'.db.Disabled keyId) ∧
    keyHealthSystem.AlongRun
      (fun s => OneOpenQuarantine s.db ∧ ∀ leased ∈ s.leases, ∃ row, LeaseEligible leased row)
      (.initial db) steps := by
  constructor
  · intro first second s s' keyId _ _ ran disabled other
    exact disabled_run disabled other ran
  · have invariant : keyHealthSystem.AlongRun
        (fun s => OneOpenQuarantine s.db ∧ LeaseInvariant s) (.initial db) steps := by
      apply keyHealthSystem.alongRun_of_preserved
      · exact fun s step s' holds taken =>
          ⟨oneOpenQuarantine_step holds.1 taken, leaseInvariant_step holds.2 taken⟩
      · exact ⟨indexed, fun _ => trivial, by simp [KeyHealthState.initial]⟩
    exact invariant.mono keyHealthSystem fun _ holds => ⟨holds.1, holds.2.leases⟩

/-- A disabled key with an open quarantine, and an exhausted one. -/
def twoKeyDb : KeyDb where
  apiKeys :=
    { rows :=
        [("a", { apiKey := "tvly-a", groupName := none, registrationIp := none,
                 registrationRegion := none, status := .disabled, createdAt := 0,
                 statusChangedAt := some 0, lastUsedAt := 0, deletedAt := none }),
         ("b", { apiKey := "tvly-b", groupName := none, registrationIp := none,
                 registrationRegion := none, status := .exhausted, createdAt := 0,
                 statusChangedAt := some 0, lastUsedAt := 0, deletedAt := none })]
      distinct := by decide }
  apiKeyQuarantines :=
    { rows := [("q", { keyId := "a", source := "/search", reasonCode := "account_deactivated",
                       reasonSummary := "", reasonDetail := "", createdAt := 0,
                       clearedAt := none })]
      distinct := by decide }
  maintenanceRecords := []
  authTokens := []

theorem keyHealth_stateMachine_twoKeys :
    keyHealthSystem.AlongRun
      (fun s => OneOpenQuarantine s.db ∧ ∀ leased ∈ s.leases, ∃ row, LeaseEligible leased row)
      (.initial twoKeyDb)
      [.startAcquire 1 .acquireKey, .acquireStatement 1 1, .acquireStatement 1 1,
        .acquireStatement 1 1, .acquireStatement 1 1] := by
  refine (keyHealth_stateMachine twoKeyDb ?_ _).2
  intro id id' row row' found found' _ _ _
  rw [KeyedTable.find_eq_some_iff] at found found'
  cases List.mem_singleton.1 found
  cases List.mem_singleton.1 found'
  rfl

end TavilyHikari.Store
