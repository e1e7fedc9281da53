/-
Module: TavilyHikari.Proofs.OAuthLoginState
Purpose: A login state is single-use over every interleaving of inserts and consumes: each
  insert is accepted at most once, by a consume that matches it, and a refused consume leaves
  every row to its owner.
Trusted boundary: none
Main exports: AcceptedSound, RefusalsKeepStates, OwnersCanConsume, LoginStateInvariant,
  loginState_singleUse
-/
import TavilyHikari.Store.OAuthLoginState

namespace TavilyHikari.Store

open Library

/-! ### What is accepted -/

/-- The accepted consume matches the insert that made its row: the state and the provider are
the same, the trimmed hash is the stored one, a blank or absent hash matching none, and the
state had not expired. -/
def AcceptedSound (inserted : List InsertedState) (accepted : AcceptedState) : Prop :=
  ∃ new, inserted[accepted.serial]? = some new ∧ new.state = accepted.call.state ∧
    new.call.provider = accepted.call.provider ∧
    trimmedNonEmpty new.call.bindingHash = trimmedNonEmpty accepted.call.bindingHash ∧
    accepted.call.now ≤ new.call.now + max new.call.ttlSecs 60 ∧
    accepted.payload =
      { redirectTo := trimmedNonEmpty new.call.redirectTo
        bindTokenId := trimmedNonEmpty new.call.bindTokenId }

/-- What a consume that has found the row returns. -/
def acceptedOf (call : ConsumeCall) (row : OAuthLoginStateRow) : AcceptedState where
  serial := row.serial
  call := call
  payload := { redirectTo := row.redirectTo, bindTokenId := row.bindTokenId }

/-- The step is one of a consume. -/
def LoginStateAction.ofConsume : LoginStateAction → Prop
  | .consume _ _ | .consumeStatement _ | .abandonConsume _ => True
  | _ => False

/-- A step of a consume that accepts nothing leaves the table as it is. -/
def RefusalsKeepStates (s : LoginStates) : Prop :=
  ∀ action s', action.ofConsume → loginStateSystem.step s action = some s' →
    s'.accepted = s.accepted → s'.states = s.states

/-- A row that is neither consumed nor expired is there to be consumed by its owner. -/
def OwnersCanConsume (s : LoginStates) : Prop :=
  ∀ task (call : ConsumeCall) row, s.writer = none → s.consumes task = .idle →
    s.states.find call.state = some row → row.consumedAt = none → call.now ≤ row.expiresAt →
    call.provider = row.provider → trimmedNonEmpty call.bindingHash = row.bindingHash →
    ∃ s', loginStateSystem.run s
        [.consume task call, .consumeStatement task, .consumeStatement task,
          .consumeStatement task, .consumeStatement task] = some s' ∧
      s'.accepted = s.accepted ++ [acceptedOf call row]

/-! ### Rows -/

/-- The row is what its insert made, but for the time it was consumed. -/
def IsInserted (inserted : List InsertedState) (state : String) (row : OAuthLoginStateRow) : Prop :=
  ∃ new, inserted[row.serial]? = some new ∧ new.state = state ∧
    { row with consumedAt := none } = new.call.row row.serial

theorem IsInserted.append {inserted : List InsertedState} {state : String}
    {row : OAuthLoginStateRow} (is : IsInserted inserted state row) (more : List InsertedState) :
    IsInserted (inserted ++ more) state row := by
  obtain ⟨new, there, same⟩ := is
  refine ⟨new, ?_, same⟩
  rw [List.getElem?_append_left (List.getElem?_eq_some_iff.1 there).1]
  exact there

theorem AcceptedSound.append {inserted : List InsertedState} {accepted : AcceptedState}
    (sound : AcceptedSound inserted accepted) (more : List InsertedState) :
    AcceptedSound (inserted ++ more) accepted := by
  obtain ⟨new, there, same⟩ := sound
  refine ⟨new, ?_, same⟩
  rw [List.getElem?_append_left (List.getElem?_eq_some_iff.1 there).1]
  exact there

/-- A row that the DELETE leaves was there. -/
theorem find_of_deleteSpentStates {now : Int} {states : OAuthLoginStates} {state : String}
    {row : OAuthLoginStateRow} (found : (deleteSpentStates now states).find state = some row) :
    states.find state = some row := by
  rw [deleteSpentStates, KeyedTable.find_deleteWhere] at found
  exact (Option.filter_eq_some_iff.1 found).1

theorem find_deleteSpentStates {now : Int} {states : OAuthLoginStates} {state : String}
    {row : OAuthLoginStateRow} (found : states.find state = some row)
    (unconsumed : row.consumedAt = none) (unexpired : now ≤ row.expiresAt) :
    (deleteSpentStates now states).find state = some row := by
  rw [deleteSpentStates, KeyedTable.find_deleteWhere, found]
  simp [unconsumed, Int.not_lt.2 unexpired]

/-- What a consume selects is a match. -/
theorem ConsumeCall.selects_iff {call : ConsumeCall} {row : OAuthLoginStateRow} :
    call.selects row = true ↔ row.provider = call.provider ∧ row.consumedAt = none ∧
      call.now ≤ row.expiresAt ∧ trimmedNonEmpty call.bindingHash = row.bindingHash := by
  unfold ConsumeCall.selects
  cases trimmedNonEmpty call.bindingHash with
  | none => simp [Option.isNone_iff_eq_none, eq_comm (a := none), and_assoc]
  | some hash => simp [Option.isNone_iff_eq_none, eq_comm (a := some hash), and_assoc]

/-! ### The invariant -/

/-- The transaction of the consume holds the write lock, and its copy is what its statements
have made of the table. -/
def ConsumeInvariant (s : LoginStates) (task : Nat) : ConsumePhase → Prop
  | .idle | .called _ => True
  | .cleaned call copy => s.writer = some task ∧ copy = deleteSpentStates call.now s.states
  | .found call copy row =>
      s.writer = some task ∧ copy = deleteSpentStates call.now s.states ∧
        copy.find call.state = some row ∧ call.selects row = true
  | .consumed call copy row =>
      s.writer = some task ∧
        copy = (markConsumed call (deleteSpentStates call.now s.states)).2 ∧
        s.states.find call.state = some row ∧ call.selects row = true

structure LoginStateInvariant (s : LoginStates) : Prop where
  rows : ∀ state row, s.states.find state = some row → IsInserted s.inserted state row
  unconsumed : ∀ state row, s.states.find state = some row → row.consumedAt = none →
    row.serial ∉ s.accepted.map AcceptedState.serial
  known : ∀ accepted ∈ s.accepted, accepted.serial < s.inserted.length
  once : (s.accepted.map AcceptedState.serial).Nodup
  sound : ∀ accepted ∈ s.accepted, AcceptedSound s.inserted accepted
  consumes : ∀ task, ConsumeInvariant s task (s.consumes task)

namespace LoginStateInvariant

variable {s : LoginStates}

/-- While no transaction has written, no consume has a copy. -/
theorem consumes_of_noWriter (invariant : LoginStateInvariant s) (free : s.writer = none)
    (s' : LoginStates) (task : Nat) : ConsumeInvariant s' task (s.consumes task) := by
  have holds := invariant.consumes task
  cases phase : s.consumes task with
  | idle => trivial
  | called call => trivial
  | cleaned call copy =>
      rw [phase] at holds
      exact absurd (free.symm.trans holds.1) (by simp)
  | found call copy row =>
      rw [phase] at holds
      exact absurd (free.symm.trans holds.1) (by simp)
  | consumed call copy row =>
      rw [phase] at holds
      exact absurd (free.symm.trans holds.1) (by simp)

/-- While the transaction of one consume has written, no other has a copy. -/
theorem consumes_of_writer (invariant : LoginStateInvariant s) {task other : Nat}
    (writer : s.writer = some task) (different : other ≠ task) (s' : LoginStates) :
    ConsumeInvariant s' other (s.consumes other) := by
  have holds := invariant.consumes other
  have apart : s.writer ≠ some other := by
    rw [writer]
    simpa using different.symm
  cases phase : s.consumes other with
  | idle => trivial
  | called call => trivial
  | cleaned call copy =>
      rw [phase] at holds
      exact absurd holds.1 apart
  | found call copy row =>
      rw [phase] at holds
      exact absurd holds.1 apart
  | consumed call copy row =>
      rw [phase] at holds
      exact absurd holds.1 apart

/-- Where the tasks are, and which of them writes, is nothing to the rows. -/
theorem withPhases (invariant : LoginStateInvariant s) {writer : Option Nat}
    {inserts : Nat → InsertPhase} {consumes : Nat → ConsumePhase}
    (holds : ∀ task, ConsumeInvariant
      { s with writer := writer, inserts := inserts, consumes := consumes } task (consumes task)) :
    LoginStateInvariant
      { s with writer := writer, inserts := inserts, consumes := consumes } where
  rows := invariant.rows
  unconsumed := invariant.unconsumed
  known := invariant.known
  once := invariant.once
  sound := invariant.sound
  consumes := holds

theorem setInsert (invariant : LoginStateInvariant s) (task : Nat) (phase : InsertPhase) :
    LoginStateInvariant (s.setInsert task phase) :=
  invariant.withPhases invariant.consumes

/-- The first statement of a transaction takes the write lock. -/
theorem locked (invariant : LoginStateInvariant s) (free : s.writer = none) (task : Nat) :
    LoginStateInvariant { s with writer := some task } :=
  invariant.withPhases (invariant.consumes_of_noWriter free _)

/-- A consume goes on to a phase whose invariant holds. -/
theorem setConsume (invariant : LoginStateInvariant s) {task : Nat} {phase : ConsumePhase}
    (holds : ConsumeInvariant s task phase) : LoginStateInvariant (s.setConsume task phase) := by
  refine invariant.withPhases ?_
  intro other
  by_cases same : other = task
  · subst same
    rw [Function.update_self]
    exact holds
  · rw [Function.update_of_ne same]
    exact invariant.consumes other

/-- A consume ends, and its transaction with it. -/
theorem endConsume (invariant : LoginStateInvariant s) (task : Nat) :
    LoginStateInvariant (s.endConsume task) := by
  refine invariant.withPhases ?_
  intro other
  by_cases same : other = task
  · subst same
    rw [Function.update_self]
    trivial
  · rw [Function.update_of_ne same]
    by_cases writer : s.writer = some task
    · exact invariant.consumes_of_writer writer same _
    · rw [if_neg writer]
      exact invariant.consumes other

/-- The DELETE of an insert. -/
theorem clean (invariant : LoginStateInvariant s) (free : s.writer = none) (now : Int) :
    LoginStateInvariant { s with states := deleteSpentStates now s.states } where
  rows := fun state row found => invariant.rows state row (find_of_deleteSpentStates found)
  unconsumed := fun state row found =>
    invariant.unconsumed state row (find_of_deleteSpentStates found)
  known := invariant.known
  once := invariant.once
  sound := invariant.sound
  consumes := invariant.consumes_of_noWriter free _

/-- The INSERT of a state that no row has. -/
theorem insertRow (invariant : LoginStateInvariant s) (free : s.writer = none) {state : String}
    (absent : s.states.find state = none) (call : InsertCall) :
    LoginStateInvariant { s with
      states := s.states.upsert state (call.row s.inserted.length)
        fun _ => call.row s.inserted.length
      inserted := s.inserted ++ [{ state := state, call := call }] } where
  rows := by
    intro other row found
    by_cases same : other = state
    · subst same
      rw [KeyedTable.find_upsert_self, absent] at found
      cases found
      exact ⟨_, List.getElem?_concat_length, rfl, rfl⟩
    · rw [KeyedTable.find_upsert_of_ne _ same] at found
      exact (invariant.rows other row found).append _
  unconsumed := by
    intro other row found unconsumed
    by_cases same : other = state
    · subst same
      rw [KeyedTable.find_upsert_self, absent] at found
      cases found
      intro member
      obtain ⟨accepted, old, serial⟩ := List.mem_map.1 member
      exact absurd serial (Nat.ne_of_lt (invariant.known accepted old))
    · rw [KeyedTable.find_upsert_of_ne _ same] at found
      exact invariant.unconsumed other row found unconsumed
  known := by
    intro accepted member
    rw [List.length_append]
    exact Nat.lt_add_right _ (invariant.known accepted member)
  once := invariant.once
  sound := fun accepted member => (invariant.sound accepted member).append _
  consumes := invariant.consumes_of_noWriter free _

/-- The state a row is under is that of its insert, so two rows of one insert are one. -/
theorem state_of_serial (invariant : LoginStateInvariant s) {state other : String}
    {row twin : OAuthLoginStateRow} (found : s.states.find state = some row)
    (stored : s.states.find other = some twin) (same : twin.serial = row.serial) :
    other = state := by
  obtain ⟨new, there, sameState, _⟩ := invariant.rows state row found
  obtain ⟨new', there', sameState', _⟩ := invariant.rows other twin stored
  rw [same, there] at there'
  cases there'
  exact sameState'.symm.trans sameState

/-- A row that the commit of a consume leaves was there, and where it is not consumed, it
comes from another insert than the row that is accepted. -/
theorem find_of_markConsumed (invariant : LoginStateInvariant s) {call : ConsumeCall}
    {row other : OAuthLoginStateRow} (found : s.states.find call.state = some row)
    (selected : call.selects row = true) {state : String}
    (kept : (markConsumed call (deleteSpentStates call.now s.states)).2.find state = some other) :
    ∃ old, s.states.find state = some old ∧ other.serial = old.serial ∧
      { other with consumedAt := none } = { old with consumedAt := none } ∧
      (other.consumedAt = none → old.consumedAt = none ∧ old.serial ≠ row.serial) := by
  obtain ⟨provider, unconsumed, _⟩ := ConsumeCall.selects_iff.1 selected
  simp only [markConsumed, KeyedTable.find_updateWhere, Option.map_eq_some_iff] at kept
  obtain ⟨old, kept, rfl⟩ := kept
  have stored := find_of_deleteSpentStates kept
  refine ⟨old, stored, by split <;> rfl, by split <;> rfl, ?_⟩
  split
  · intro new
    cases new
  · rename_i unaffected
    intro wasOpen
    refine ⟨wasOpen, fun same => unaffected ?_⟩
    have here : state = call.state := invariant.state_of_serial found stored same
    subst here
    rw [stored] at found
    cases found
    simp [provider, unconsumed]

/-- What a consume has selected is accepted soundly: the row is what its insert made. -/
theorem acceptedOf_sound (invariant : LoginStateInvariant s) {call : ConsumeCall}
    {row : OAuthLoginStateRow} (found : s.states.find call.state = some row)
    (selected : call.selects row = true) : AcceptedSound s.inserted (acceptedOf call row) := by
  obtain ⟨provider, _, unexpired, hash⟩ := ConsumeCall.selects_iff.1 selected
  obtain ⟨new, there, sameState, made⟩ := invariant.rows call.state row found
  have madeProvider : row.provider = new.call.provider :=
    congrArg OAuthLoginStateRow.provider made
  have madeHash : row.bindingHash = trimmedNonEmpty new.call.bindingHash :=
    congrArg OAuthLoginStateRow.bindingHash made
  have madeExpiry : row.expiresAt = new.call.now + max new.call.ttlSecs 60 :=
    congrArg OAuthLoginStateRow.expiresAt made
  have madeRedirect : row.redirectTo = trimmedNonEmpty new.call.redirectTo :=
    congrArg OAuthLoginStateRow.redirectTo made
  have madeToken : row.bindTokenId = trimmedNonEmpty new.call.bindTokenId :=
    congrArg OAuthLoginStateRow.bindTokenId made
  refine ⟨new, there, sameState, madeProvider.symm.trans provider,
    madeHash.symm.trans hash.symm, ?_, ?_⟩
  · rw [← madeExpiry]
    exact unexpired
  · rw [← madeRedirect, ← madeToken]
    rfl

/-- The commit of a consume: its row is the only one of its insert, and consumed from now on. -/
theorem commit (invariant : LoginStateInvariant s) {task : Nat} {call : ConsumeCall}
    {copy : OAuthLoginStates} {row : OAuthLoginStateRow}
    (phase : s.consumes task = .consumed call copy row) :
    LoginStateInvariant ({ s with
      states := copy
      accepted := s.accepted ++ [acceptedOf call row] }.endConsume task) := by
  have holds := invariant.consumes task
  rw [phase] at holds
  obtain ⟨writer, rfl, found, selected⟩ := holds
  have unconsumed : row.consumedAt = none := (ConsumeCall.selects_iff.1 selected).2.1
  have ended : LoginStateInvariant { s with
      states := (markConsumed call (deleteSpentStates call.now s.states)).2
      accepted := s.accepted ++ [acceptedOf call row]
      consumes := Function.update s.consumes task .idle } :=
    { rows := by
        intro state other kept
        obtain ⟨old, stored, serial, same, _⟩ := invariant.find_of_markConsumed found selected kept
        obtain ⟨new, there, sameState, made⟩ := invariant.rows state old stored
        refine ⟨new, ?_, sameState, ?_⟩
        · rw [serial]
          exact there
        · rw [same, made, serial]
      unconsumed := by
        intro state other kept isOpen
        obtain ⟨old, stored, serial, _, fresh⟩ :=
          invariant.find_of_markConsumed found selected kept
        obtain ⟨wasOpen, different⟩ := fresh isOpen
        rw [List.map_append, List.mem_append, serial]
        rintro (earlier | now)
        · exact invariant.unconsumed state old stored wasOpen earlier
        · exact different (List.mem_singleton.1 now)
      known := by
        intro accepted member
        rcases List.mem_append.1 member with old | new
        · exact invariant.known accepted old
        · rw [List.mem_singleton.1 new]
          obtain ⟨_, there, _⟩ := invariant.rows call.state row found
          exact (List.getElem?_eq_some_iff.1 there).1
      once := by
        rw [List.map_append, List.nodup_append]
        refine ⟨invariant.once, List.nodup_singleton _, ?_⟩
        intro serial member other new same
        rw [List.map_singleton, List.mem_singleton] at new
        subst new
        rw [same] at member
        exact invariant.unconsumed call.state row found unconsumed member
      sound := by
        intro accepted member
        rcases List.mem_append.1 member with old | new
        · exact invariant.sound accepted old
        · rw [List.mem_singleton.1 new]
          exact invariant.acceptedOf_sound found selected
      consumes := by
        intro other
        by_cases same : other = task
        · subst same
          simp [ConsumeInvariant]
        · simp only [Function.update_of_ne same]
          exact invariant.consumes_of_writer writer same _ }
  simpa [LoginStates.endConsume, LoginStates.setConsume] using ended.endConsume task

end LoginStateInvariant

/-! ### Steps -/

variable {s s' : LoginStates}

theorem loginStateInvariant_consumeStatement (invariant : LoginStateInvariant s) {task : Nat}
    (taken : consumeStatement s task (s.consumes task) = some s') : LoginStateInvariant s' := by
  have holds := invariant.consumes task
  cases phase : s.consumes task with
  | idle =>
      rw [phase] at taken
      cases taken
  | called call =>
      rw [phase] at taken
      simp only [consumeStatement] at taken
      split at taken
      · cases taken
      · rename_i free
        cases taken
        exact (invariant.locked free task).setConsume ⟨rfl, rfl⟩
  | cleaned call copy =>
      rw [phase] at taken holds
      obtain ⟨writer, rfl⟩ := holds
      simp only [consumeStatement] at taken
      split at taken
      · rename_i row selected
        cases taken
        obtain ⟨found, selects⟩ := Option.filter_eq_some_iff.1 selected
        exact invariant.setConsume ⟨writer, rfl, found, selects⟩
      · cases taken
        exact invariant.endConsume task
  | found call copy row =>
      rw [phase] at taken holds
      obtain ⟨writer, rfl, found, selects⟩ := holds
      simp only [consumeStatement] at taken
      split at taken
      · rename_i consumed marked
        cases taken
        refine invariant.setConsume ⟨writer, ?_, find_of_deleteSpentStates found, selects⟩
        rw [marked]
      · cases taken
        exact invariant.endConsume task
  | consumed call copy row =>
      rw [phase] at taken
      cases taken
      exact invariant.commit phase

theorem loginStateInvariant_step {action : LoginStateAction} (invariant : LoginStateInvariant s)
    (taken : loginStateSystem.step s action = some s') : LoginStateInvariant s' := by
  cases action with
  | insert task call =>
      simp only [loginStateSystem, loginStateStep] at taken
      split at taken
      · cases taken
        exact invariant.setInsert task _
      · cases taken
  | insertClean task =>
      simp only [loginStateSystem, loginStateStep] at taken
      split at taken
      · rename_i call _ free
        cases taken
        exact (invariant.clean free call.now).setInsert task _
      · cases taken
  | insertRow task state =>
      simp only [loginStateSystem, loginStateStep] at taken
      split at taken
      · rename_i call _ free
        split at taken
        · cases taken
          exact invariant
        · rename_i absent
          cases taken
          exact (invariant.insertRow free absent call).setInsert task _
      · cases taken
  | abandonInsert task =>
      cases taken
      exact invariant.setInsert task _
  | consume task call =>
      simp only [loginStateSystem, loginStateStep] at taken
      split at taken
      · cases taken
        exact invariant.setConsume trivial
      · cases taken
  | consumeStatement task => exact loginStateInvariant_consumeStatement invariant taken
  | abandonConsume task =>
      cases taken
      exact invariant.endConsume task

/-- Only the commit of a consume writes, and it accepts. -/
theorem refusalsKeepStates (s : LoginStates) : RefusalsKeepStates s := by
  intro action s' ofConsume taken refused
  cases action with
  | insert task call => cases ofConsume
  | insertClean task => cases ofConsume
  | insertRow task state => cases ofConsume
  | abandonInsert task => cases ofConsume
  | consume task call =>
      simp only [loginStateSystem, loginStateStep] at taken
      split at taken
      · cases taken
        rfl
      · cases taken
  | consumeStatement task =>
      simp only [loginStateSystem, loginStateStep] at taken
      cases phase : s.consumes task with
      | idle =>
          rw [phase] at taken
          cases taken
      | called call =>
          rw [phase] at taken
          simp only [consumeStatement] at taken
          split at taken
          · cases taken
          · cases taken
            rfl
      | cleaned call copy =>
          rw [phase] at taken
          simp only [consumeStatement] at taken
          split at taken <;> cases taken <;> rfl
      | found call copy row =>
          rw [phase] at taken
          simp only [consumeStatement] at taken
          split at taken <;> cases taken <;> rfl
      | consumed call copy row =>
          rw [phase] at taken
          cases taken
          have longer := congrArg List.length refused
          simp [LoginStates.endConsume, LoginStates.setConsume] at longer
  | abandonConsume task =>
      cases taken
      rfl

/-- The step of a consume is the statement that its phase is before. -/
theorem consumeStatement_of_phase {task : Nat} {phase : ConsumePhase}
    (there : s.consumes task = phase) :
    loginStateSystem.step s (.consumeStatement task) = consumeStatement s task phase := by
  rw [← there]
  rfl

theorem setConsume_consumes (s : LoginStates) (task : Nat) (phase : ConsumePhase) :
    (s.setConsume task phase).consumes task = phase := by
  simp [LoginStates.setConsume]

theorem consumeStatement_called {task : Nat} {call : ConsumeCall} (free : s.writer = none) :
    consumeStatement s task (.called call) =
      some ({ s with writer := some task }.setConsume task
        (.cleaned call (deleteSpentStates call.now s.states))) := by
  simp only [consumeStatement, free]

theorem consumeStatement_cleaned {task : Nat} {call : ConsumeCall} {copy : OAuthLoginStates}
    {row : OAuthLoginStateRow} (selected : selectLoginState call copy = some row) :
    consumeStatement s task (.cleaned call copy) =
      some (s.setConsume task (.found call copy row)) := by
  simp only [consumeStatement, selected]

theorem consumeStatement_found {task : Nat} {call : ConsumeCall} {copy copy' : OAuthLoginStates}
    {row : OAuthLoginStateRow} (marked : markConsumed call copy = (true, copy')) :
    consumeStatement s task (.found call copy row) =
      some (s.setConsume task (.consumed call copy' row)) := by
  simp only [consumeStatement, marked]

/-- The four statements of a consume by the owner, in a row. -/
theorem ownersCanConsume (s : LoginStates) : OwnersCanConsume s := by
  intro task call row free idle found unconsumed unexpired provider hash
  have kept := find_deleteSpentStates found unconsumed unexpired
  have selects : call.selects row = true :=
    ConsumeCall.selects_iff.2 ⟨provider.symm, unconsumed, unexpired, hash⟩
  have selected : selectLoginState call (deleteSpentStates call.now s.states) = some row :=
    Option.filter_eq_some_iff.2 ⟨kept, selects⟩
  obtain ⟨affected, copy, marked⟩ : ∃ affected copy,
      markConsumed call (deleteSpentStates call.now s.states) = (affected, copy) := ⟨_, _, rfl⟩
  have affects : affected = true := by
    have first := congrArg Prod.fst marked
    rw [← (show _ = affected from first), markConsumed, KeyedTable.existsWhere_eq_true_iff]
    exact ⟨call.state, row, kept, by simp [provider, unconsumed]⟩
  rw [affects] at marked
  have called : loginStateSystem.step s (.consume task call) =
      some (s.setConsume task (.called call)) := by
    simp only [loginStateSystem, loginStateStep, idle]
  have unlocked : (s.setConsume task (.called call)).writer = none := free
  have cleaned := (consumeStatement_of_phase (setConsume_consumes s task _)).trans
    (consumeStatement_called unlocked)
  have matched := fun t : LoginStates =>
    (consumeStatement_of_phase (setConsume_consumes t task _)).trans
      (consumeStatement_cleaned selected)
  have consumed := fun t : LoginStates =>
    (consumeStatement_of_phase (setConsume_consumes t task _)).trans
      (show consumeStatement _ task (.found call _ row) = _ from consumeStatement_found marked)
  have committed := fun t : LoginStates =>
    consumeStatement_of_phase (setConsume_consumes t task (.consumed call copy row))
  exact ⟨_, loginStateSystem.run_cons.2 ⟨_, called, loginStateSystem.run_cons.2 ⟨_, cleaned,
    loginStateSystem.run_cons.2 ⟨_, matched _, loginStateSystem.run_cons.2 ⟨_, consumed _,
      loginStateSystem.run_cons.2 ⟨_, committed _, rfl⟩⟩⟩⟩⟩, rfl⟩

/-- Over every interleaving of inserts and consumes: an insert is accepted at most once, by a
consume that matches it, and a refused consume leaves the table as it is, with every row that
is neither consumed nor expired still there to be consumed by its owner. -/
theorem loginState_singleUse (actions : List LoginStateAction) :
    loginStateSystem.AlongRun
      (fun s => (s.accepted.map AcceptedState.serial).Nodup ∧
        (∀ accepted ∈ s.accepted, AcceptedSound s.inserted accepted) ∧
        RefusalsKeepStates s ∧ OwnersCanConsume s)
      .initial actions := by
  have initial : LoginStateInvariant .initial :=
    { rows := by simp [LoginStates.initial]
      unconsumed := by simp [LoginStates.initial]
      known := by simp [LoginStates.initial]
      once := List.nodup_nil
      sound := by simp [LoginStates.initial]
      consumes := fun _ => trivial }
  have along := loginStateSystem.alongRun_of_preserved
    (fun _ _ _ invariant taken => loginStateInvariant_step invariant taken) initial actions
  exact along.mono loginStateSystem fun s invariant =>
    ⟨invariant.once, invariant.sound, refusalsKeepStates s, ownersCanConsume s⟩

end TavilyHikari.Store
