/-
Module: TavilyHikari.Proofs.UserLoginFacts
Purpose: What is known of a login at each stage of its callback, and the invariant of the logins:
  which facts the tables, the login states and the lists of the past must bear out.
Trusted boundary: kernel-checked
Main exports: StageSound, GrantSound, IssueSound, StartsSound, UserLoginsSound, insertsStep,
  bindTokenIdOf_spec, SerialsSound, TablesSound, Granted
-/
import TavilyHikari.Proofs.OAuthLoginState
import TavilyHikari.Proofs.UserAccounts
import TavilyHikari.Server.UserLogins

namespace TavilyHikari.Server

open Library Store Store.UserAccounts

/-! ### What is known of a login -/

/-- The provider has named the identity to the callback of an accepted state. -/
structure LoginKnown (accepted : List AcceptedState) (attested : List AttestedLogin)
    (login : UserLogin) : Prop where
  attested : { serial := login.serial, identity := login.profile.identity } ∈ attested
  accepted : ∃ state ∈ accepted,
    state.serial = login.serial ∧ state.payload.bindTokenId = login.bindTokenId

/-- The user is the one of the identity. -/
structure LoggedIn (db : UserTables) (accepted : List AcceptedState)
    (attested : List AttestedLogin) (login : UserLogin) (user : UserIdentity) : Prop where
  known : LoginKnown accepted attested login
  provider : user.provider = login.profile.provider
  located : db.userOf login.profile.identity = some user.userId

/-- What holds of a callback by its stage. -/
def StageSound (db : UserTables) (accepted : List AcceptedState)
    (attested : List AttestedLogin) : CallbackStage → Prop
  | .idle | .consuming => True
  | .consumed state => state ∈ accepted
  | .identified login | .checking login => LoginKnown accepted attested login
  | .admitted login registrationOpen =>
      LoginKnown accepted attested login ∧
        (registrationOpen = false → (db.userOf login.profile.identity).isSome = true)
  | .upserted login user | .unbound login user | .creating login user _ =>
      LoggedIn db accepted attested login user
  | .preferring login user secret =>
      LoggedIn db accepted attested login user ∧ login.preferredTokenId = some secret.id ∧
        db.HasToken secret.id
  | .bound login user | .cleaned login user _ =>
      LoggedIn db accepted attested login user ∧ ∃ tokenId, db.ownerOf tokenId = some user.userId

/-- The login state that a callback holds. -/
def CallbackStage.serial? : CallbackStage → Option Nat
  | .idle | .consuming => none
  | .consumed state => some state.serial
  | .identified login | .checking login | .admitted login _ | .upserted login _
  | .preferring login _ _ | .unbound login _ | .creating login _ _ | .bound login _
  | .cleaned login _ _ => some login.serial

/-- A user was made while the registration was read as open, for an identity that is still theirs.
-/
structure RegistrationSound (db : UserTables) (registration : Registration) : Prop where
  wasOpen : registration.registrationOpen = true
  located : db.userOf registration.identity = some registration.userId

/-- How a token has come to its owner: in a login of that user, either made for it or presented
at the start of that login. -/
structure GrantSound (db : UserTables) (inserted : List InsertedState)
    (attested : List AttestedLogin) (opened : List (Option AuthTokenSecret))
    (grant : TokenGrant) : Prop where
  owner : db.ownerOf grant.tokenId = some grant.userId
  login : ∃ identity, { serial := grant.serial, identity } ∈ attested ∧
    db.userOf identity = some grant.userId
  presented : grant.preferred = true → ∃ new secret, inserted[grant.serial]? = some new ∧
    new.call.bindTokenId = some grant.tokenId ∧ opened[grant.serial]? = some (some secret) ∧
      secret.id = grant.tokenId

/-- A session that was handed out is of the user of the identity that was attested, who has a token.
-/
structure IssueSound (db : UserTables) (attested : List AttestedLogin)
    (issued : IssuedSession) : Prop where
  login : { serial := issued.serial, identity := issued.identity } ∈ attested
  located : db.userOf issued.identity = some issued.userId
  token : ∃ tokenId, db.ownerOf tokenId = some issued.userId

/-! Nothing of this is lost while the tables and the lists grow. -/

section Mono

variable {db db' : UserTables} {accepted accepted' : List AcceptedState}
  {attested attested' : List AttestedLogin}

theorem LoginKnown.mono {login : UserLogin} (known : LoginKnown accepted attested login)
    (states : accepted ⊆ accepted') (logins : attested ⊆ attested') :
    LoginKnown accepted' attested' login := by
  obtain ⟨attested, state, member, same⟩ := known
  exact ⟨logins attested, state, states member, same⟩

theorem LoggedIn.mono {login : UserLogin} {user : UserIdentity}
    (loggedIn : LoggedIn db accepted attested login user) (grows : db.Grows db')
    (states : accepted ⊆ accepted') (logins : attested ⊆ attested') :
    LoggedIn db' accepted' attested' login user where
  known := loggedIn.known.mono states logins
  provider := loggedIn.provider
  located := grows.accounts _ _ loggedIn.located

theorem StageSound.mono {stage : CallbackStage} (sound : StageSound db accepted attested stage)
    (grows : db.Grows db') (states : accepted ⊆ accepted') (logins : attested ⊆ attested') :
    StageSound db' accepted' attested' stage := by
  cases stage with
  | idle => trivial
  | consuming => trivial
  | consumed state => exact states sound
  | identified login => exact LoginKnown.mono sound states logins
  | checking login => exact LoginKnown.mono sound states logins
  | admitted login registrationOpen =>
      refine ⟨sound.1.mono states logins, fun closed => ?_⟩
      obtain ⟨userId, located⟩ := Option.isSome_iff_exists.1 (sound.2 closed)
      rw [grows.accounts _ _ located]
      rfl
  | upserted login user => exact LoggedIn.mono sound grows states logins
  | unbound login user => exact LoggedIn.mono sound grows states logins
  | creating login user attempts => exact LoggedIn.mono sound grows states logins
  | preferring login user secret =>
      exact ⟨sound.1.mono grows states logins, sound.2.1, grows.tokens _ sound.2.2⟩
  | bound login user =>
      obtain ⟨tokenId, owned⟩ := sound.2
      exact ⟨sound.1.mono grows states logins, tokenId, grows.owners _ _ owned⟩
  | cleaned login user now =>
      obtain ⟨tokenId, owned⟩ := sound.2
      exact ⟨sound.1.mono grows states logins, tokenId, grows.owners _ _ owned⟩

theorem RegistrationSound.mono {registration : Registration}
    (sound : RegistrationSound db registration) (grows : db.Grows db') :
    RegistrationSound db' registration where
  wasOpen := sound.wasOpen
  located := grows.accounts _ _ sound.located

/-- What stands at an index of a list that only grows stays there. -/
theorem getElem?_of_prefix {α : Type*} {xs ys : List α} {n : Nat} {x : α} (grows : xs <+: ys)
    (there : xs[n]? = some x) : ys[n]? = some x := by
  obtain ⟨rest, rfl⟩ := grows
  rw [List.getElem?_append_left (List.getElem?_eq_some_iff.1 there).1]
  exact there

theorem GrantSound.mono {inserted inserted' : List InsertedState}
    {opened opened' : List (Option AuthTokenSecret)} {grant : TokenGrant}
    (sound : GrantSound db inserted attested opened grant) (grows : db.Grows db')
    (states : inserted <+: inserted') (logins : attested ⊆ attested')
    (shown : opened <+: opened') : GrantSound db' inserted' attested' opened' grant where
  owner := grows.owners _ _ sound.owner
  login := by
    obtain ⟨identity, member, located⟩ := sound.login
    exact ⟨identity, logins member, grows.accounts _ _ located⟩
  presented := by
    intro preferred
    obtain ⟨new, secret, there, named, start, same⟩ := sound.presented preferred
    exact ⟨new, secret, getElem?_of_prefix states there, named, getElem?_of_prefix shown start,
      same⟩

theorem IssueSound.mono {issued : IssuedSession} (sound : IssueSound db attested issued)
    (grows : db.Grows db') (logins : attested ⊆ attested') : IssueSound db' attested' issued where
  login := logins sound.login
  located := grows.accounts _ _ sound.located
  token := by
    obtain ⟨tokenId, owned⟩ := sound.token
    exact ⟨tokenId, grows.owners _ _ owned⟩

/-- The login state that a callback holds has been accepted. -/
theorem StageSound.serial_accepted {stage : CallbackStage} {serial : Nat}
    (sound : StageSound db accepted attested stage) (held : stage.serial? = some serial) :
    serial ∈ accepted.map AcceptedState.serial := by
  have known (login : UserLogin) (known : LoginKnown accepted attested login) :
      login.serial ∈ accepted.map AcceptedState.serial := by
    obtain ⟨state, member, same, -⟩ := known.accepted
    exact List.mem_map.2 ⟨state, member, same⟩
  cases stage with
  | idle => cases held
  | consuming => cases held
  | consumed state => cases held; exact List.mem_map_of_mem sound
  | identified login => cases held; exact known login sound
  | checking login => cases held; exact known login sound
  | admitted login registrationOpen => cases held; exact known login sound.1
  | upserted login user => cases held; exact known login sound.known
  | unbound login user => cases held; exact known login sound.known
  | creating login user attempts => cases held; exact known login sound.known
  | preferring login user secret => cases held; exact known login sound.1.known
  | bound login user => cases held; exact known login sound.1.known
  | cleaned login user now => cases held; exact known login sound.1.known

end Mono

/-! ### The invariant -/

/-- One user to an identity and one identity to a user; who is a user has registered; a token of
an owner is there, and has been granted. -/
structure TablesSound (db : UserTables) (registered : List Registration)
    (grants : List TokenGrant) : Prop where
  injective : ∀ first second userId, db.userOf first = some userId →
    db.userOf second = some userId → first = second
  accountUsers : ∀ identity userId, db.userOf identity = some userId → db.HasUser userId
  usersRegistered : ∀ userId, db.HasUser userId →
    ∃ registration ∈ registered, registration.userId = userId
  ownersGranted : ∀ tokenId userId, db.ownerOf tokenId = some userId →
    ∃ grant ∈ grants, grant.tokenId = tokenId ∧ grant.userId = userId
  ownersTokens : ∀ tokenId userId, db.ownerOf tokenId = some userId → db.HasToken tokenId

/-- A session row is one that has been handed out. -/
def SessionsIssued (sessions : KeyedTable String UserSessionRow)
    (issuedSessions : List IssuedSession) : Prop :=
  ∀ token row, sessions.find token = some row →
    ∃ issued ∈ issuedSessions, issued.token = token ∧ issued.userId = row.userId ∧
      issued.identity.1 = row.provider ∧ issued.expiresAt = row.expiresAt

/-- A token that a start may present is one that was handed out. -/
def PresentedSound (issuedTokens : List AuthTokenSecret) (presented : Option AuthTokenSecret) :
    Prop :=
  ∀ secret, presented = some secret →
    trimmedNonEmpty (some secret.id) = some secret.id ∧ secret ∈ issuedTokens

/-- The call carries to its callback the id of the token that its start presented. -/
structure Carries (issuedTokens : List AuthTokenSecret) (call : InsertCall)
    (presented : Option AuthTokenSecret) : Prop where
  named : call.bindTokenId = presented.map AuthTokenSecret.id
  sound : PresentedSound issuedTokens presented

/-- The task has called the insert, which has not made its row yet. -/
def Inserting (logins : LoginStates) (task : Nat) (call : InsertCall) : Prop :=
  logins.inserts task = .called call ∨ logins.inserts task = .cleaned call

/-- Every login state has a start, and carries what that start presented. -/
structure StartsSound (logins : LoginStates) (starts : Nat → Option (Option AuthTokenSecret))
    (inserting : Nat → Option AuthTokenSecret) (opened : List (Option AuthTokenSecret))
    (issuedTokens : List AuthTokenSecret) : Prop where
  starts : ∀ task presented, starts task = some presented → PresentedSound issuedTokens presented
  calls : ∀ task call, Inserting logins task call → Carries issuedTokens call (inserting task)
  states : List.Forall₂ (fun new presented => Carries issuedTokens new.call presented)
    logins.inserted opened

/-- A login state is held by one callback, read once and turned into one session. -/
structure SerialsSound (callbacks : Nat → CallbackStage) (accepted : List AcceptedState)
    (attested : List AttestedLogin) (issuedSessions : List IssuedSession) : Prop where
  apart : ∀ task other serial, (callbacks task).serial? = some serial →
    (callbacks other).serial? = some serial → task = other
  held : ∀ task serial, (callbacks task).serial? = some serial →
    serial ∉ issuedSessions.map IssuedSession.serial
  unread : ∀ task state, callbacks task = .consumed state →
    state.serial ∉ attested.map AttestedLogin.serial
  known : ∀ login ∈ attested, login.serial ∈ accepted.map AcceptedState.serial
  attestedOnce : (attested.map AttestedLogin.serial).Nodup
  issuedOnce : (issuedSessions.map IssuedSession.serial).Nodup

/-- The invariant of the logins: each table, each handler in flight, and each thing done so far. -/
structure UserLoginsSound (s : UserLogins) : Prop where
  states : LoginStateInvariant s.logins
  access : ∀ id, TokenHistory none s.issuedTokens id (s.db.tokens.find id)
  starts : StartsSound s.logins s.starts s.inserting s.opened s.issuedTokens
  tables : TablesSound s.db s.registered s.grants
  sessions : SessionsIssued s.db.userSessions s.issuedSessions
  serials : SerialsSound s.callbacks s.logins.accepted s.attested s.issuedSessions
  registered : ∀ registration ∈ s.registered, RegistrationSound s.db registration
  grants : ∀ grant ∈ s.grants, GrantSound s.db s.logins.inserted s.attested s.opened grant
  issued : ∀ issued ∈ s.issuedSessions, IssueSound s.db s.attested issued
  stages : ∀ task, StageSound s.db s.logins.accepted s.attested (s.callbacks task)

/-! ### Login states -/

/-- A consume leaves the inserts alone and accepts states at the end of the list. -/
theorem consumeStatement_keeps {s s' : LoginStates} {task : Nat} {phase : ConsumePhase}
    (taken : Store.consumeStatement s task phase = some s') :
    s'.inserted = s.inserted ∧ s'.inserts = s.inserts ∧ s.accepted <+: s'.accepted := by
  cases phase with
  | idle => cases taken
  | called call =>
      simp only [Store.consumeStatement] at taken
      split at taken
      · cases taken
      · cases taken
        exact ⟨rfl, rfl, List.prefix_rfl⟩
  | cleaned call copy =>
      simp only [Store.consumeStatement] at taken
      split at taken <;> cases taken <;> exact ⟨rfl, rfl, List.prefix_rfl⟩
  | found call copy row =>
      simp only [Store.consumeStatement] at taken
      split at taken <;> cases taken <;> exact ⟨rfl, rfl, List.prefix_rfl⟩
  | consumed call copy row =>
      cases taken
      exact ⟨rfl, rfl, List.prefix_append _ _⟩

section

variable {s s' : LoginStates}

/-- A task that goes on to a phase of a call, or ends. -/
theorem Inserting.of_setInsert {task other : Nat} {phase : InsertPhase} {call : InsertCall}
    (inserting : Inserting (s.setInsert task phase) other call) :
    (Inserting s other call ∧ other ≠ task) ∨
      other = task ∧ (phase = .called call ∨ phase = .cleaned call) := by
  change Function.update s.inserts task phase other = _ ∨
    Function.update s.inserts task phase other = _ at inserting
  by_cases same : other = task
  · subst same
    rw [Function.update_self] at inserting
    exact .inr ⟨rfl, inserting⟩
  · rw [Function.update_of_ne same] at inserting
    exact .inl ⟨inserting, same⟩

/-- What a step does to the inserts: no new call but that of an insert, and one more login state
where a task makes the row of its call. -/
structure InsertsStep (s : LoginStates) (action : LoginStateAction) (s' : LoginStates) : Prop where
  calls : ∀ task call, Inserting s' task call →
    (Inserting s task call ∧ ∀ call', action ≠ .insert task call') ∨ action = .insert task call
  inserted : s'.inserted = s.inserted ∨ ∃ task state call, action = .insertRow task state ∧
    Inserting s task call ∧ s'.inserted = s.inserted ++ [⟨state, call⟩]

theorem InsertsStep.of_same {action : LoginStateAction} (inserted : s'.inserted = s.inserted)
    (inserts : s'.inserts = s.inserts) (others : ∀ task call, action ≠ .insert task call) :
    InsertsStep s action s' where
  calls := by
    intro task call inserting
    rw [Inserting, inserts] at inserting
    exact .inl ⟨inserting, others task⟩
  inserted := .inl inserted

/-- Only the statement that makes a row adds a login state, the one of the call that its task has
made. -/
theorem insertsStep {action : LoginStateAction} (taken : loginStateStep s action = some s') :
    InsertsStep s action s' := by
  cases action with
  | insert task call =>
      simp only [loginStateStep] at taken
      split at taken
      case h_2 => cases taken
      case h_1 phase =>
        cases taken
        refine ⟨fun other call' inserting => ?_, .inl rfl⟩
        rcases inserting.of_setInsert with ⟨before, different⟩ | ⟨rfl, same | same⟩
        · refine .inl ⟨before, fun call' insert => ?_⟩
          cases insert
          exact different rfl
        · cases same
          exact .inr rfl
        · cases same
  | insertClean task =>
      simp only [loginStateStep] at taken
      split at taken
      case h_2 => cases taken
      case h_1 call phase free =>
        cases taken
        refine ⟨fun other call' inserting => .inl ⟨?_, by rintro _ ⟨⟩⟩, .inl rfl⟩
        rcases inserting.of_setInsert with before | ⟨rfl, same | same⟩
        · exact before.1
        · cases same
        · cases same
          exact .inl phase
  | insertRow task state =>
      simp only [loginStateStep] at taken
      split at taken
      case h_2 => cases taken
      case h_1 call phase free =>
        split at taken
        case h_1 =>
          cases taken
          exact .of_same rfl rfl (by rintro _ _ ⟨⟩)
        case h_2 =>
          cases taken
          refine ⟨fun other call' inserting => .inl ⟨?_, by rintro _ ⟨⟩⟩,
            .inr ⟨task, state, call, rfl, .inr phase, rfl⟩⟩
          rcases inserting.of_setInsert with before | ⟨rfl, same | same⟩
          · exact before.1
          · cases same
          · cases same
  | abandonInsert task =>
      cases taken
      refine ⟨fun other call inserting => .inl ⟨?_, by rintro _ ⟨⟩⟩, .inl rfl⟩
      rcases inserting.of_setInsert with before | ⟨rfl, same | same⟩
      · exact before.1
      · cases same
      · cases same
  | consume task call =>
      simp only [loginStateStep] at taken
      split at taken
      case h_2 => cases taken
      case h_1 =>
        cases taken
        exact .of_same rfl rfl (by rintro _ _ ⟨⟩)
  | consumeStatement task =>
      obtain ⟨inserted, inserts, -⟩ := consumeStatement_keeps taken
      exact .of_same inserted inserts (by rintro _ _ ⟨⟩)
  | abandonConsume task =>
      cases taken
      exact .of_same rfl rfl (by rintro _ _ ⟨⟩)

theorem InsertsStep.grows {action : LoginStateAction} (step : InsertsStep s action s') :
    s.inserted <+: s'.inserted := by
  rcases step.inserted with same | ⟨task, state, call, -, -, more⟩
  · exact same ▸ List.prefix_rfl
  · rw [more]
    exact List.prefix_append _ _

/-- The list of accepted states only grows. -/
theorem accepted_grows {action : LoginStateAction} (taken : loginStateStep s action = some s') :
    s.accepted <+: s'.accepted := by
  cases action with
  | consumeStatement task => exact (consumeStatement_keeps taken).2.2
  | insert task call =>
      simp only [loginStateStep] at taken
      split at taken <;> cases taken
      exact List.prefix_rfl
  | insertClean task =>
      simp only [loginStateStep] at taken
      split at taken <;> cases taken
      exact List.prefix_rfl
  | insertRow task state =>
      simp only [loginStateStep] at taken
      split at taken
      case h_2 => cases taken
      case h_1 => split at taken <;> cases taken <;> exact List.prefix_rfl
  | abandonInsert task =>
      cases taken
      exact List.prefix_rfl
  | consume task call =>
      simp only [loginStateStep] at taken
      split at taken <;> cases taken
      exact List.prefix_rfl
  | abandonConsume task =>
      cases taken
      exact List.prefix_rfl

end

/-! ### What starts present -/

section

variable {logins logins' : LoginStates} {starts : Nat → Option (Option AuthTokenSecret)}
  {inserting : Nat → Option AuthTokenSecret} {opened : List (Option AuthTokenSecret)}
  {issuedTokens issuedTokens' : List AuthTokenSecret}

theorem PresentedSound.mono {presented : Option AuthTokenSecret}
    (sound : PresentedSound issuedTokens presented) (more : issuedTokens ⊆ issuedTokens') :
    PresentedSound issuedTokens' presented := by
  intro secret same
  exact ⟨(sound secret same).1, more (sound secret same).2⟩

theorem Carries.mono {call : InsertCall} {presented : Option AuthTokenSecret}
    (carries : Carries issuedTokens call presented) (more : issuedTokens ⊆ issuedTokens') :
    Carries issuedTokens' call presented :=
  ⟨carries.named, carries.sound.mono more⟩

theorem StartsSound.mono (sound : StartsSound logins starts inserting opened issuedTokens)
    (more : issuedTokens ⊆ issuedTokens') :
    StartsSound logins starts inserting opened issuedTokens' where
  starts := fun task presented started => (sound.starts task presented started).mono more
  calls := fun task call calls => (sound.calls task call calls).mono more
  states := sound.states.imp fun _ _ carries => carries.mono more

/-- A step that neither calls an insert nor makes a login state. -/
theorem StartsSound.of_step (sound : StartsSound logins starts inserting opened issuedTokens)
    {action : LoginStateAction} (step : InsertsStep logins action logins')
    (calls : ∀ task call, action ≠ .insert task call)
    (rows : ∀ task state, action ≠ .insertRow task state) :
    StartsSound logins' starts inserting opened issuedTokens where
  starts := sound.starts
  calls := by
    intro task call inserting
    rcases step.calls task call inserting with ⟨before, -⟩ | insert
    · exact sound.calls task call before
    · exact absurd insert (calls task call)
  states := by
    rcases step.inserted with same | ⟨task, state, call, row, -⟩
    · rw [same]
      exact sound.states
    · exact absurd row (rows task state)

/-- A valid start calls the insert, and ends. -/
theorem StartsSound.insert (sound : StartsSound logins starts inserting opened issuedTokens)
    {task : Nat} {call : InsertCall} {presented : Option AuthTokenSecret}
    (step : InsertsStep logins (.insert task call) logins') (started : starts task = some presented)
    (named : call.bindTokenId = presented.map AuthTokenSecret.id) :
    StartsSound logins' (Function.update starts task none)
      (Function.update inserting task presented) opened issuedTokens where
  starts := by
    intro other presented' started'
    by_cases same : other = task
    · subst same
      rw [Function.update_self] at started'
      cases started'
    · rw [Function.update_of_ne same] at started'
      exact sound.starts other presented' started'
  calls := by
    intro other call' calls
    rcases step.calls other call' calls with ⟨before, others⟩ | insert
    · have different : other ≠ task := by
        rintro rfl
        exact others call rfl
      rw [Function.update_of_ne different]
      exact sound.calls other call' before
    · cases insert
      rw [Function.update_self]
      exact ⟨named, sound.starts task presented started⟩
  states := by
    rcases step.inserted with same | ⟨task', state, call', row, -⟩
    · rw [same]
      exact sound.states
    · cases row

/-- A task makes the row of its call. -/
theorem StartsSound.insertRow (sound : StartsSound logins starts inserting opened issuedTokens)
    {task : Nat} {state : String} (step : InsertsStep logins (.insertRow task state) logins') :
    StartsSound logins' starts inserting
      (opened ++ if logins.inserted.length < logins'.inserted.length then [inserting task] else [])
      issuedTokens where
  starts := sound.starts
  calls := by
    intro other call inserting
    rcases step.calls other call inserting with ⟨before, -⟩ | insert
    · exact sound.calls other call before
    · cases insert
  states := by
    rcases step.inserted with same | ⟨task', state', call, row, inserting, more⟩
    · rw [same, if_neg (Nat.lt_irrefl _), List.append_nil]
      exact sound.states
    · cases row
      rw [more, if_pos (by simp)]
      exact List.rel_append sound.states (.cons (sound.calls task call inserting) .nil)

/-- The start of a login state. -/
theorem StartsSound.presented (sound : StartsSound logins starts inserting opened issuedTokens)
    {serial : Nat} {new : InsertedState} (there : logins.inserted[serial]? = some new) :
    ∃ presented, opened[serial]? = some presented ∧ Carries issuedTokens new.call presented := by
  obtain ⟨bound, rfl⟩ := List.getElem?_eq_some_iff.1 there
  have bound' : serial < opened.length := sound.states.length_eq ▸ bound
  exact ⟨opened[serial], List.getElem?_eq_getElem bound', sound.states.get bound bound'⟩

end

/-! ### The token that a start presents -/

theorem isWhiteSpace_of_isAlphanum {c : Char} (letter : c.isAlphanum = true) :
    isWhiteSpace c = false := by
  have bounds := bounds_of_isAlphanum letter
  simp only [isWhiteSpace, Bool.or_eq_false_iff, Bool.and_eq_false_iff, decide_eq_false_iff_not]
  omega

theorem trim_of_alphanumeric {s : String} (letters : Alphanumeric s) : trim s = s :=
  trim_of_free fun c member => isWhiteSpace_of_isAlphanum (letters c member)

theorem trimmedNonEmpty_id {id secret : String} (shape : IssuedShape id secret) :
    trimmedNonEmpty (some id) = some id := by
  have nonempty : id ≠ "" := by
    rintro rfl
    exact absurd shape.idSize (by decide)
  rw [trimmedNonEmpty, Option.map_some, trim_of_alphanumeric shape.idLetters, Option.filter_some,
    if_pos (decide_eq_true nonempty)]

theorem trim_composeFullToken {id secret : String} (shape : IssuedShape id secret) :
    trim (composeFullToken id secret) = composeFullToken id secret := by
  have mark : ∀ c ∈ "th-".toList, isWhiteSpace c = false := by simp [isWhiteSpace]
  have dash : ∀ c ∈ "-".toList, isWhiteSpace c = false := by simp [isWhiteSpace]
  apply trim_of_free
  intro c member
  rw [composeFullToken, String.toList_append, String.toList_append, String.toList_append] at member
  rcases List.mem_append.1 member with front | member
  · exact mark c front
  rcases List.mem_append.1 member with letter | member
  · exact isWhiteSpace_of_isAlphanum (shape.idLetters c letter)
  rcases List.mem_append.1 member with middle | letter
  · exact dash c middle
  · exact isWhiteSpace_of_isAlphanum (shape.secretLetters c letter)

theorem parseFullTokenId_composeFullToken {id secret : String} (shape : IssuedShape id secret) :
    parseFullTokenId (composeFullToken id secret) = some id := by
  have split : (stripPrefix "th-" (composeFullToken id secret)).bind (splitOnce "-") =
      some (id, secret) := splitToken_composeFullToken shape.idLetters secret
  obtain ⟨rest, stripped, cut⟩ := Option.bind_eq_some_iff.1 split
  simp only [parseFullTokenId, trim_composeFullToken shape, stripped, cut, Option.bind_eq_bind,
    Option.bind_some, utf8ByteSize_of_alphanumeric shape.idLetters,
    utf8ByteSize_of_alphanumeric shape.secretLetters, shape.idSize]
  have idLetters : id.toList.all Char.isAlphanum = true := List.all_eq_true.2 shape.idLetters
  have secretLetters : secret.toList.all Char.isAlphanum = true :=
    List.all_eq_true.2 shape.secretLetters
  simp [idLetters, secretLetters, shape.secretSize]

/-- What a start keeps is the id of a live token that it was shown. -/
theorem bindTokenIdOf_spec {nullReads : Bool} {tokens : AuthTokens} {token : Option String}
    {id : String} (sound : TokensSound tokens)
    (kept : bindTokenIdOf nullReads tokens token = some (some id)) :
    ∃ row, LiveToken tokens id row ∧
      trimmedNonEmpty token = some (composeFullToken id row.secret) ∧
      trimmedNonEmpty (some id) = some id := by
  unfold bindTokenIdOf at kept
  split at kept
  case h_1 => cases kept
  case h_2 rawToken shown =>
    obtain ⟨valid, validated, parsed⟩ := Option.map_eq_some_iff.1 kept
    split at parsed
    case isFalse => cases parsed
    case isTrue accepted =>
      subst accepted
      obtain ⟨other, row, live, rfl⟩ := liveToken_of_validateAccessToken validated
      have shape := sound other row live.found live.kept
      rw [parseFullTokenId_composeFullToken shape] at parsed
      cases parsed
      exact ⟨row, live, shown, trimmedNonEmpty_id shape⟩

/-! ### The callback of a task -/

theorem update_cases {callbacks : Nat → CallbackStage} {task : Nat} {stage : CallbackStage}
    {P : Nat → CallbackStage → Prop} (own : P task stage)
    (others : ∀ other, other ≠ task → P other (callbacks other)) (other : Nat) :
    P other (Function.update callbacks task stage other) := by
  by_cases same : other = task
  · subst same
    rw [Function.update_self]
    exact own
  · rw [Function.update_of_ne same]
    exact others other same

namespace SerialsSound

variable {callbacks : Nat → CallbackStage} {accepted : List AcceptedState}
  {attested : List AttestedLogin} {issuedSessions : List IssuedSession}

/-- Of two callbacks that hold one login state, after one of them has moved on, both are that
one. -/
theorem apart_update {task : Nat} {stage : CallbackStage}
    (sound : SerialsSound callbacks accepted attested issuedSessions)
    (mine : ∀ other serial, other ≠ task → (callbacks other).serial? = some serial →
      stage.serial? ≠ some serial) (first second serial : Nat)
    (one : (Function.update callbacks task stage first).serial? = some serial)
    (two : (Function.update callbacks task stage second).serial? = some serial) :
    first = second := by
  by_cases isFirst : first = task <;> by_cases isSecond : second = task
  · exact isFirst.trans isSecond.symm
  · subst isFirst
    rw [Function.update_self] at one
    rw [Function.update_of_ne isSecond] at two
    exact (mine second serial isSecond two one).elim
  · subst isSecond
    rw [Function.update_of_ne isFirst] at one
    rw [Function.update_self] at two
    exact (mine first serial isFirst one two).elim
  · rw [Function.update_of_ne isFirst] at one
    rw [Function.update_of_ne isSecond] at two
    exact sound.apart first second serial one two

/-- A callback goes on with its login state, or gives it up. -/
theorem setCallback {task : Nat} {stage : CallbackStage}
    (sound : SerialsSound callbacks accepted attested issuedSessions)
    (held : stage.serial? = (callbacks task).serial? ∨ stage.serial? = none)
    (read : ∀ state, stage ≠ .consumed state) :
    SerialsSound (Function.update callbacks task stage) accepted attested issuedSessions where
  apart := by
    apply sound.apart_update
    intro other serial apart holds mine
    rcases held with same | gone
    · exact apart (sound.apart other task serial holds (same ▸ mine))
    · rw [gone] at mine
      cases mine
  held := by
    apply update_cases (P := fun _ stage => ∀ serial, stage.serial? = some serial →
      serial ∉ issuedSessions.map IssuedSession.serial)
    · intro serial mine
      rcases held with same | gone
      · exact sound.held task serial (same ▸ mine)
      · rw [gone] at mine
        cases mine
    · exact fun other _ => sound.held other
  unread := by
    apply update_cases (P := fun _ stage => ∀ state, stage = .consumed state →
      state.serial ∉ attested.map AttestedLogin.serial)
    · exact fun state same => (read state same).elim
    · exact fun other _ => sound.unread other
  known := sound.known
  attestedOnce := sound.attestedOnce
  issuedOnce := sound.issuedOnce

/-- A callback takes up a login state that has just been accepted. -/
theorem accept {task : Nat} {state : AcceptedState} {accepted' : List AcceptedState}
    (sound : SerialsSound callbacks accepted attested issuedSessions)
    (grows : accepted ⊆ accepted')
    (new : state.serial ∉ accepted.map AcceptedState.serial)
    (holders : ∀ other serial, (callbacks other).serial? = some serial →
      serial ∈ accepted.map AcceptedState.serial)
    (issued : ∀ session ∈ issuedSessions, ∃ login ∈ attested, login.serial = session.serial) :
    SerialsSound (Function.update callbacks task (.consumed state)) accepted' attested
      issuedSessions where
  apart := by
    apply sound.apart_update
    intro other serial _ holds mine
    cases mine
    exact new (holders other _ holds)
  held := by
    apply update_cases (P := fun _ stage => ∀ serial, stage.serial? = some serial →
      serial ∉ issuedSessions.map IssuedSession.serial)
    · rintro serial ⟨⟩ member
      obtain ⟨session, listed, same⟩ := List.mem_map.1 member
      obtain ⟨login, known, twin⟩ := issued session listed
      exact new (same ▸ twin ▸ sound.known login known)
    · exact fun other _ => sound.held other
  unread := by
    apply update_cases (P := fun _ stage => ∀ state, stage = .consumed state →
      state.serial ∉ attested.map AttestedLogin.serial)
    · rintro other ⟨⟩ member
      obtain ⟨login, known, same⟩ := List.mem_map.1 member
      exact new (same ▸ sound.known login known)
    · exact fun other _ => sound.unread other
  known := fun login member => List.map_subset _ grows (sound.known login member)
  attestedOnce := sound.attestedOnce
  issuedOnce := sound.issuedOnce

/-- The provider answers to the callback that holds the login state. -/
theorem attest {task : Nat} {state : AcceptedState} {login : AttestedLogin}
    {stage : CallbackStage} (sound : SerialsSound callbacks accepted attested issuedSessions)
    (holds : callbacks task = .consumed state) (own : login.serial = state.serial)
    (member : state ∈ accepted) (next : stage.serial? = some state.serial)
    (read : ∀ state, stage ≠ .consumed state) :
    SerialsSound (Function.update callbacks task stage) accepted (login :: attested)
      issuedSessions := by
  have moved : SerialsSound (Function.update callbacks task stage) accepted attested
      issuedSessions := sound.setCallback (.inl (by rw [next, holds]; rfl)) read
  refine { moved with unread := ?_, known := ?_, attestedOnce := ?_ }
  · apply update_cases (P := fun _ stage => ∀ state, stage = .consumed state →
      state.serial ∉ (login :: attested).map AttestedLogin.serial)
    · exact fun other same => (read other same).elim
    · intro other apart twin same listed
      rcases List.mem_cons.1 listed with new | old
      · refine apart (sound.apart other task state.serial ?_ ?_)
        · rw [same, ← own, ← new]
          rfl
        · rw [holds]
          rfl
      · exact sound.unread other twin same old
  · intro known listed
    rcases List.mem_cons.1 listed with rfl | old
    · rw [own]
      exact List.mem_map_of_mem member
    · exact sound.known known old
  · rw [List.map_cons, List.nodup_cons, own]
    exact ⟨sound.unread task state holds, sound.attestedOnce⟩

/-- A session is made of the login state, which nothing holds any more. -/
theorem issue {task : Nat} {session : IssuedSession}
    (sound : SerialsSound callbacks accepted attested issuedSessions)
    (holds : (callbacks task).serial? = some session.serial) :
    SerialsSound (Function.update callbacks task .idle) accepted attested
      (session :: issuedSessions) := by
  have moved : SerialsSound (Function.update callbacks task .idle) accepted attested
      issuedSessions := sound.setCallback (.inr rfl) (by simp)
  refine { moved with held := ?_, issuedOnce := ?_ }
  · apply update_cases (P := fun _ stage => ∀ serial, stage.serial? = some serial →
      serial ∉ (session :: issuedSessions).map IssuedSession.serial)
    · rintro serial ⟨⟩
    · intro other apart serial mine listed
      rcases List.mem_cons.1 listed with rfl | old
      · exact apart (sound.apart other task _ mine holds)
      · exact sound.held other serial mine old
  · rw [List.map_cons, List.nodup_cons]
    exact ⟨sound.held task _ holds, sound.issuedOnce⟩

end SerialsSound

/-! ### The tables -/

theorem userOf_of_oauthAccountExists {db : UserTables} {identity : String × String} :
    oauthAccountExists db identity = (db.userOf identity).isSome := by
  rw [oauthAccountExists, UserTables.userOf, Option.isSome_map]

theorem grows_of_upsertOauthAccount {profile : OAuthAccountProfile}
    {draws : List (RandomString 12)} {now : Int} {db db' : UserTables} {user : UserIdentity}
    (upserted : upsertOauthAccount profile draws now db = some (user, db')) : db.Grows db' := by
  obtain ⟨-, accounts, users, was, tokens, bindings, -⟩ := upsertOauthAccount_userOf upserted
  constructor
  · exact fun userId has => (users userId).2 (.inl has)
  · intro identity userId located
    rw [accounts]
    by_cases own : identity = profile.identity
    · subst own
      rcases was with known | ⟨unknown, -⟩
      · rw [Function.update_self, ← known, located]
      · rw [located] at unknown
        cases unknown
    · rw [Function.update_of_ne own, located]
  · intro tokenId has
    rwa [UserTables.HasToken, tokens]
  · intro tokenId userId owned
    rwa [UserTables.ownerOf, bindings]

/-- Two identities have two users, also after the upsert of one that had none before. -/
theorem TablesSound.upsert {profile : OAuthAccountProfile} {draws : List (RandomString 12)}
    {now : Int} {db db' : UserTables} {user : UserIdentity} {registered : List Registration}
    {grants : List TokenGrant} {registration : Registration}
    (sound : TablesSound db registered grants)
    (upserted : upsertOauthAccount profile draws now db = some (user, db'))
    (made : registration.userId = user.userId) :
    TablesSound db'
      ((if oauthAccountExists db profile.identity then [] else [registration]) ++ registered)
      grants := by
  obtain ⟨-, accounts, users, was, tokens, bindings, -⟩ := upsertOauthAccount_userOf upserted
  have grows := grows_of_upsertOauthAccount upserted
  have only (identity : String × String) (located : db.userOf identity = some user.userId) :
      identity = profile.identity := by
    rcases was with known | ⟨-, fresh⟩
    · exact sound.injective _ _ _ located known
    · exact absurd (sound.accountUsers _ _ located) fresh
  constructor
  · intro first second userId one two
    rw [accounts] at one two
    by_cases isFirst : first = profile.identity <;> by_cases isSecond : second = profile.identity
    · exact isFirst.trans isSecond.symm
    · subst isFirst
      rw [Function.update_self] at one
      rw [Function.update_of_ne isSecond] at two
      cases one
      exact (isSecond (only second two)).elim
    · subst isSecond
      rw [Function.update_of_ne isFirst] at one
      rw [Function.update_self] at two
      cases two
      exact (isFirst (only first one)).elim
    · rw [Function.update_of_ne isFirst] at one
      rw [Function.update_of_ne isSecond] at two
      exact sound.injective first second userId one two
  · intro identity userId located
    rw [accounts] at located
    by_cases own : identity = profile.identity
    · subst own
      rw [Function.update_self] at located
      cases located
      rcases was with known | ⟨unknown, -⟩
      · exact grows.users _ (sound.accountUsers _ _ known)
      · exact (users _).2 (.inr ⟨unknown, rfl⟩)
    · rw [Function.update_of_ne own] at located
      exact grows.users _ (sound.accountUsers _ _ located)
  · intro userId has
    rcases (users userId).1 has with before | ⟨unknown, rfl⟩
    · obtain ⟨old, member, same⟩ := sound.usersRegistered userId before
      exact ⟨old, List.mem_append_right _ member, same⟩
    · refine ⟨registration, List.mem_append_left _ ?_, made⟩
      rw [userOf_of_oauthAccountExists, unknown]
      exact List.mem_singleton_self _
  · intro tokenId userId owned
    rw [UserTables.ownerOf, bindings] at owned
    exact sound.ownersGranted tokenId userId owned
  · intro tokenId userId owned
    rw [UserTables.ownerOf, bindings] at owned
    exact grows.tokens _ (sound.ownersTokens tokenId userId owned)

/-- What a grant of a token does to the tables. -/
structure Granted (db db' : UserTables) (grant : TokenGrant) : Prop where
  owners : db'.ownerOf = Function.update db.ownerOf grant.tokenId (some grant.userId)
  was : db.ownerOf grant.tokenId = none ∨ db.ownerOf grant.tokenId = some grant.userId
  users : db'.users = db.users
  accounts : db'.oauthAccounts = db.oauthAccounts
  sessions : db'.userSessions = db.userSessions
  tokens : ∀ tokenId, db.HasToken tokenId → db'.HasToken tokenId
  token : db'.HasToken grant.tokenId

namespace Granted

variable {db db' : UserTables} {grant : TokenGrant}

theorem grows (granted : Granted db db' grant) : db.Grows db' := by
  constructor
  · intro userId has
    rwa [UserTables.HasUser, granted.users]
  · intro identity userId located
    rwa [UserTables.userOf, granted.accounts]
  · exact granted.tokens
  · intro tokenId userId owned
    rw [granted.owners]
    by_cases own : tokenId = grant.tokenId
    · subst own
      rw [Function.update_self]
      rcases granted.was with none | same
      · rw [owned] at none
        cases none
      · rw [← same, owned]
    · rw [Function.update_of_ne own, owned]

theorem owner (granted : Granted db db' grant) :
    db'.ownerOf grant.tokenId = some grant.userId := by
  rw [granted.owners, Function.update_self]

theorem tables {registered : List Registration} {grants : List TokenGrant}
    (made : List TokenGrant) (granted : Granted db db' grant)
    (sound : TablesSound db registered grants)
    (listed : db.ownerOf grant.tokenId = none → grant ∈ made) :
    TablesSound db' registered (made ++ grants) := by
  have same (identity : String × String) : db'.userOf identity = db.userOf identity := by
    rw [UserTables.userOf, granted.accounts]
    rfl
  constructor
  · intro first second userId one two
    exact sound.injective first second userId ((same _).symm.trans one) ((same _).symm.trans two)
  · intro identity userId located
    exact granted.grows.users _ (sound.accountUsers identity userId ((same _).symm.trans located))
  · intro userId has
    rw [UserTables.HasUser, granted.users] at has
    exact sound.usersRegistered userId has
  · intro tokenId userId owned
    rw [granted.owners] at owned
    have old (owned : db.ownerOf tokenId = some userId) :
        ∃ grant ∈ made ++ grants, grant.tokenId = tokenId ∧ grant.userId = userId := by
      obtain ⟨earlier, member, its⟩ := sound.ownersGranted tokenId userId owned
      exact ⟨earlier, List.mem_append_right _ member, its⟩
    by_cases own : tokenId = grant.tokenId
    · subst own
      rw [Function.update_self] at owned
      rcases granted.was with none | before
      · exact ⟨grant, List.mem_append_left _ (listed none), rfl, Option.some.inj owned⟩
      · exact old (before.trans owned)
    · rw [Function.update_of_ne own] at owned
      exact old owned
  · intro tokenId userId owned
    rw [granted.owners] at owned
    by_cases own : tokenId = grant.tokenId
    · exact own ▸ granted.token
    · rw [Function.update_of_ne own] at owned
      exact granted.tokens _ (sound.ownersTokens tokenId userId owned)

end Granted

theorem granted_bindPreferredToken {db db' : UserTables} {now : Int} {grant : TokenGrant}
    (token : db.HasToken grant.tokenId)
    (bound : bindPreferredToken grant.userId grant.tokenId now db = some db') :
    Granted db db' grant := by
  obtain ⟨owners, was, users, accounts, tokens, sessions⟩ := bindPreferredToken_ownerOf bound
  refine ⟨owners, was, users, accounts, sessions, ?_, ?_⟩
  · intro tokenId has
    rwa [UserTables.HasToken, tokens]
  · rwa [UserTables.HasToken, tokens]

theorem granted_createUserToken {db db' : UserTables} {note : String} {draws : List TokenDraw}
    {now : Int} {secret : AuthTokenSecret} {grant : TokenGrant} (named : grant.tokenId = secret.id)
    (made : createUserToken grant.userId note draws now db = .created secret db') :
    Granted db db' grant := by
  obtain ⟨draw, rfl, -, free, owners, tokens, users, accounts, sessions⟩ :=
    createUserToken_ownerOf made
  have own : grant.tokenId = draw.id.text := named
  refine ⟨own ▸ owners, .inl (own ▸ free), users, accounts, sessions, ?_, ?_⟩
  · intro tokenId has
    rw [UserTables.HasToken, tokens, insertToken, KeyedTable.isSome_find_upsert]
    exact .inr has
  · rw [UserTables.HasToken, tokens, insertToken, KeyedTable.isSome_find_upsert]
    exact .inl own

end TavilyHikari.Server
