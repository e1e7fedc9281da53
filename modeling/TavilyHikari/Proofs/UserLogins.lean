/-
Module: TavilyHikari.Proofs.UserLogins
Purpose: The logins of the console over every interleaving: which user a session stands for, who
  may have become a user, and how a token has come to its owner.
Trusted boundary: kernel-checked
Main exports: userLoginsSound_step, Follows, userLogins_alongRun, tokenOwners_alongRun
-/
import TavilyHikari.Proofs.UserLoginFacts

namespace TavilyHikari.Server

open Library Store Store.UserAccounts

/-! ### Steps -/

namespace UserLoginsSound

variable {s : UserLogins}

/-- The tokens that are live are well formed, as their histories say. -/
theorem tokensSound (sound : UserLoginsSound s) : TokensSound s.db.tokens :=
  fun id row found kept => (sound.access id).shape row found kept

/-- A callback goes on with the login state that it holds, or ends. -/
theorem setCallback (sound : UserLoginsSound s) {task : Nat} {stage : CallbackStage}
    (holds : StageSound s.db s.logins.accepted s.attested stage)
    (held : stage.serial? = (s.callbacks task).serial? ∨ stage.serial? = none)
    (read : ∀ state, stage ≠ .consumed state) : UserLoginsSound (s.setCallback task stage) :=
  { sound with
    serials := sound.serials.setCallback held read
    stages := update_cases (P := fun _ => StageSound s.db s.logins.accepted s.attested) holds
      fun other _ => sound.stages other }

/-- A callback may end anywhere. -/
theorem idle (sound : UserLoginsSound s) (task : Nat) :
    UserLoginsSound (s.setCallback task .idle) :=
  sound.setCallback trivial (.inr rfl) (by simp)

/-- A step of the tables that takes nothing back. -/
theorem withDb (sound : UserLoginsSound s) {db : UserTables} {registered : List Registration}
    {grants : List TokenGrant} {issuedTokens : List AuthTokenSecret} (grows : s.db.Grows db)
    (access : ∀ id, TokenHistory none issuedTokens id (db.tokens.find id))
    (more : s.issuedTokens ⊆ issuedTokens) (tables : TablesSound db registered grants)
    (sessions : SessionsIssued db.userSessions s.issuedSessions)
    (registrations : ∀ registration ∈ registered,
      registration ∈ s.registered ∨ RegistrationSound db registration)
    (granted : ∀ grant ∈ grants,
      grant ∈ s.grants ∨ GrantSound db s.logins.inserted s.attested s.opened grant) :
    UserLoginsSound { s with db, registered, grants, issuedTokens } where
  states := sound.states
  access := access
  starts := sound.starts.mono more
  tables := tables
  sessions := sessions
  serials := sound.serials
  registered := by
    intro registration member
    rcases registrations registration member with old | new
    · exact (sound.registered registration old).mono grows
    · exact new
  grants := by
    intro grant member
    rcases granted grant member with old | new
    · exact (sound.grants grant old).mono grows List.prefix_rfl (List.Subset.refl _)
        List.prefix_rfl
    · exact new
  issued := fun issued member => (sound.issued issued member).mono grows (List.Subset.refl _)
  stages := fun task =>
    (sound.stages task).mono grows (List.Subset.refl _) (List.Subset.refl _)

/-- A step of the sessions alone. -/
theorem withSessions (sound : UserLoginsSound s) {userSessions : KeyedTable String UserSessionRow}
    (sessions : SessionsIssued userSessions s.issuedSessions) :
    UserLoginsSound { s with db := { s.db with userSessions } } :=
  have tables : TablesSound { s.db with userSessions } s.registered s.grants :=
    ⟨sound.tables.injective, sound.tables.accountUsers, sound.tables.usersRegistered,
      sound.tables.ownersGranted, sound.tables.ownersTokens⟩
  sound.withDb (.userSessions s.db userSessions) sound.access (List.Subset.refl _) tables sessions
    (fun _ member => .inl member) (fun _ member => .inl member)

/-- A step of the login states, with what their starts have presented. -/
theorem withLogins (sound : UserLoginsSound s) {action : LoginStateAction} {logins : LoginStates}
    {starts : Nat → Option (Option AuthTokenSecret)} {inserting : Nat → Option AuthTokenSecret}
    {opened : List (Option AuthTokenSecret)} (taken : loginStateStep s.logins action = some logins)
    (kept : StartsSound logins starts inserting opened s.issuedTokens)
    (more : s.opened <+: opened) :
    UserLoginsSound { s with logins, starts, inserting, opened } := by
  have inserted := (insertsStep taken).grows
  have accepted := accepted_grows taken
  exact
    { sound with
      states := loginStateInvariant_step sound.states taken
      starts := kept
      serials :=
        { sound.serials with
          known := fun login member =>
            List.map_subset _ accepted.subset (sound.serials.known login member) }
      grants := fun grant member => (sound.grants grant member).mono (.refl _) inserted
        (List.Subset.refl _) more
      stages := fun task =>
        (sound.stages task).mono (.refl _) accepted.subset (List.Subset.refl _) }

/-- A step that is none of an insert, or ends one without a row. -/
theorem withOtherLogins (sound : UserLoginsSound s) {action : LoginStateAction}
    {logins : LoginStates} (taken : loginStateStep s.logins action = some logins)
    (calls : ∀ task call, action ≠ .insert task call)
    (rows : ∀ task state, action ≠ .insertRow task state) :
    UserLoginsSound { s with logins } :=
  sound.withLogins taken (sound.starts.of_step (insertsStep taken) calls rows) List.prefix_rfl

/-! The start of a login. -/

/-- A start is shown a live token, which has been handed out, or none. -/
theorem start (config : LoginConfig) (sound : UserLoginsSound s) {s' : UserLogins} {task : Nat}
    {token : Option String} (taken : startLogin config s task token = some s') :
    UserLoginsSound s' := by
  unfold startLogin at taken
  split at taken
  case h_1 => cases taken
  case h_2 =>
    obtain ⟨bindTokenId, kept, rfl⟩ := Option.map_eq_some_iff.1 taken
    have presented : PresentedSound s.issuedTokens (bindTokenId.map fun id =>
        { id, token := (trimmedNonEmpty token).getD "" }) := by
      intro secret same
      obtain ⟨id, rfl, rfl⟩ := Option.map_eq_some_iff.1 same
      obtain ⟨row, live, text, trimmed⟩ := bindTokenIdOf_spec sound.tokensSound kept
      refine ⟨trimmed, ?_⟩
      rw [text, Option.getD_some]
      rcases (sound.access id).handed row live.found live.kept with issued | ⟨old, none, -⟩
      · exact issued
      · cases none
    exact
      { sound with
        starts :=
          { sound.starts with
            starts := by
              intro other presented' started
              by_cases same : other = task
              · subst same
                simp only [UserLogins.setStart, Function.update_self] at started
                cases started
                exact presented
              · simp only [UserLogins.setStart, Function.update_of_ne same] at started
                exact sound.starts.starts other presented' started } }

/-- The call that a start makes carries the id of the token it was shown. -/
theorem insertState (config : LoginConfig) (sound : UserLoginsSound s) {s' : UserLogins}
    {task : Nat} {bindingNonce : String} {now : Int}
    (taken : insertLoginState config s task bindingNonce now = some s') : UserLoginsSound s' := by
  unfold insertLoginState at taken
  split at taken
  case h_1 => cases taken
  case h_2 presented started =>
    obtain ⟨logins, inserted, rfl⟩ := Option.map_eq_some_iff.1 taken
    exact sound.withLogins inserted
      (sound.starts.insert (insertsStep inserted) started rfl) List.prefix_rfl

/-- The row of a call takes the next serial, and what its start was shown goes with it. -/
theorem insertStatement (sound : UserLoginsSound s) {s' : UserLogins} {action : LoginStateAction}
    (taken : insertStateStatement s action = some s') : UserLoginsSound s' := by
  unfold insertStateStatement at taken
  split at taken
  case h_1 =>
    obtain ⟨logins, stepped, rfl⟩ := Option.map_eq_some_iff.1 taken
    exact sound.withOtherLogins stepped nofun nofun
  case h_2 =>
    obtain ⟨logins, stepped, rfl⟩ := Option.map_eq_some_iff.1 taken
    exact sound.withOtherLogins stepped nofun nofun
  case h_3 =>
    obtain ⟨logins, stepped, rfl⟩ := Option.map_eq_some_iff.1 taken
    exact sound.withLogins stepped (sound.starts.insertRow (insertsStep stepped))
      (List.prefix_append _ _)
  case h_4 => cases taken

/-! The consume of a callback. -/

/-- A callback holds nothing before its consume has answered. -/
theorem callback (config : LoginConfig) (sound : UserLoginsSound s) {s' : UserLogins} {task : Nat}
    {state bindingNonce : String} {now : Int}
    (taken : startCallback config s task state bindingNonce now = some s') :
    UserLoginsSound s' := by
  unfold startCallback at taken
  split at taken
  case h_2 => cases taken
  case h_1 =>
    obtain ⟨logins, stepped, rfl⟩ := Option.map_eq_some_iff.1 taken
    exact (sound.withOtherLogins stepped nofun nofun).setCallback trivial (.inr rfl)
      (by simp)

/-- An accepted login state was not accepted before. -/
theorem serial_new {accepted accepted' : List AcceptedState} {state : AcceptedState}
    (grows : accepted <+: accepted') (once : (accepted'.map AcceptedState.serial).Nodup)
    (new : accepted'[accepted.length]? = some state) :
    state.serial ∉ accepted.map AcceptedState.serial := by
  obtain ⟨rest, rfl⟩ := grows
  rw [List.getElem?_append_right (Nat.le_refl _), Nat.sub_self] at new
  rw [List.map_append, List.nodup_append] at once
  intro old
  have member := List.mem_map_of_mem (f := AcceptedState.serial) (List.mem_of_getElem? new)
  exact once.2.2 _ old _ member rfl

/-- The consume that answers hands its login state to this callback alone, as no state is accepted
twice. -/
theorem consumeStatement (sound : UserLoginsSound s) {s' : UserLogins} {task : Nat}
    (taken : callbackStatement s task = some s') : UserLoginsSound s' := by
  unfold callbackStatement at taken
  split at taken
  case h_2 => cases taken
  case h_1 =>
    obtain ⟨logins, stepped, rfl⟩ := Option.map_eq_some_iff.1 taken
    have moved := sound.withOtherLogins stepped nofun nofun
    have grows := accepted_grows stepped
    dsimp only
    split
    case h_2 => exact moved.idle task
    case h_3 => exact moved
    case h_1 state _ accepted =>
      have issued : ∀ session ∈ s.issuedSessions,
          ∃ login ∈ s.attested, login.serial = session.serial :=
        fun session member => ⟨_, (sound.issued session member).login, rfl⟩
      exact
        { moved with
          serials := sound.serials.accept grows.subset
            (serial_new grows moved.states.once accepted)
            (fun other _ holds => (sound.stages other).serial_accepted holds) issued
          stages := update_cases (P := fun _ => StageSound s.db logins.accepted s.attested)
            (List.mem_of_getElem? accepted) fun other _ => moved.stages other }

/-! The callback that holds a payload. -/

variable {s' : UserLogins} {task : Nat}

/-- The profile is read once for a login state, by the callback that holds it. -/
theorem identify (config : LoginConfig) (sound : UserLoginsSound s)
    {profile : OAuthAccountProfile}
    (taken : callbackStep config s (.identify task profile) = some s') : UserLoginsSound s' := by
  unfold callbackStep at taken
  dsimp only at taken
  split at taken
  case h_2 => cases taken
  case h_1 state holds =>
    split at taken
    case isFalse => cases taken
    case isTrue =>
      cases taken
      have member : state ∈ s.logins.accepted := by
        have stage := sound.stages task
        rwa [holds] at stage
      have more := List.subset_cons_self
        ({ serial := state.serial, identity := profile.identity } : AttestedLogin) s.attested
      exact
        { sound with
          serials := sound.serials.attest holds rfl member rfl (by simp)
          grants := fun grant listed => (sound.grants grant listed).mono (.refl _) List.prefix_rfl
            more List.prefix_rfl
          issued := fun issued listed => (sound.issued issued listed).mono (.refl _) more
          stages := by
            apply update_cases (P := fun _ => StageSound s.db s.logins.accepted _)
            · exact ⟨List.mem_cons_self, state, member, rfl, rfl⟩
            · exact fun other _ =>
                (sound.stages other).mono (.refl _) (List.Subset.refl _) more }

/-- Whoever is let in is a user already, or the registration was read as open. -/
theorem permit (config : LoginConfig) (sound : UserLoginsSound s)
    (taken : callbackStep config s (.permit task) = some s') : UserLoginsSound s' := by
  unfold callbackStep at taken
  dsimp only at taken
  split at taken
  case h_2 => cases taken
  case h_1 login holds =>
    have stage := sound.stages task
    rw [holds] at stage
    split at taken
    case isTrue =>
      cases taken
      exact sound.setCallback ⟨stage, by simp⟩ (.inl (by rw [holds]; rfl)) (by simp)
    case isFalse =>
      cases taken
      exact sound.setCallback stage (.inl (by rw [holds]; rfl)) (by simp)

/-- With the registration closed only an identity with an account goes on. -/
theorem checkAccount (config : LoginConfig) (sound : UserLoginsSound s)
    (taken : callbackStep config s (.checkAccount task) = some s') : UserLoginsSound s' := by
  unfold callbackStep at taken
  dsimp only at taken
  split at taken
  case h_2 => cases taken
  case h_1 login holds =>
    have stage := sound.stages task
    rw [holds] at stage
    split at taken
    case isTrue known =>
      cases taken
      rw [userOf_of_oauthAccountExists] at known
      exact sound.setCallback ⟨stage, fun _ => known⟩ (.inl (by rw [holds]; rfl)) (by simp)
    case isFalse =>
      cases taken
      exact sound.idle task

/-- A user is made only while the registration was read as open. -/
theorem upsert (config : LoginConfig) (sound : UserLoginsSound s)
    {draws : List (RandomString 12)} {now : Int}
    (taken : callbackStep config s (.upsert task draws now) = some s') : UserLoginsSound s' := by
  unfold callbackStep at taken
  dsimp only at taken
  split at taken
  case h_2 => cases taken
  case h_1 login registrationOpen holds =>
    obtain ⟨⟨user, db⟩, upserted, rfl⟩ := Option.map_eq_some_iff.1 taken
    have stage := sound.stages task
    rw [holds] at stage
    obtain ⟨known, existing⟩ := stage
    obtain ⟨same, accounts, -, -, tokens, -, sessions⟩ := upsertOauthAccount_userOf upserted
    have grows := grows_of_upsertOauthAccount upserted
    have located : db.userOf login.profile.identity = some user.userId := by
      rw [accounts, Function.update_self]
    let registration : Registration :=
      { userId := user.userId, identity := login.profile.identity, registrationOpen }
    have registered : registration.userId = user.userId := rfl
    have moved := sound.withDb grows
      (fun id => by rw [tokens]; exact sound.access id) (List.Subset.refl _)
      (sound.tables.upsert upserted registered)
      (by rw [sessions]; exact sound.sessions)
      (by
        intro registration member
        rcases List.mem_append.1 member with new | old
        · split at new
          case isTrue => cases new
          case isFalse absent =>
            cases List.mem_singleton.1 new
            refine .inr ⟨?_, located⟩
            cases registrationOpen with
            | true => rfl
            | false =>
                rw [userOf_of_oauthAccountExists, existing rfl] at absent
                exact (absent rfl).elim
        · exact .inl old)
      (fun _ member => .inl member)
    refine moved.setCallback ⟨known, ?_, located⟩ (.inl ?_) (by simp)
    · rw [same]
      rfl
    · change _ = (s.callbacks task).serial?
      rw [holds]
      rfl

/-- A preferred token that is live is there to be bound. -/
theorem readPreferred (config : LoginConfig) (sound : UserLoginsSound s)
    (taken : callbackStep config s (.readPreferred task) = some s') : UserLoginsSound s' := by
  unfold callbackStep at taken
  dsimp only at taken
  split at taken
  case h_2 => cases taken
  case h_1 login user holds =>
    have stage := sound.stages task
    rw [holds] at stage
    split at taken
    case h_2 =>
      cases taken
      exact sound.setCallback stage (.inl (by rw [holds]; rfl)) (by simp)
    case h_1 secret read =>
      cases taken
      obtain ⟨tokenId, preferred, fetched⟩ := Option.bind_eq_some_iff.1 read
      obtain ⟨row, active, rfl⟩ := Option.map_eq_some_iff.1 fetched
      obtain ⟨found, -⟩ := AuthTokens.active_eq_some_iff.1 (Option.filter_eq_some_iff.1 active).1
      have token : s.db.HasToken tokenId := by
        rw [UserTables.HasToken, found]
        rfl
      exact sound.setCallback ⟨stage, preferred, token⟩ (.inl (by rw [holds]; rfl)) (by simp)

/-- The token that a login prefers is the one that its own start presented. -/
theorem presented_of_preferred (sound : UserLoginsSound s) {login : UserLogin} {tokenId : String}
    (known : LoginKnown s.logins.accepted s.attested login)
    (preferred : login.preferredTokenId = some tokenId) :
    ∃ new secret, s.logins.inserted[login.serial]? = some new ∧
      new.call.bindTokenId = some tokenId ∧ s.opened[login.serial]? = some (some secret) ∧
      secret.id = tokenId := by
  obtain ⟨state, member, serial, carried⟩ := known.accepted
  obtain ⟨new, there, -, -, -, -, payload⟩ := sound.states.sound state member
  have bound := congrArg OAuthLoginStatePayload.bindTokenId payload
  dsimp only at bound
  rw [carried] at bound
  rw [serial] at there
  obtain ⟨presented, start, carries⟩ := sound.starts.presented there
  rw [UserLogin.preferredTokenId, bound, carries.named] at preferred
  cases presented with
  | none => cases preferred
  | some secret =>
      obtain ⟨trimmed, -⟩ := carries.sound secret rfl
      rw [Option.map_some, trimmed, trimmed] at preferred
      cases preferred
      exact ⟨new, secret, there, carries.named, start, rfl⟩

/-- A token without an owner becomes that of the user whose login presented it; any other stays as
it is. -/
theorem bindPreferred (config : LoginConfig) (sound : UserLoginsSound s) {now : Int}
    (taken : callbackStep config s (.bindPreferred task now) = some s') :
    UserLoginsSound s' := by
  unfold callbackStep at taken
  dsimp only at taken
  split at taken
  case h_2 => cases taken
  case h_1 login user secret holds =>
    have stage := sound.stages task
    rw [holds] at stage
    obtain ⟨loggedIn, preferred, token⟩ := stage
    split at taken
    case h_1 =>
      cases taken
      exact sound.setCallback loggedIn (.inl (by rw [holds]; rfl)) (by simp)
    case h_2 db bound =>
      cases taken
      let grant : TokenGrant :=
        { tokenId := secret.id, userId := user.userId, serial := login.serial, preferred := true }
      have granted : Granted s.db db grant := granted_bindPreferredToken token bound
      have tokens := (bindPreferredToken_ownerOf bound).2.2.2.2.1
      have moved := sound.withDb granted.grows (fun id => by rw [tokens]; exact sound.access id)
        (List.Subset.refl _)
        (granted.tables
          (if (s.db.userTokenBindings.find secret.id).isSome then [] else [grant])
          sound.tables (fun none => by
            rw [UserTables.ownerOf, Option.map_eq_none_iff] at none
            rw [if_neg (by rw [none]; exact Bool.false_ne_true)]
            exact List.mem_singleton_self _))
        (by rw [granted.sessions]; exact sound.sessions)
        (fun _ member => .inl member)
        (by
          intro other member
          rcases List.mem_append.1 member with new | old
          · split at new
            case isTrue => cases new
            case isFalse =>
              cases List.mem_singleton.1 new
              refine .inr ⟨granted.owner, ⟨login.profile.identity, loggedIn.known.attested,
                granted.grows.accounts _ _ loggedIn.located⟩, fun _ => ?_⟩
              exact sound.presented_of_preferred loggedIn.known preferred
          · exact .inl old)
      refine moved.setCallback ⟨loggedIn.mono granted.grows (List.Subset.refl _)
        (List.Subset.refl _), secret.id, granted.owner⟩ (.inl ?_) (by simp)
      change _ = (s.callbacks task).serial?
      rw [holds]
      rfl

/-- Who has a token goes on with it. -/
theorem readExisting (config : LoginConfig) (sound : UserLoginsSound s)
    (taken : callbackStep config s (.readExisting task) = some s') : UserLoginsSound s' := by
  unfold callbackStep at taken
  dsimp only at taken
  split at taken
  case h_2 => cases taken
  case h_1 login user holds =>
    have stage := sound.stages task
    rw [holds] at stage
    split at taken
    case h_1 secret fetched =>
      cases taken
      exact sound.setCallback ⟨stage, secret.id, ownerOf_of_fetchUserTokenAnyStatus fetched⟩
        (.inl (by rw [holds]; rfl)) (by simp)
    case h_2 =>
      cases taken
      exact sound.setCallback stage (.inl (by rw [holds]; rfl)) (by simp)

/-- A new token is the user's from the start, with the statement that makes it. -/
theorem createToken (config : LoginConfig) (sound : UserLoginsSound s) {draws : List TokenDraw}
    {now : Int} (taken : callbackStep config s (.createToken task draws now) = some s') :
    UserLoginsSound s' := by
  unfold callbackStep at taken
  dsimp only at taken
  split at taken
  case h_2 => cases taken
  case h_1 login user attempts holds =>
    have stage := sound.stages task
    rw [holds] at stage
    split at taken
    case h_1 secret existing =>
      cases taken
      have fetched : fetchUserTokenAnyStatus s.db user.userId = some secret := by
        unfold createUserToken at existing
        split at existing
        case h_1 other fetched => cases existing; exact fetched
        case h_2 =>
          split at existing
          · cases existing
          · split at existing <;> cases existing
      exact sound.setCallback ⟨stage, secret.id, ownerOf_of_fetchUserTokenAnyStatus fetched⟩
        (.inl (by rw [holds]; rfl)) (by simp)
    case h_2 =>
      cases taken
      exact sound.idle task
    case h_3 =>
      cases taken
      exact sound.setCallback stage (.inl (by rw [holds]; rfl)) (by simp)
    case h_4 secret db made =>
      cases taken
      let grant : TokenGrant :=
        { tokenId := secret.id, userId := user.userId, serial := login.serial, preferred := false }
      have granted : Granted s.db db grant := granted_createUserToken rfl made
      obtain ⟨draw, issued, free, -, -, tokens, -⟩ := createUserToken_ownerOf made
      have more := List.subset_cons_self secret s.issuedTokens
      have moved := sound.withDb granted.grows
        (fun id => by
          rw [tokens]
          exact (sound.access id).step more (rowChange_insertToken free
            (issued ▸ List.mem_cons_self) id))
        more
        (granted.tables [grant] sound.tables fun _ => List.mem_singleton_self _)
        (by rw [granted.sessions]; exact sound.sessions)
        (fun _ member => .inl member)
        (by
          intro other member
          rcases List.mem_cons.1 member with rfl | old
          · exact .inr ⟨granted.owner, ⟨login.profile.identity, stage.known.attested,
              granted.grows.accounts _ _ stage.located⟩, by rintro ⟨⟩⟩
          · exact .inl old)
      refine moved.setCallback ⟨stage.mono granted.grows (List.Subset.refl _)
        (List.Subset.refl _), secret.id, granted.owner⟩ (.inl ?_) (by simp)
      change _ = (s.callbacks task).serial?
      rw [holds]
      rfl

/-! Sessions and tokens. -/

/-- Sessions that only end or go are still sessions that were handed out. -/
theorem sessionsIssued_of_kept {sessions sessions' : KeyedTable String UserSessionRow}
    {issuedSessions : List IssuedSession} (sound : SessionsIssued sessions issuedSessions)
    (kept : ∀ token row', sessions'.find token = some row' → ∃ row,
      sessions.find token = some row ∧ row.userId = row'.userId ∧ row.provider = row'.provider ∧
        row.expiresAt = row'.expiresAt) : SessionsIssued sessions' issuedSessions := by
  intro token row' found
  obtain ⟨row, was, user, provider, expiry⟩ := kept token row' found
  obtain ⟨issued, member, named, its⟩ := sound token row was
  rw [user, provider, expiry] at its
  exact ⟨issued, member, named, its⟩

theorem find_of_deleteWhere {sessions : KeyedTable String UserSessionRow}
    {p : String → UserSessionRow → Bool} {token : String} {row : UserSessionRow}
    (found : (sessions.deleteWhere p).find token = some row) : sessions.find token = some row := by
  rw [KeyedTable.find_deleteWhere] at found
  exact (Option.filter_eq_some_iff.1 found).1

theorem find_of_revokeUserSession {db : UserTables} {token other : String} {now : Int}
    {row' : UserSessionRow}
    (found : (revokeUserSession token now db).userSessions.find other = some row') :
    ∃ row, db.userSessions.find other = some row ∧ row.userId = row'.userId ∧
      row.provider = row'.provider ∧ row.expiresAt = row'.expiresAt ∧
      (row.revokedAt.isSome = true → row'.revokedAt.isSome = true) := by
  rw [revokeUserSession, KeyedTable.find_updateWhere] at found
  obtain ⟨row, was, rfl⟩ := Option.map_eq_some_iff.1 found
  refine ⟨row, was, ?_⟩
  split
  · exact ⟨rfl, rfl, rfl, fun _ => rfl⟩
  · exact ⟨rfl, rfl, rfl, id⟩

theorem deleted (sound : UserLoginsSound s) (p : String → UserSessionRow → Bool) :
    UserLoginsSound
      { s with db := { s.db with userSessions := s.db.userSessions.deleteWhere p } } :=
  sound.withSessions (sessionsIssued_of_kept sound.sessions fun _ row' found =>
    ⟨row', find_of_deleteWhere found, rfl, rfl, rfl⟩)

/-- The clean-up takes away ended sessions alone. -/
theorem cleanSessions (config : LoginConfig) (sound : UserLoginsSound s) {now : Int}
    (taken : callbackStep config s (.cleanSessions task now) = some s') :
    UserLoginsSound s' := by
  unfold callbackStep at taken
  dsimp only at taken
  split at taken
  case h_2 => cases taken
  case h_1 login user holds =>
    cases taken
    have stage := sound.stages task
    rw [holds] at stage
    refine (sound.deleted _).setCallback ?_ (.inl ?_) (by simp)
    · have bound : StageSound s.db s.logins.accepted s.attested (.bound login user) := stage
      exact bound.mono (.userSessions _ _) (List.Subset.refl _) (List.Subset.refl _)
    · change _ = (s.callbacks task).serial?
      rw [holds]
      rfl

theorem insertUserSession_eq_some {token : String} {user : UserIdentity} {maxAgeSecs now : Int}
    {db db' : UserTables} (inserted : insertUserSession token user maxAgeSecs now db = some db') :
    db.userSessions.find token = none ∧ ∃ row : UserSessionRow,
      db' = { db with userSessions := db.userSessions.upsert token row fun _ => row } ∧
        row.userId = user.userId ∧ row.provider = user.provider ∧
        row.expiresAt = now + max maxAgeSecs 60 := by
  unfold insertUserSession at inserted
  split at inserted
  case h_1 => cases inserted
  case h_2 free =>
    cases inserted
    exact ⟨free, _, rfl, rfl, rfl, rfl⟩

/-- A session is of the user whom the identity of its login stands for, and its login state is used
up. -/
theorem insertSession (config : LoginConfig) (sound : UserLoginsSound s) {token : String}
    (taken : callbackStep config s (.insertSession task token) = some s') :
    UserLoginsSound s' := by
  unfold callbackStep at taken
  dsimp only at taken
  split at taken
  case h_2 => cases taken
  case h_1 login user now holds =>
    have stage := sound.stages task
    rw [holds] at stage
    obtain ⟨loggedIn, tokenId, owned⟩ := stage
    split at taken
    case h_1 =>
      cases taken
      exact sound
    case h_2 db inserted =>
      cases taken
      obtain ⟨free, row, rfl, its, provider, expiry⟩ := insertUserSession_eq_some inserted
      let session : IssuedSession :=
        { token, serial := login.serial, identity := login.profile.identity
          userId := user.userId, expiresAt := now + max config.sessionMaxAgeSecs 60 }
      have grows : s.db.Grows { s.db with
          userSessions := s.db.userSessions.upsert token row fun _ => row } :=
        .userSessions _ _
      have issued : IssueSound s.db s.attested session :=
        ⟨loggedIn.known.attested, loggedIn.located, tokenId, owned⟩
      have serials : SerialsSound (Function.update s.callbacks task .idle) s.logins.accepted
          s.attested (session :: s.issuedSessions) :=
        sound.serials.issue (by rw [holds]; rfl)
      exact
        { sound with
          tables := ⟨sound.tables.injective, sound.tables.accountUsers,
            sound.tables.usersRegistered, sound.tables.ownersGranted, sound.tables.ownersTokens⟩
          sessions := by
            intro other row' found
            by_cases same : other = token
            · subst same
              simp only [UserLogins.setCallback, KeyedTable.find_upsert_self, free] at found
              cases found
              refine ⟨session, List.mem_cons_self, rfl, its.symm, ?_, expiry.symm⟩
              exact (provider.trans loggedIn.provider).symm
            · simp only [UserLogins.setCallback, KeyedTable.find_upsert_of_ne _ same] at found
              obtain ⟨old, member, its⟩ := sound.sessions other row' found
              exact ⟨old, List.mem_cons_of_mem _ member, its⟩
          serials := serials
          registered := fun registration member =>
            (sound.registered registration member).mono grows
          grants := fun grant member => (sound.grants grant member).mono grows List.prefix_rfl
            (List.Subset.refl _) List.prefix_rfl
          issued := by
            intro other member
            rcases List.mem_cons.1 member with rfl | old
            · exact issued.mono grows (List.Subset.refl _)
            · exact (sound.issued other old).mono grows (List.Subset.refl _)
          stages := by
            apply update_cases (P := fun _ => StageSound _ s.logins.accepted s.attested)
            · trivial
            · exact fun other _ =>
                (sound.stages other).mono grows (List.Subset.refl _) (List.Subset.refl _) }

theorem isSome_of_rowChange {issued : List AuthTokenSecret} {id : String}
    {before after : Option AuthTokenRow} (change : RowChange issued id before after)
    (has : before.isSome = true) : after.isSome = true := by
  cases change with
  | same => exact has
  | created => rfl
  | buried => rfl
  | changed => rfl
  | rotated => rfl
  | deleted => rfl

theorem grows_of_accessTokenStep {access : AccessTokens} {action : AccessTokenAction}
    (taken : accessTokenStep { tokens := s.db.tokens, issued := s.issuedTokens } action =
      some access) : s.db.Grows { s.db with tokens := access.tokens } where
  users := fun _ has => has
  accounts := fun _ _ same => same
  tokens := fun tokenId => isSome_of_rowChange (accessTokenStep_row taken tokenId)
  owners := fun _ _ same => same

/-- Whatever else is done to the tokens, an owned token stays there. -/
theorem tokens (sound : UserLoginsSound s) {access : AccessTokens} {action : AccessTokenAction}
    (taken : accessTokenStep { tokens := s.db.tokens, issued := s.issuedTokens } action =
      some access) :
    UserLoginsSound { s with
      db := { s.db with tokens := access.tokens }, issuedTokens := access.issued } := by
  have more : s.issuedTokens ⊆ access.issued := issued_subset_of_step taken
  have grows := grows_of_accessTokenStep taken
  exact sound.withDb grows
    (fun id => (sound.access id).step more (accessTokenStep_row taken id)) more
    ⟨sound.tables.injective, sound.tables.accountUsers, sound.tables.usersRegistered,
      sound.tables.ownersGranted,
      fun tokenId userId owned => grows.tokens _ (sound.tables.ownersTokens tokenId userId owned)⟩
    sound.sessions (fun _ member => .inl member) (fun _ member => .inl member)

end UserLoginsSound

/-- Every step keeps the invariant. -/
theorem userLoginsSound_step (config : LoginConfig) {s s' : UserLogins}
    {action : UserLoginAction} (sound : UserLoginsSound s)
    (taken : (userLoginSystem config).step s action = some s') : UserLoginsSound s' := by
  cases action with
  | start task token => exact sound.start config taken
  | insertState task bindingNonce now => exact sound.insertState config taken
  | insertStateStatement action => exact sound.insertStatement taken
  | callback task state bindingNonce now => exact sound.callback config taken
  | consumeStatement task => exact sound.consumeStatement taken
  | identify task profile => exact sound.identify config taken
  | permit task => exact sound.permit config taken
  | checkAccount task => exact sound.checkAccount config taken
  | upsert task draws now => exact sound.upsert config taken
  | readPreferred task => exact sound.readPreferred config taken
  | bindPreferred task now => exact sound.bindPreferred config taken
  | readExisting task => exact sound.readExisting config taken
  | createToken task draws now => exact sound.createToken config taken
  | cleanSessions task now => exact sound.cleanSessions config taken
  | insertSession task token => exact sound.insertSession config taken
  | abandon task =>
      simp only [userLoginSystem, userLoginStep] at taken
      split at taken
      case h_1 =>
        obtain ⟨logins, stepped, rfl⟩ := Option.map_eq_some_iff.1 taken
        exact (sound.withOtherLogins stepped nofun nofun).idle task
      case h_2 =>
        cases taken
        exact sound.idle task
  | logout token now =>
      cases taken
      exact sound.withSessions (UserLoginsSound.sessionsIssued_of_kept sound.sessions
        fun _ _ found => by
          obtain ⟨row, was, user, provider, expiry, -⟩ :=
            UserLoginsSound.find_of_revokeUserSession found
          exact ⟨row, was, user, provider, expiry⟩)
  | getSession token now =>
      cases taken
      exact sound.deleted _
  | setAllowRegistration allowed =>
      cases taken
      exact { sound with }
  | tokens action =>
      obtain ⟨access, stepped, rfl⟩ := Option.map_eq_some_iff.1 taken
      exact sound.tokens stepped

/-- It holds of the empty tables, before any login. -/
theorem userLoginsSound_initial : UserLoginsSound .initial where
  states :=
    { rows := by simp [UserLogins.initial, LoginStates.initial]
      unconsumed := by simp [UserLogins.initial, LoginStates.initial]
      known := by simp [UserLogins.initial, LoginStates.initial]
      once := List.nodup_nil
      sound := by simp [UserLogins.initial, LoginStates.initial]
      consumes := fun _ => trivial }
  access := fun id => .start (by rintro row ⟨⟩)
  starts :=
    { starts := by rintro task presented ⟨⟩
      calls := by
        rintro task call (phase | phase)
        · cases (phase : InsertPhase.idle = _)
        · cases (phase : InsertPhase.idle = _)
      states := .nil }
  tables :=
    { injective := by rintro first second userId ⟨⟩
      accountUsers := by rintro identity userId ⟨⟩
      usersRegistered := by rintro userId ⟨⟩
      ownersGranted := by rintro tokenId userId ⟨⟩
      ownersTokens := by rintro tokenId userId ⟨⟩ }
  sessions := by rintro token row ⟨⟩
  serials :=
    { apart := by rintro task other serial ⟨⟩
      held := by rintro task serial ⟨⟩
      unread := by rintro task state ⟨⟩
      known := by rintro login ⟨⟩
      attestedOnce := List.nodup_nil
      issuedOnce := List.nodup_nil }
  registered := by rintro registration ⟨⟩
  grants := by rintro grant ⟨⟩
  issued := by rintro issued ⟨⟩
  stages := fun _ => trivial

/-! ### What later states keep -/

/-- The row of a session token comes from a row of it before, which is revoked for good if it is
revoked, or its token has been handed out since. -/
def SessionsFollow (sessions sessions' : KeyedTable String UserSessionRow)
    (since : List IssuedSession) : Prop :=
  ∀ token row', sessions'.find token = some row' →
    (∃ row, sessions.find token = some row ∧ row.userId = row'.userId ∧
      (row.revokedAt.isSome = true → row'.revokedAt.isSome = true)) ∨
    ∃ issued ∈ since, issued.token = token

/-- What a state keeps of an earlier one. -/
structure Follows (s s' : UserLogins) : Prop where
  grows : s.db.Grows s'.db
  sessions : ∃ since, s'.issuedSessions = since ++ s.issuedSessions ∧
    SessionsFollow s.db.userSessions s'.db.userSessions since

namespace Follows

variable {s s' s'' : UserLogins}

/-- A step that hands out no session leaves the sessions as they are. -/
theorem of_grows (grows : s.db.Grows s'.db) (sessions : s'.db.userSessions = s.db.userSessions)
    (issued : s'.issuedSessions = s.issuedSessions) : Follows s s' where
  grows := grows
  sessions := by
    refine ⟨[], issued, fun token row' found => .inl ⟨row', ?_, rfl, id⟩⟩
    rwa [sessions] at found

theorem of_sessions (grows : s.db.Grows s'.db) (issued : s'.issuedSessions = s.issuedSessions)
    (kept : ∀ token row', s'.db.userSessions.find token = some row' → ∃ row,
      s.db.userSessions.find token = some row ∧ row.userId = row'.userId ∧
        (row.revokedAt.isSome = true → row'.revokedAt.isSome = true)) : Follows s s' where
  grows := grows
  sessions := ⟨[], issued, fun token row' found => .inl (kept token row' found)⟩

theorem refl (s : UserLogins) : Follows s s := of_grows (.refl _) rfl rfl

/-- What is kept from state to state is kept along a run. -/
theorem trans (one : Follows s s') (two : Follows s' s'') : Follows s s'' where
  grows := one.grows.trans two.grows
  sessions := by
    obtain ⟨since, first, early⟩ := one.sessions
    obtain ⟨since', second, late⟩ := two.sessions
    refine ⟨since' ++ since, by rw [second, first, List.append_assoc], ?_⟩
    intro token row'' found
    rcases late token row'' found with ⟨row', found', user', revoked'⟩ | ⟨issued, member, same⟩
    · rcases early token row' found' with ⟨row, was, user, revoked⟩ | ⟨issued, member, same⟩
      · exact .inl ⟨row, was, user.trans user', fun gone => revoked' (revoked gone)⟩
      · exact .inr ⟨issued, List.mem_append_right _ member, same⟩
    · exact .inr ⟨issued, List.mem_append_left _ member, same⟩

end Follows

/-- The steps of a callback take nothing back: an account, an owner and a token stay. -/
theorem follows_callbackStep (config : LoginConfig) {s s' : UserLogins}
    (action : UserLoginAction) (sound : UserLoginsSound s)
    (taken : callbackStep config s action = some s') : Follows s s' := by
  cases action with
  | identify task profile =>
      unfold callbackStep at taken
      dsimp only at taken
      split at taken
      case h_2 => cases taken
      case h_1 =>
        split at taken <;> cases taken
        exact .of_grows (.refl _) rfl rfl
  | permit task =>
      unfold callbackStep at taken
      dsimp only at taken
      split at taken
      case h_2 => cases taken
      case h_1 => split at taken <;> cases taken <;> exact .of_grows (.refl _) rfl rfl
  | checkAccount task =>
      unfold callbackStep at taken
      dsimp only at taken
      split at taken
      case h_2 => cases taken
      case h_1 => split at taken <;> cases taken <;> exact .of_grows (.refl _) rfl rfl
  | upsert task draws now =>
      unfold callbackStep at taken
      dsimp only at taken
      split at taken
      case h_2 => cases taken
      case h_1 =>
        obtain ⟨⟨user, db⟩, upserted, rfl⟩ := Option.map_eq_some_iff.1 taken
        obtain ⟨-, -, -, -, -, -, sessions⟩ := upsertOauthAccount_userOf upserted
        exact .of_grows (grows_of_upsertOauthAccount upserted) sessions rfl
  | readPreferred task =>
      unfold callbackStep at taken
      dsimp only at taken
      split at taken
      case h_2 => cases taken
      case h_1 => split at taken <;> cases taken <;> exact .of_grows (.refl _) rfl rfl
  | bindPreferred task now =>
      unfold callbackStep at taken
      dsimp only at taken
      split at taken
      case h_2 => cases taken
      case h_1 login user secret holds =>
        have stage := sound.stages task
        rw [holds] at stage
        split at taken
        case h_1 => cases taken; exact .of_grows (.refl _) rfl rfl
        case h_2 db bound =>
          cases taken
          let grant : TokenGrant :=
            { tokenId := secret.id, userId := user.userId, serial := login.serial
              preferred := true }
          have granted : Granted s.db db grant := granted_bindPreferredToken stage.2.2 bound
          exact .of_grows granted.grows granted.sessions rfl
  | readExisting task =>
      unfold callbackStep at taken
      dsimp only at taken
      split at taken
      case h_2 => cases taken
      case h_1 => split at taken <;> cases taken <;> exact .of_grows (.refl _) rfl rfl
  | createToken task draws now =>
      unfold callbackStep at taken
      dsimp only at taken
      split at taken
      case h_2 => cases taken
      case h_1 login user attempts holds =>
        split at taken
        case h_1 => cases taken; exact .of_grows (.refl _) rfl rfl
        case h_2 => cases taken; exact .of_grows (.refl _) rfl rfl
        case h_3 => cases taken; exact .of_grows (.refl _) rfl rfl
        case h_4 secret db made =>
          cases taken
          let grant : TokenGrant :=
            { tokenId := secret.id, userId := user.userId, serial := login.serial
              preferred := false }
          have granted : Granted s.db db grant := granted_createUserToken rfl made
          exact .of_grows granted.grows granted.sessions rfl
  | cleanSessions task now =>
      unfold callbackStep at taken
      dsimp only at taken
      split at taken
      case h_2 => cases taken
      case h_1 =>
        cases taken
        refine .of_sessions (.userSessions _ _) rfl fun token row' found => ?_
        exact ⟨row', UserLoginsSound.find_of_deleteWhere found, rfl, id⟩
  | insertSession task token =>
      unfold callbackStep at taken
      dsimp only at taken
      split at taken
      case h_2 => cases taken
      case h_1 login user now holds =>
        split at taken
        case h_1 => cases taken; exact .refl _
        case h_2 db inserted =>
          cases taken
          obtain ⟨free, row, rfl, -⟩ := UserLoginsSound.insertUserSession_eq_some inserted
          refine ⟨.userSessions _ _, [_], rfl, fun other row' found => ?_⟩
          by_cases same : other = token
          · exact .inr ⟨_, List.mem_singleton_self _, same.symm⟩
          · simp only [UserLogins.setCallback, KeyedTable.find_upsert_of_ne _ same] at found
            exact .inl ⟨row', found, rfl, id⟩
  | start task token => cases taken
  | insertState task bindingNonce now => cases taken
  | insertStateStatement action => cases taken
  | callback task state bindingNonce now => cases taken
  | consumeStatement task => cases taken
  | abandon task => cases taken
  | logout token now => cases taken
  | getSession token now => cases taken
  | setAllowRegistration allowed => cases taken
  | tokens action => cases taken

/-- Neither does any other step. -/
theorem follows_step (config : LoginConfig) {s s' : UserLogins} {action : UserLoginAction}
    (sound : UserLoginsSound s) (taken : (userLoginSystem config).step s action = some s') :
    Follows s s' := by
  cases action with
  | start task token =>
      simp only [userLoginSystem, userLoginStep, startLogin] at taken
      split at taken
      case h_1 => cases taken
      case h_2 =>
        obtain ⟨bindTokenId, -, rfl⟩ := Option.map_eq_some_iff.1 taken
        exact .of_grows (.refl _) rfl rfl
  | insertState task bindingNonce now =>
      simp only [userLoginSystem, userLoginStep, insertLoginState] at taken
      split at taken
      case h_1 => cases taken
      case h_2 =>
        obtain ⟨logins, -, rfl⟩ := Option.map_eq_some_iff.1 taken
        exact .of_grows (.refl _) rfl rfl
  | insertStateStatement action =>
      simp only [userLoginSystem, userLoginStep, insertStateStatement] at taken
      split at taken
      all_goals
        first
        | cases taken; done
        | obtain ⟨logins, -, rfl⟩ := Option.map_eq_some_iff.1 taken
          exact .of_grows (.refl _) rfl rfl
  | callback task state bindingNonce now =>
      simp only [userLoginSystem, userLoginStep, startCallback] at taken
      split at taken
      case h_2 => cases taken
      case h_1 =>
        obtain ⟨logins, -, rfl⟩ := Option.map_eq_some_iff.1 taken
        exact .of_grows (.refl _) rfl rfl
  | consumeStatement task =>
      simp only [userLoginSystem, userLoginStep, callbackStatement] at taken
      split at taken
      case h_2 => cases taken
      case h_1 =>
        obtain ⟨logins, -, rfl⟩ := Option.map_eq_some_iff.1 taken
        split <;> exact .of_grows (.refl _) rfl rfl
  | identify task profile =>
      exact follows_callbackStep config (.identify task profile) sound taken
  | permit task =>
      exact follows_callbackStep config (.permit task) sound taken
  | checkAccount task =>
      exact follows_callbackStep config (.checkAccount task) sound taken
  | upsert task draws now =>
      exact follows_callbackStep config (.upsert task draws now) sound taken
  | readPreferred task =>
      exact follows_callbackStep config (.readPreferred task) sound taken
  | bindPreferred task now =>
      exact follows_callbackStep config (.bindPreferred task now) sound taken
  | readExisting task =>
      exact follows_callbackStep config (.readExisting task) sound taken
  | createToken task draws now =>
      exact follows_callbackStep config (.createToken task draws now) sound taken
  | cleanSessions task now =>
      exact follows_callbackStep config (.cleanSessions task now) sound taken
  | insertSession task token =>
      exact follows_callbackStep config (.insertSession task token) sound taken
  | abandon task =>
      simp only [userLoginSystem, userLoginStep] at taken
      split at taken
      case h_1 =>
        obtain ⟨logins, -, rfl⟩ := Option.map_eq_some_iff.1 taken
        exact .of_grows (.refl _) rfl rfl
      case h_2 =>
        cases taken
        exact .of_grows (.refl _) rfl rfl
  | logout token now =>
      cases taken
      refine .of_sessions (.userSessions _ _) rfl fun other row' found => ?_
      obtain ⟨row, was, user, -, -, revoked⟩ := UserLoginsSound.find_of_revokeUserSession found
      exact ⟨row, was, user, revoked⟩
  | getSession token now =>
      cases taken
      refine .of_sessions (.userSessions _ _) rfl fun other row' found => ?_
      exact ⟨row', UserLoginsSound.find_of_deleteWhere found, rfl, id⟩
  | setAllowRegistration allowed =>
      cases taken
      exact .of_grows (.refl _) rfl rfl
  | tokens action =>
      obtain ⟨access, stepped, rfl⟩ := Option.map_eq_some_iff.1 taken
      exact .of_grows (UserLoginsSound.grows_of_accessTokenStep stepped) rfl rfl

/-! ### Runs -/

/-- The invariant of the logins holds in every state of every run. -/
theorem userLoginsSound_alongRun (config : LoginConfig) (actions : List UserLoginAction) :
    (userLoginSystem config).AlongRun UserLoginsSound .initial actions :=
  (userLoginSystem config).alongRun_of_preserved
    (fun _ _ _ sound taken => userLoginsSound_step config sound taken) userLoginsSound_initial
    actions

/-- Every state of a run keeps what the earlier ones had. -/
theorem follows_alongRun (config : LoginConfig) {s : UserLogins} (sound : UserLoginsSound s)
    (actions : List UserLoginAction) :
    (userLoginSystem config).AlongRun (fun s' => UserLoginsSound s' ∧ Follows s s') s actions := by
  apply (userLoginSystem config).alongRun_of_preserved
  · rintro s' s'' action ⟨now, follows⟩ taken
    exact ⟨userLoginsSound_step config now taken, follows.trans (follows_step config now taken)⟩
  · exact ⟨sound, .refl s⟩

/-- The session that a token stands for is one that was handed out for it, to the callback that
the provider named the user's one identity to. -/
theorem UserLoginsSound.session (sound : UserLoginsSound s) {token : String} {now : Int}
    {session : UserSession} (got : (getUserSession token now s.db).1 = some session) :
    ∃ issued ∈ s.issuedSessions, issued.token = token ∧ now < issued.expiresAt ∧
      issued.identity = (session.user.provider, session.user.providerUserId) ∧
      issued.userId = session.user.userId ∧
      { serial := issued.serial, identity := issued.identity } ∈ s.attested := by
  obtain ⟨row, found, -, live, user, provider, -, account⟩ := selectUserSession_eq_some got
  obtain ⟨issued, member, named, its, same, expiry⟩ :=
    sound.sessions token row (UserLoginsSound.find_of_deleteWhere found)
  have located := (sound.issued issued member).located
  have joined := find_account_of_userOf
    (fun first second => sound.tables.injective first second issued.userId) located
  rw [its, same] at joined
  refine ⟨issued, member, named, expiry ▸ live, ?_, its.trans user.symm,
    (sound.issued issued member).login⟩
  change session.user.providerUserId =
    ((s.db.oauthAccounts.rows.find? _).map _).getD "" at account
  rw [joined, Option.getD_some] at account
  rw [account, provider, ← same]

/-- What the sessions and the users of a state bear out. -/
structure IdentitiesSound (s : UserLogins) : Prop where
  /-- a session stands for the user of the identity that the provider named to its callback -/
  sessions : ∀ token now session, (getUserSession token now s.db).1 = some session →
    ∃ issued ∈ s.issuedSessions, issued.token = token ∧ now < issued.expiresAt ∧
      issued.identity = (session.user.provider, session.user.providerUserId) ∧
      issued.userId = session.user.userId ∧
      { serial := issued.serial, identity := issued.identity } ∈ s.attested
  /-- an identity is named by a callback whose login state was accepted from its own browser -/
  attested : ∀ login ∈ s.attested, ∃ state ∈ s.logins.accepted,
    state.serial = login.serial ∧ AcceptedSound s.logins.inserted state
  attestedOnce : (s.attested.map AttestedLogin.serial).Nodup
  issuedOnce : (s.issuedSessions.map IssuedSession.serial).Nodup
  /-- no two identities share a user -/
  injective : ∀ first second userId, s.db.userOf first = some userId →
    s.db.userOf second = some userId → first = second
  /-- who is a user became one while the registration was read as open -/
  registered : ∀ userId, s.db.HasUser userId → ∃ registration ∈ s.registered,
    registration.userId = userId ∧ registration.registrationOpen = true ∧
      s.db.userOf registration.identity = some userId

/-- A session that is revoked stays so, unless its token is drawn again. -/
def RevokedStay (s s' : UserLogins) : Prop :=
  ∀ token row now session, s.db.userSessions.find token = some row → row.revokedAt.isSome = true →
    (getUserSession token now s'.db).1 = some session →
    ∃ since, s'.issuedSessions = since ++ s.issuedSessions ∧
      ∃ issued ∈ since, issued.token = token

/-- A revoked session token is not valid again unless it is drawn again. -/
theorem Follows.revokedStay {s s' : UserLogins} (follows : Follows s s') : RevokedStay s s' := by
  intro token row now session was revoked got
  obtain ⟨row', found, live, -⟩ := selectUserSession_eq_some got
  obtain ⟨since, issued, sessions⟩ := follows.sessions
  rcases sessions token row' (UserLoginsSound.find_of_deleteWhere found) with
    ⟨old, stored, -, stays⟩ | drawn
  · rw [was] at stored
    cases stored
    have gone := stays revoked
    rw [live] at gone
    cases gone
  · exact ⟨since, issued, drawn⟩

/-- The invariant in the words of the result: who a session, a login and a user stand for. -/
theorem UserLoginsSound.identities {s : UserLogins} (sound : UserLoginsSound s) :
    IdentitiesSound s where
  sessions := fun _ _ _ got => sound.session got
  attested := by
    intro login member
    obtain ⟨state, accepted, same⟩ := List.mem_map.1 (sound.serials.known login member)
    exact ⟨state, accepted, same, sound.states.sound state accepted⟩
  attestedOnce := sound.serials.attestedOnce
  issuedOnce := sound.serials.issuedOnce
  injective := sound.tables.injective
  registered := by
    intro userId has
    obtain ⟨registration, member, rfl⟩ := sound.tables.usersRegistered userId has
    obtain ⟨wasOpen, located⟩ := sound.registered registration member
    exact ⟨registration, member, rfl, wasOpen, located⟩

/-- Along every run of the logins: a session stands for the user of the one identity that the
provider named to its callback; each login state is turned into one session at most; nobody
becomes a user while the registration is read as closed; and in every later state an identity
logs in as the same user, and a revoked session stays revoked. -/
theorem userLogins_alongRun (config : LoginConfig) (actions : List UserLoginAction) :
    (userLoginSystem config).AlongRun
      (fun s => IdentitiesSound s ∧ ∀ later, (userLoginSystem config).AlongRun
        (fun s' => (∀ identity userId, s.db.userOf identity = some userId →
            s'.db.userOf identity = some userId) ∧ RevokedStay s s')
        s later)
      .initial actions := by
  refine (userLoginsSound_alongRun config actions).mono _ fun s sound => ?_
  refine ⟨sound.identities, fun later => ?_⟩
  refine (follows_alongRun config sound later).mono _ ?_
  rintro s' ⟨-, follows⟩
  exact ⟨follows.grows.accounts, follows.revokedStay⟩

/-- How a token has come to its owner: it was made in a login of that user, or presented, as a
token handed out before, at the start of that very login. -/
def OwnedByGrant (s : UserLogins) (tokenId userId : String) : Prop :=
  ∃ grant ∈ s.grants, grant.tokenId = tokenId ∧ grant.userId = userId ∧
    (∃ identity, { serial := grant.serial, identity } ∈ s.attested ∧
      s.db.userOf identity = some userId) ∧
    (grant.preferred = true → ∃ new secret, s.logins.inserted[grant.serial]? = some new ∧
      new.call.bindTokenId = some tokenId ∧ s.opened[grant.serial]? = some (some secret) ∧
      secret.id = tokenId ∧ secret ∈ s.issuedTokens)

/-- Along every run of the logins: a token of an owner is there and has come to it by a login of
that owner; what an owner is shown of it is accepted, and attributed to the id that belongs to
the owner; who has a session has a token; and in every later state the owner is the same. -/
theorem tokenOwners_alongRun (config : LoginConfig) (actions : List UserLoginAction) :
    (userLoginSystem config).AlongRun
      (fun s =>
        (∀ tokenId userId, s.db.ownerOf tokenId = some userId →
          s.db.HasToken tokenId ∧ s.db.HasUser userId ∧ OwnedByGrant s tokenId userId) ∧
        (∀ userId secret, getUserToken s.db userId = .found secret →
          s.db.ownerOf secret.id = some userId ∧
            ∀ nullReads devOpenAdmin, authenticateRequestToken nullReads devOpenAdmin s.db.tokens
              [some secret.token, none] = .authenticated (some secret.id) false) ∧
        (∀ issued ∈ s.issuedSessions, getUserToken s.db issued.userId ≠ .missingBinding) ∧
        ∀ later, (userLoginSystem config).AlongRun
          (fun s' => ∀ tokenId userId, s.db.ownerOf tokenId = some userId →
            s'.db.ownerOf tokenId = some userId) s later)
      .initial actions := by
  refine (userLoginsSound_alongRun config actions).mono _ fun s sound => ?_
  refine ⟨?_, ?_, ?_, ?_⟩
  · intro tokenId userId owned
    obtain ⟨grant, member, rfl, rfl⟩ := sound.tables.ownersGranted tokenId userId owned
    obtain ⟨-, login, presented⟩ := sound.grants grant member
    have hasUser : s.db.HasUser grant.userId := by
      obtain ⟨identity, -, located⟩ := login
      exact sound.tables.accountUsers identity _ located
    refine ⟨sound.tables.ownersTokens _ _ owned, hasUser, grant, member, rfl, rfl, login, ?_⟩
    intro preferred
    obtain ⟨new, secret, there, named, start, same⟩ := presented preferred
    obtain ⟨presented, start', carries⟩ := sound.starts.presented there
    cases start.symm.trans start'
    exact ⟨new, secret, there, named, start, same, (carries.sound secret rfl).2⟩
  · intro userId secret found
    obtain ⟨owned, row, live, text⟩ := getUserToken_found found
    refine ⟨owned, fun nullReads devOpenAdmin => ?_⟩
    rw [text]
    exact authenticateRequestToken_of_liveToken sound.tokensSound live
  · intro issued member
    obtain ⟨tokenId, owned⟩ := (sound.issued issued member).token
    exact getUserToken_of_ownerOf owned
  · intro later
    refine (follows_alongRun config sound later).mono _ ?_
    rintro s' ⟨-, follows⟩
    exact follows.grows.owners

end TavilyHikari.Server
