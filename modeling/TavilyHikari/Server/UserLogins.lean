/-
Module: TavilyHikari.Server.UserLogins
Purpose: The logins of the console (`server/handlers/user.rs`), statement by statement and side
  by side: the start of a login, the callback that gives its user a token and a session, the
  logout, and what else writes to the tokens and the login states.
Trusted boundary: human-reviewed spec (the provider answers with any profile, and every clock
  reads any time)
Main exports: parseFullTokenId, CallbackStage, UserLogins, UserLoginAction, userLoginSystem
-/
import TavilyHikari.Store.OAuthLoginState
import TavilyHikari.Store.UserAccounts

namespace TavilyHikari.Server

open Library Store Store.UserAccounts

def parseFullTokenId (token : String) : Option String := do
  let rest ← stripPrefix "th-" (trim token)
  let (id, secret) ← splitOnce "-" rest
  guard (id.utf8ByteSize = 4 ∧ id.toList.all Char.isAlphanum)
  guard ((secret.utf8ByteSize = 12 ∨ secret.utf8ByteSize = 24) ∧
    secret.toList.all Char.isAlphanum)
  return id

/-- The token that the start of a login keeps for its callback; `none` is an error. -/
def bindTokenIdOf (nullReads : Bool) (tokens : AuthTokens) (token : Option String) :
    Option (Option String) :=
  match trimmedNonEmpty token with
  | none => some none
  | some rawToken =>
      (validateAccessToken nullReads tokens rawToken).map fun valid =>
        if valid then parseFullTokenId rawToken else none

/-- A login whose callback has read the profile. `serial` is the number of its login state. -/
structure UserLogin where
  serial : Nat
  bindTokenId : Option String
  profile : OAuthAccountProfile

namespace UserLogin

def preferredTokenId (login : UserLogin) : Option String := trimmedNonEmpty login.bindTokenId

/-- The note of a new token, as `get_linuxdo_callback` writes it and the store trims it. -/
def note (login : UserLogin) : String :=
  trim ("linuxdo:" ++
    (trimmedNonEmpty login.profile.username).getD login.profile.providerUserId)

end UserLogin

/-- Where a callback is. -/
inductive CallbackStage where
  | idle
  | consuming
  | consumed (accepted : AcceptedState)
  | identified (login : UserLogin)
  | checking (login : UserLogin)
  | admitted (login : UserLogin) (registrationOpen : Bool)
  | upserted (login : UserLogin) (user : UserIdentity)
  | preferring (login : UserLogin) (user : UserIdentity) (secret : AuthTokenSecret)
  | unbound (login : UserLogin) (user : UserIdentity)
  | creating (login : UserLogin) (user : UserIdentity) (attempts : Nat)
  | bound (login : UserLogin) (user : UserIdentity)
  | cleaned (login : UserLogin) (user : UserIdentity) (now : Int)

/-- What the provider said to the callback of a login state. -/
structure AttestedLogin where
  serial : Nat
  identity : String × String
deriving DecidableEq, Repr

/-- A user that an upsert has made, and what the callback read of the registration. -/
structure Registration where
  userId : String
  identity : String × String
  registrationOpen : Bool
deriving DecidableEq, Repr

/-- A binding that a callback has inserted, for its preferred token or for a new one. -/
structure TokenGrant where
  tokenId : String
  userId : String
  serial : Nat
  preferred : Bool
deriving DecidableEq, Repr

structure IssuedSession where
  token : String
  serial : Nat
  identity : String × String
  userId : String
  expiresAt : Int
deriving DecidableEq, Repr

/-- The tables, the handlers in flight, and what has been done so far: what the start of each login
state has presented, by its serial, the profiles read, the users made, the bindings inserted, the
sessions and the tokens handed out. -/
structure UserLogins where
  db : UserTables
  logins : LoginStates
  allowRegistration : Bool
  /-- The valid starts that have not called the insert yet, with the token they presented. -/
  starts : Nat → Option (Option AuthTokenSecret)
  /-- What the start of the insert that a task has called last presented. -/
  inserting : Nat → Option AuthTokenSecret
  callbacks : Nat → CallbackStage
  opened : List (Option AuthTokenSecret)
  attested : List AttestedLogin
  registered : List Registration
  grants : List TokenGrant
  issuedSessions : List IssuedSession
  issuedTokens : List AuthTokenSecret

/-- The texts that a request chooses, the draws, the clocks and the answers of the provider. -/
inductive UserLoginAction where
  | start (task : Nat) (token : Option String)
  | insertState (task : Nat) (bindingNonce : String) (now : Int)
  | insertStateStatement (action : LoginStateAction)
  | callback (task : Nat) (state bindingNonce : String) (now : Int)
  | consumeStatement (task : Nat)
  | identify (task : Nat) (profile : OAuthAccountProfile)
  | permit (task : Nat)
  | checkAccount (task : Nat)
  | upsert (task : Nat) (draws : List (RandomString 12)) (now : Int)
  | readPreferred (task : Nat)
  | bindPreferred (task : Nat) (now : Int)
  | readExisting (task : Nat)
  | createToken (task : Nat) (draws : List TokenDraw) (now : Int)
  | cleanSessions (task : Nat) (now : Int)
  | insertSession (task : Nat) (token : String)
  | abandon (task : Nat)
  | logout (token : String) (now : Int)
  | getSession (token : String) (now : Int)
  | setAllowRegistration (allowed : Bool)
  | tokens (action : AccessTokenAction)

namespace UserLogins

def initial : UserLogins where
  db := .empty
  logins := .initial
  allowRegistration := true
  starts := fun _ => none
  inserting := fun _ => none
  callbacks := fun _ => .idle
  opened := []
  attested := []
  registered := []
  grants := []
  issuedSessions := []
  issuedTokens := []

def setStart (s : UserLogins) (task : Nat) (started : Option (Option AuthTokenSecret)) :
    UserLogins :=
  { s with starts := Function.update s.starts task started }

def setCallback (s : UserLogins) (task : Nat) (stage : CallbackStage) : UserLogins :=
  { s with callbacks := Function.update s.callbacks task stage }

end UserLogins

/-- What the handlers depend on beside the tables. `hashOauthBinding` is `hash_oauth_binding`. -/
structure LoginConfig where
  nullReads : Bool
  loginStateTtlSecs : Int
  sessionMaxAgeSecs : Int
  hashOauthBinding : String → String

variable (config : LoginConfig)

/-- The validation at the start of a login. -/
def startLogin (s : UserLogins) (task : Nat) (token : Option String) : Option UserLogins :=
  match s.starts task with
  | some _ => none
  | none =>
      (bindTokenIdOf config.nullReads s.db.tokens token).map fun bindTokenId =>
        s.setStart task (some (bindTokenId.map fun id =>
          { id, token := (trimmedNonEmpty token).getD "" }))

def insertLoginState (s : UserLogins) (task : Nat) (bindingNonce : String) (now : Int) :
    Option UserLogins :=
  match s.starts task with
  | none => none
  | some presented =>
      let call : InsertCall :=
        { provider := "linuxdo", redirectTo := none, ttlSecs := config.loginStateTtlSecs
          bindingHash := some (config.hashOauthBinding bindingNonce)
          bindTokenId := presented.map AuthTokenSecret.id, now }
      (loginStateStep s.logins (.insert task call)).map fun logins =>
        { s with
          logins, inserting := Function.update s.inserting task presented }.setStart task none

/-- A statement of an insert that has been called. -/
def insertStateStatement (s : UserLogins) (action : LoginStateAction) : Option UserLogins :=
  match action with
  | .insertClean _ | .abandonInsert _ =>
      (loginStateStep s.logins action).map fun logins => { s with logins }
  | .insertRow task _ =>
      (loginStateStep s.logins action).map fun logins =>
        let made := s.logins.inserted.length < logins.inserted.length
        { s with logins, opened := s.opened ++ if made then [s.inserting task] else [] }
  | _ => none

/-- The callback with the texts of its query and its cookie, neither of them blank. -/
def startCallback (s : UserLogins) (task : Nat) (state bindingNonce : String) (now : Int) :
    Option UserLogins :=
  match s.callbacks task, trimmedNonEmpty (some state), trimmedNonEmpty (some bindingNonce) with
  | .idle, some state, some bindingNonce =>
      let call : ConsumeCall :=
        { provider := "linuxdo", state
          bindingHash := some (config.hashOauthBinding bindingNonce), now }
      (loginStateStep s.logins (.consume task call)).map fun logins =>
        { s with logins }.setCallback task .consuming
  | _, _, _ => none

/-- A statement of the consume of a callback, which ends with a payload or without one. -/
def callbackStatement (s : UserLogins) (task : Nat) : Option UserLogins :=
  match s.callbacks task with
  | .consuming =>
      (loginStateStep s.logins (.consumeStatement task)).map fun logins =>
        let s' := { s with logins }
        match logins.accepted[s.logins.accepted.length]?, logins.consumes task with
        | some accepted, _ => s'.setCallback task (.consumed accepted)
        | none, .idle => s'.setCallback task .idle
        | none, _ => s'
  | _ => none

/-- The next step of a callback that holds a payload. -/
def callbackStep (s : UserLogins) : UserLoginAction → Option UserLogins
  | .identify task profile =>
      match s.callbacks task with
      | .consumed accepted =>
          if profile.provider = "linuxdo" ∧ profile.providerUserId ≠ "" then
            let login : UserLogin :=
              { serial := accepted.serial, bindTokenId := accepted.payload.bindTokenId, profile }
            some ({ s with
              attested := { serial := login.serial, identity := profile.identity } :: s.attested
              }.setCallback task (.identified login))
          else none
      | _ => none
  | .permit task =>
      match s.callbacks task with
      | .identified login =>
          if s.allowRegistration then some (s.setCallback task (.admitted login true))
          else some (s.setCallback task (.checking login))
      | _ => none
  | .checkAccount task =>
      match s.callbacks task with
      | .checking login =>
          if oauthAccountExists s.db login.profile.identity then
            some (s.setCallback task (.admitted login false))
          else some (s.setCallback task .idle)
      | _ => none
  | .upsert task draws now =>
      match s.callbacks task with
      | .admitted login registrationOpen =>
          (upsertOauthAccount login.profile draws now s.db).map fun (user, db) =>
            let registration : Registration :=
              { userId := user.userId, identity := login.profile.identity, registrationOpen }
            let made := if oauthAccountExists s.db login.profile.identity then [] else [registration]
            { s with db, registered := made ++ s.registered }.setCallback task
              (.upserted login user)
      | _ => none
  | .readPreferred task =>
      match s.callbacks task with
      | .upserted login user =>
          match login.preferredTokenId.bind (fetchActiveTokenSecretById s.db.tokens) with
          | some secret => some (s.setCallback task (.preferring login user secret))
          | none => some (s.setCallback task (.unbound login user))
      | _ => none
  | .bindPreferred task now =>
      match s.callbacks task with
      | .preferring login user secret =>
          match bindPreferredToken user.userId secret.id now s.db with
          | none => some (s.setCallback task (.unbound login user))
          | some db =>
              let grant : TokenGrant :=
                { tokenId := secret.id, userId := user.userId, serial := login.serial
                  preferred := true }
              let made := if (s.db.userTokenBindings.find secret.id).isSome then [] else [grant]
              some ({ s with db, grants := made ++ s.grants }.setCallback task (.bound login user))
      | _ => none
  | .readExisting task =>
      match s.callbacks task with
      | .unbound login user =>
          match fetchUserTokenAnyStatus s.db user.userId with
          | some _ => some (s.setCallback task (.bound login user))
          | none => some (s.setCallback task (.creating login user 4))
      | _ => none
  | .createToken task draws now =>
      match s.callbacks task with
      | .creating login user (attempts + 1) =>
          match createUserToken user.userId login.note draws now s.db with
          | .existing _ => some (s.setCallback task (.bound login user))
          | .noFreeId => some (s.setCallback task .idle)
          | .bindingTaken => some (s.setCallback task (.creating login user attempts))
          | .created secret db =>
              let grant : TokenGrant :=
                { tokenId := secret.id, userId := user.userId, serial := login.serial
                  preferred := false }
              some ({ s with
                db, grants := grant :: s.grants, issuedTokens := secret :: s.issuedTokens
                }.setCallback task (.bound login user))
      | _ => none
  | .cleanSessions task now =>
      match s.callbacks task with
      | .bound login user =>
          some ({ s with db := deleteEndedSessions now s.db }.setCallback task
            (.cleaned login user now))
      | _ => none
  | .insertSession task token =>
      match s.callbacks task with
      | .cleaned login user now =>
          match insertUserSession token user config.sessionMaxAgeSecs now s.db with
          -- a token that is taken is drawn again
          | none => some s
          | some db =>
              let session : IssuedSession :=
                { token, serial := login.serial, identity := login.profile.identity
                  userId := user.userId, expiresAt := now + max config.sessionMaxAgeSecs 60 }
              some ({ s with db, issuedSessions := session :: s.issuedSessions }.setCallback task
                .idle)
      | _ => none
  | _ => none

def userLoginStep (s : UserLogins) : UserLoginAction → Option UserLogins
  | .start task token => startLogin config s task token
  | .insertState task bindingNonce now => insertLoginState config s task bindingNonce now
  | .insertStateStatement action => insertStateStatement s action
  | .callback task state bindingNonce now => startCallback config s task state bindingNonce now
  | .consumeStatement task => callbackStatement s task
  | .abandon task =>
      match s.callbacks task with
      | .consuming =>
          (loginStateStep s.logins (.abandonConsume task)).map fun logins =>
            { s with logins }.setCallback task .idle
      | _ => some (s.setCallback task .idle)
  | .logout token now => some { s with db := revokeUserSession token now s.db }
  | .getSession token now => some { s with db := (getUserSession token now s.db).2 }
  | .setAllowRegistration allowed => some { s with allowRegistration := allowed }
  | .tokens action =>
      (accessTokenStep { tokens := s.db.tokens, issued := s.issuedTokens } action).map fun access =>
        { s with db := { s.db with tokens := access.tokens }, issuedTokens := access.issued }
  | action => callbackStep config s action

def userLoginSystem : TransitionSystem UserLogins UserLoginAction where
  step := userLoginStep config

end TavilyHikari.Server
