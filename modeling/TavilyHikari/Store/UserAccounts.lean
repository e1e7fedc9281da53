/-
Module: TavilyHikari.Store.UserAccounts
Purpose: The tables of users (`store/mod.rs`): the accounts of a login provider, the sessions of
  the console, and the tokens that belong to a user.
Trusted boundary: human-reviewed spec (a transaction is one step, and one that fails leaves no
  trace)
Main exports: UserTables, upsertOauthAccount, fetchUserTokenAnyStatus, getUserToken,
  createUserToken, insertUserSession, getUserSession
-/
import TavilyHikari.Library.Trim
import TavilyHikari.Store.AccessTokens
import TavilyHikari.TavilyProxy.KeyAffinity

namespace TavilyHikari.Store.UserAccounts

open Library TavilyProxy

/-- What the provider says of the one who logs in. -/
structure OAuthAccountProfile where
  provider : String
  providerUserId : String
  username : Option String
  name : Option String
  avatarTemplate : Option String
  active : Bool
  trustLevel : Option Int
  rawPayloadJson : Option String
deriving DecidableEq, Repr

structure UserIdentity where
  userId : String
  provider : String
  providerUserId : String
  displayName : Option String
  username : Option String
  avatarTemplate : Option String
deriving DecidableEq, Repr

/-- A row of `users`, by its id. -/
structure UserRow where
  displayName : Option String
  username : Option String
  avatarTemplate : Option String
  active : Int
  createdAt : Int
  updatedAt : Int
  lastLoginAt : Option Int
deriving DecidableEq, Repr

/-- A row of `oauth_accounts`, by its provider and the user's id there. -/
structure OAuthAccountRow where
  userId : String
  username : Option String
  name : Option String
  avatarTemplate : Option String
  active : Int
  trustLevel : Option Int
  rawPayload : Option String
  createdAt : Int
  updatedAt : Int
deriving DecidableEq, Repr

/-- A row of `user_sessions`, by its token. -/
structure UserSessionRow where
  userId : String
  provider : String
  createdAt : Int
  expiresAt : Int
  revokedAt : Option Int
deriving DecidableEq, Repr

structure UserSession where
  token : String
  user : UserIdentity
  expiresAt : Int
deriving DecidableEq, Repr

structure UserTables where
  users : KeyedTable String UserRow
  oauthAccounts : KeyedTable (String × String) OAuthAccountRow
  tokens : AuthTokens
  userTokenBindings : KeyedTable String UserTokenBinding
  userSessions : KeyedTable String UserSessionRow

namespace UserTables

def empty : UserTables where
  users := .empty
  oauthAccounts := .empty
  tokens := .empty
  userTokenBindings := .empty
  userSessions := .empty

end UserTables

/-! ### Accounts -/

namespace OAuthAccountProfile

def identity (profile : OAuthAccountProfile) : String × String :=
  (profile.provider, profile.providerUserId)

def trimmedUsername (profile : OAuthAccountProfile) : Option String :=
  trimmedNonEmpty profile.username

def displayName (profile : OAuthAccountProfile) : Option String :=
  trimmedNonEmpty profile.name <|> trimmedNonEmpty profile.username

def avatar (profile : OAuthAccountProfile) : Option String :=
  trimmedNonEmpty profile.avatarTemplate

def activeFlag (profile : OAuthAccountProfile) : Int := if profile.active then 1 else 0

/-- The identity that `upsert_oauth_account` returns. -/
def user (profile : OAuthAccountProfile) (userId : String) : UserIdentity where
  userId := userId
  provider := profile.provider
  providerUserId := profile.providerUserId
  displayName := profile.displayName
  username := profile.trimmedUsername
  avatarTemplate := profile.avatar

def userRow (profile : OAuthAccountProfile) (now : Int) : UserRow where
  displayName := profile.displayName
  username := profile.trimmedUsername
  avatarTemplate := profile.avatar
  active := profile.activeFlag
  createdAt := now
  updatedAt := now
  lastLoginAt := some now

def accountRow (profile : OAuthAccountProfile) (userId : String) (now : Int) :
    OAuthAccountRow where
  userId := userId
  username := profile.trimmedUsername
  name := profile.displayName
  avatarTemplate := profile.avatar
  active := profile.activeFlag
  trustLevel := profile.trustLevel
  rawPayload := profile.rawPayloadJson
  createdAt := now
  updatedAt := now

/-- The assignments of the two updates of `upsert_oauth_account`. -/
def refreshUser (profile : OAuthAccountProfile) (now : Int) (row : UserRow) : UserRow :=
  { row with
    displayName := profile.displayName
    username := profile.trimmedUsername
    avatarTemplate := profile.avatar
    active := profile.activeFlag
    updatedAt := now
    lastLoginAt := some now }

def refreshAccount (profile : OAuthAccountProfile) (now : Int) (row : OAuthAccountRow) :
    OAuthAccountRow :=
  { row with
    username := profile.trimmedUsername
    name := profile.displayName
    avatarTemplate := profile.avatar
    active := profile.activeFlag
    trustLevel := profile.trustLevel
    rawPayload := profile.rawPayloadJson
    updatedAt := now }

end OAuthAccountProfile

def oauthAccountExists (db : UserTables) (identity : String × String) : Bool :=
  (db.oauthAccounts.find identity).isSome

/-- The user of a new account: the first of the ids that no user has, in at most 8 draws. -/
def createUser (profile : OAuthAccountProfile) (draws : List (RandomString 12)) (now : Int)
    (db : UserTables) : Option (String × UserTables) :=
  ((draws.take 8).find? fun candidate => (db.users.find candidate.text).isNone).map fun candidate =>
    let userId := candidate.text
    let row := profile.userRow now
    let account := profile.accountRow userId now
    (userId, { db with
      users := db.users.upsert userId row fun _ => row
      oauthAccounts := db.oauthAccounts.upsert profile.identity account fun _ => account })

/-- `upsert_oauth_account`, one transaction. An account that was not there when the transaction
looked is not there when it inserts, so the first of its 4 attempts is the only one. -/
def upsertOauthAccount (profile : OAuthAccountProfile) (draws : List (RandomString 12))
    (now : Int) (db : UserTables) : Option (UserIdentity × UserTables) :=
  let located :=
    match db.oauthAccounts.find profile.identity with
    | some account => some (account.userId, db)
    | none => createUser profile draws now db
  located.map fun (userId, db) =>
    (profile.user userId, { db with
      users := db.users.modify userId (profile.refreshUser now)
      oauthAccounts := db.oauthAccounts.modify profile.identity (profile.refreshAccount now) })

/-! ### Tokens of a user -/

/-- `ORDER BY updated_at DESC, created_at DESC, token_id DESC`. -/
def latestBinding (a b : String × UserTokenBinding) : Prop :=
  b.2.updatedAt < a.2.updatedAt ∨ b.2.updatedAt = a.2.updatedAt ∧
    (b.2.createdAt < a.2.createdAt ∨ b.2.createdAt = a.2.createdAt ∧ b.1 ≤ a.1)

instance : DecidableRel latestBinding := fun _ _ => by
  unfold latestBinding
  infer_instance

/-- The latest binding of a user whose token has a row; `fetch_user_token_any_status`. -/
def fetchUserTokenAnyStatus (db : UserTables) (userId : String) : Option AuthTokenSecret :=
  let joined := db.userTokenBindings.firstWhere
    (fun tokenId row => row.userId = userId && (db.tokens.find tokenId).isSome) latestBinding
  joined.bind fun (tokenId, _) =>
    (db.tokens.find tokenId).map fun row =>
      { id := tokenId, token := composeFullToken tokenId row.secret }

inductive UserTokenLookup where
  | found (secret : AuthTokenSecret)
  | missingBinding
  | unavailable
deriving DecidableEq, Repr

def getUserToken (db : UserTables) (userId : String) : UserTokenLookup :=
  match db.userTokenBindings.firstWhere (fun _ row => row.userId = userId) latestBinding with
  | none => .missingBinding
  | some (tokenId, _) =>
      match db.tokens.find tokenId with
      | none => .unavailable
      | some row =>
          if row.enabled ≠ 1 ∨ row.deletedAt.isSome then .unavailable
          else .found { id := tokenId, token := composeFullToken tokenId row.secret }

/-- The transaction on the preferred token: `none` is a token of another user. -/
def bindPreferredToken (userId tokenId : String) (now : Int) (db : UserTables) :
    Option UserTables :=
  match db.userTokenBindings.find tokenId with
  | some binding =>
      if binding.userId ≠ userId then none
      else
        some { db with
          userTokenBindings :=
            db.userTokenBindings.modify tokenId fun row => { row with updatedAt := now } }
  | none =>
      let row : UserTokenBinding := { userId, createdAt := now, updatedAt := now }
      some { db with userTokenBindings := db.userTokenBindings.upsert tokenId row fun _ => row }

/-- How an attempt to give a user a new token ends. -/
inductive CreatedToken where
  | existing (secret : AuthTokenSecret)
  | created (secret : AuthTokenSecret) (db : UserTables)
  | bindingTaken
  | noFreeId

/-- An attempt to give a user a new token, one transaction with at most 8 draws. -/
def createUserToken (userId note : String) (draws : List TokenDraw) (now : Int)
    (db : UserTables) : CreatedToken :=
  match fetchUserTokenAnyStatus db userId with
  | some secret => .existing secret
  | none =>
      match takeFree db.tokens (draws.take 8) with
      | none => .noFreeId
      | some (draw, _) =>
          match db.userTokenBindings.find draw.id.text with
          | some _ => .bindingTaken
          | none =>
              let row : UserTokenBinding := { userId, createdAt := now, updatedAt := now }
              .created draw.issued { db with
                tokens := insertToken db.tokens draw note none now
                userTokenBindings :=
                  db.userTokenBindings.upsert draw.id.text row fun _ => row }

/-! ### Sessions -/

/-- The DELETE of `create_user_session`. -/
def deleteEndedSessions (now : Int) (db : UserTables) : UserTables :=
  { db with
    userSessions :=
      db.userSessions.deleteWhere fun _ row => row.expiresAt < now || row.revokedAt.isSome }

/-- The INSERT of `create_user_session`; `none` is a token that is taken. -/
def insertUserSession (token : String) (user : UserIdentity) (maxAgeSecs now : Int)
    (db : UserTables) : Option UserTables :=
  match db.userSessions.find token with
  | some _ => none
  | none =>
      let row : UserSessionRow :=
        { userId := user.userId, provider := user.provider, createdAt := now
          expiresAt := now + max maxAgeSecs 60, revokedAt := none }
      some { db with userSessions := db.userSessions.upsert token row fun _ => row }

/-- The DELETE of `get_user_session`. -/
def deleteExpiredSessions (now : Int) (db : UserTables) : UserTables :=
  { db with userSessions := db.userSessions.deleteWhere fun _ row => row.expiresAt < now }

/-- The SELECT of `get_user_session`. -/
def selectUserSession (token : String) (now : Int) (db : UserTables) : Option UserSession := do
  let session ← (db.userSessions.find token).filter fun row =>
    row.revokedAt.isNone && row.expiresAt > now
  let user ← db.users.find session.userId
  let account := db.oauthAccounts.rows.find? fun (identity, row) =>
    row.userId = session.userId && identity.1 = session.provider
  return {
    token
    user :=
      { userId := session.userId
        provider := session.provider
        providerUserId := (account.map fun (identity, _) => identity.2).getD ""
        displayName := user.displayName
        username := user.username
        avatarTemplate := user.avatarTemplate }
    expiresAt := session.expiresAt }

def getUserSession (token : String) (now : Int) (db : UserTables) :
    Option UserSession × UserTables :=
  let db := deleteExpiredSessions now db
  (selectUserSession token now db, db)

def revokeUserSession (token : String) (now : Int) (db : UserTables) : UserTables :=
  { db with
    userSessions := db.userSessions.updateWhere
      (fun other row => other = token && row.revokedAt.isNone)
      fun row => { row with revokedAt := some now } }

end TavilyHikari.Store.UserAccounts
