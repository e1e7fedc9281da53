/-
Module: TavilyHikari.Store.AccessTokens
Purpose: The access tokens of clients (`store/mod.rs`, `server/state.rs`, `server/proxy.rs`):
  how they are created, rotated, disabled and deleted, which texts they accept, and which token
  a request is attributed to.
Trusted boundary: human-reviewed spec (a random text is any text over its alphabet; an aggregate
  over no row reads as 0 or is refused)
Main exports: AuthTokenRow, AuthTokens, composeFullToken, validateAccessToken,
  authenticateRequestToken, AccessTokenAction, accessTokenSystem
-/
import TavilyHikari.Library.KeyedTable
import TavilyHikari.Library.Text
import TavilyHikari.Library.TransitionSystem

namespace TavilyHikari.Store

open Library

/-- A text of `random_string` over letters and digits. -/
structure RandomString (length : Nat) where
  text : String
  size : text.toList.length = length
  letters : ∀ c ∈ text.toList, c.isAlphanum = true

/-- The id and the secret of a token that is to be created. -/
structure TokenDraw where
  id : RandomString 4
  secret : RandomString 24

/-- A row of `auth_tokens`, by its id. -/
structure AuthTokenRow where
  secret : String
  enabled : Int
  note : Option String
  groupName : Option String
  totalRequests : Int
  createdAt : Int
  lastUsedAt : Option Int
  deletedAt : Option Int
deriving DecidableEq, Repr

abbrev AuthTokens := KeyedTable String AuthTokenRow

structure AuthTokenSecret where
  id : String
  token : String
deriving DecidableEq, Repr

def composeFullToken (id secret : String) : String := "th-" ++ (id ++ ("-" ++ secret))

/-- The row of a token that is not deleted. -/
def AuthTokens.active (tokens : AuthTokens) (id : String) : Option AuthTokenRow :=
  (tokens.find id).filter fun row => row.deletedAt.isNone

/-! ### Which texts are accepted -/

/-- `validate_access_token`; `none` is an error. `nullReads` says whether the driver reads the
NULL of `enabled` when no row is counted. -/
def validateAccessToken (nullReads : Bool) (tokens : AuthTokens) (token : String) :
    Option Bool :=
  match (stripPrefix "th-" token).bind (splitOnce "-") with
  | none => some false
  | some (id, secret) =>
      let secretLenOk := secret.utf8ByteSize = 12 ∨ secret.utf8ByteSize = 24
      if id.utf8ByteSize ≠ 4 ∨ ¬secretLenOk then some false
      else
        match (tokens.active id).filter fun row => row.secret = secret with
        | some row => some (row.enabled = 1)
        | none => if nullReads then some false else none

def authTokenIdFromSecret (token : String) : Option String :=
  (stripPrefix "th-" token).bind fun rest => (splitOnce "-" rest).map Prod.fst

def devOpenAdminRequestToken : String := "th-dev-override"

def devOpenAdminRequestTokenId : String := "dev"

structure RequestTokenResolution where
  token : String
  authTokenId : Option String
  usingDevOpenAdminFallback : Bool
deriving DecidableEq, Repr

/-- The candidates are the bearer token and the token of the query. -/
def resolveRequestToken (devOpenAdmin : Bool) (candidates : List (Option String)) :
    Option RequestTokenResolution :=
  match candidates.reduceOption.find? fun token => token ≠ "" with
  | some token =>
      some { token, authTokenId := authTokenIdFromSecret token, usingDevOpenAdminFallback := false }
  | none =>
      if devOpenAdmin then
        some
          { token := devOpenAdminRequestToken
            authTokenId := some devOpenAdminRequestTokenId
            usingDevOpenAdminFallback := true }
      else none

inductive RequestAuthentication where
  | missingToken
  | invalidToken
  | internalError
  | authenticated (tokenId : Option String) (usingDevOpenAdminFallback : Bool)
deriving DecidableEq, Repr

def authenticateRequestToken (nullReads devOpenAdmin : Bool) (tokens : AuthTokens)
    (candidates : List (Option String)) : RequestAuthentication :=
  match resolveRequestToken devOpenAdmin candidates with
  | none => .missingToken
  | some resolution =>
      let valid :=
        if resolution.usingDevOpenAdminFallback then some true
        else validateAccessToken nullReads tokens resolution.token
      match valid with
      | none => .internalError
      | some false => .invalidToken
      | some true =>
          .authenticated resolution.authTokenId resolution.usingDevOpenAdminFallback

/-! ### The statements -/

/-- The row that every insert of a new token makes. -/
def newTokenRow (secret : String) (note : String) (groupName : Option String) (now : Int) :
    AuthTokenRow where
  secret := secret
  enabled := 1
  note := some note
  groupName := groupName
  totalRequests := 0
  createdAt := now
  lastUsedAt := none
  deletedAt := none

/-- The first draw whose id no row has, and the draws after it. -/
def takeFree (tokens : AuthTokens) : List TokenDraw → Option (TokenDraw × List TokenDraw)
  | [] => none
  | draw :: rest =>
      if (tokens.find draw.id.text).isNone then some (draw, rest) else takeFree tokens rest

def insertToken (tokens : AuthTokens) (draw : TokenDraw) (note : String)
    (groupName : Option String) (now : Int) : AuthTokens :=
  let row := newTokenRow draw.secret.text note groupName now
  tokens.upsert draw.id.text row fun _ => row

def TokenDraw.issued (draw : TokenDraw) : AuthTokenSecret where
  id := draw.id.text
  token := composeFullToken draw.id.text draw.secret.text

/-- `create_access_token`; it does not return before a draw is free. -/
def createAccessToken (tokens : AuthTokens) (note : Option String) (draws : List TokenDraw)
    (now : Int) : Option (AuthTokenSecret × AuthTokens) :=
  (takeFree tokens draws).map fun (draw, _) =>
    (draw.issued, insertToken tokens draw (note.getD "") none now)

/-- `create_access_tokens_batch`, one transaction. -/
def createAccessTokensBatch (group : String) (note : Option String) (now : Int) :
    Nat → List TokenDraw → AuthTokens → Option (List AuthTokenSecret × AuthTokens)
  | 0, _, tokens => some ([], tokens)
  | count + 1, draws, tokens =>
      match takeFree tokens draws with
      | none => none
      | some (draw, rest) =>
          (createAccessTokensBatch group note now count rest
            (insertToken tokens draw (note.getD "") (some group) now)).map
            fun (issued, tokens) => (draw.issued :: issued, tokens)

def deleteAccessToken (tokens : AuthTokens) (id : String) (now : Int) : AuthTokens :=
  tokens.modify id fun row => { row with enabled := 0, deletedAt := some now }

/-- An `UPDATE ... WHERE id = ? AND deleted_at IS NULL`. -/
def updateActive (tokens : AuthTokens) (id : String) (change : AuthTokenRow → AuthTokenRow) :
    AuthTokens :=
  tokens.updateWhere (fun other row => other = id && row.deletedAt.isNone) change

def setAccessTokenEnabled (tokens : AuthTokens) (id : String) (enabled : Bool) : AuthTokens :=
  updateActive tokens id fun row => { row with enabled := if enabled then 1 else 0 }

def updateAccessTokenNote (tokens : AuthTokens) (id note : String) : AuthTokens :=
  updateActive tokens id fun row => { row with note := some note }

/-- The update of `rotate_access_token_secret`. -/
def rotateAccessTokenSecret (tokens : AuthTokens) (id : String) (secret : RandomString 24) :
    AuthTokens :=
  updateActive tokens id fun row => { row with secret := secret.text }

def getAccessTokenSecret (tokens : AuthTokens) (id : String) : Option AuthTokenSecret :=
  (tokens.active id).map fun row => { id, token := composeFullToken id row.secret }

/-- `fetch_active_token_secret_by_id`. -/
def fetchActiveTokenSecretById (tokens : AuthTokens) (id : String) : Option AuthTokenSecret :=
  ((tokens.active id).filter fun row => row.enabled = 1).map fun row =>
    { id, token := composeFullToken id row.secret }

/-- The update that `insert_token_log` makes. -/
def countRequest (tokens : AuthTokens) (id : String) (now : Int) : AuthTokens :=
  updateActive tokens id fun row =>
    { row with totalRequests := row.totalRequests + 1, lastUsedAt := some now }

/-- `INSERT ... ON CONFLICT DO NOTHING` of a token that is disabled and deleted. -/
def insertDeadToken (tokens : AuthTokens) (id secret note : String) (totalRequests createdAt : Int)
    (lastUsedAt : Option Int) (now : Int) : AuthTokens :=
  tokens.upsert id
    { secret, enabled := 0, note := some note, groupName := none, totalRequests, createdAt
      lastUsedAt, deletedAt := some now }
    fun row => row

/-- A group of the log: a token, how many rows it has, the first and the last of them. -/
structure TokenLogGroup where
  tokenId : String
  count : Int
  first : Int
  last : Int
deriving DecidableEq, Repr

/-- `heal_orphan_auth_tokens_from_logs`. -/
def healOrphanAuthTokens (groups : List TokenLogGroup) (now : Int) (tokens : AuthTokens) :
    AuthTokens :=
  groups.foldl
    (fun tokens group =>
      insertDeadToken tokens group.tokenId "restored-from-logs" "[auto-restored from logs]"
        group.count group.first (some group.last) now)
    tokens

/-! ### The system -/

/-- The table, and the tokens that have been handed out. -/
structure AccessTokens where
  tokens : AuthTokens
  issued : List AuthTokenSecret

inductive AccessTokenAction where
  | create (note : Option String) (draws : List TokenDraw) (now : Int)
  | createBatch (group : String) (note : Option String) (count : Nat) (draws : List TokenDraw)
      (now : Int)
  | delete (id : String) (now : Int)
  | setEnabled (id : String) (enabled : Bool)
  | updateNote (id note : String)
  -- the check that the token exists may have read an earlier state
  | rotate (id : String) (secret : RandomString 24)
  | countRequest (id : String) (now : Int)
  | insertDead (id secret note : String) (now : Int)
  | healOrphans (groups : List TokenLogGroup) (now : Int)

def accessTokenStep (s : AccessTokens) : AccessTokenAction → Option AccessTokens
  | .create note draws now =>
      (createAccessToken s.tokens note draws now).map fun (issued, tokens) =>
        { tokens, issued := issued :: s.issued }
  | .createBatch group note count draws now =>
      (createAccessTokensBatch group note now count draws s.tokens).map fun (issued, tokens) =>
        { tokens, issued := issued ++ s.issued }
  | .delete id now => some { s with tokens := deleteAccessToken s.tokens id now }
  | .setEnabled id enabled =>
      some { s with tokens := setAccessTokenEnabled s.tokens id enabled }
  | .updateNote id note => some { s with tokens := updateAccessTokenNote s.tokens id note }
  | .rotate id secret =>
      some
        { tokens := rotateAccessTokenSecret s.tokens id secret
          issued := { id, token := composeFullToken id secret.text } :: s.issued }
  | .countRequest id now => some { s with tokens := Store.countRequest s.tokens id now }
  | .insertDead id secret note now =>
      some { s with tokens := insertDeadToken s.tokens id secret note 0 now none now }
  | .healOrphans groups now =>
      some { s with tokens := healOrphanAuthTokens groups now s.tokens }

def accessTokenSystem : TransitionSystem AccessTokens AccessTokenAction where
  step := accessTokenStep

end TavilyHikari.Store
