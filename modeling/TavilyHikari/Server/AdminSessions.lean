/-
Module: TavilyHikari.Server.AdminSessions
Purpose: The sessions of the built-in administrator (`server/state.rs`,
  `server/handlers/admin_auth.rs`): logins by a password, requests under the cookie of a session,
  and logouts, from all clients of one process.
Trusted boundary: how a password is checked against a hash; the tokens that are drawn; a call reads
  the clock some time before it takes the lock of the map, and the order of the map is any
Main exports: cookieValue, BuiltinAdminAuth, AdminSessions, adminSessionSystem
-/
import Mathlib.Data.List.Sort
import TavilyHikari.Library.KeyedTable
import TavilyHikari.Library.Text
import TavilyHikari.Library.TransitionSystem
import TavilyHikari.Library.Trim

namespace TavilyHikari.Server

open Library

def builtinAdminCookieName : String := "hikari_admin_session"

def nanosPerSec : Nat := 1000000000

def builtinAdminSessionMaxAgeSecs : Nat := 60 * 60 * 24 * 14

def builtinAdminSessionMaxCount : Nat := 1024

/-- The first value of the cookie in the `Cookie` header of a request. -/
def cookieValue (cookies : Option String) (cookieName : String) : Option String :=
  cookies.bind fun raw =>
    (splitAt ';' raw).findSome? fun part =>
      (splitOnce "=" (trim part)).bind fun pair =>
        if trim pair.1 = cookieName then some (trim pair.2) else none

structure BuiltinAdminSession where
  issuedAt : Nat
  expiresAt : Nat
deriving DecidableEq, Repr

/-- The configuration, with the check of a password against a hash. -/
structure BuiltinAdminAuth where
  enabled : Bool
  password : Option String
  passwordHash : Option String
  verifyPassword : String → String → Bool

/-- Whether `login` takes the password that was sent. -/
def BuiltinAdminAuth.accepts (auth : BuiltinAdminAuth) (sent : String) : Bool :=
  auth.enabled &&
    match auth.passwordHash with
    | some hash => auth.verifyPassword hash (trim sent)
    | none => auth.password = some (trim sent)

abbrev AdminSessions := KeyedTable String BuiltinAdminSession

namespace AdminSessions

/-- `retain` at the time that a call has read. -/
def retainLive (sessions : AdminSessions) (now : Nat) : AdminSessions :=
  sessions.deleteWhere fun _ session => session.expiresAt ≤ now

/-- `is_admin`. -/
def isAdmin (auth : BuiltinAdminAuth) (sessions : AdminSessions) (cookies : Option String)
    (now : Nat) : Bool × AdminSessions :=
  match auth.enabled, cookieValue cookies builtinAdminCookieName with
  | true, some value =>
      let sessions := sessions.retainLive now
      ((sessions.find value).any fun session => now < session.expiresAt, sessions)
  | _, _ => (false, sessions)

/-- Too many sessions lose the oldest ones. -/
def evictOldest (sessions : AdminSessions) : AdminSessions :=
  if sessions.rows.length > builtinAdminSessionMaxCount then
    let excess := sessions.rows.length - builtinAdminSessionMaxCount
    let issued := sessions.rows.insertionSort fun lhs rhs => lhs.2.issuedAt ≤ rhs.2.issuedAt
    let evicted := (issued.take excess).map Prod.fst
    sessions.deleteWhere fun token _ => token ∈ evicted
  else sessions

/-- `remember_session`. -/
def rememberSession (sessions : AdminSessions) (token : String) (now : Nat) : AdminSessions :=
  let session : BuiltinAdminSession :=
    { issuedAt := now, expiresAt := now + builtinAdminSessionMaxAgeSecs * nanosPerSec }
  evictOldest ((sessions.retainLive now).upsert token session fun _ => session)

/-- `forget_session`. -/
def forgetSession (auth : BuiltinAdminAuth) (sessions : AdminSessions) (cookies : Option String) :
    AdminSessions :=
  match auth.enabled, cookieValue cookies builtinAdminCookieName with
  | true, some value => sessions.deleteWhere fun token _ => token = value
  | _, _ => sessions

end AdminSessions

structure AdminState where
  clock : Nat
  sessions : AdminSessions

inductive AdminAction where
  /-- The clock moves on. -/
  | tick (clock : Nat)
  | request (cookies : Option String) (now : Nat)
  /-- `post_admin_login`; a password that is taken draws the token. -/
  | login (password token : String) (now : Nat)
  | logout (cookies : Option String)
  | rehash (rows : List (String × BuiltinAdminSession))

def adminStep (auth : BuiltinAdminAuth) (s : AdminState) : AdminAction → Option AdminState
  | .tick clock => if s.clock ≤ clock then some { s with clock } else none
  | .request cookies now =>
      if now ≤ s.clock then
        some { s with sessions := (s.sessions.isAdmin auth cookies now).2 }
      else none
  | .login password token now =>
      if now ≤ s.clock then
        if auth.accepts password then
          some { s with sessions := s.sessions.rememberSession token now }
        else some s
      else none
  | .logout cookies => some { s with sessions := s.sessions.forgetSession auth cookies }
  | .rehash rows =>
      if same : rows.Perm s.sessions.rows then
        some
          { s with
            sessions := { rows, distinct := (same.map Prod.fst).nodup_iff.2 s.sessions.distinct } }
      else none

def adminSessionSystem (auth : BuiltinAdminAuth) : TransitionSystem AdminState AdminAction where
  step := adminStep auth

def AdminState.initial (clock : Nat) : AdminState where
  clock := clock
  sessions := .empty

end TavilyHikari.Server
