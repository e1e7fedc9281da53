/-
Module: TavilyHikari.Server.McpSessions
Purpose: The sessions that the proxy hands out to MCP clients (`store/mod.rs`,
  `tavily_proxy/mod.rs`, `server/proxy.rs`): the table, its statements, and what the handler of
  a request does with a session before and after it asks the upstream.
Trusted boundary: human-reviewed spec (statements that fail and what the upstream answers are in
  the actions; ids of `nanoid` are new; header values are text)
Main exports: McpSessionBinding, McpSessions, mcpResponseRequiresReconnect, McpExchange,
  McpServer, McpAction, mcpSessionSystem
-/
import TavilyHikari.Library.Substring
import TavilyHikari.Library.TransitionSystem
import TavilyHikari.Library.Trim
import TavilyHikari.Library.Utf8
import TavilyHikari.TavilyProxy.KeyAffinity

namespace TavilyHikari.Server

open Library TavilyProxy

/-- `MCP_SESSION_IDLE_TTL_SECS`. -/
def mcpSessionIdleTtlSecs : Int := 24 * 60 * 60

/-! ### The table -/

/-- A row of `mcp_sessions`, by its proxy session id. -/
structure McpSessionBinding where
  upstreamSessionId : String
  upstreamKeyId : String
  authTokenId : Option String
  userId : Option String
  protocolVersion : Option String
  lastEventId : Option String
  createdAt : Int
  updatedAt : Int
  expiresAt : Int
  revokedAt : Option Int
  revokeReason : Option String
deriving DecidableEq, Repr

abbrev McpSessions := KeyedTable String McpSessionBinding

/-- The columns that a lease of a key looks at. -/
def McpSessionBinding.pinned (binding : McpSessionBinding) : McpSession where
  upstreamSessionId := binding.upstreamSessionId
  upstreamKeyId := binding.upstreamKeyId
  authTokenId := binding.authTokenId
  userId := binding.userId
  createdAt := binding.createdAt
  updatedAt := binding.updatedAt
  expiresAt := binding.expiresAt
  revokedAt := binding.revokedAt
  revokeReason := binding.revokeReason

def McpSessionBinding.revoke (now : Int) (reason : String) (binding : McpSessionBinding) :
    McpSessionBinding :=
  { binding with revokedAt := some now, revokeReason := some reason, updatedAt := now }

namespace McpSessions

/-- `create_or_replace_mcp_session`; a row that is there keeps when it was created. -/
def createOrReplace (proxySessionId : String) (binding : McpSessionBinding)
    (sessions : McpSessions) : McpSessions :=
  sessions.upsert proxySessionId binding fun stored =>
    { binding with createdAt := stored.createdAt }

/-- `get_active_mcp_session`. -/
def getActive (proxySessionId : String) (now : Int) (sessions : McpSessions) :
    Option McpSessionBinding :=
  (sessions.find proxySessionId).filter fun binding =>
    binding.revokedAt.isNone && binding.expiresAt > now

/-- `touch_mcp_session`. -/
def touch (proxySessionId : String) (protocolVersion lastEventId : Option String)
    (now expiresAt : Int) (sessions : McpSessions) : McpSessions :=
  sessions.updateWhere (fun id binding => id = proxySessionId && binding.revokedAt.isNone)
    fun binding =>
      { binding with
        protocolVersion := protocolVersion.or binding.protocolVersion
        lastEventId := lastEventId.or binding.lastEventId
        updatedAt := now
        expiresAt }

/-- `update_mcp_session_upstream_identity`. -/
def updateUpstreamIdentity (proxySessionId upstreamSessionId : String)
    (protocolVersion : Option String) (now expiresAt : Int) (sessions : McpSessions) :
    McpSessions :=
  sessions.updateWhere (fun id binding => id = proxySessionId && binding.revokedAt.isNone)
    fun binding =>
      { binding with
        upstreamSessionId
        protocolVersion := protocolVersion.or binding.protocolVersion
        updatedAt := now
        expiresAt }

/-- The statement of the functions that revoke: of the rows that are selected, those that are
not revoked yet. -/
def revokeWhere (selected : String → McpSessionBinding → Bool) (reason : String) (now : Int)
    (sessions : McpSessions) : McpSessions :=
  sessions.updateWhere (fun id binding => selected id binding && binding.revokedAt.isNone)
    (McpSessionBinding.revoke now reason)

/-- `revoke_mcp_session`. -/
def revoke (proxySessionId : String) := revokeWhere fun id _ => id = proxySessionId

/-- `revoke_mcp_sessions_for_user`. -/
def revokeForUser (userId : String) := revokeWhere fun _ binding => binding.userId = some userId

/-- `revoke_mcp_sessions_for_token`. -/
def revokeForToken (tokenId : String) :=
  revokeWhere fun _ binding => binding.authTokenId = some tokenId

end McpSessions

/-! ### The handler -/

/-- `header_string`. -/
def headerString (value : Option String) : Option String :=
  (value.map trim).filter fun text => text ≠ ""

def mcpResponseRequiresReconnect (status : Nat) (body : ByteArray) : Bool :=
  if 400 ≤ status ∧ status < 500 then
    let lower := toAsciiLowercase (fromUtf8Lossy body)
    contains lower "missing mcp-session-id header" || contains lower "session not found" ||
      contains lower "unknown session" || contains lower "invalid session" ||
      contains lower "session expired"
  else false

/-- What the handler has read off a request to `/mcp`: the token, the user that it found for it,
and the headers. -/
structure McpRequest where
  tokenId : Option String
  tokenUserId : Option String
  proxySessionId : Option String
  protocolVersion : Option String
  lastEventId : Option String
  isInitialize : Bool
deriving DecidableEq, Repr

/-- What the upstream answers, and the key that was leased for it. -/
structure McpResponse where
  status : Nat
  body : ByteArray
  sessionHeader : Option String
  protocolHeader : Option String
  apiKeyId : Option String

/-- What a session adds to a request to the upstream. -/
structure McpPin where
  proxySessionId : String
  upstreamKeyId : String
  /-- The `mcp-session-id` header. -/
  upstreamSessionId : String
  /-- The `mcp-protocol-version` header. -/
  protocolVersion : Option String
  /-- When the session was looked up. -/
  readAt : Int
deriving DecidableEq, Repr

inductive McpAnswer where
  /-- `mcp_session_response`. -/
  | session (status : Nat) (error message : String)
  /-- The answer of the upstream, with this `mcp-session-id` header. -/
  | relayed (status : Nat) (sessionHeader : Option String)
  /-- Any other status. -/
  | status (code : Nat)
deriving DecidableEq, Repr

inductive McpPhase where
  /-- The upstream has been asked. -/
  | waiting
  /-- The session has been touched, its upstream identity not yet written. -/
  | identifying (response : McpResponse)
  | answered (answer : McpAnswer)

/-- A request and what has become of it. -/
structure McpExchange where
  request : McpRequest
  pin : Option McpPin
  phase : McpPhase

def sessionUnavailable : McpAnswer :=
  .session 409 "session_unavailable"
    "MCP session is unavailable, please reconnect to initialize a new session."

def sessionForbidden : McpAnswer :=
  .session 403 "session_forbidden"
    "This MCP session belongs to a different token. Please reconnect."

def upstreamSessionExpired : McpAnswer :=
  .session 409 "session_unavailable"
    "Upstream MCP session expired or became unavailable. Please reconnect."

def pinnedKeyUnavailable : McpAnswer :=
  .session 409 "session_unavailable" "The pinned MCP session key is unavailable. Please reconnect."

/-- A lookup that the request depends on failed. -/
def lookupFailed : McpAnswer := .status 500

/-- The lookup of the session that a request names. -/
def McpRequest.beginNamed (request : McpRequest) (proxySessionId : String) (sessionRead : Bool)
    (now : Int) (sessions : McpSessions) : McpExchange :=
  if sessionRead then
    match sessions.getActive proxySessionId now with
    | none => { request, pin := none, phase := .answered sessionUnavailable }
    | some session =>
        if session.authTokenId ≠ request.tokenId then
          { request, pin := none, phase := .answered sessionForbidden }
        else
          { request
            pin := some
              { proxySessionId
                upstreamKeyId := session.upstreamKeyId
                upstreamSessionId := session.upstreamSessionId
                protocolVersion := request.protocolVersion.or session.protocolVersion
                readAt := now }
            phase := .waiting }
  else { request, pin := none, phase := .answered lookupFailed }

/-- The part of the handler before the upstream is asked; the user is looked up for a token, the
session where one is named. -/
def McpRequest.begin (request : McpRequest) (userRead sessionRead : Bool) (now : Int)
    (sessions : McpSessions) : McpExchange :=
  if request.tokenId.isSome ∧ ¬userRead then
    { request, pin := none, phase := .answered lookupFailed }
  else
    match request.proxySessionId with
    | none => { request, pin := none, phase := .waiting }
    | some proxySessionId => request.beginNamed proxySessionId sessionRead now sessions

/-- The protocol version that the answer or the request names. -/
def McpResponse.effectiveProtocolVersion (response : McpResponse) (request : McpRequest) :
    Option String :=
  (headerString response.protocolHeader).or request.protocolVersion

/-- The row of `create_mcp_session`. -/
def newBinding (request : McpRequest) (upstreamSessionId upstreamKeyId : String) (now : Int) :
    McpSessionBinding where
  upstreamSessionId := upstreamSessionId
  upstreamKeyId := upstreamKeyId
  authTokenId := request.tokenId
  userId := request.tokenUserId
  protocolVersion := request.protocolVersion
  lastEventId := request.lastEventId
  createdAt := now
  updatedAt := now
  expiresAt := now + mcpSessionIdleTtlSecs
  revokedAt := none
  revokeReason := none

namespace McpExchange

def answer (exchange : McpExchange) (answer : McpAnswer) : McpExchange :=
  { exchange with phase := .answered answer }

/-- A statement that goes through, or leaves everything as it was. -/
def attempt (stored : Bool) (change : McpSessions → McpSessions) (sessions : McpSessions) :
    McpSessions :=
  if stored then change sessions else sessions

/-- The first statement after an answer of the upstream, where the request came with a session:
it is revoked or touched. -/
def respondPinned (exchange : McpExchange) (proxySessionId : String) (response : McpResponse)
    (stored : Bool) (now : Int) (sessions : McpSessions) : McpExchange × McpSessions :=
  if mcpResponseRequiresReconnect response.status response.body then
    (exchange.answer upstreamSessionExpired,
      attempt stored (McpSessions.revoke proxySessionId "upstream_session_invalid" now) sessions)
  else
    let sessions :=
      attempt stored
        (McpSessions.touch proxySessionId (response.effectiveProtocolVersion exchange.request)
          exchange.request.lastEventId now (now + mcpSessionIdleTtlSecs))
        sessions
    match headerString response.sessionHeader with
    | some _ => ({ exchange with phase := .identifying response }, sessions)
    | none => (exchange.answer (.relayed response.status response.sessionHeader), sessions)

/-- The same, where it came without one: an answer to `initialize` may open a session. -/
def respondUnpinned (exchange : McpExchange) (response : McpResponse) (stored : Bool)
    (newSessionId : String) (now : Int) (sessions : McpSessions) : McpExchange × McpSessions :=
  if exchange.request.isInitialize ∧ 200 ≤ response.status ∧ response.status < 300 then
    match headerString response.sessionHeader, response.apiKeyId with
    | some upstreamSessionId, some upstreamKeyId =>
        if stored then
          (exchange.answer (.relayed response.status (some newSessionId)),
            sessions.createOrReplace newSessionId
              (newBinding exchange.request upstreamSessionId upstreamKeyId now))
        else (exchange.answer (.status 500), sessions)
    | _, _ => (exchange.answer (.relayed response.status response.sessionHeader), sessions)
  else (exchange.answer (.relayed response.status response.sessionHeader), sessions)

def respond (exchange : McpExchange) (response : McpResponse) (stored : Bool)
    (newSessionId : String) (now : Int) (sessions : McpSessions) :
    Option (McpExchange × McpSessions) :=
  match exchange.phase with
  | .waiting =>
      match exchange.request.proxySessionId with
      | some proxySessionId =>
          some (exchange.respondPinned proxySessionId response stored now sessions)
      | none => some (exchange.respondUnpinned response stored newSessionId now sessions)
  | _ => none

/-- The statement that follows a touch. -/
def identify (exchange : McpExchange) (stored : Bool) (now : Int) (sessions : McpSessions) :
    Option (McpExchange × McpSessions) :=
  match exchange.phase, exchange.request.proxySessionId with
  | .identifying response, some proxySessionId =>
      match headerString response.sessionHeader with
      | some upstreamSessionId =>
          some
            (exchange.answer (.relayed response.status (some proxySessionId)),
              attempt stored
                (McpSessions.updateUpstreamIdentity proxySessionId upstreamSessionId
                  (response.effectiveProtocolVersion exchange.request) now
                  (now + mcpSessionIdleTtlSecs))
                sessions)
      | none => none
  | _, _ => none

/-- The upstream could not be asked: the pinned key cannot be leased, or another error. -/
def fail (exchange : McpExchange) (pinnedUnavailable stored : Bool) (now : Int)
    (sessions : McpSessions) : Option (McpExchange × McpSessions) :=
  match exchange.phase with
  | .waiting =>
      match pinnedUnavailable, exchange.request.proxySessionId with
      | true, some proxySessionId =>
          some
            (exchange.answer pinnedKeyUnavailable,
              attempt stored (McpSessions.revoke proxySessionId "pinned_key_unavailable" now)
                sessions)
      | _, _ => some (exchange.answer (.status 502), sessions)
  | _ => none

/-- The handler ends before the upstream is asked, over its quota or the like. -/
def reject (exchange : McpExchange) (code : Nat) : Option McpExchange :=
  match exchange.phase with
  | .waiting => some (exchange.answer (.status code))
  | _ => none

end McpExchange

/-! ### The server -/

structure McpServer where
  now : Int
  sessions : McpSessions
  exchanges : List McpExchange

inductive McpAction where
  /-- The clock moves on to a later time. -/
  | tick (now : Int)
  /-- Whether the lookups of the user and of the session go through is in the action. -/
  | begin (request : McpRequest) (userRead sessionRead : Bool)
  | respond (exchange : Nat) (response : McpResponse) (stored : Bool) (newSessionId : String)
  | identify (exchange : Nat) (stored : Bool)
  | fail (exchange : Nat) (pinnedUnavailable stored : Bool)
  | reject (exchange : Nat) (code : Nat)
  /-- A primary key has been moved: `rebind_user_primary_affinity`. -/
  | revokeForUser (userId reason : String)
  | revokeForToken (tokenId reason : String)

namespace McpServer

def new (now : Int) : McpServer where
  now := now
  sessions := .empty
  exchanges := []

/-- A step of the handler of one request. -/
def stepExchange (s : McpServer) (index : Nat)
    (move : McpExchange → McpSessions → Option (McpExchange × McpSessions)) :
    Option McpServer := do
  let exchange ← s.exchanges[index]?
  let (exchange, sessions) ← move exchange s.sessions
  some { s with sessions, exchanges := s.exchanges.set index exchange }

def step (s : McpServer) : McpAction → Option McpServer
  | .tick now => if s.now ≤ now then some { s with now } else none
  | .begin request userRead sessionRead =>
      some
        { s with
          exchanges := s.exchanges ++ [request.begin userRead sessionRead s.now s.sessions] }
  | .respond index response stored newSessionId =>
      -- `nanoid` hands out an id that no session has.
      if (s.sessions.find newSessionId).isSome then none
      else
        s.stepExchange index fun exchange =>
          exchange.respond response stored newSessionId s.now
  | .identify index stored => s.stepExchange index fun exchange => exchange.identify stored s.now
  | .fail index pinnedUnavailable stored =>
      s.stepExchange index fun exchange => exchange.fail pinnedUnavailable stored s.now
  | .reject index code =>
      s.stepExchange index fun exchange sessions =>
        (exchange.reject code).map fun exchange => (exchange, sessions)
  | .revokeForUser userId reason =>
      some { s with sessions := s.sessions.revokeForUser userId reason s.now }
  | .revokeForToken tokenId reason =>
      some { s with sessions := s.sessions.revokeForToken tokenId reason s.now }

end McpServer

def mcpSessionSystem : TransitionSystem McpServer McpAction where
  step := McpServer.step

end TavilyHikari.Server
