/-
Module: TavilyHikari.TavilyProxy.ResearchAffinity
Purpose: The key and the owner of a research request (`tavily_proxy/mod.rs`, `lib.rs`,
  `store/mod.rs`): the table that keeps them, the two caches in front of it, and the calls
  that record and resolve them.
Trusted boundary: the times that a call reads and how many of its statements succeed are in
  the actions
Main exports: TokenAffinityState, ResearchAffinities, recordResearchRequestAffinity,
  acquireKeyForResearchRequest, isResearchRequestOwnedBy, researchAffinitySystem
-/
import Mathlib.Data.List.Sort
import TavilyHikari.Library.KeyedTable
import TavilyHikari.Library.TransitionSystem

namespace TavilyHikari.TavilyProxy

open Library

/-! ### The caches -/

structure TokenAffinity where
  keyId : String
  expiresAt : Int
deriving DecidableEq, Repr

/-- The order of the hash map is that of the rows. -/
structure TokenAffinityState where
  ttlSecs : Int
  mappings : KeyedTable String TokenAffinity

def tokenAffinityMaxEntries : Nat := 10000

def researchRequestAffinityTtlSecs : Int := 24 * 60 * 60

namespace TokenAffinityState

def new (ttlSecs : Int) : TokenAffinityState where
  ttlSecs := ttlSecs
  mappings := .empty

/-- What is cached for a token and has not expired. An expired entry is removed. -/
def getCandidate (tokenId : String) (nowTs : Int) (state : TokenAffinityState) :
    Option String × TokenAffinityState :=
  match state.mappings.find tokenId with
  | some entry =>
      if entry.expiresAt > nowTs then (some entry.keyId, state)
      else (none, { state with mappings := state.mappings.deleteWhere fun key _ => key = tokenId })
  | none => (none, state)

/-- Without the expired entries and, where too many are left, without those that expire
first. -/
def prune (nowTs : Int) (state : TokenAffinityState) : TokenAffinityState :=
  let live := state.mappings.deleteWhere fun _ entry => !decide (entry.expiresAt > nowTs)
  if live.rows.length ≤ tokenAffinityMaxEntries then { state with mappings := live }
  else
    let entries := live.rows.insertionSort fun lhs rhs => lhs.2.expiresAt ≤ rhs.2.expiresAt
    let excess := live.rows.length - max (tokenAffinityMaxEntries / 2) 1
    let evicted := (entries.take excess).map Prod.fst
    { state with mappings := live.deleteWhere fun key _ => key ∈ evicted }

def recordMapping (tokenId keyId : String) (nowTs : Int) (state : TokenAffinityState) :
    TokenAffinityState :=
  let state :=
    if state.mappings.rows.length ≥ tokenAffinityMaxEntries then state.prune nowTs else state
  let entry : TokenAffinity := { keyId, expiresAt := nowTs + state.ttlSecs }
  { state with mappings := state.mappings.upsert tokenId entry fun _ => entry }

end TokenAffinityState

/-! ### The table -/

/-- A row of `research_requests`, by its request id. -/
structure ResearchRequestRow where
  keyId : String
  tokenId : String
  expiresAt : Int
  createdAt : Int
  updatedAt : Int
deriving DecidableEq, Repr

abbrev ResearchRequests := KeyedTable String ResearchRequestRow

/-- `INSERT ... ON CONFLICT(request_id) DO UPDATE`. -/
def upsertResearchRequest (requestId keyId tokenId : String) (expiresAt now : Int)
    (rows : ResearchRequests) : ResearchRequests :=
  rows.upsert requestId { keyId, tokenId, expiresAt, createdAt := now, updatedAt := now }
    fun row => { row with keyId, tokenId, expiresAt, updatedAt := now }

def deleteExpiredResearchRequests (now : Int) (rows : ResearchRequests) : ResearchRequests :=
  rows.deleteWhere fun _ row => row.expiresAt ≤ now

/-- The two statements of a save, of which `healthy` succeed. -/
def saveResearchRequestAffinity (requestId keyId tokenId : String) (expiresAt now : Int)
    (healthy : Nat) (rows : ResearchRequests) : Bool × ResearchRequests :=
  match healthy with
  | 0 => (false, rows)
  | 1 => (false, upsertResearchRequest requestId keyId tokenId expiresAt now rows)
  | _ + 2 =>
      (true, deleteExpiredResearchRequests now
        (upsertResearchRequest requestId keyId tokenId expiresAt now rows))

/-- `SELECT key_id, token_id ... WHERE request_id = ? AND expires_at > ?`. -/
def selectResearchRequest (requestId : String) (now : Int) (rows : ResearchRequests) :
    Option (String × String) :=
  ((rows.find requestId).filter fun row => row.expiresAt > now).map fun row =>
    (row.keyId, row.tokenId)

/-- The read and, where it finds nothing, the delete of an expired row; `none` is an error. -/
def getResearchRequestAffinity (requestId : String) (now : Int) (healthy : Nat)
    (rows : ResearchRequests) : Option (Option (String × String)) × ResearchRequests :=
  match healthy, selectResearchRequest requestId now rows with
  | 0, _ => (none, rows)
  | _ + 1, some found => (some (some found), rows)
  | 1, none => (none, rows)
  | _ + 2, none =>
      (some none, rows.deleteWhere fun key row => key = requestId && row.expiresAt ≤ now)

/-! ### Calls -/

/-- The caches of the process, the table, and the latest time that was read. -/
structure ResearchAffinities where
  clock : Int
  keyCache : TokenAffinityState
  ownerCache : TokenAffinityState
  rows : ResearchRequests

/-- What a call for a research request leases: the key that is known for it, or one that is
scheduled. -/
inductive ResearchKey where
  | pinned (keyId : String)
  | scheduled
deriving DecidableEq, Repr

/-- A process that starts on a table. -/
def startResearchAffinities (clock : Int) (rows : ResearchRequests) : ResearchAffinities where
  clock := clock
  keyCache := .new researchRequestAffinityTtlSecs
  ownerCache := .new researchRequestAffinityTtlSecs
  rows := rows

namespace ResearchAffinities

def populateResearchRequestAffinityCaches (requestId keyId tokenId : String) (now : Int)
    (state : ResearchAffinities) : ResearchAffinities :=
  { state with
    keyCache := state.keyCache.recordMapping requestId keyId now
    ownerCache := state.ownerCache.recordMapping requestId tokenId now }

/-- `saveNow` is the time that the save reads. -/
def recordResearchRequestAffinity (requestId keyId tokenId : String) (now saveNow : Int)
    (healthy : Nat) (state : ResearchAffinities) : Bool × ResearchAffinities :=
  let state := state.populateResearchRequestAffinityCaches requestId keyId tokenId now
  let saved := saveResearchRequestAffinity requestId keyId tokenId
    (now + researchRequestAffinityTtlSecs) saveNow healthy state.rows
  (saved.1, { state with rows := saved.2 })

/-- The read of the table after a miss, which fills both caches. -/
def readThrough (requestId : String) (now : Int) (healthy : Nat) (state : ResearchAffinities) :
    Option (Option (String × String)) × ResearchAffinities :=
  let read := getResearchRequestAffinity requestId now healthy state.rows
  let state := { state with rows := read.2 }
  match read.1 with
  | some (some (keyId, tokenId)) =>
      (some (some (keyId, tokenId)),
        state.populateResearchRequestAffinityCaches requestId keyId tokenId now)
  | answer => (answer, state)

/-- The key that is leased, up to the lease itself; `none` is an error of the database. -/
def acquireKeyForResearchRequest (requestId : Option String) (now : Int) (healthy : Nat)
    (state : ResearchAffinities) : Option ResearchKey × ResearchAffinities :=
  match requestId with
  | none => (some .scheduled, state)
  | some requestId =>
      let cached := state.keyCache.getCandidate requestId now
      let state := { state with keyCache := cached.2 }
      match cached.1 with
      | some keyId => (some (.pinned keyId), state)
      | none =>
          let read := state.readThrough requestId now healthy
          (read.1.map fun row => row.elim .scheduled fun found => .pinned found.1, read.2)

def isResearchRequestOwnedBy (requestId : String) (tokenId : Option String) (now : Int)
    (healthy : Nat) (state : ResearchAffinities) : Option Bool × ResearchAffinities :=
  match tokenId with
  | none => (some false, state)
  | some tokenId =>
      let cached := state.ownerCache.getCandidate requestId now
      let state := { state with ownerCache := cached.2 }
      match cached.1 with
      | some owner => (some (owner = tokenId), state)
      | none =>
          let read := state.readThrough requestId now healthy
          (read.1.map fun row => row.elim false fun found => found.2 = tokenId, read.2)

end ResearchAffinities

/-! ### The system -/

/-- A call of the process, a restart of it, or a new order of the hash maps. -/
inductive ResearchAction where
  | record (requestId keyId tokenId : String) (now saveNow : Int) (healthy : Nat)
  | acquire (requestId : Option String) (now : Int) (healthy : Nat)
  | ownedBy (requestId : String) (tokenId : Option String) (now : Int) (healthy : Nat)
  | restart
  | rehash (keys owners : List (String × TokenAffinity))

namespace TokenAffinityState

/-- The map in another order. -/
def rehash (state : TokenAffinityState) (rows : List (String × TokenAffinity))
    (same : rows.Perm state.mappings.rows) : TokenAffinityState :=
  { state with
    mappings :=
      { rows, distinct := (same.map Prod.fst).nodup_iff.2 state.mappings.distinct } }

end TokenAffinityState

/-- Time does not run backwards. -/
def researchStep (state : ResearchAffinities) : ResearchAction → Option ResearchAffinities
  | .record requestId keyId tokenId now saveNow healthy =>
      if state.clock ≤ now ∧ now ≤ saveNow then
        some { (state.recordResearchRequestAffinity requestId keyId tokenId now saveNow
          healthy).2 with clock := saveNow }
      else none
  | .acquire requestId now healthy =>
      if state.clock ≤ now then
        some { (state.acquireKeyForResearchRequest requestId now healthy).2 with clock := now }
      else none
  | .ownedBy requestId tokenId now healthy =>
      if state.clock ≤ now then
        some { (state.isResearchRequestOwnedBy requestId tokenId now healthy).2 with clock := now }
      else none
  | .restart => some (startResearchAffinities state.clock state.rows)
  | .rehash keys owners =>
      if same : keys.Perm state.keyCache.mappings.rows ∧
          owners.Perm state.ownerCache.mappings.rows then
        some
          { state with
            keyCache := state.keyCache.rehash keys same.1
            ownerCache := state.ownerCache.rehash owners same.2 }
      else none

def researchAffinitySystem : TransitionSystem ResearchAffinities ResearchAction where
  step := researchStep

end TavilyHikari.TavilyProxy
