/-
Module: TavilyHikari.Store.OAuthLoginState
Purpose: The one-time states of an OAuth login (`store/mod.rs`): inserting a state, and the
  transaction that consumes one, statement by statement and side by side.
Trusted boundary: human-reviewed spec (a transaction that has written is the only one to
  write until it ends)
Main exports: OAuthLoginStateRow, InsertCall, ConsumeCall, LoginStates, loginStateSystem
-/
import Mathlib.Logic.Function.Basic
import TavilyHikari.Library.KeyedTable
import TavilyHikari.Library.TransitionSystem
import TavilyHikari.Library.Trim

namespace TavilyHikari.Store

open Library

/-! ### The table -/

/-- A row, whose key is the state. `serial` is the number of the insert that made it. -/
structure OAuthLoginStateRow where
  serial : Nat
  provider : String
  redirectTo : Option String
  bindingHash : Option String
  bindTokenId : Option String
  createdAt : Int
  expiresAt : Int
  consumedAt : Option Int
deriving DecidableEq, Repr

abbrev OAuthLoginStates := KeyedTable String OAuthLoginStateRow

/-- A call of `insert_oauth_login_state`, with the time it has read. -/
structure InsertCall where
  provider : String
  redirectTo : Option String
  ttlSecs : Int
  bindingHash : Option String
  bindTokenId : Option String
  now : Int
deriving DecidableEq, Repr

/-- A call of `consume_oauth_login_state`, with the time it has read. -/
structure ConsumeCall where
  provider : String
  state : String
  bindingHash : Option String
  now : Int
deriving DecidableEq, Repr

structure OAuthLoginStatePayload where
  redirectTo : Option String
  bindTokenId : Option String
deriving DecidableEq, Repr

/-- `DELETE ... WHERE expires_at < ? OR consumed_at IS NOT NULL`. -/
def deleteSpentStates (now : Int) (states : OAuthLoginStates) : OAuthLoginStates :=
  states.deleteWhere fun _ row => row.expiresAt < now || row.consumedAt.isSome

/-- The row that an insert makes. -/
def InsertCall.row (call : InsertCall) (serial : Nat) : OAuthLoginStateRow where
  serial := serial
  provider := call.provider
  redirectTo := trimmedNonEmpty call.redirectTo
  bindingHash := trimmedNonEmpty call.bindingHash
  bindTokenId := trimmedNonEmpty call.bindTokenId
  createdAt := call.now
  expiresAt := call.now + max call.ttlSecs 60
  consumedAt := none

/-- The WHERE clause of the SELECT of a consume. -/
def ConsumeCall.selects (call : ConsumeCall) (row : OAuthLoginStateRow) : Bool :=
  row.provider = call.provider && row.consumedAt.isNone && row.expiresAt ≥ call.now &&
    (match trimmedNonEmpty call.bindingHash with
      | some hash => row.bindingHash = some hash
      | none => row.bindingHash.isNone)

def selectLoginState (call : ConsumeCall) (states : OAuthLoginStates) :
    Option OAuthLoginStateRow :=
  (states.find call.state).filter call.selects

/-- The UPDATE of a consume, and whether it affects a row. -/
def markConsumed (call : ConsumeCall) (states : OAuthLoginStates) : Bool × OAuthLoginStates :=
  let affected := fun state (row : OAuthLoginStateRow) =>
    state = call.state && row.provider = call.provider && row.consumedAt.isNone
  (states.existsWhere affected,
    states.updateWhere affected fun row => { row with consumedAt := some call.now })

/-! ### Calls -/

inductive InsertPhase where
  | idle
  | called (call : InsertCall)
  | cleaned (call : InsertCall)
deriving DecidableEq, Repr

/-- Where a consume is. From its DELETE on it works on a copy of the table. -/
inductive ConsumePhase where
  | idle
  | called (call : ConsumeCall)
  | cleaned (call : ConsumeCall) (copy : OAuthLoginStates)
  | found (call : ConsumeCall) (copy : OAuthLoginStates) (row : OAuthLoginStateRow)
  | consumed (call : ConsumeCall) (copy : OAuthLoginStates) (row : OAuthLoginStateRow)

/-- An insert that has returned its state. -/
structure InsertedState where
  state : String
  call : InsertCall
deriving DecidableEq, Repr

/-- A consume that has returned a payload, and the insert that made its row. -/
structure AcceptedState where
  serial : Nat
  call : ConsumeCall
  payload : OAuthLoginStatePayload
deriving DecidableEq, Repr

/-- `writer` is the consume whose transaction has written. -/
structure LoginStates where
  states : OAuthLoginStates
  writer : Option Nat
  inserts : Nat → InsertPhase
  consumes : Nat → ConsumePhase
  inserted : List InsertedState
  accepted : List AcceptedState

/-- The steps. A call comes with the time that its clock reads. -/
inductive LoginStateAction where
  | insert (task : Nat) (call : InsertCall)
  | insertClean (task : Nat)
  | insertRow (task : Nat) (state : String)
  | abandonInsert (task : Nat)
  | consume (task : Nat) (call : ConsumeCall)
  | consumeStatement (task : Nat)
  | abandonConsume (task : Nat)
deriving DecidableEq, Repr

namespace LoginStates

def initial : LoginStates where
  states := .empty
  writer := none
  inserts := fun _ => .idle
  consumes := fun _ => .idle
  inserted := []
  accepted := []

def setInsert (s : LoginStates) (task : Nat) (phase : InsertPhase) : LoginStates :=
  { s with inserts := Function.update s.inserts task phase }

def setConsume (s : LoginStates) (task : Nat) (phase : ConsumePhase) : LoginStates :=
  { s with consumes := Function.update s.consumes task phase }

/-- The end of a consume. A transaction of it that has not been committed leaves no trace. -/
def endConsume (s : LoginStates) (task : Nat) : LoginStates :=
  { s with writer := if s.writer = some task then none else s.writer }.setConsume task .idle

end LoginStates

/-- The next statement of a consume. -/
def consumeStatement (s : LoginStates) (task : Nat) : ConsumePhase → Option LoginStates
  | .idle => none
  | .called call =>
      match s.writer with
      | some _ => none
      | none =>
          some ({ s with writer := some task }.setConsume task
            (.cleaned call (deleteSpentStates call.now s.states)))
  | .cleaned call copy =>
      match selectLoginState call copy with
      | some row => some (s.setConsume task (.found call copy row))
      | none => some (s.endConsume task)
  | .found call copy row =>
      match markConsumed call copy with
      | (true, copy) => some (s.setConsume task (.consumed call copy row))
      | (false, _) => some (s.endConsume task)
  | .consumed call copy row =>
      let payload : OAuthLoginStatePayload :=
        { redirectTo := row.redirectTo, bindTokenId := row.bindTokenId }
      let answer : AcceptedState := { serial := row.serial, call, payload }
      some ({ s with states := copy, accepted := s.accepted ++ [answer] }.endConsume task)

def loginStateStep (s : LoginStates) : LoginStateAction → Option LoginStates
  | .insert task call =>
      match s.inserts task with
      | .idle => some (s.setInsert task (.called call))
      | _ => none
  | .insertClean task =>
      match s.inserts task, s.writer with
      | .called call, none =>
          some ({ s with states := deleteSpentStates call.now s.states }.setInsert task
            (.cleaned call))
      | _, _ => none
  | .insertRow task state =>
      match s.inserts task, s.writer with
      | .cleaned call, none =>
          -- A state that is taken violates the primary key, and the loop goes on.
          match s.states.find state with
          | some _ => some s
          | none =>
              let row := call.row s.inserted.length
              let answer : InsertedState := { state, call }
              some ({ s with
                states := s.states.upsert state row fun _ => row
                inserted := s.inserted ++ [answer] }.setInsert task .idle)
      | _, _ => none
  | .abandonInsert task => some (s.setInsert task .idle)
  | .consume task call =>
      match s.consumes task with
      | .idle => some (s.setConsume task (.called call))
      | _ => none
  | .consumeStatement task => consumeStatement s task (s.consumes task)
  | .abandonConsume task => some (s.endConsume task)

def loginStateSystem : TransitionSystem LoginStates LoginStateAction where
  step := loginStateStep

end TavilyHikari.Store
