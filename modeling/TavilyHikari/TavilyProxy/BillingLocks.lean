/-
Module: TavilyHikari.TavilyProxy.BillingLocks
Purpose: The locks of the billing subjects and of the research keys inside one process
  (`tavily_proxy/mod.rs`): the maps of weak references, the mutexes with their queues, and the
  requests that take several guards.
Trusted boundary: human-reviewed spec (`tokio::sync::Mutex` is fair; the lease of the database
  comes or fails by itself); what a pending row names is the text of a quota subject
Main exports: LockName, BillingLocks, lookUpLock, billingLockStep, billingLockSystem
-/
import TavilyHikari.Library.KeyedTable
import TavilyHikari.Library.TransitionSystem
import TavilyHikari.Store.QuotaSubject

namespace TavilyHikari.TavilyProxy

open Library Store

/-- What a guard is for, by the function that returns it. -/
inductive LockName where
  | billing (subject : QuotaSubject)
  | researchKey (keyId : String)
deriving DecidableEq, Repr

/-- The subject of the guard. -/
def LockName.subject : LockName → String
  | .billing subject => subject.billingSubject
  | .researchKey keyId => "research-key:" ++ keyId

/-- The call that a request is in. -/
inductive LockCall where
  | lockTokenBilling (currentSubject : QuotaSubject)
  | lockResearchKeyUsage
deriving DecidableEq, Repr

/-- Where the call stands: before the next of the subjects that are left, with the mutex of a
subject in hand, in its queue, or with the mutex and before the lease of the database. -/
inductive LockPhase where
  | idle
  | looking (call : LockCall) (subjects : List LockName)
  | arriving (call : LockCall) (name : LockName) (lock : Nat) (subjects : List LockName)
  | queued (call : LockCall) (name : LockName) (lock : Nat) (subjects : List LockName)
  | leasing (call : LockCall) (name : LockName) (lock : Nat) (subjects : List LockName)
deriving DecidableEq, Repr

/-- A request, with its guards. -/
structure Caller where
  guards : List (LockName × Nat)
  phase : LockPhase
deriving DecidableEq, Repr

/-- The mutex that the call has in hand. -/
def LockPhase.inHand : LockPhase → List (LockName × Nat)
  | .idle | .looking _ _ => []
  | .arriving _ name lock _ | .queued _ name lock _ | .leasing _ name lock _ => [(name, lock)]

/-- The references to mutexes that a request holds. -/
def Caller.references (caller : Caller) : List (LockName × Nat) :=
  caller.guards ++ caller.phase.inHand

/-- The locks of one process. A mutex is a number, and its queue begins with the request that
has it. -/
structure BillingLocks where
  tokenBillingLocks : KeyedTable String Nat
  researchKeyLocks : KeyedTable String Nat
  queues : Nat → List Nat
  nextLock : Nat
  callers : List Caller

namespace BillingLocks

def initial : BillingLocks where
  tokenBillingLocks := .empty
  researchKeyLocks := .empty
  queues := fun _ => []
  nextLock := 0
  callers := []

/-- `Weak::strong_count`. -/
def strongCount (s : BillingLocks) (lock : Nat) : Nat :=
  (s.callers.map fun caller => (caller.references.map Prod.snd).count lock).sum

def locks (s : BillingLocks) : LockName → KeyedTable String Nat
  | .billing _ => s.tokenBillingLocks
  | .researchKey _ => s.researchKeyLocks

def setLocks (s : BillingLocks) (locks : KeyedTable String Nat) : LockName → BillingLocks
  | .billing _ => { s with tokenBillingLocks := locks }
  | .researchKey _ => { s with researchKeyLocks := locks }

/-- The size from which a map is cleaned up. -/
def LockName.maxLocks : LockName → Nat
  | .billing _ => 1024
  | .researchKey _ => 256

/-- The block of `lock_billing_subject` and `lock_research_key_usage` under the mutex of the
map. -/
def lookUpLock (s : BillingLocks) (name : LockName) : Nat × BillingLocks :=
  let locks := s.locks name
  let locks :=
    if locks.rows.length > LockName.maxLocks name then
      locks.deleteWhere fun _ lock => !decide (s.strongCount lock > 0)
    else locks
  match (locks.find name.subject).filter fun lock => s.strongCount lock > 0 with
  | some existing => (existing, s.setLocks locks name)
  | none =>
      let lock := s.nextLock
      (lock, { s.setLocks (locks.upsert name.subject lock fun _ => lock) name with
        nextLock := lock + 1 })

/-- The mutexes are dropped by a request: it leaves their queues. -/
def release (s : BillingLocks) (number : Nat) (locks : List Nat) : BillingLocks :=
  { s with
    queues := fun lock =>
      if lock ∈ locks then (s.queues lock).erase number else s.queues lock }

def setCaller (s : BillingLocks) (number : Nat) (caller : Caller) : BillingLocks :=
  { s with callers := s.callers.set number caller }

/-- A request that keeps some of its guards, and drops the others and what its call has in
hand. -/
def keepGuards (s : BillingLocks) (number : Nat) (caller : Caller)
    (keep : LockName × Nat → Bool) : BillingLocks :=
  let dropped := (caller.guards.filter fun guard => !keep guard) ++ caller.phase.inHand
  (s.release number (dropped.map Prod.snd)).setCaller number
    { guards := caller.guards.filter keep, phase := .idle }

end BillingLocks

/-! ### Requests -/

/-- The subjects of `lock_token_billing`, sorted and each once. -/
def billingSubjects (currentSubject : QuotaSubject) (pending : List QuotaSubject) :
    List QuotaSubject :=
  ((pending ++ [currentSubject]).insertionSort fun one two =>
    one.billingSubject ≤ two.billingSubject).dedup

def LockName.isResearchKey : LockName → Bool
  | .billing _ => false
  | .researchKey _ => true

/-- The steps of the requests. A request calls `lock_token_billing` before it has any guard and
`lock_research_key_usage` with no guard of a research key, as the handlers do; it may fail
in a call, drop a guard, and end at any time. -/
inductive BillingLockAction where
  | arrive
  | lockTokenBilling (number : Nat) (currentSubject : QuotaSubject) (pending : List QuotaSubject)
  | lockResearchKeyUsage (number : Nat) (keyId : String)
  | advance (number : Nat)
  | fail (number : Nat)
  | dropGuard (number : Nat) (name : LockName)
  | leave (number : Nat)

namespace BillingLocks

/-- The next step of the call of a request. -/
def advanceCall (s : BillingLocks) (number : Nat) (caller : Caller) : Option BillingLocks :=
  match caller.phase with
  | .idle => none
  | .looking call (name :: subjects) =>
      let (lock, s) := s.lookUpLock name
      some (s.setCaller number { caller with phase := .arriving call name lock subjects })
  | .looking (.lockTokenBilling currentSubject) [] =>
      -- The guards of the other subjects are dropped.
      some (s.keepGuards number caller fun guard => guard.1 = .billing currentSubject)
  | .looking .lockResearchKeyUsage [] => some (s.setCaller number { caller with phase := .idle })
  | .arriving call name lock subjects =>
      some ({ s with
        queues := Function.update s.queues lock (s.queues lock ++ [number]) }.setCaller number
          { caller with phase := .queued call name lock subjects })
  | .queued call name lock subjects =>
      if (s.queues lock).head? = some number then
        some (s.setCaller number { caller with phase := .leasing call name lock subjects })
      else none
  | .leasing call name lock subjects =>
      some (s.setCaller number
        { guards := caller.guards ++ [(name, lock)], phase := .looking call subjects })

/-- The call ends with an error, and drops its guards. -/
def failCall (s : BillingLocks) (number : Nat) (caller : Caller) : Option BillingLocks :=
  match caller.phase with
  | .idle => none
  | .looking (.lockTokenBilling _) _ | .arriving (.lockTokenBilling _) _ _ _
  | .queued (.lockTokenBilling _) _ _ _ | .leasing (.lockTokenBilling _) _ _ _ =>
      some (s.keepGuards number caller fun _ => false)
  | .looking .lockResearchKeyUsage _ | .arriving .lockResearchKeyUsage _ _ _
  | .queued .lockResearchKeyUsage _ _ _ | .leasing .lockResearchKeyUsage _ _ _ =>
      some (s.keepGuards number caller fun guard => !guard.1.isResearchKey)

def billingLockStep (s : BillingLocks) : BillingLockAction → Option BillingLocks
  | .arrive => some { s with callers := s.callers ++ [{ guards := [], phase := .idle }] }
  | .lockTokenBilling number currentSubject pending =>
      match s.callers[number]? with
      | some { guards := [], phase := .idle } =>
          some (s.setCaller number
            { guards := []
              phase := .looking (.lockTokenBilling currentSubject)
                ((billingSubjects currentSubject pending).map LockName.billing) })
      | _ => none
  | .lockResearchKeyUsage number keyId =>
      match s.callers[number]? with
      | some { guards, phase := .idle } =>
          if guards.any fun guard => guard.1.isResearchKey then none
          else
            some (s.setCaller number
              { guards, phase := .looking .lockResearchKeyUsage [.researchKey keyId] })
      | _ => none
  | .advance number =>
      match s.callers[number]? with
      | some caller => s.advanceCall number caller
      | none => none
  | .fail number =>
      match s.callers[number]? with
      | some caller => s.failCall number caller
      | none => none
  | .dropGuard number name =>
      match s.callers[number]? with
      | some { guards, phase := .idle } =>
          some (s.keepGuards number { guards, phase := .idle } fun guard => guard.1 ≠ name)
      | _ => none
  | .leave number =>
      match s.callers[number]? with
      | some caller => some (s.keepGuards number caller fun _ => false)
      | none => none

end BillingLocks

def billingLockSystem : TransitionSystem BillingLocks BillingLockAction where
  step := BillingLocks.billingLockStep

end TavilyHikari.TavilyProxy
