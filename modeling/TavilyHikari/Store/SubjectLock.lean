/-
Module: TavilyHikari.Store.SubjectLock
Purpose: The quota subject lock shared by all instances over one database: lease
  rows that expire, the acquire loop, the refresh task of a guard, and the release
  when it is dropped (`store/mod.rs`, `tavily_proxy/mod.rs`). One SQL transaction,
  clock read or task switch a step, with any time in between.
Trusted boundary: human-reviewed spec (one clock, in milliseconds; `Utc` is its
  whole seconds and `Instant` the clock itself)
Main exports: SubjectGuard, SubjectLockState, SubjectLockAction, subjectLockSystem,
  ensureLive, LeasesExclusive
-/
import TavilyHikari.Library.KeyedTable
import TavilyHikari.Library.TransitionSystem
import TavilyHikari.Store.BillingDb

namespace TavilyHikari.Store

open Library

/-- `QUOTA_SUBJECT_LOCK_TTL_SECS`. -/
def quotaSubjectLockTtlSecs : Int := 20

/-- `QUOTA_SUBJECT_LOCK_ACQUIRE_TIMEOUT_SECS`. -/
def quotaSubjectLockAcquireTimeoutSecs : Int := 30

/-- `QUOTA_SUBJECT_LOCK_REFRESH_SECS`. -/
def quotaSubjectLockRefreshSecs : Int := 5

/-- `QUOTA_SUBJECT_LOCK_REFRESH_RETRY_SECS`. -/
def quotaSubjectLockRefreshRetrySecs : Int := 1

/-- A row of `quota_subject_locks`, without its subject. -/
structure QuotaSubjectLockRow where
  owner : String
  expiresAt : Int
  updatedAt : Int
deriving DecidableEq, Repr

abbrev QuotaSubjectLocks := KeyedTable String QuotaSubjectLockRow

/-! ### The statements -/

/-- The transaction of one round of `acquire_quota_subject_lock`: delete the row
when it has expired, insert one when there is none. `none` is the rollback. -/
def acquireRound (locks : QuotaSubjectLocks) (subject owner : String) (now : Int) :
    Option QuotaSubjectLocks :=
  let cleared := locks.deleteWhere fun key row => key = subject ∧ row.expiresAt ≤ now
  match cleared.find subject with
  | some _ => none
  | none =>
      let row := { owner, expiresAt := now + max quotaSubjectLockTtlSecs 1, updatedAt := now }
      some (cleared.upsert subject row fun _ => row)

/-- `refresh_quota_subject_lock`, with the number of rows affected. -/
def refreshQuotaSubjectLock (locks : QuotaSubjectLocks) (subject owner : String) (now : Int) :
    Nat × QuotaSubjectLocks :=
  let expiresAt := now + max quotaSubjectLockTtlSecs 1
  match locks.find subject with
  | some row =>
      if row.owner = owner then
        (1, locks.modify subject fun row => { row with expiresAt, updatedAt := now })
      else (0, locks)
  | none => (0, locks)

/-- `release_quota_subject_lock`. -/
def releaseQuotaSubjectLock (locks : QuotaSubjectLocks) (subject owner : String) :
    QuotaSubjectLocks :=
  locks.deleteWhere fun key row => key = subject ∧ row.owner = owner

/-! ### Processes, calls and guards -/

structure LockProcess where
  pid : Nat
  /-- `QUOTA_SUBJECT_LOCK_OWNER_SEQ`. -/
  ownerSeq : Nat
  alive : Bool
deriving DecidableEq, Repr

/-- `format!("{}:{}", pid, seq)`. Instances in different containers can share a
pid. -/
def lockOwner (pid seq : Nat) : String := s!"{pid}:{seq}"

/-- A call of `acquire_quota_subject_lock` in its loop. `now` is the second it has
read for the next round. -/
structure AcquireCall where
  process : Nat
  subject : String
  owner : String
  deadlineMs : Int
  now : Option Int
deriving DecidableEq, Repr

/-- Where the refresh task of a guard is. -/
inductive RefreshTask where
  | sleeping (wakeMs : Int)
  | refreshing (retryDeadlineMs : Int)
  /-- The clock is read, the `UPDATE` is on its way. -/
  | updating (retryDeadlineMs now : Int)
  | retrySleeping (retryDeadlineMs wakeMs : Int)
  | finished
deriving DecidableEq, Repr

inductive GuardPhase where
  | held
  /-- Dropped; the spawned release has not run. -/
  | dropped
  | gone
deriving DecidableEq, Repr

/-- A `QuotaSubjectLockGuard`. `refresh_stop` is set when it is dropped. -/
structure SubjectGuard where
  process : Nat
  subject : String
  owner : String
  refresh : RefreshTask
  leaseLost : Bool
  phase : GuardPhase
deriving DecidableEq, Repr

structure SubjectLockState where
  timeMs : Int
  processes : List LockProcess
  locks : QuotaSubjectLocks
  /-- Calls in progress under their number; `none` once they have returned. -/
  calls : List (Option AcquireCall)
  guards : List SubjectGuard
  /-- `forced_quota_subject_lock_loss_subjects`, which only tests fill. -/
  forcedLossSubjects : List String

/-- `ensure_live`, with the forced losses that are left. -/
def ensureLive (guard : SubjectGuard) (forcedLossSubjects : List String) :
    Except ProxyError Unit × List String :=
  let lost := ProxyError.other s!"quota subject lock lost for {guard.subject}"
  if guard.leaseLost then (.error lost, forcedLossSubjects)
  else if guard.subject ∈ forcedLossSubjects then
    (.error lost, forcedLossSubjects.filter fun subject => subject ≠ guard.subject)
  else (.ok (), forcedLossSubjects)

inductive SubjectLockAction where
  | tick (milliseconds : Nat)
  /-- An instance starts. -/
  | spawn (pid : Nat)
  /-- An instance dies: its calls and guards are gone, its rows stay. -/
  | crash (process : Nat)
  /-- `lock_billing_subject` has the local mutex and enters the acquire loop. -/
  | start (process : Nat) (subject : String)
  | readClock (call : Nat)
  /-- One round of the acquire loop, or a database error in it. -/
  | round (call : Nat) (fails : Bool)
  | refreshWake (guard : Nat)
  | refreshRead (guard : Nat)
  | refreshRun (guard : Nat) (fails : Bool)
  | refreshRetry (guard : Nat)
  | drop (guard : Nat)
  /-- The release that the drop has spawned, or its failure. -/
  | release (guard : Nat) (fails : Bool)
deriving DecidableEq, Repr

namespace SubjectLockState

/-- `Utc::now().timestamp()`. -/
def utcNow (s : SubjectLockState) : Int := s.timeMs / 1000

def setCall (s : SubjectLockState) (number : Nat) (call : Option AcquireCall) :
    SubjectLockState :=
  { s with calls := s.calls.set number call }

def setRefresh (s : SubjectLockState) (guard : Nat) (refresh : RefreshTask) :
    SubjectLockState :=
  { s with guards := s.guards.modify guard fun g => { g with refresh } }

/-- The local mutex of the subject is free in the process: nobody acquires or
holds it there. -/
def localMutexFree (s : SubjectLockState) (process : Nat) (subject : String) : Bool :=
  (s.calls.all fun call =>
    match call with
    | some call => !(call.process = process && call.subject = subject)
    | none => true) &&
  (s.guards.all fun guard =>
    !(guard.phase = .held && guard.process = process && guard.subject = subject))

def start (s : SubjectLockState) (process : Nat) (subject : String) : Option SubjectLockState :=
  match s.processes[process]? with
  | none => none
  | some p =>
      if p.alive && s.localMutexFree process subject then
        let call : AcquireCall :=
          { process
            subject
            owner := lockOwner p.pid p.ownerSeq
            deadlineMs := s.timeMs + quotaSubjectLockAcquireTimeoutSecs * 1000
            now := none }
        some
          { s with
            processes := s.processes.set process
              { p with ownerSeq := (p.ownerSeq + 1) % 2 ^ 64 }
            calls := s.calls ++ [some call] }
      else none

/-- The guard that `QuotaSubjectLockGuard::new` makes of a lease, its refresh
task asleep. -/
def newGuard (s : SubjectLockState) (call : AcquireCall) : SubjectGuard where
  process := call.process
  subject := call.subject
  owner := call.owner
  refresh := .sleeping (s.timeMs + quotaSubjectLockRefreshSecs * 1000)
  leaseLost := false
  phase := .held

/-- One round of the acquire loop. A failed round ends the call, a round without
a row ends it at the deadline. -/
def round (s : SubjectLockState) (number : Nat) (fails : Bool) : Option SubjectLockState :=
  match s.calls[number]? with
  | some (some call) =>
      match call.now with
      | none => none
      | some now =>
          if fails then some (s.setCall number none)
          else
            match acquireRound s.locks call.subject call.owner now with
            | some locks =>
                some { s.setCall number none with locks, guards := s.guards ++ [s.newGuard call] }
            | none =>
                if s.timeMs ≥ call.deadlineMs then some (s.setCall number none)
                else some (s.setCall number (some { call with now := none }))
  | _ => none

def readClock (s : SubjectLockState) (number : Nat) : Option SubjectLockState :=
  match s.calls[number]? with
  | some (some call) => some (s.setCall number (some { call with now := some s.utcNow }))
  | _ => none

/-- After `sleep(refresh_every)`: the deadline of the retries that may follow. -/
def refreshWake (s : SubjectLockState) (number : Nat) : Option SubjectLockState :=
  match s.guards[number]? with
  | some guard =>
      match guard.refresh with
      | .sleeping wakeMs =>
          if wakeMs ≤ s.timeMs then
            if guard.phase = .held then
              let retryBudgetSecs := quotaSubjectLockTtlSecs - quotaSubjectLockRefreshSecs
              some (s.setRefresh number (.refreshing
                (s.timeMs + max retryBudgetSecs quotaSubjectLockRefreshRetrySecs * 1000)))
            else some (s.setRefresh number .finished)
          else none
      | _ => none
  | none => none

def refreshRead (s : SubjectLockState) (number : Nat) : Option SubjectLockState :=
  match s.guards[number]? with
  | some guard =>
      match guard.refresh with
      | .refreshing deadlineMs => some (s.setRefresh number (.updating deadlineMs s.utcNow))
      | _ => none
  | none => none

/-- What the task does with a failed refresh: it gives up only past its deadline. -/
def refreshFailed (s : SubjectLockState) (number : Nat) (guard : SubjectGuard)
    (deadlineMs : Int) : SubjectLockState :=
  if guard.phase ≠ .held then s.setRefresh number .finished
  else if s.timeMs ≥ deadlineMs then
    { s with
      guards := s.guards.modify number fun g =>
        { g with refresh := .finished, leaseLost := true } }
  else
    s.setRefresh number (.retrySleeping deadlineMs
      (s.timeMs + quotaSubjectLockRefreshRetrySecs * 1000))

/-- The `UPDATE` of a refresh. No row affected is an error like any other. -/
def refreshRun (s : SubjectLockState) (number : Nat) (fails : Bool) : Option SubjectLockState :=
  match s.guards[number]? with
  | some guard =>
      match guard.refresh with
      | .updating deadlineMs now =>
          if fails then some (s.refreshFailed number guard deadlineMs)
          else
            let (rows, locks) := refreshQuotaSubjectLock s.locks guard.subject guard.owner now
            if rows = 0 then some (s.refreshFailed number guard deadlineMs)
            else
              some { s.setRefresh number (.sleeping
                (s.timeMs + quotaSubjectLockRefreshSecs * 1000)) with locks }
      | _ => none
  | none => none

def refreshRetry (s : SubjectLockState) (number : Nat) : Option SubjectLockState :=
  match s.guards[number]? with
  | some guard =>
      match guard.refresh with
      | .retrySleeping deadlineMs wakeMs =>
          if wakeMs ≤ s.timeMs then some (s.setRefresh number (.refreshing deadlineMs)) else none
      | _ => none
  | none => none

/-- `Drop`: the task is aborted; an `UPDATE` on its way may still arrive. -/
def drop (s : SubjectLockState) (number : Nat) : Option SubjectLockState :=
  match s.guards[number]? with
  | some guard =>
      if guard.phase = .held then
        let refresh :=
          match guard.refresh with
          | .updating deadlineMs now => .updating deadlineMs now
          | _ => .finished
        some { s with guards := s.guards.modify number fun g => { g with refresh, phase := .dropped } }
      else none
  | none => none

def release (s : SubjectLockState) (number : Nat) (fails : Bool) : Option SubjectLockState :=
  match s.guards[number]? with
  | some guard =>
      if guard.phase = .dropped then
        some
          { s with
            locks :=
              if fails then s.locks
              else releaseQuotaSubjectLock s.locks guard.subject guard.owner
            guards := s.guards.modify number fun g => { g with phase := .gone } }
      else none
  | none => none

def crash (s : SubjectLockState) (process : Nat) : SubjectLockState :=
  { s with
    processes := s.processes.modify process fun p => { p with alive := false }
    calls := s.calls.map fun call => call.filter fun call => call.process ≠ process
    guards := s.guards.map fun guard =>
      if guard.process = process then { guard with refresh := .finished, phase := .gone }
      else guard }

def step (s : SubjectLockState) : SubjectLockAction → Option SubjectLockState
  | .tick milliseconds => some { s with timeMs := s.timeMs + milliseconds }
  | .spawn pid =>
      some { s with processes := s.processes ++ [{ pid, ownerSeq := 1, alive := true }] }
  | .crash process => some (s.crash process)
  | .start process subject => s.start process subject
  | .readClock call => s.readClock call
  | .round call fails => s.round call fails
  | .refreshWake guard => s.refreshWake guard
  | .refreshRead guard => s.refreshRead guard
  | .refreshRun guard fails => s.refreshRun guard fails
  | .refreshRetry guard => s.refreshRetry guard
  | .drop guard => s.drop guard
  | .release guard fails => s.release guard fails

/-- Nobody has started yet. -/
def initial : SubjectLockState where
  timeMs := 0
  processes := []
  locks := .empty
  calls := []
  guards := []
  forcedLossSubjects := []

end SubjectLockState

def subjectLockSystem : TransitionSystem SubjectLockState SubjectLockAction where
  step := SubjectLockState.step

/-! ### Mutual exclusion -/

/-- The guard is held and would pass `ensure_live` now. -/
def SubjectGuard.PassesEnsureLive (guard : SubjectGuard) (s : SubjectLockState) : Prop :=
  guard.phase = .held ∧ (ensureLive guard s.forcedLossSubjects).1 = .ok ()

/-- No two guards of one subject would both pass `ensure_live`. -/
def LeasesExclusive (s : SubjectLockState) : Prop :=
  ∀ (i j : Nat) (one two : SubjectGuard),
    s.guards[i]? = some one → s.guards[j]? = some two → i ≠ j →
    one.subject = two.subject → ¬ (one.PassesEnsureLive s ∧ two.PassesEnsureLive s)

/-- Held, and the refresh task has not given up. -/
def SubjectGuard.Live (guard : SubjectGuard) : Prop :=
  guard.phase = .held ∧ guard.leaseLost = false

instance (guard : SubjectGuard) : Decidable guard.Live := inferInstanceAs (Decidable (_ ∧ _))

/-- The step does not delete the row of a live guard: a round of an acquire finds
none that has expired, and a release meets no live guard of its subject with the
same owner. -/
def LeavesLiveRows (s : SubjectLockState) : SubjectLockAction → Prop
  | .round number false =>
      ∀ call now row, s.calls[number]? = some (some call) → call.now = some now →
        s.locks.find call.subject = some row → row.expiresAt ≤ now →
        ∀ guard ∈ s.guards, guard.Live → guard.subject = call.subject →
          guard.owner ≠ row.owner
  | .release number false =>
      ∀ released, s.guards[number]? = some released →
        ∀ guard ∈ s.guards, guard.Live → guard.subject = released.subject →
          guard.owner ≠ released.owner
  | _ => True

end TavilyHikari.Store
