/-
Module: TavilyHikari.Proofs.BillingLocks
Purpose: Over every run of the requests of a process: a subject has one mutex and at most one
  guard, and no requests wait for each other in a circle.
Trusted boundary: none
Main exports: LocksSound, OneMutex, OneGuard, InOrder, billingLocks_alongRun
-/
import Mathlib.Data.List.Dedup
import Mathlib.Data.Prod.Lex
import Mathlib.Data.String.Basic
import TavilyHikari.Library.WaitsFor
import TavilyHikari.TavilyProxy.BillingLocks

namespace TavilyHikari.TavilyProxy

open Library Store

/-! ### Names of locks -/

theorem billingSubject_ne_researchKey (subject : QuotaSubject) (keyId : String) :
    subject.billingSubject ≠ "research-key:" ++ keyId := by
  intro same
  have first := congrArg (fun text : String => text.toList.head?) same
  cases subject with
  | token tokenId => simp [QuotaSubject.billingSubject] at first
  | account userId => simp [QuotaSubject.billingSubject] at first

theorem LockName.subject_injective {one two : LockName} (same : one.subject = two.subject) :
    one = two := by
  cases one with
  | billing subject =>
      cases two with
      | billing other =>
          have parsed := congrArg QuotaSubject.fromBillingSubject same
          simp only [LockName.subject, QuotaSubject.fromBillingSubject_billingSubject,
            Option.some.injEq] at parsed
          rw [parsed]
      | researchKey keyId => exact absurd same (billingSubject_ne_researchKey subject keyId)
  | researchKey keyId =>
      cases two with
      | billing other => exact absurd same.symm (billingSubject_ne_researchKey other keyId)
      | researchKey other =>
          have parsed := congrArg (stripPrefix "research-key:") same
          simp only [LockName.subject, stripPrefix_append, Option.some.injEq] at parsed
          rw [parsed]

/-- The order in which a request takes its locks: the billing subjects by their texts, and then
the key. -/
def LockName.rank (name : LockName) : Nat ×ₗ String :=
  toLex (if name.isResearchKey then 1 else 0, name.subject)

theorem LockName.rank_billing_lt {one two : QuotaSubject}
    (less : one.billingSubject < two.billingSubject) :
    (LockName.billing one).rank < (LockName.billing two).rank :=
  Prod.Lex.toLex_lt_toLex.2 (Or.inr ⟨rfl, less⟩)

theorem LockName.rank_lt_researchKey {name : LockName} (billing : name.isResearchKey = false)
    (keyId : String) : name.rank < (LockName.researchKey keyId).rank := by
  apply Prod.Lex.toLex_lt_toLex.2
  left
  rw [billing]
  exact Nat.zero_lt_one

/-- The subjects of a call come in the order of the locks. -/
theorem billingSubjects_ordered (currentSubject : QuotaSubject) (pending : List QuotaSubject) :
    ((billingSubjects currentSubject pending).map LockName.billing).Pairwise
      fun one two => one.rank < two.rank := by
  have sorted := List.pairwise_insertionSort
    (fun one two : QuotaSubject => one.billingSubject ≤ two.billingSubject)
    (pending ++ [currentSubject])
  have each := List.nodup_dedup ((pending ++ [currentSubject]).insertionSort fun one two =>
    one.billingSubject ≤ two.billingSubject)
  rw [List.pairwise_map]
  apply ((sorted.sublist (List.dedup_sublist _)).and each).imp
  rintro one two ⟨notAfter, different⟩
  apply LockName.rank_billing_lt
  apply lt_of_le_of_ne notAfter
  intro same
  have names : LockName.billing one = LockName.billing two := LockName.subject_injective same
  cases names
  exact different rfl

/-! ### What a request holds -/

/-- The mutexes in whose queues a request stands. -/
def LockPhase.inQueue : LockPhase → List (LockName × Nat)
  | .queued _ name lock _ | .leasing _ name lock _ => [(name, lock)]
  | _ => []

/-- The mutex that the call has locked. -/
def LockPhase.locked : LockPhase → List (LockName × Nat)
  | .leasing _ name lock _ => [(name, lock)]
  | _ => []

/-- The subject that the call waits for. -/
def LockPhase.waitsFor : LockPhase → Option (LockName × Nat)
  | .queued _ name lock _ => some (name, lock)
  | _ => none

/-- The subjects of the call that have no guard yet. -/
def LockPhase.ahead : LockPhase → List LockName
  | .idle => []
  | .looking _ subjects => subjects
  | .arriving _ name _ subjects | .queued _ name _ subjects | .leasing _ name _ subjects =>
      name :: subjects

namespace Caller

def inQueue (caller : Caller) : List (LockName × Nat) := caller.guards ++ caller.phase.inQueue

def locked (caller : Caller) : List (LockName × Nat) := caller.guards ++ caller.phase.locked

/-- The subjects of the guards and of the call, in the order of the guards. -/
def names (caller : Caller) : List LockName :=
  caller.guards.map Prod.fst ++ caller.phase.ahead

theorem inQueue_subset (caller : Caller) : caller.inQueue ⊆ caller.references := by
  intro guard member
  rcases List.mem_append.1 member with held | inPhase
  · exact List.mem_append_left _ held
  · apply List.mem_append_right
    cases phase : caller.phase with
    | idle =>
        rw [phase] at inPhase
        cases inPhase
    | looking call subjects =>
        rw [phase] at inPhase
        cases inPhase
    | arriving call name lock subjects =>
        rw [phase] at inPhase
        cases inPhase
    | queued call name lock subjects =>
        rw [phase] at inPhase
        exact inPhase
    | leasing call name lock subjects =>
        rw [phase] at inPhase
        exact inPhase

theorem locked_subset (caller : Caller) : caller.locked ⊆ caller.references := by
  intro guard member
  rcases List.mem_append.1 member with held | inPhase
  · exact List.mem_append_left _ held
  · apply List.mem_append_right
    cases phase : caller.phase with
    | leasing call name lock subjects =>
        rw [phase] at inPhase
        exact inPhase
    | _ =>
        rw [phase] at inPhase
        cases inPhase

/-- What a request stands in the queue of, it has or it waits for. -/
theorem locked_or_waitsFor {caller : Caller} {guard : LockName × Nat}
    (member : guard ∈ caller.inQueue) :
    guard ∈ caller.locked ∨ caller.phase.waitsFor = some guard := by
  rcases List.mem_append.1 member with held | inPhase
  · exact Or.inl (List.mem_append_left _ held)
  · cases phase : caller.phase with
    | queued call name lock subjects =>
        rw [phase] at inPhase
        rw [List.mem_singleton.1 inPhase]
        exact Or.inr rfl
    | leasing call name lock subjects =>
        left
        apply List.mem_append_right
        rw [phase] at inPhase ⊢
        exact inPhase
    | _ =>
        rw [phase] at inPhase
        cases inPhase

/-- A guard comes before what the request waits for. -/
theorem rank_lt_of_waitsFor {caller : Caller} {name : LockName} {lock : Nat}
    (ordered : caller.names.Pairwise fun one two => one.rank < two.rank)
    (waits : caller.phase.waitsFor = some (name, lock)) {guard : LockName × Nat}
    (held : guard ∈ caller.guards) : guard.1.rank < name.rank := by
  have awaited : name ∈ caller.phase.ahead := by
    cases phase : caller.phase with
    | queued call other lock' subjects =>
        rw [phase] at waits
        cases waits
        exact List.mem_cons_self
    | _ =>
        rw [phase] at waits
        cases waits
  exact (List.pairwise_append.1 ordered).2.2 guard.1 (List.mem_map_of_mem held) name awaited

end Caller

namespace BillingLocks

variable {s s' : BillingLocks}

/-- The mutex that the map of the name has for it. -/
def entry (s : BillingLocks) (name : LockName) : Option Nat := (s.locks name).find name.subject

theorem strongCount_pos_iff {lock : Nat} :
    0 < s.strongCount lock ↔ ∃ caller ∈ s.callers, ∃ name, (name, lock) ∈ caller.references := by
  have counted (caller : Caller) : 0 < (caller.references.map Prod.snd).count lock ↔
      ∃ name, (name, lock) ∈ caller.references := by
    rw [List.count_pos_iff, List.mem_map]
    constructor
    · rintro ⟨⟨name, _⟩, member, rfl⟩
      exact ⟨name, member⟩
    · rintro ⟨name, member⟩
      exact ⟨(name, lock), member, rfl⟩
  unfold strongCount
  rw [Nat.pos_iff_ne_zero, Ne, List.sum_eq_zero_iff]
  push Not
  constructor
  · rintro ⟨count, member, nonzero⟩
    obtain ⟨caller, listed, rfl⟩ := List.mem_map.1 member
    exact ⟨caller, listed, (counted caller).1 (Nat.pos_of_ne_zero nonzero)⟩
  · rintro ⟨caller, listed, named⟩
    exact ⟨_, List.mem_map.2 ⟨caller, listed, rfl⟩, Nat.ne_of_gt ((counted caller).2 named)⟩

theorem locks_of_sameMap {one two : LockName} (same : one.isResearchKey = two.isResearchKey) :
    s.locks one = s.locks two := by
  cases one <;> cases two <;> first | rfl | cases same

theorem entry_setLocks (locks : KeyedTable String Nat) (name other : LockName) :
    (s.setLocks locks name).entry other =
      if other.isResearchKey = name.isResearchKey then locks.find other.subject
      else s.entry other := by
  cases name <;> cases other <;> rfl

theorem setLocks_fields (locks : KeyedTable String Nat) (name : LockName) :
    (s.setLocks locks name).queues = s.queues ∧ (s.setLocks locks name).callers = s.callers ∧
      (s.setLocks locks name).nextLock = s.nextLock := by
  cases name <;> exact ⟨rfl, rfl, rfl⟩

/-- What the lookup of a lock does: the map has the mutex for the name, and keeps every mutex
that anybody refers to. -/
structure LookedUp (s : BillingLocks) (name : LockName) (lock : Nat) (s' : BillingLocks) :
    Prop where
  queues : s'.queues = s.queues
  callers : s'.callers = s.callers
  found : s'.entry name = some lock
  kept : ∀ other lock', s.entry other = some lock' → 0 < s.strongCount lock' →
    s'.entry other = some lock'
  older : ∀ other lock', s'.entry other = some lock' →
    s.entry other = some lock' ∨ other = name ∧ lock' = s.nextLock
  next : s.nextLock ≤ s'.nextLock
  fresh : lock = s.nextLock → s.nextLock < s'.nextLock

theorem lookUpLock_spec (s : BillingLocks) (name : LockName)
    (fresh : ∀ other lock, s.entry other = some lock → lock < s.nextLock) :
    s.LookedUp name (s.lookUpLock name).1 (s.lookUpLock name).2 := by
  -- The map after the clean-up, of which every live mutex is left.
  obtain ⟨locks, cleaned⟩ : ∃ locks : KeyedTable String Nat, locks =
      (if (s.locks name).rows.length > LockName.maxLocks name then
        (s.locks name).deleteWhere fun _ lock => !decide (s.strongCount lock > 0)
      else s.locks name) := ⟨_, rfl⟩
  have subset : ∀ subject lock, locks.find subject = some lock →
      (s.locks name).find subject = some lock := by
    intro subject lock found
    rw [cleaned] at found
    split at found
    · rw [KeyedTable.find_deleteWhere] at found
      exact (Option.filter_eq_some_iff.1 found).1
    · exact found
  have live : ∀ subject lock, (s.locks name).find subject = some lock →
      0 < s.strongCount lock → locks.find subject = some lock := by
    intro subject lock found counted
    rw [cleaned]
    split
    · rw [KeyedTable.find_deleteWhere, found, Option.filter_some, if_pos (by simp [counted])]
    · exact found
  have sameMap : ∀ other : LockName, other.isResearchKey = name.isResearchKey →
      s.entry other = (s.locks name).find other.subject := by
    intro other same
    rw [entry, locks_of_sameMap same]
  unfold lookUpLock
  simp only [← cleaned]
  cases present : (locks.find name.subject).filter fun lock => s.strongCount lock > 0 with
  | some existing =>
      obtain ⟨found, counted⟩ := Option.filter_eq_some_iff.1 present
      obtain ⟨queues, callers, next⟩ := @setLocks_fields s locks name
      exact {
        queues := queues
        callers := callers
        found := by
          rw [entry_setLocks, if_pos rfl]
          exact found
        kept := by
          intro other lock' recorded counted'
          rw [entry_setLocks]
          split
          · rename_i same
            rw [sameMap other same] at recorded
            exact live other.subject lock' recorded counted'
          · exact recorded
        older := by
          intro other lock' recorded
          rw [entry_setLocks] at recorded
          left
          split at recorded
          · rename_i same
            rw [sameMap other same]
            exact subset other.subject lock' recorded
          · exact recorded
        next := Nat.le_of_eq next.symm
        fresh := by
          intro same
          have old := fresh name existing (by
            rw [sameMap name rfl]
            exact subset name.subject existing found)
          have equal : existing = s.nextLock := same
          exact absurd equal (Nat.ne_of_lt old) }
  | none =>
      obtain ⟨queues, callers, next⟩ :=
        @setLocks_fields s (locks.upsert name.subject s.nextLock fun _ => s.nextLock) name
      have inserted (other : LockName) :
          ({ s.setLocks (locks.upsert name.subject s.nextLock fun _ => s.nextLock) name with
              nextLock := s.nextLock + 1 } : BillingLocks).entry other =
            (s.setLocks (locks.upsert name.subject s.nextLock fun _ => s.nextLock) name).entry
              other := by
        cases other <;> rfl
      have upserted (other : LockName) :
          (locks.upsert name.subject s.nextLock fun _ => s.nextLock).find other.subject =
            if other = name then some s.nextLock else locks.find other.subject := by
        by_cases same : other = name
        · subst same
          rw [if_pos rfl, KeyedTable.find_upsert_self]
          cases locks.find other.subject <;> rfl
        · rw [if_neg same, KeyedTable.find_upsert_of_ne]
          exact fun text => same (LockName.subject_injective text)
      exact {
        queues := queues
        callers := callers
        found := by
          rw [inserted, entry_setLocks, if_pos rfl, upserted, if_pos rfl]
        kept := by
          intro other lock' recorded counted
          rw [inserted, entry_setLocks]
          split
          · rename_i same
            rw [sameMap other same] at recorded
            have there := live other.subject lock' recorded counted
            rw [upserted]
            split
            · rename_i here
              subst here
              rw [there, Option.filter_some, if_pos (by simpa using counted)] at present
              cases present
            · exact there
          · exact recorded
        older := by
          intro other lock' recorded
          rw [inserted, entry_setLocks] at recorded
          split at recorded
          · rename_i same
            rw [upserted] at recorded
            split at recorded
            · rename_i here
              exact Or.inr ⟨here, (Option.some.inj recorded).symm⟩
            · left
              rw [sameMap other same]
              exact subset other.subject lock' recorded
          · exact Or.inl recorded
        next := Nat.le_succ _
        fresh := fun _ => Nat.lt_succ_self _ }

/-! ### The invariant -/

/-- Every mutex that a request refers to is in the map under its name, a queue holds the
requests that wait for the mutex or have it, the first of them has it, and every request
takes its locks in their order. -/
structure LocksSound (s : BillingLocks) : Prop where
  fresh : ∀ name lock, s.entry name = some lock → lock < s.nextLock
  apart : ∀ one two lock, s.entry one = some lock → s.entry two = some lock → one = two
  mapped : ∀ (number : Nat) (caller : Caller) (guard : LockName × Nat),
    s.callers[number]? = some caller → guard ∈ caller.references → s.entry guard.1 = some guard.2
  members : ∀ number lock, number ∈ s.queues lock ↔
    ∃ (caller : Caller) (name : LockName),
      s.callers[number]? = some caller ∧ (name, lock) ∈ caller.inQueue
  distinct : ∀ lock, (s.queues lock).Nodup
  first : ∀ (number : Nat) (caller : Caller) (guard : LockName × Nat),
    s.callers[number]? = some caller → guard ∈ caller.locked → (s.queues guard.2).head? = some number
  ordered : ∀ (number : Nat) (caller : Caller), s.callers[number]? = some caller →
    caller.names.Pairwise fun one two => one.rank < two.rank

theorem locksSound_initial : initial.LocksSound where
  fresh := by
    intro name lock found
    cases name <;> cases found
  apart := by
    intro one two lock found
    cases one <;> cases found
  mapped := fun _ _ _ none => nomatch none
  members := by
    intro number lock
    constructor
    · intro none
      cases none
    · rintro ⟨caller, name, none, _⟩
      cases none
  distinct := fun _ => List.nodup_nil
  first := fun _ _ _ none => nomatch none
  ordered := fun _ _ none => nomatch none

theorem strongCount_pos_of_mem {number : Nat} {caller : Caller} {guard : LockName × Nat}
    (found : s.callers[number]? = some caller)
    (member : guard ∈ caller.references) : 0 < s.strongCount guard.2 :=
  strongCount_pos_iff.2 ⟨caller, List.mem_of_getElem? found, guard.1, member⟩

theorem setCaller_getElem? (s : BillingLocks) (number other : Nat) (caller : Caller) :
    (s.setCaller number caller).callers[other]? =
      if number = other ∧ other < s.callers.length then some caller else s.callers[other]? := by
  unfold setCaller
  rw [List.getElem?_set]
  by_cases same : number = other
  · subst same
    by_cases inside : number < s.callers.length
    · simp [inside]
    · simp [inside]
  · simp [same]

theorem LocksSound.member_iff (sound : s.LocksSound) {number : Nat} {caller : Caller}
    (found : s.callers[number]? = some caller) (lock : Nat) :
    number ∈ s.queues lock ↔ ∃ name, (name, lock) ∈ caller.inQueue := by
  rw [sound.members]
  constructor
  · rintro ⟨caller', name, there, standing⟩
    cases found.symm.trans there
    exact ⟨name, standing⟩
  · rintro ⟨name, standing⟩
    exact ⟨caller, name, found, standing⟩

/-- A request whose guards and phase change, with its place in the queues. -/
theorem LocksSound.move (sound : s.LocksSound) {number : Nat} {caller later : Caller}
    {queues : Nat → List Nat} (found : s.callers[number]? = some caller)
    (mapped : ∀ guard ∈ later.references, s.entry guard.1 = some guard.2)
    (own : ∀ lock, number ∈ queues lock ↔ ∃ name, (name, lock) ∈ later.inQueue)
    (others : ∀ other lock, other ≠ number → (other ∈ queues lock ↔ other ∈ s.queues lock))
    (distinct : ∀ lock, (queues lock).Nodup)
    (heads : ∀ other lock, other ≠ number → (s.queues lock).head? = some other →
      (queues lock).head? = some other)
    (locked : ∀ guard ∈ later.locked, (queues guard.2).head? = some number)
    (ordered : later.names.Pairwise fun one two => one.rank < two.rank) :
    ({ s with queues }.setCaller number later).LocksSound := by
  obtain ⟨inside, _⟩ := List.getElem?_eq_some_iff.1 found
  have entries (name : LockName) :
      ({ s with queues }.setCaller number later).entry name = s.entry name := by
    cases name <;> rfl
  have callers (other : Nat) : ({ s with queues }.setCaller number later).callers[other]? =
      if number = other ∧ other < s.callers.length then some later else s.callers[other]? :=
    setCaller_getElem? _ _ _ _
  have here {other : Nat} {caller' : Caller}
      (there : ({ s with queues }.setCaller number later).callers[other]? = some caller') :
      other = number ∧ caller' = later ∨ other ≠ number ∧ s.callers[other]? = some caller' := by
    rw [callers] at there
    split at there
    · rename_i same
      exact Or.inl ⟨same.1.symm, (Option.some.inj there).symm⟩
    · rename_i different
      right
      refine ⟨?_, there⟩
      rintro rfl
      exact different ⟨rfl, inside⟩
  constructor
  · intro name lock recorded
    rw [entries] at recorded
    exact sound.fresh name lock recorded
  · intro one two lock recorded recorded'
    rw [entries] at recorded recorded'
    exact sound.apart one two lock recorded recorded'
  · intro other caller' guard there member
    rw [entries]
    rcases here there with ⟨rfl, rfl⟩ | ⟨_, there⟩
    · exact mapped guard member
    · exact sound.mapped other caller' guard there member
  · intro other lock
    by_cases same : other = number
    · subst same
      apply (own lock).trans
      rw [callers, if_pos ⟨rfl, inside⟩]
      constructor
      · rintro ⟨name, standing⟩
        exact ⟨later, name, rfl, standing⟩
      · rintro ⟨caller', name, there, standing⟩
        cases there
        exact ⟨name, standing⟩
    · apply (others other lock same).trans
      rw [callers, if_neg fun both => same both.1.symm]
      exact sound.members other lock
  · exact distinct
  · intro other caller' guard there member
    rcases here there with ⟨rfl, rfl⟩ | ⟨different, there⟩
    · exact locked guard member
    · exact heads other guard.2 different (sound.first other caller' guard there member)
  · intro other caller' there
    rcases here there with ⟨rfl, rfl⟩ | ⟨_, there⟩
    · exact ordered
    · exact sound.ordered other caller' there

/-- A request that stays in its queues. -/
theorem LocksSound.setCaller (sound : s.LocksSound) {number : Nat} {caller later : Caller}
    (found : s.callers[number]? = some caller)
    (mapped : ∀ guard ∈ later.references, s.entry guard.1 = some guard.2)
    (queued : ∀ guard, guard ∈ later.inQueue ↔ guard ∈ caller.inQueue)
    (locked : ∀ guard ∈ later.locked, (s.queues guard.2).head? = some number)
    (ordered : later.names.Pairwise fun one two => one.rank < two.rank) :
    (s.setCaller number later).LocksSound := by
  apply sound.move found mapped
  · intro lock
    apply (sound.member_iff found lock).trans
    exact exists_congr fun name => (queued (name, lock)).symm
  · exact fun _ _ _ => Iff.rfl
  · exact sound.distinct
  · exact fun _ _ _ head => head
  · exact locked
  · exact ordered

/-- A lookup of a lock keeps what everybody refers to. -/
theorem LocksSound.lookedUp (sound : s.LocksSound) {name : LockName} {lock : Nat}
    (looked : s.LookedUp name lock s') : s'.LocksSound where
  fresh := by
    intro other lock' mapped
    rcases looked.older other lock' mapped with old | ⟨rfl, same⟩
    · exact Nat.lt_of_lt_of_le (sound.fresh other lock' old) looked.next
    · cases looked.found.symm.trans mapped
      rw [same]
      exact looked.fresh same
  apart := by
    intro one two lock' mapped mapped'
    rcases looked.older one lock' mapped with old | ⟨rfl, same⟩
    · rcases looked.older two lock' mapped' with old' | ⟨rfl, same⟩
      · exact sound.apart one two lock' old old'
      · have less := sound.fresh one lock' old
        omega
    · rcases looked.older two lock' mapped' with old' | ⟨rfl, _⟩
      · have less := sound.fresh two lock' old'
        omega
      · rfl
  mapped := by
    intro number caller guard found member
    rw [looked.callers] at found
    exact looked.kept guard.1 guard.2 (sound.mapped number caller guard found member)
      (strongCount_pos_of_mem found member)
  members := by
    intro number lock'
    rw [looked.queues, looked.callers]
    exact sound.members number lock'
  distinct := by
    rw [looked.queues]
    exact sound.distinct
  first := by
    intro number caller guard found member
    rw [looked.callers] at found
    rw [looked.queues]
    exact sound.first number caller guard found member
  ordered := by
    intro number caller found
    rw [looked.callers] at found
    exact sound.ordered number caller found

/-- Two references of a request to one mutex have one name. -/
theorem LocksSound.name_unique (sound : s.LocksSound) {number other : Nat} {caller caller' : Caller}
    {one two : LockName × Nat} (found : s.callers[number]? = some caller)
    (member : one ∈ caller.references) (found' : s.callers[other]? = some caller')
    (member' : two ∈ caller'.references) (same : one.2 = two.2) : one.1 = two.1 := by
  have mapped := sound.mapped number caller one found member
  have mapped' := sound.mapped other caller' two found' member'
  rw [← same] at mapped'
  exact sound.apart one.1 two.1 one.2 mapped mapped'

/-- A guard has another name than what the call has in hand. -/
theorem LocksSound.inHand_ne (sound : s.LocksSound) {number : Nat} {caller : Caller}
    {guard hand : LockName × Nat} (found : s.callers[number]? = some caller)
    (held : guard ∈ caller.guards) (inHand : hand ∈ caller.phase.inHand) :
    guard.1 ≠ hand.1 := by
  have ahead : hand.1 ∈ caller.phase.ahead := by
    cases phase : caller.phase with
    | idle =>
        rw [phase] at inHand
        cases inHand
    | looking call subjects =>
        rw [phase] at inHand
        cases inHand
    | _ =>
        rw [phase] at inHand
        rw [List.mem_singleton.1 inHand]
        exact List.mem_cons_self
  have less := (List.pairwise_append.1 (sound.ordered number caller found)).2.2 guard.1
    (List.mem_map_of_mem held) hand.1 ahead
  intro same
  rw [same] at less
  exact lt_irrefl _ less

/-- A request that has a mutex in hand gets to the end of its queue. -/
theorem LocksSound.enqueue (sound : s.LocksSound) {number : Nat} {guards : List (LockName × Nat)}
    {call : LockCall} {name : LockName} {lock : Nat} {subjects : List LockName}
    (found : s.callers[number]? =
      some { guards, phase := .arriving call name lock subjects }) :
    ({ s with
        queues := Function.update s.queues lock (s.queues lock ++ [number]) }.setCaller number
      { guards, phase := .queued call name lock subjects }).LocksSound := by
  have standing (lock' : Nat) :
      number ∈ s.queues lock' ↔ ∃ other, (other, lock') ∈ guards := by
    apply (sound.member_iff found lock').trans
    apply exists_congr
    intro other
    show (other, lock') ∈ guards ++ [] ↔ (other, lock') ∈ guards
    rw [List.append_nil]
  have absent : number ∉ s.queues lock := by
    intro member
    obtain ⟨other, held⟩ := (standing lock).1 member
    have same := sound.name_unique found (List.mem_append_left _ held) found
      (List.mem_append_right _ (List.mem_singleton.2 rfl : (name, lock) ∈ [(name, lock)])) rfl
    exact sound.inHand_ne found held (List.mem_singleton.2 rfl) same
  apply sound.move found
  · intro guard member
    exact sound.mapped number _ guard found member
  · intro lock'
    simp only [Caller.inQueue, LockPhase.inQueue, List.mem_append, List.mem_singleton]
    by_cases here : lock' = lock
    · subst here
      rw [Function.update_self]
      constructor
      · intro _
        exact ⟨name, Or.inr rfl⟩
      · intro _
        exact List.mem_append_right _ (List.mem_singleton.2 rfl)
    · rw [Function.update_of_ne here, standing]
      apply exists_congr
      intro other
      constructor
      · exact Or.inl
      · rintro (held | same)
        · exact held
        · exact absurd (congrArg Prod.snd same) here
  · intro other lock' different
    by_cases here : lock' = lock
    · subst here
      rw [Function.update_self, List.mem_append, List.mem_singleton]
      exact or_iff_left different
    · rw [Function.update_of_ne here]
  · intro lock'
    by_cases here : lock' = lock
    · subst here
      rw [Function.update_self]
      exact List.nodup_append.2 ⟨sound.distinct lock', List.nodup_singleton _, by
        rintro other member _ last rfl
        rw [List.mem_singleton.1 last] at member
        exact absent member⟩
    · rw [Function.update_of_ne here]
      exact sound.distinct lock'
  · intro other lock' _ head
    by_cases here : lock' = lock
    · subst here
      rw [Function.update_self, List.head?_append, head]
      rfl
    · rw [Function.update_of_ne here]
      exact head
  · intro guard member
    have first := sound.first number _ guard found member
    have member' : number ∈ s.queues guard.2 := List.mem_of_mem_head? first
    rw [Function.update_of_ne]
    · exact first
    · rintro same
      rw [same] at member'
      exact absent member'
  · have ordered := sound.ordered number _ found
    exact ordered

theorem head?_erase_of_ne {a b : Nat} {agents : List Nat} (first : agents.head? = some a)
    (different : a ≠ b) : (agents.erase b).head? = some a := by
  cases agents with
  | nil => cases first
  | cons c rest =>
      cases first
      rw [List.erase_cons_tail (by simpa using different)]
      rfl

/-- A request that drops some of its guards and what its call has in hand. -/
theorem LocksSound.keepGuards (sound : s.LocksSound) {number : Nat} {caller : Caller}
    (found : s.callers[number]? = some caller) (keep : LockName × Nat → Bool) :
    (s.keepGuards number caller keep).LocksSound := by
  obtain ⟨dropped, drops⟩ : ∃ dropped : List (LockName × Nat), dropped =
      (caller.guards.filter fun guard => !keep guard) ++ caller.phase.inHand := ⟨_, rfl⟩
  have subset : ∀ guard ∈ dropped, guard ∈ caller.references := by
    intro guard member
    rw [drops] at member
    rcases List.mem_append.1 member with held | inHand
    · exact List.mem_append_left _ (List.mem_filter.1 held).1
    · exact List.mem_append_right _ inHand
  -- No mutex of a kept guard is dropped.
  have undropped : ∀ guard ∈ caller.guards.filter keep, guard.2 ∉ dropped.map Prod.snd := by
    intro guard member inDropped
    obtain ⟨held, kept⟩ := List.mem_filter.1 member
    obtain ⟨lost, member', same⟩ := List.mem_map.1 inDropped
    have name := sound.name_unique found (subset lost member') found
      (List.mem_append_left _ held : guard ∈ caller.references) same
    rw [drops] at member'
    rcases List.mem_append.1 member' with lostGuard | inHand
    · have equal : lost = guard := Prod.ext name same
      rw [equal] at lostGuard
      have unkept := (List.mem_filter.1 lostGuard).2
      rw [kept] at unkept
      cases unkept
    · exact sound.inHand_ne found held inHand name.symm
  have queues : s.keepGuards number caller keep =
      { s with
        queues := fun lock =>
          if lock ∈ dropped.map Prod.snd then (s.queues lock).erase number
          else s.queues lock }.setCaller number
        { guards := caller.guards.filter keep, phase := .idle } := by
    rw [drops]
    rfl
  rw [queues]
  apply sound.move found
  · intro guard member
    rcases List.mem_append.1 member with held | none
    · exact sound.mapped number caller guard found
        (List.mem_append_left _ (List.mem_filter.1 held).1)
    · cases none
  · intro lock
    simp only [Caller.inQueue, LockPhase.inQueue, List.append_nil]
    constructor
    · intro member
      by_cases inDropped : lock ∈ dropped.map Prod.snd
      · rw [if_pos inDropped] at member
        exact absurd member (sound.distinct lock).not_mem_erase
      · rw [if_neg inDropped] at member
        obtain ⟨name, standing⟩ := (sound.member_iff found lock).1 member
        refine ⟨name, List.mem_filter.2 ?_⟩
        have lost : (name, lock) ∉ dropped :=
          fun inDropped' => inDropped (List.mem_map.2 ⟨(name, lock), inDropped', rfl⟩)
        rw [drops, List.mem_append, not_or] at lost
        rcases List.mem_append.1 (Caller.inQueue_subset caller standing) with held | inHand
        · refine ⟨held, ?_⟩
          by_contra unkept
          exact lost.1 (List.mem_filter.2 ⟨held, by simpa using unkept⟩)
        · exact absurd inHand lost.2
    · rintro ⟨name, kept⟩
      have untouched := undropped (name, lock) kept
      rw [if_neg untouched]
      exact (sound.member_iff found lock).2
        ⟨name, List.mem_append_left _ (List.mem_filter.1 kept).1⟩
  · intro other lock different
    split
    · exact List.mem_erase_of_ne different
    · exact Iff.rfl
  · intro lock
    split
    · exact (sound.distinct lock).erase number
    · exact sound.distinct lock
  · intro other lock different head
    split
    · exact head?_erase_of_ne head different
    · exact head
  · intro guard member
    have kept : guard ∈ caller.guards.filter keep := by
      rcases List.mem_append.1 member with held | none
      · exact held
      · cases none
    rw [if_neg (undropped guard kept)]
    exact sound.first number caller guard found
      (List.mem_append_left _ (List.mem_filter.1 kept).1)
  · have before := sound.ordered number caller found
    apply List.Pairwise.sublist _ before
    unfold Caller.names
    rw [LockPhase.ahead, List.append_nil]
    exact (List.filter_sublist.map Prod.fst).trans (List.sublist_append_left _ _)

/-! ### Steps -/

theorem LocksSound.arrive (sound : s.LocksSound) :
    ({ s with callers := s.callers ++ [{ guards := [], phase := .idle }] } :
      BillingLocks).LocksSound := by
  have here {number : Nat} {caller : Caller}
      (there : (s.callers ++ [({ guards := [], phase := .idle } : Caller)])[number]? =
        some caller) :
      s.callers[number]? = some caller ∨ caller = { guards := [], phase := .idle } := by
    rw [List.getElem?_append] at there
    split at there
    · exact Or.inl there
    · exact Or.inr (List.mem_singleton.1 (List.mem_of_getElem? there))
  constructor
  · exact sound.fresh
  · exact sound.apart
  · intro number caller guard there member
    rcases here there with there | rfl
    · exact sound.mapped number caller guard there member
    · cases member
  · intro number lock
    apply (sound.members number lock).trans
    constructor
    · rintro ⟨caller, name, there, standing⟩
      obtain ⟨inside, _⟩ := List.getElem?_eq_some_iff.1 there
      exact ⟨caller, name, (List.getElem?_append_left inside).trans there, standing⟩
    · rintro ⟨caller, name, there, standing⟩
      rcases here there with there | rfl
      · exact ⟨caller, name, there, standing⟩
      · cases standing
  · exact sound.distinct
  · intro number caller guard there member
    rcases here there with there | rfl
    · exact sound.first number caller guard there member
    · cases member
  · intro number caller there
    rcases here there with there | rfl
    · exact sound.ordered number caller there
    · exact List.Pairwise.nil

/-- The next step of a call. -/
theorem LocksSound.advanceCall (sound : s.LocksSound) {number : Nat} {caller : Caller}
    (found : s.callers[number]? = some caller)
    (stepped : s.advanceCall number caller = some s') : s'.LocksSound := by
  obtain ⟨guards, phase⟩ := caller
  have mapped := fun guard => sound.mapped number _ guard found
  have ordered := sound.ordered number _ found
  cases phase with
  | idle => cases stepped
  | looking call subjects =>
      cases subjects with
      | cons name subjects =>
          cases stepped
          have looked := lookUpLock_spec s name sound.fresh
          apply (sound.lookedUp looked).setCaller ((congrArg (·[number]?) looked.callers).trans found)
          · intro guard member
            rcases List.mem_append.1 member with held | hand
            · exact (sound.lookedUp looked).mapped number _ guard
                ((congrArg (·[number]?) looked.callers).trans found) (List.mem_append_left _ held)
            · rw [List.mem_singleton.1 hand]
              exact looked.found
          · exact fun _ => Iff.rfl
          · intro guard member
            rw [looked.queues]
            exact sound.first number _ guard found member
          · exact ordered
      | nil =>
          cases call with
          | lockTokenBilling currentSubject =>
              cases stepped
              exact sound.keepGuards found _
          | lockResearchKeyUsage =>
              cases stepped
              apply sound.setCaller found
              · exact mapped
              · exact fun _ => Iff.rfl
              · intro guard member
                exact sound.first number _ guard found member
              · exact ordered
  | arriving call name lock subjects =>
      cases stepped
      exact sound.enqueue found
  | queued call name lock subjects =>
      have granted : (if (s.queues lock).head? = some number then
          some (s.setCaller number { guards, phase := .leasing call name lock subjects })
        else none) = some s' := stepped
      split at granted
      · rename_i head
        cases granted
        apply sound.setCaller found
        · exact mapped
        · exact fun _ => Iff.rfl
        · intro guard member
          rcases List.mem_append.1 member with held | hand
          · exact sound.first number _ guard found (List.mem_append_left _ held)
          · rw [List.mem_singleton.1 hand]
            exact head
        · exact ordered
      · cases granted
  | leasing call name lock subjects =>
      cases stepped
      -- The mutex in hand becomes the last of the guards.
      have guarded : ∀ guard, guard ∈ guards ++ [(name, lock)] ++ [] →
          guard ∈ guards ++ [(name, lock)] := fun guard member => by simpa using member
      apply sound.setCaller found
      · intro guard member
        exact mapped guard (guarded guard member)
      · intro guard
        exact ⟨guarded guard, List.mem_append_left _⟩
      · intro guard member
        exact sound.first number _ guard found (guarded guard member)
      · unfold Caller.names at ordered ⊢
        simpa [LockPhase.ahead] using ordered

/-- A call that fails drops guards. -/
theorem LocksSound.failCall (sound : s.LocksSound) {number : Nat} {caller : Caller}
    (found : s.callers[number]? = some caller)
    (stepped : s.failCall number caller = some s') : s'.LocksSound := by
  unfold BillingLocks.failCall at stepped
  split at stepped
  · cases stepped
  all_goals
    cases stepped
    exact sound.keepGuards found _

theorem locksSound_step (sound : s.LocksSound) {action : BillingLockAction}
    (stepped : s.billingLockStep action = some s') : s'.LocksSound := by
  cases action with
  | arrive =>
      cases stepped
      exact sound.arrive
  | lockTokenBilling number currentSubject pending =>
      simp only [billingLockStep] at stepped
      split at stepped
      · rename_i found
        cases stepped
        apply sound.setCaller found
        · intro guard member
          cases member
        · exact fun _ => Iff.rfl
        · intro guard member
          cases member
        · exact billingSubjects_ordered currentSubject pending
      · cases stepped
  | lockResearchKeyUsage number keyId =>
      simp only [billingLockStep] at stepped
      split at stepped
      · rename_i guards found
        split at stepped
        · cases stepped
        · rename_i none
          cases stepped
          apply sound.setCaller found
          · intro guard member
            exact sound.mapped number _ guard found member
          · exact fun _ => Iff.rfl
          · intro guard member
            exact sound.first number _ guard found member
          · have ordered := sound.ordered number _ found
            apply List.pairwise_append.2
            refine ⟨(List.pairwise_append.1 ordered).1, List.pairwise_singleton _ _, ?_⟩
            intro name held other last
            obtain ⟨guard, member, rfl⟩ := List.mem_map.1 held
            rw [List.mem_singleton.1 last]
            apply LockName.rank_lt_researchKey
            rw [List.any_eq_true] at none
            exact Bool.eq_false_iff.2 fun research => none ⟨guard, member, research⟩
      · cases stepped
  | advance number =>
      simp only [billingLockStep] at stepped
      split at stepped
      · rename_i found
        exact sound.advanceCall found stepped
      · cases stepped
  | fail number =>
      simp only [billingLockStep] at stepped
      split at stepped
      · rename_i found
        exact sound.failCall found stepped
      · cases stepped
  | dropGuard number name =>
      simp only [billingLockStep] at stepped
      split at stepped
      · rename_i found
        cases stepped
        exact sound.keepGuards found _
      · cases stepped
  | leave number =>
      simp only [billingLockStep] at stepped
      split at stepped
      · rename_i found
        cases stepped
        exact sound.keepGuards found _
      · cases stepped

/-! ### What holds of every state -/

/-- Who waits for a subject and who has it use one mutex. -/
def OneMutex (s : BillingLocks) : Prop :=
  ∀ (number other : Nat) (caller caller' : Caller) (one two : LockName × Nat),
    s.callers[number]? = some caller → one ∈ caller.references →
    s.callers[other]? = some caller' → two ∈ caller'.references →
    one.1.subject = two.1.subject → one.2 = two.2

/-- The subjects whose mutex somebody has. -/
def liveGuards (s : BillingLocks) : List String :=
  s.callers.flatMap fun caller => caller.locked.map fun guard => guard.1.subject

def OneGuard (s : BillingLocks) : Prop := s.liveGuards.Nodup

/-- A request waits for what somebody before it in the queue has or waits for. -/
def Awaits (s : BillingLocks) (number other : Nat) : Prop :=
  ∃ (caller caller' : Caller) (name : LockName) (lock : Nat),
    s.callers[number]? = some caller ∧ caller.phase.waitsFor = some (name, lock) ∧
      s.callers[other]? = some caller' ∧
      ((∃ name', (name', lock) ∈ caller'.locked) ∨ WaitsAt s.queues lock number other)

/-- The guards were taken in the order of their subjects, which what a request waits for
continues: a request with the guard of a research key does not wait for a billing subject. -/
structure InOrder (s : BillingLocks) : Prop where
  rising : ∀ (number : Nat) (caller : Caller), s.callers[number]? = some caller →
    (caller.guards.map Prod.fst ++ (caller.phase.waitsFor.map Prod.fst).toList).Pairwise
      fun one two => one.isResearchKey = two.isResearchKey → one.subject < two.subject
  keyLast : ∀ (number : Nat) (caller : Caller) (name : LockName) (lock : Nat),
    s.callers[number]? = some caller → caller.phase.waitsFor = some (name, lock) →
    (∃ guard ∈ caller.guards, guard.1.isResearchKey) → name.isResearchKey

theorem LocksSound.oneMutex (sound : s.LocksSound) : s.OneMutex := by
  intro number other caller caller' one two found member found' member' same
  have mapped := sound.mapped number caller one found member
  have mapped' := sound.mapped other caller' two found' member'
  rw [← LockName.subject_injective same, mapped] at mapped'
  exact Option.some.inj mapped'

/-- What has locked a mutex comes in the order of the locks. -/
theorem Caller.locked_ordered {caller : Caller}
    (ordered : caller.names.Pairwise fun one two => one.rank < two.rank) :
    (caller.locked.map Prod.fst).Pairwise fun one two => one.rank < two.rank := by
  apply List.Pairwise.sublist _ ordered
  unfold Caller.locked Caller.names
  rw [List.map_append]
  apply List.Sublist.append_left
  cases caller.phase with
  | leasing call name lock subjects => exact List.Sublist.cons_cons _ (List.nil_sublist _)
  | _ => exact List.nil_sublist _

theorem LocksSound.oneGuard (sound : s.LocksSound) : s.OneGuard := by
  unfold OneGuard liveGuards
  rw [List.Nodup, List.pairwise_flatMap]
  constructor
  · intro caller listed
    obtain ⟨number, inside, here⟩ := List.mem_iff_getElem.1 listed
    have ordered := sound.ordered number caller (List.getElem?_eq_some_iff.2 ⟨inside, here⟩)
    rw [List.pairwise_map]
    apply (List.pairwise_map.1 (Caller.locked_ordered ordered)).imp
    intro one two less same
    rw [LockName.subject_injective same] at less
    exact lt_irrefl _ less
  · rw [List.pairwise_iff_getElem]
    intro number other inside inside' before
    have found := List.getElem?_eq_getElem inside
    have found' := List.getElem?_eq_getElem inside'
    intro text member text' member' same
    obtain ⟨one, locked, rfl⟩ := List.mem_map.1 member
    obtain ⟨two, locked', rfl⟩ := List.mem_map.1 member'
    have first := sound.first number _ one found locked
    have first' := sound.first other _ two found' locked'
    rw [sound.oneMutex number other _ _ one two found (Caller.locked_subset _ locked) found'
      (Caller.locked_subset _ locked') same, first'] at first
    exact absurd (Option.some.inj first) (Nat.ne_of_gt before)

theorem LockName.isResearchKey_of_rank_lt {one two : LockName} (less : one.rank < two.rank)
    (research : one.isResearchKey = true) : two.isResearchKey = true := by
  cases two with
  | researchKey keyId => rfl
  | billing subject =>
      cases one with
      | billing other => cases research
      | researchKey keyId =>
          rcases Prod.Lex.toLex_lt_toLex.1 less with lower | ⟨same, _⟩
          · exact absurd lower (Nat.not_lt_zero _)
          · cases same

theorem LockName.subject_lt_of_rank_lt {one two : LockName} (less : one.rank < two.rank)
    (same : one.isResearchKey = two.isResearchKey) : one.subject < two.subject := by
  rcases Prod.Lex.toLex_lt_toLex.1 less with lower | ⟨_, text⟩
  · rw [same] at lower
    exact absurd lower (Nat.lt_irrefl _)
  · exact text

theorem LocksSound.inOrder (sound : s.LocksSound) : s.InOrder where
  rising := by
    intro number caller found
    have ordered := sound.ordered number caller found
    apply List.Pairwise.imp LockName.subject_lt_of_rank_lt
    apply List.Pairwise.sublist _ ordered
    apply List.Sublist.append_left
    cases caller.phase with
    | queued call name lock subjects => exact List.Sublist.cons_cons _ (List.nil_sublist _)
    | _ => exact List.nil_sublist _
  keyLast := by
    rintro number caller name lock found waits ⟨guard, held, research⟩
    apply LockName.isResearchKey_of_rank_lt _ research
    exact Caller.rank_lt_of_waitsFor (sound.ordered number caller found) waits held

/-- A request awaits somebody who is before it in a queue. -/
theorem LocksSound.waitsFor_of_awaits (sound : s.LocksSound) {number other : Nat}
    (awaits : s.Awaits number other) : WaitsFor s.queues number other := by
  obtain ⟨⟨guards, phase⟩, caller', name, lock, found, waits, found', ahead⟩ := awaits
  cases phase with
  | queued call name' lock' subjects =>
      cases waits
      rcases ahead with ⟨other', locked⟩ | waitsAt
      · have head := sound.first other caller' (other', lock) found' locked
        have member := (sound.member_iff found lock).2
          ⟨name, List.mem_append_right _ (List.mem_singleton.2 rfl)⟩
        have different : number ≠ other := by
          rintro rfl
          cases found.symm.trans found'
          have held : (other', lock) ∈ guards := by
            rcases List.mem_append.1 locked with held | none
            · exact held
            · cases none
          have same := sound.name_unique found (List.mem_append_left _ held) found
            (List.mem_append_right _ (List.mem_singleton.2 rfl : (name, lock) ∈ [(name, lock)]))
            rfl
          exact sound.inHand_ne found held (List.mem_singleton.2 rfl) same
        rw [List.head?_eq_getElem?] at head
        obtain ⟨place, here⟩ := List.mem_iff_getElem?.1 member
        refine ⟨lock, 0, place, Nat.pos_of_ne_zero ?_, head, here⟩
        rintro rfl
        exact different (Option.some.inj (here.symm.trans head))
      · exact ⟨lock, waitsAt⟩
  | _ => cases waits

/-- The mutexes in the order of their subjects. -/
def before (s : BillingLocks) (one two : Nat) : Prop :=
  ∃ name name' : LockName, s.entry name = some one ∧ s.entry name' = some two ∧
    name.rank < name'.rank

/-- What a request waits for comes after every other mutex in whose queue it stands. -/
theorem LocksSound.before_of_waitsAt (sound : s.LocksSound) {a b one two : Nat}
    (member : a ∈ s.queues one) (waits : WaitsAt s.queues two a b) :
    one = two ∨ s.before one two := by
  obtain ⟨caller, name, found, standing⟩ := (sound.members a one).1 member
  obtain ⟨name', standing'⟩ := (sound.member_iff found two).1 waits.mem_left
  have awaited : caller.phase.waitsFor = some (name', two) := by
    rcases Caller.locked_or_waitsFor standing' with locked | awaited
    · have head := sound.first a caller (name', two) found locked
      exact absurd head (waits.not_head (sound.distinct two))
    · exact awaited
  rcases Caller.locked_or_waitsFor standing with locked | same
  · right
    have held : (name, one) ∈ caller.guards := by
      rcases List.mem_append.1 locked with held | inPhase
      · exact held
      · cases phase : caller.phase with
        | leasing call other lock subjects =>
            rw [phase] at awaited
            cases awaited
        | _ =>
            rw [phase] at inPhase
            cases inPhase
    exact ⟨name, name', sound.mapped a caller _ found (Caller.inQueue_subset caller standing),
      sound.mapped a caller _ found (Caller.inQueue_subset caller standing'),
      Caller.rank_lt_of_waitsFor (sound.ordered a caller found) awaited held⟩
  · left
    rw [awaited] at same
    exact (congrArg Prod.snd (Option.some.inj same)).symm

/-- Nobody waits for themselves, over any number of others. -/
def NoDeadlock (s : BillingLocks) : Prop := ∀ number, ¬Relation.TransGen s.Awaits number number

theorem LocksSound.noDeadlock (sound : s.LocksSound) : s.NoDeadlock := by
  intro number cycle
  have irrefl : ∀ lock, ¬s.before lock lock := by
    rintro lock ⟨name, name', mapped, mapped', less⟩
    rw [sound.apart name name' lock mapped mapped'] at less
    exact lt_irrefl _ less
  have later : ∀ one two three, s.before one two → s.before two three → s.before one three := by
    rintro one two three ⟨first, middle, mapped, mapped', less⟩
      ⟨middle', last, recorded, recorded', less'⟩
    rw [sound.apart middle middle' two mapped' recorded] at less
    exact ⟨first, last, mapped, recorded', less.trans less'⟩
  have ordered : ∀ a b one two, a ∈ s.queues one → WaitsAt s.queues two a b →
      one = two ∨ s.before one two :=
    fun _ _ _ _ => sound.before_of_waitsAt
  apply waitsFor_acyclic irrefl later sound.distinct ordered number
  exact Relation.TransGen.mono (fun _ _ => sound.waitsFor_of_awaits) number number cycle

/-- In every state that the requests of a process reach, however their calls, clean-ups, drops
and failures are interleaved: everybody uses the one mutex of a subject, which has at most one
guard, and no requests wait for each other in a circle, as the guards are taken in order. -/
theorem billingLocks_alongRun (actions : List BillingLockAction) :
    billingLockSystem.AlongRun
      (fun s => s.OneMutex ∧ s.OneGuard ∧ s.InOrder ∧ s.NoDeadlock) initial actions := by
  have preserved : ∀ s action s', LocksSound s → billingLockSystem.step s action = some s' →
      s'.LocksSound :=
    fun _ _ _ sound stepped => locksSound_step sound stepped
  apply (billingLockSystem.alongRun_of_preserved preserved locksSound_initial actions).mono
  intro s sound
  exact ⟨sound.oneMutex, sound.oneGuard, sound.inOrder, sound.noDeadlock⟩

end BillingLocks

end TavilyHikari.TavilyProxy
