/-
Module: TavilyHikari.Proofs.ResearchUsage
Purpose: What is charged for research on a key is never more than what its usage counter has
  gone up: the calls that measure one key hold its lock, so that their windows lie apart.
Trusted boundary: none
Main exports: ResearchSound, ResearchSound.step, researchUsage_run
-/
import TavilyHikari.Proofs.BillingLocks
import TavilyHikari.TavilyProxy.ResearchUsage

namespace TavilyHikari.TavilyProxy

open Library ForwardProxy

/-! ### What the locks leave alone -/

namespace BillingLocks

variable {s s' : BillingLocks} {number other : Nat}

theorem callers_setCaller (apart : number ≠ other) (caller : Caller) :
    (s.setCaller number caller).callers[other]? = s.callers[other]? := by
  rw [setCaller_getElem?, if_neg fun same => apart same.1]

theorem callers_keepGuards (apart : number ≠ other) (caller : Caller)
    (keep : LockName × Nat → Bool) :
    (s.keepGuards number caller keep).callers[other]? = s.callers[other]? :=
  callers_setCaller apart _

theorem callers_lookUpLock (sound : s.LocksSound) (name : LockName) :
    (s.lookUpLock name).2.callers = s.callers :=
  (lookUpLock_spec s name sound.fresh).callers

theorem callers_advanceCall (sound : s.LocksSound) (apart : number ≠ other) {caller : Caller}
    (stepped : s.advanceCall number caller = some s') :
    s'.callers[other]? = s.callers[other]? := by
  unfold advanceCall at stepped
  split at stepped
  case h_1 => cases stepped
  case h_2 call name subjects phase =>
    rw [← Option.some.inj stepped]
    exact (callers_setCaller apart _).trans
      (congrArg (fun callers => callers[other]?) (callers_lookUpLock sound name))
  case h_3 =>
    cases stepped
    exact callers_keepGuards apart _ _
  case h_4 =>
    cases stepped
    exact callers_setCaller apart _
  case h_5 =>
    cases stepped
    exact callers_setCaller apart _
  case h_6 =>
    split at stepped
    · cases stepped
      exact callers_setCaller apart _
    · cases stepped
  case h_7 =>
    cases stepped
    exact callers_setCaller apart _

theorem callers_failCall (apart : number ≠ other) {caller : Caller}
    (stepped : s.failCall number caller = some s') : s'.callers[other]? = s.callers[other]? := by
  unfold failCall at stepped
  split at stepped
  · cases stepped
  all_goals
    cases stepped
    exact callers_keepGuards apart _ _

/-- A request is changed by its own steps only. -/
theorem callers_step (sound : s.LocksSound) {action : BillingLockAction} {caller : Caller}
    (apart : action.number ≠ some other) (stepped : s.billingLockStep action = some s')
    (found : s.callers[other]? = some caller) : s'.callers[other]? = some caller := by
  have distinct : ∀ {number : Nat}, action.number = some number → number ≠ other := by
    rintro number own rfl
    exact apart own
  rw [← found]
  unfold billingLockStep at stepped
  split at stepped
  case h_1 =>
    cases stepped
    exact List.getElem?_append_left (List.getElem?_eq_some_iff.1 found).1
  case h_2 =>
    split at stepped
    · cases stepped
      exact callers_setCaller (distinct rfl) _
    · cases stepped
  case h_3 =>
    split at stepped
    · split at stepped
      · cases stepped
      · cases stepped
        exact callers_setCaller (distinct rfl) _
    · cases stepped
  case h_4 =>
    split at stepped
    · exact callers_advanceCall sound (distinct rfl) stepped
    · cases stepped
  case h_5 =>
    split at stepped
    · exact callers_failCall (distinct rfl) stepped
    · cases stepped
  case h_6 =>
    split at stepped
    · cases stepped
      exact callers_keepGuards (distinct rfl) _ _
    · cases stepped
  case h_7 =>
    split at stepped
    · cases stepped
      exact callers_keepGuards (distinct rfl) _ _
    · cases stepped

/-- A name has one request with its guard. -/
theorem LocksSound.guard_unique (sound : s.LocksSound) {name : LockName} {lock lock' : Nat}
    {one two : Caller} (found : s.callers[number]? = some one) (held : (name, lock) ∈ one.guards)
    (found' : s.callers[other]? = some two) (held' : (name, lock') ∈ two.guards) :
    number = other := by
  have here : (name, lock) ∈ one.locked := List.mem_append_left _ held
  have there : (name, lock') ∈ two.locked := List.mem_append_left _ held'
  have same : lock = lock' :=
    sound.oneMutex number other one two _ _ found (Caller.locked_subset _ here) found'
      (Caller.locked_subset _ there) rfl
  have first := sound.first number one _ found here
  have first' := sound.first other two _ found' there
  rw [same, first', Option.some.injEq] at first
  exact first.symm

end BillingLocks

/-! ### The measured windows -/

theorem ResearchPhase.guardedKey_of_beforeUsage {phase : ResearchPhase} {keyId : String}
    {before : Int} (read : phase.beforeUsage = some (keyId, before)) :
    phase.guardedKey = some keyId := by
  cases phase with
  | sending => exact congrArg (Option.map Prod.fst) read
  | storing => exact congrArg (Option.map Prod.fst) read
  | probingAfter => exact congrArg (Option.map Prod.fst) read
  | _ => cases read

theorem ResearchPhase.guardedKey_of_mayLock {phase : ResearchPhase} {action : BillingLockAction}
    {number : Nat} (allowed : phase.mayLock action = true)
    (own : action.number = some number) : phase.guardedKey = none := by
  cases phase with
  | idle => rfl
  | locking => rfl
  | _ =>
      cases action with
      | arrive => cases own
      | _ => cases allowed

/-- A call in a guarded phase has the guard, and what is measured fits what the counters have
grown: in all, and while a call measures. -/
structure ResearchSound (grown : String → Int) (s : ResearchUsage) : Prop where
  locks : s.locks.LocksSound
  guarded : ∀ number keyId, (s.calls number).guardedKey = some keyId →
    ∃ caller lock, s.locks.callers[number]? = some caller ∧
      (LockName.researchKey keyId, lock) ∈ caller.guards
  rising : ∀ keyId, ∀ call ∈ s.returned, 0 ≤ ResearchUsage.usageOf keyId call
  within : ∀ keyId, s.charged keyId ≤ grown keyId
  measured : ∀ number keyId before, (s.calls number).beforeUsage = some (keyId, before) →
    s.charged keyId + max (s.researchUsage keyId - before) 0 ≤ grown keyId

namespace ResearchSound

variable {grown : String → Int} {s s' : ResearchUsage} {number : Nat} {keyId : String}

theorem initial (researchUsage : String → Int) :
    ResearchSound (fun _ => 0) (ResearchUsage.initial researchUsage) where
  locks := BillingLocks.locksSound_initial
  guarded := fun _ _ none => nomatch none
  rising := fun _ _ none => nomatch none
  within := fun _ => le_refl _
  measured := fun _ _ _ none => nomatch none

/-- Two calls never measure one key at a time. -/
theorem exclusive (sound : ResearchSound grown s) {one two : Nat}
    (first : (s.calls one).guardedKey = some keyId)
    (second : (s.calls two).guardedKey = some keyId) : one = two := by
  obtain ⟨caller, lock, found, held⟩ := sound.guarded one keyId first
  obtain ⟨caller', lock', found', held'⟩ := sound.guarded two keyId second
  exact sound.locks.guard_unique found held found' held'

/-- A call goes on, within its guard. -/
theorem setCall (sound : ResearchSound grown s) {phase : ResearchPhase}
    (guarded : ∀ keyId, phase.guardedKey = some keyId →
      ∃ caller lock, s.locks.callers[number]? = some caller ∧
        (LockName.researchKey keyId, lock) ∈ caller.guards)
    (measured : ∀ keyId before, phase.beforeUsage = some (keyId, before) →
      s.charged keyId + max (s.researchUsage keyId - before) 0 ≤ grown keyId) :
    ResearchSound grown (s.setCall number phase) where
  locks := sound.locks
  guarded := by
    intro other keyId holds
    by_cases same : other = number
    · subst same
      rw [ResearchUsage.calls_setCall_self] at holds
      exact guarded keyId holds
    · rw [ResearchUsage.calls_setCall_of_ne s same] at holds
      exact sound.guarded other keyId holds
  rising := sound.rising
  within := sound.within
  measured := by
    intro other keyId before read
    by_cases same : other = number
    · subst same
      rw [ResearchUsage.calls_setCall_self] at read
      exact measured keyId before read
    · rw [ResearchUsage.calls_setCall_of_ne s same] at read
      exact sound.measured other keyId before read

/-- A call that keeps its key and what it has read. -/
theorem goOn (sound : ResearchSound grown s) {phase : ResearchPhase}
    (guarded : phase.guardedKey = (s.calls number).guardedKey)
    (measured : phase.beforeUsage = (s.calls number).beforeUsage ∨ phase.beforeUsage = none) :
    ResearchSound grown (s.setCall number phase) := by
  refine sound.setCall (fun keyId holds => sound.guarded number keyId (guarded ▸ holds)) ?_
  intro keyId before read
  rcases measured with same | none
  · exact sound.measured number keyId before (same ▸ read)
  · rw [none] at read
    cases read

/-- The locks take a step of a request that is in no guarded phase. -/
theorem lock (sound : ResearchSound grown s) {action : BillingLockAction}
    {locks : BillingLocks} (stepped : s.locks.billingLockStep action = some locks)
    (unguarded : ∀ number, action.number = some number → (s.calls number).guardedKey = none) :
    ResearchSound grown { s with locks } where
  locks := BillingLocks.locksSound_step sound.locks stepped
  guarded := by
    intro other keyId holds
    obtain ⟨caller, lock, found, held⟩ := sound.guarded other keyId holds
    refine ⟨caller, lock, BillingLocks.callers_step sound.locks ?_ stepped found, held⟩
    intro own
    rw [unguarded other own] at holds
    cases holds
  rising := sound.rising
  within := sound.within
  measured := sound.measured

/-- The request goes where no guard is needed. -/
theorem unguarded (sound : ResearchSound grown s) {phase : ResearchPhase} (number : Nat)
    (free : phase.guardedKey = none) : ResearchSound grown (s.setCall number phase) := by
  refine sound.setCall ?_ ?_
  · intro keyId holds
    rw [free] at holds
    cases holds
  · intro keyId before read
    rw [ResearchPhase.guardedKey_of_beforeUsage read] at free
    cases free

theorem idle_lock (sound : ResearchSound grown s) {action : BillingLockAction}
    {locks : BillingLocks} (own : action.number = some number)
    (stepped : s.locks.billingLockStep action = some locks) :
    ResearchSound grown { s.setCall number .idle with locks } := by
  refine (sound.unguarded number rfl).lock stepped ?_
  intro other mine
  rw [own, Option.some.injEq] at mine
  subst mine
  rw [ResearchUsage.calls_setCall_self]
  rfl

/-- A result is returned that fits what the counters have grown, for a key that no call measures
any more. -/
theorem returns (sound : ResearchSound grown s) {call : ResearchReturn}
    (rises : ∀ key, 0 ≤ ResearchUsage.usageOf key call)
    (bound : ∀ key, s.charged key + ResearchUsage.usageOf key call ≤ grown key)
    (apart : ∀ number key before, (s.calls number).beforeUsage = some (key, before) →
      ResearchUsage.usageOf key call = 0) :
    ResearchSound grown { s with returned := call :: s.returned } where
  locks := sound.locks
  guarded := sound.guarded
  rising := by
    intro key other member
    rcases List.mem_cons.1 member with rfl | old
    · exact rises key
    · exact sound.rising key other old
  within := by
    intro key
    rw [ResearchUsage.charged, List.map_cons, List.sum_cons, add_comm]
    exact bound key
  measured := by
    intro number key before read
    rw [ResearchUsage.charged, List.map_cons, List.sum_cons, apart number key before read,
      zero_add]
    exact sound.measured number key before read

theorem returns_uncharged (sound : ResearchSound grown s) {call : ResearchReturn}
    (nothing : ∀ key, ResearchUsage.usageOf key call = 0) :
    ResearchSound grown { s with returned := call :: s.returned } := by
  refine sound.returns (fun key => (nothing key).ge) (fun key => ?_) fun _ key _ _ => nothing key
  rw [nothing, add_zero]
  exact sound.within key

/-- A result is returned: what it charges was measured under the guard. -/
theorem finish (sound : ResearchSound grown s) {result : ResearchResult}
    (holds : (s.calls number).guardedKey = some keyId)
    (rises : 0 ≤ ResearchUsage.usageOf keyId { number, keyId, result })
    (bound : s.charged keyId +
      ResearchUsage.usageOf keyId { number, keyId, result } ≤ grown keyId)
    (taken : s.finish number keyId result = some s') : ResearchSound grown s' := by
  obtain ⟨locks, stepped, rfl⟩ := Option.map_eq_some_iff.1 taken
  have other : ∀ key, key ≠ keyId →
      ResearchUsage.usageOf key { number, keyId, result } = 0 := by
    intro key apart
    unfold ResearchUsage.usageOf
    split
    · exact if_neg (Ne.symm apart)
    · rfl
  refine (sound.idle_lock rfl stepped).returns ?_ ?_ ?_
  · intro key
    by_cases same : key = keyId
    · subst same
      exact rises
    · rw [other key same]
  · intro key
    by_cases same : key = keyId
    · subst same
      exact bound
    · rw [other key same, add_zero]
      exact sound.within key
  · intro twin key before read
    apply other
    rintro rfl
    have elsewhere : twin ≠ number := by
      rintro rfl
      rw [ResearchUsage.calls_setCall_self] at read
      cases read
    have still : (s.calls twin).beforeUsage = some (key, before) := by
      rwa [ResearchUsage.calls_setCall_of_ne s elsewhere] at read
    exact elsewhere (sound.exclusive (ResearchPhase.guardedKey_of_beforeUsage still) holds)

/-- A result without a delta charges nothing. -/
theorem finish_uncharged (sound : ResearchSound grown s) {result : ResearchResult}
    (holds : (s.calls number).guardedKey = some keyId)
    (nothing : ResearchUsage.usageOf keyId { number, keyId, result } = 0)
    (taken : s.finish number keyId result = some s') : ResearchSound grown s' := by
  refine sound.finish holds (le_of_eq nothing.symm) ?_ taken
  rw [nothing, add_zero]
  exact sound.within keyId

/-- One attempt of a probe: a reading opens the window of the call or closes it. -/
theorem probe (sound : ResearchSound grown s) {usage : Except ProxyError Int}
    (taken : s.probe number usage = some s') : ResearchSound grown s' := by
  unfold ResearchUsage.probe at taken
  split at taken
  case h_1 keyId attempt before here =>
    split at taken
    case isTrue read =>
      cases taken
      have holds : (s.calls number).guardedKey = some keyId := by rw [here]; rfl
      refine sound.setCall (fun key same => sound.guarded number key ?_) ?_
      · rw [holds]
        exact same
      · intro key opened same
        cases same
        rw [read, sub_self, max_self, add_zero]
        exact sound.within keyId
    case isFalse => cases taken
  case h_2 keyId attempt err here =>
    split at taken
    case isTrue =>
      cases taken
      exact sound.goOn (by rw [here]; rfl) (.inr rfl)
    case isFalse =>
      cases taken
      exact sound.goOn (by rw [here]; rfl) (.inr rfl)
  case h_3 keyId before response attempt after here =>
    split at taken
    case isFalse => cases taken
    case isTrue read =>
      have holds : (s.calls number).guardedKey = some keyId := by rw [here]; rfl
      have window := sound.measured number keyId before (by rw [here]; rfl)
      rw [read] at taken
      unfold ResearchUsage.usageDelta at taken
      split at taken
      case isTrue grew =>
        rw [max_eq_left (sub_nonneg.2 grew)] at window
        refine sound.finish holds ?_ ?_ taken
        · simpa only [ResearchUsage.usageOf, if_true] using sub_nonneg.2 grew
        · simpa only [ResearchUsage.usageOf, if_true] using window
      case isFalse => exact sound.finish_uncharged holds rfl taken
  case h_4 keyId before response attempt err here =>
    split at taken
    case isTrue =>
      cases taken
      exact sound.goOn (by rw [here]; rfl) (.inl (by rw [here]; rfl))
    case isFalse =>
      cases taken
      exact sound.goOn (by rw [here]; rfl) (.inr rfl)
  case h_5 => cases taken

/-- The counter of a key moves: it goes up by no more than it has grown. -/
theorem report (sound : ResearchSound grown s) (keyId : String) (change : Int) :
    ResearchSound (fun key => grown key + (UsageAction.report keyId change).growth key)
      { s with
        researchUsage := Function.update s.researchUsage keyId
          (s.researchUsage keyId + change) } where
  locks := sound.locks
  guarded := sound.guarded
  rising := sound.rising
  within := by
    intro key
    refine (sound.within key).trans (le_add_of_nonneg_right ?_)
    unfold UsageAction.growth
    simp only
    split
    · exact le_max_right _ _
    · exact le_refl _
  measured := by
    intro number key before read
    have window := sound.measured number key before read
    by_cases same : keyId = key
    · subst same
      simp only [UsageAction.growth, if_true, Function.update_self]
      change s.charged keyId + _ ≤ _
      omega
    · simp only [UsageAction.growth, same, if_false, add_zero,
        Function.update_of_ne (Ne.symm same)]
      exact window

/-- One step of anybody, with what it adds to the growth of the counters. -/
theorem step {json : SerdeJson} {jsonError : ByteArray → String} {action : UsageAction}
    (sound : ResearchSound grown s)
    (taken : (researchUsageSystem json jsonError).step s action = some s') :
    ResearchSound (fun key => grown key + action.growth key) s' := by
  change s.step json jsonError action = some s' at taken
  unfold ResearchUsage.step at taken
  have steady {s'' : ResearchUsage} (sound' : ResearchSound grown s'') :
      ResearchSound (fun key => grown key + 0) s'' := by
    simpa only [add_zero] using sound'
  split at taken
  case h_1 action =>
    split at taken
    case isFalse => cases taken
    case isTrue allowed =>
      obtain ⟨locks, stepped, rfl⟩ := Option.map_eq_some_iff.1 taken
      refine steady (sound.lock stepped fun number own => ?_)
      rw [own, Option.all_some] at allowed
      exact ResearchPhase.guardedKey_of_mayLock allowed own
  case h_2 number keyId =>
    split at taken
    case h_1 idle =>
      obtain ⟨locks, stepped, rfl⟩ := Option.map_eq_some_iff.1 taken
      have before : ResearchSound grown { s with locks } := by
        refine sound.lock stepped fun other own => ?_
        cases own
        rw [idle]
        rfl
      exact steady (before.unguarded number rfl)
    case h_2 => cases taken
  case h_3 number err =>
    split at taken
    case h_1 keyId guards locking found =>
      split at taken
      case isTrue held =>
        cases taken
        obtain ⟨⟨name, lock⟩, member, named⟩ := List.any_eq_true.1 held
        refine steady (sound.setCall ?_ fun _ _ none => nomatch none)
        intro key same
        cases same
        cases of_decide_eq_true named
        exact ⟨_, lock, found, member⟩
      case isFalse =>
        cases taken
        exact steady ((sound.unguarded number rfl).returns_uncharged fun _ => rfl)
    case h_2 => cases taken
  case h_4 => exact steady (sound.probe taken)
  case h_5 number response =>
    split at taken
    case h_1 keyId before response here =>
      cases taken
      exact steady (sound.goOn (by rw [here]; rfl) (.inl (by rw [here]; rfl)))
    case h_2 keyId before err here =>
      exact steady (sound.finish_uncharged (by rw [here]; rfl) rfl taken)
    case h_3 => cases taken
  case h_6 number stored =>
    split at taken
    case h_1 keyId before response here =>
      cases taken
      exact steady (sound.goOn (by rw [here]; rfl) (.inl (by rw [here]; rfl)))
    case h_2 keyId before response err here =>
      exact steady (sound.finish_uncharged (by rw [here]; rfl) rfl taken)
    case h_3 => cases taken
  case h_7 number stored =>
    split at taken
    case h_1 keyId outcome here =>
      refine steady (sound.finish_uncharged (by rw [here]; rfl) ?_ taken)
      cases outcome with
      | ok response => rfl
      | error err => rfl
    case h_2 keyId result err here =>
      exact steady (sound.finish_uncharged (by rw [here]; rfl) rfl taken)
    case h_3 => cases taken
  case h_8 number =>
    obtain ⟨locks, stepped, rfl⟩ := Option.map_eq_some_iff.1 taken
    exact steady (sound.idle_lock rfl stepped)
  case h_9 keyId change =>
    cases taken
    exact sound.report keyId change

theorem run {json : SerdeJson} {jsonError : ByteArray → String} {actions : List UsageAction}
    (sound : ResearchSound grown s)
    (ran : (researchUsageSystem json jsonError).run s actions = some s') :
    ResearchSound (fun key => grown key + (actions.map (UsageAction.growth key)).sum) s' := by
  induction actions generalizing s grown with
  | nil =>
      cases ran
      simpa using sound
  | cons action actions ih =>
      obtain ⟨next, taken, ran⟩ := (researchUsageSystem json jsonError).run_cons.1 ran
      simpa only [List.map_cons, List.sum_cons, add_assoc] using ih (sound.step taken) ran

end ResearchSound

/-- However research calls and all other requests of a process are interleaved, fail, are
repeated or dropped, and however the counters of the keys move: no two calls measure one key at a
time, and the deltas that were returned for a key, none of them below zero, add up to no more than
its counter has gone up in all. -/
theorem researchUsage_run {json : SerdeJson} {jsonError : ByteArray → String}
    (researchUsage : String → Int) (actions : List UsageAction) {s : ResearchUsage}
    (ran : (researchUsageSystem json jsonError).run (.initial researchUsage) actions = some s) :
    (∀ one two keyId, (s.calls one).guardedKey = some keyId →
      (s.calls two).guardedKey = some keyId → one = two) ∧
    ∀ keyId, (∀ call ∈ s.returned, 0 ≤ ResearchUsage.usageOf keyId call) ∧
      s.charged keyId ≤ (actions.map (UsageAction.growth keyId)).sum := by
  have sound := (ResearchSound.initial researchUsage).run ran
  refine ⟨fun one two keyId first second => sound.exclusive first second, fun keyId => ?_⟩
  refine ⟨sound.rising keyId, ?_⟩
  simpa only [zero_add] using sound.within keyId

/-! ### A measured call -/

def usageBefore : String := "\x7b\"key\":\x7b\"research_usage\":10\x7d\x7d"

def usageAfter : String := "\x7b\"key\":\x7b\"research_usage\":17\x7d\x7d"

/-- What `/usage` answers, before the call and after it. -/
def usageDocuments : List (String × JsonValue) :=
  [(usageBefore, .object [("key", .object [("research_usage", .number (.posInt 10))])]),
    (usageAfter, .object [("key", .object [("research_usage", .number (.posInt 17))])])]

def usageAnswer (text : String) : Except ProxyError UpstreamAnswer :=
  .ok { status := 200, body := text.toUTF8 }

theorem fetchResearchUsageForSecret_usageAnswer (jsonError : ByteArray → String) (text : String) :
    fetchResearchUsageForSecret (.ofDocuments usageDocuments) jsonError (usageAnswer text) =
      match (usageDocuments.find? fun document => document.1 = text).map Prod.snd with
      | none => .error (.other ("invalid usage json: " ++ jsonError text.toUTF8))
      | some value =>
          match ((value.get "key").bind fun key => key.get "research_usage").bind
              Analysis.parseCreditsValue with
          | some usage => .ok usage
          | none => .error (.quotaDataMissing "missing key.research_usage field") := by
  simp only [fetchResearchUsageForSecret, usageAnswer, bind, Except.bind,
    SerdeJson.fromSlice_ofDocuments]
  rfl

def lockSteps (number count : Nat) : List UsageAction :=
  List.replicate count (.lock (.advance number))

/-- Two requests take one key in turn; the counter grows by 7 while the first one measures. -/
def measuredRun : List UsageAction :=
  [[.lock .arrive, .lock .arrive, .start 0 "key", .start 1 "key"],
    lockSteps 0 5, [.locked 0 .noAvailableKeys], lockSteps 1 2,
    [.probe 0 (usageAnswer usageBefore), .send 0 (.ok ⟨200, "success"⟩), .store 0 (.ok ()),
      .report "key" 7, .probe 0 (usageAnswer usageAfter)],
    lockSteps 1 3, [.locked 1 .noAvailableKeys]].flatten

theorem researchUsage_run_measuredRun :
    ∃ s, (researchUsageSystem (.ofDocuments usageDocuments) fun _ => "").run
        (.initial fun _ => 10) measuredRun = some s ∧
      s.charged "key" = 7 ∧ (s.calls 1).guardedKey = some "key" ∧
      s.charged "key" ≤ (measuredRun.map (UsageAction.growth "key")).sum := by
  have reached : ((researchUsageSystem (.ofDocuments usageDocuments) fun _ => "").run
      (.initial fun _ => 10) measuredRun).map
        (fun s => (s.charged "key", (s.calls 1).guardedKey)) = some (7, some "key") := by
    simp only [measuredRun, lockSteps, List.replicate, List.flatten_cons, List.flatten_nil,
      List.cons_append, List.nil_append,
      TransitionSystem.run, researchUsageSystem, ResearchUsage.step,
      fetchResearchUsageForSecret_usageAnswer]
    rfl
  obtain ⟨s, ran, read⟩ := Option.map_eq_some_iff.1 reached
  obtain ⟨charged, guarded⟩ := Prod.mk.inj read
  exact ⟨s, ran, charged, guarded, ((researchUsage_run _ _ ran).2 "key").2⟩

end TavilyHikari.TavilyProxy
