/-
Module: TavilyHikari.Proofs.TokenRequestLimit
Purpose: The hourly limit of raw requests over every interleaving of checks: in no window of
  60 minute buckets are more requests allowed than the limit, as long as no cleanup reaches
  the window of a check that is still to be summed.
Trusted boundary: none
Main exports: PrunesNoOpenWindow, RequestLimitInvariant, requestLimit_hourly,
  requestLimit_stalled_checks
-/
import TavilyHikari.Library.Sums
import TavilyHikari.Store.TokenRequestLimit

namespace TavilyHikari.Store

open Library

/-! ### Windows and cleanup -/

theorem le_hourWindowStart (now : Int) : now - bucketRetentionSecs ≤ hourWindowStart now := by
  have small := Int.tmod_lt_of_pos now (b := 60) (by decide)
  simp only [hourWindowStart, minuteBucket, secsPerMinute, bucketRetentionSecs]
  omega

/-- A delete of buckets before a threshold leaves the sums from there on. -/
theorem sum_deleteBefore {threshold since : Int} (later : threshold ≤ since)
    (owned : UsageBucketKey → Bool) (buckets : UsageBuckets) (subject : QuotaSubject) :
    sumUsageBuckets (buckets.deleteWhere fun key _ => owned key && key.bucketStart < threshold)
        subject .requestMinute since =
      sumUsageBuckets buckets subject .requestMinute since := by
  apply KeyedTable.total_deleteWhere
  intro key count chosen
  have inside := (of_decide_eq_true chosen).2.2
  have kept : ¬ key.bucketStart < threshold := Int.not_lt.2 (Int.le_trans later inside)
  simp [kept]

/-- Neither delete of a cleanup changes a sum from its threshold on. -/
theorem sum_deleteOldTokenRequestBuckets {threshold since : Int} (later : threshold ≤ since)
    (buckets : UsageBuckets) (subject : QuotaSubject) :
    sumUsageBuckets (deleteOldTokenRequestBuckets threshold buckets) subject .requestMinute since =
      sumUsageBuckets buckets subject .requestMinute since :=
  sum_deleteBefore later _ buckets subject

theorem sum_deleteOldAccountRequestBuckets {threshold since : Int} (later : threshold ≤ since)
    (buckets : UsageBuckets) (subject : QuotaSubject) :
    sumUsageBuckets (deleteOldAccountRequestBuckets threshold buckets) subject .requestMinute since =
      sumUsageBuckets buckets subject .requestMinute since :=
  sum_deleteBefore later _ buckets subject

theorem le_of_allowed {used limit : Int}
    (allowed : (TokenHourlyRequestVerdict.new used limit).allowed = true) :
    0 < limit ∧ used ≤ max limit 0 := by
  simp only [TokenHourlyRequestVerdict.new, Bool.and_eq_true, decide_eq_true_eq] at allowed
  omega

/-! ### Checks -/

namespace RequestCheck

/-- The check has read the clock and not yet its sum. -/
def reading (check : RequestCheck) : Bool :=
  match check.phase with
  | .started | .resolved _ | .incremented _ => true
  | _ => false

/-- The check has found that a request of the subject is allowed. -/
def judgedAllowed (subject : QuotaSubject) (check : RequestCheck) : Bool :=
  match check.phase with
  | .judged owner verdict | .pruningTokens owner verdict | .pruningAccounts owner verdict
  | .answered owner verdict => owner = subject && verdict.allowed
  | _ => false

/-- The check has counted its request for the subject, and has not refused it. -/
def counted (subject : QuotaSubject) (check : RequestCheck) : Bool :=
  match check.phase with
  | .incremented owner => owner = subject
  | _ => check.judgedAllowed subject

theorem judgedAllowed_of_answered {subject : QuotaSubject} {check : RequestCheck}
    (answered : check.answeredAllowed subject = true) : check.judgedAllowed subject = true := by
  unfold answeredAllowed at answered
  unfold judgedAllowed
  split at answered
  · rename_i phase
    rw [phase]
    exact answered
  · cases answered

/-- What a check that carries its verdict has found. -/
theorem judgedAllowed_of_phase {check : RequestCheck} {subject : QuotaSubject}
    {verdict : TokenHourlyRequestVerdict}
    (phase : check.phase = .judged subject verdict ∨ check.phase = .pruningTokens subject verdict ∨
      check.phase = .pruningAccounts subject verdict) (owner : QuotaSubject) :
    check.judgedAllowed owner = (decide (subject = owner) && verdict.allowed) := by
  rcases phase with phase | phase | phase <;> rw [judgedAllowed, phase]

theorem counted_of_judgedAllowed {subject : QuotaSubject} {check : RequestCheck}
    (allowed : check.judgedAllowed subject = true) : check.counted subject = true := by
  unfold counted
  split
  · rename_i phase
    simp [judgedAllowed, phase] at allowed
  · exact allowed

end RequestCheck

namespace RequestLimitState

/-- How many checks have found requests of the subject allowed, in a window. -/
def judgedIn (s : RequestLimitState) (subject : QuotaSubject) (first : Int) : Nat :=
  s.checks.countP fun check => check.judgedAllowed subject && check.inWindow first

/-- How many checks have counted a request of the subject, in the buckets since. -/
def countedSince (s : RequestLimitState) (subject : QuotaSubject) (since : Int) : Nat :=
  s.checks.countP fun check => check.counted subject && since ≤ minuteBucket check.nowTs

theorem allowedIn_le_judgedIn (s : RequestLimitState) (subject : QuotaSubject) (first : Int) :
    s.allowedIn subject first ≤ s.judgedIn subject first := by
  apply List.countP_mono_left
  intro check _ allowed
  rw [Bool.and_eq_true] at allowed ⊢
  exact ⟨RequestCheck.judgedAllowed_of_answered allowed.1, allowed.2⟩

end RequestLimitState

/-! ### The invariant -/

/-- From `pruned` on no counted request has been deleted, and every open window begins there
or later. -/
structure KeepsCounts (s : RequestLimitState) (pruned : Int) : Prop where
  old : pruned ≤ s.clock - bucketRetentionSecs
  open' : ∀ check ∈ s.checks, check.reading = true → pruned ≤ hourWindowStart check.nowTs
  counts : ∀ subject since, pruned ≤ since →
    (s.countedSince subject since : Int) ≤
      sumUsageBuckets s.buckets subject .requestMinute since

structure RequestLimitInvariant (limits : QuotaSubject → Int) (s : RequestLimitState) : Prop where
  clock : ∀ check ∈ s.checks, check.nowTs ≤ s.clock
  bounded : ∀ subject first, (s.judgedIn subject first : Int) ≤ max (limits subject) 0
  kept : ∃ pruned, KeepsCounts s pruned

/-- The step deletes buckets. -/
def RequestLimitState.Prunes (s : RequestLimitState) (action : RequestLimitAction)
    (threshold : Int) : Prop :=
  ∃ call check, action = .advance call ∧ s.checks[call]? = some check ∧
    threshold = check.nowTs - bucketRetentionSecs ∧
    ∃ subject verdict,
      check.phase = .pruningTokens subject verdict ∨ check.phase = .pruningAccounts subject verdict

/-- No delete reaches the window of a check that has read the clock and not yet its sum. -/
def PrunesNoOpenWindow (s : RequestLimitState) (action : RequestLimitAction) : Prop :=
  ∀ threshold, s.Prunes action threshold →
    ∀ check ∈ s.checks, check.reading = true → threshold ≤ hourWindowStart check.nowTs

variable {limits : QuotaSubject → Int} {s : RequestLimitState}

theorem mem_set_or {call : Nat} {new other : RequestCheck}
    (member : other ∈ s.checks.set call new) : other = new ∨ other ∈ s.checks := by
  rcases List.mem_or_eq_of_mem_set member with old | same
  · exact .inr old
  · exact .inl same

/-- A phase changes no time that a check has read. -/
theorem RequestLimitInvariant.clock_setPhase (invariant : RequestLimitInvariant limits s)
    {call : Nat} {check : RequestCheck} (there : s.checks[call]? = some check)
    {phase : CheckPhase} :
    ∀ other ∈ (s.setPhase call check phase).checks, other.nowTs ≤ s.clock := by
  intro other member
  rcases mem_set_or member with rfl | old
  · exact invariant.clock check (List.mem_of_getElem? there)
  · exact invariant.clock other old

/-- A check goes on to a phase that counts for nothing new. -/
theorem RequestLimitInvariant.setPhase (invariant : RequestLimitInvariant limits s) {call : Nat}
    {check : RequestCheck} (there : s.checks[call]? = some check) {phase : CheckPhase}
    (reading : RequestCheck.reading { check with phase } = true → check.reading = true)
    (counted : ∀ subject, RequestCheck.counted subject { check with phase } = true →
      check.counted subject = true)
    (judged : ∀ subject, RequestCheck.judgedAllowed subject { check with phase } = true →
      check.judgedAllowed subject = true) :
    RequestLimitInvariant limits (s.setPhase call check phase) where
  clock := invariant.clock_setPhase there
  bounded := by
    intro subject first
    have fewer : (s.setPhase call check phase).judgedIn subject first ≤
        s.judgedIn subject first := by
      apply countP_set_le there fun _ same => same
      intro new
      rw [Bool.and_eq_true] at new ⊢
      exact ⟨judged subject new.1, new.2⟩
    exact Int.le_trans (Int.ofNat_le.2 fewer) (invariant.bounded subject first)
  kept := by
    obtain ⟨pruned, kept⟩ := invariant.kept
    refine ⟨pruned, kept.old, ?_, ?_⟩
    · intro other member open'
      rcases mem_set_or member with rfl | old
      · exact kept.open' check (List.mem_of_getElem? there) (reading open')
      · exact kept.open' other old open'
    · intro subject since later
      have fewer : (s.setPhase call check phase).countedSince subject since ≤
          s.countedSince subject since := by
        apply countP_set_le there fun _ same => same
        intro new
        rw [Bool.and_eq_true] at new ⊢
        exact ⟨counted subject new.1, new.2⟩
      exact Int.le_trans (Int.ofNat_le.2 fewer) (kept.counts subject since later)

/-- The check counts its request in the bucket it has read. -/
theorem RequestLimitInvariant.increment (invariant : RequestLimitInvariant limits s) {call : Nat}
    {check : RequestCheck} (there : s.checks[call]? = some check) {subject : QuotaSubject}
    (phase : check.phase = .resolved subject) :
    RequestLimitInvariant limits ({ s with
      buckets := incrementUsageBucketBy s.buckets subject (minuteBucket check.nowTs)
        .requestMinute 1 }.setPhase call check (.incremented subject)) where
  clock := invariant.clock_setPhase there
  bounded := by
    intro other first
    have fewer : (s.setPhase call check (.incremented subject)).judgedIn other first ≤
        s.judgedIn other first := by
      apply countP_set_le there fun _ same => same
      intro new
      simp [RequestCheck.judgedAllowed] at new
    exact Int.le_trans (Int.ofNat_le.2 fewer) (invariant.bounded other first)
  kept := by
    obtain ⟨pruned, kept⟩ := invariant.kept
    refine ⟨pruned, kept.old, ?_, ?_⟩
    · intro other member open'
      rcases mem_set_or member with rfl | old
      · exact kept.open' check (List.mem_of_getElem? there) (by simp [RequestCheck.reading, phase])
      · exact kept.open' other old open'
    · intro other since later
      have before := kept.counts other since later
      have more : (s.setPhase call check (.incremented subject)).countedSince other since ≤
          s.countedSince other since +
            if (decide (subject = other) && decide (since ≤ minuteBucket check.nowTs)) = true
            then 1 else 0 :=
        countP_set_le_add (List.getElem?_eq_some_iff.1 there).1 _ _
      change ((s.setPhase call check (.incremented subject)).countedSince other since : Int) ≤
        sumUsageBuckets (incrementUsageBucketBy _ _ _ _ _) other .requestMinute since
      rw [sumUsageBuckets_incrementUsageBucketBy]
      by_cases here : subject = other ∧ since ≤ minuteBucket check.nowTs
      · rw [if_pos (by simpa using here)] at more
        rw [if_pos ⟨here.1, rfl, here.2⟩]
        omega
      · rw [if_neg (by simpa using here)] at more
        rw [if_neg fun counted => here ⟨counted.1, counted.2.2⟩]
        omega

/-- A check that comes to its sum without having counted has no positive limit. -/
theorem incremented_of_allowed {check : RequestCheck} {subject : QuotaSubject}
    (phase : check.phase = .incremented subject ∨
      check.phase = .resolved subject ∧ countsRequests limits subject = false)
    (positive : 0 < limits subject) : check.phase = .incremented subject := by
  rcases phase with incremented | ⟨_, uncounted⟩
  · exact incremented
  · cases subject with
    | token tokenId => cases uncounted
    | account userId => exact absurd positive (of_decide_eq_false uncounted)

/-- A request is allowed only while no more than the limit have been counted in any window
that its bucket lies in. -/
theorem RequestLimitInvariant.judge (invariant : RequestLimitInvariant limits s) {call : Nat}
    {check : RequestCheck} (there : s.checks[call]? = some check) {subject : QuotaSubject}
    (phase : check.phase = .incremented subject ∨
      check.phase = .resolved subject ∧ countsRequests limits subject = false) :
    RequestLimitInvariant limits
      (s.setPhase call check (.judged subject (s.verdict limits subject check.nowTs))) where
  clock := invariant.clock_setPhase there
  bounded := by
    intro other first
    have old := invariant.bounded other first
    by_cases new : (RequestCheck.judgedAllowed other
        { check with phase := .judged subject (s.verdict limits subject check.nowTs) } &&
          check.inWindow first) = true
    · rw [Bool.and_eq_true] at new
      obtain ⟨allowed, window⟩ := new
      rw [RequestCheck.judgedAllowed, Bool.and_eq_true, decide_eq_true_eq] at allowed
      obtain ⟨rfl, allowed⟩ := allowed
      obtain ⟨positive, below⟩ := le_of_allowed allowed
      have incremented := incremented_of_allowed phase positive
      obtain ⟨pruned, kept⟩ := invariant.kept
      have member := List.mem_of_getElem? there
      have counts := kept.counts subject (hourWindowStart check.nowTs)
        (kept.open' check member (by simp [RequestCheck.reading, incremented]))
      simp only [RequestCheck.inWindow, Bool.and_eq_true, decide_eq_true_eq] at window
      have begins : hourWindowStart check.nowTs ≤ first := by
        unfold hourWindowStart
        omega
      have fewer : (s.setPhase call check
          (.judged subject (s.verdict limits subject check.nowTs))).judgedIn subject first ≤
            s.countedSince subject (hourWindowStart check.nowTs) := by
        apply countP_set_le there
        · intro other judged
          simp only [Bool.and_eq_true, RequestCheck.inWindow, decide_eq_true_eq] at judged ⊢
          exact ⟨RequestCheck.counted_of_judgedAllowed judged.1, Int.le_trans begins judged.2.1⟩
        · intro _
          simp only [RequestCheck.counted, incremented, Bool.and_eq_true, decide_eq_true_eq,
            true_and]
          exact Int.le_trans begins window.1
      omega
    · have fewer : (s.setPhase call check
          (.judged subject (s.verdict limits subject check.nowTs))).judgedIn other first ≤
            s.judgedIn other first :=
        countP_set_le there (fun _ same => same) fun counts => absurd counts new
      omega
  kept := by
    obtain ⟨pruned, kept⟩ := invariant.kept
    refine ⟨pruned, kept.old, ?_, ?_⟩
    · intro other member open'
      rcases mem_set_or member with rfl | old
      · cases open'
      · exact kept.open' other old open'
    · intro other since later
      have fewer : (s.setPhase call check
          (.judged subject (s.verdict limits subject check.nowTs))).countedSince other since ≤
            s.countedSince other since := by
        apply countP_set_le there fun _ same => same
        intro new
        rw [Bool.and_eq_true] at new ⊢
        refine ⟨?_, new.2⟩
        have allowed := new.1
        simp only [RequestCheck.counted, RequestCheck.judgedAllowed, Bool.and_eq_true,
          decide_eq_true_eq] at allowed
        obtain ⟨rfl, allowed⟩ := allowed
        simp [RequestCheck.counted, incremented_of_allowed phase (le_of_allowed allowed).1]
      exact Int.le_trans (Int.ofNat_le.2 fewer) (kept.counts other since later)

/-- Buckets are deleted that no open window reaches. -/
theorem RequestLimitInvariant.prune (invariant : RequestLimitInvariant limits s)
    {threshold : Int} {buckets : UsageBuckets} (old : threshold ≤ s.clock - bucketRetentionSecs)
    (closed : ∀ check ∈ s.checks, check.reading = true → threshold ≤ hourWindowStart check.nowTs)
    (same : ∀ subject since, threshold ≤ since →
      sumUsageBuckets buckets subject .requestMinute since =
        sumUsageBuckets s.buckets subject .requestMinute since) :
    RequestLimitInvariant limits { s with buckets } where
  clock := invariant.clock
  bounded := invariant.bounded
  kept := by
    obtain ⟨pruned, kept⟩ := invariant.kept
    refine ⟨max pruned threshold, Int.max_le.2 ⟨kept.old, old⟩, ?_, ?_⟩
    · intro check member reading
      exact Int.max_le.2 ⟨kept.open' check member reading, closed check member reading⟩
    · intro subject since later
      obtain ⟨first, second⟩ := Int.max_le.1 later
      rw [same subject since second]
      exact kept.counts subject since first

/-- The verdict is passed on. -/
theorem RequestLimitInvariant.passVerdict (invariant : RequestLimitInvariant limits s)
    {call : Nat} {check : RequestCheck} (there : s.checks[call]? = some check) {phase : CheckPhase}
    (finished : RequestCheck.reading { check with phase } = false)
    (same : ∀ owner, RequestCheck.judgedAllowed owner { check with phase } = true →
      check.judgedAllowed owner = true) :
    RequestLimitInvariant limits (s.setPhase call check phase) := by
  apply invariant.setPhase there
  · intro reading
    rw [finished] at reading
    cases reading
  · intro owner new
    apply RequestCheck.counted_of_judgedAllowed
    apply same
    unfold RequestCheck.counted at new
    split at new
    · rename_i incremented
      rw [RequestCheck.reading, incremented] at finished
      cases finished
    · exact new
  · exact same

theorem RequestLimitInvariant.setLastPruned (invariant : RequestLimitInvariant limits s)
    (lastPruned : Int) : RequestLimitInvariant limits { s with lastPruned } where
  clock := invariant.clock
  bounded := invariant.bounded
  kept := by
    obtain ⟨pruned, kept⟩ := invariant.kept
    exact ⟨pruned, kept.old, kept.open', kept.counts⟩

theorem requestLimitInvariant_advance {s' : RequestLimitState} {call : Nat}
    {check : RequestCheck} (invariant : RequestLimitInvariant limits s)
    (there : s.checks[call]? = some check)
    (guard : PrunesNoOpenWindow s (.advance call))
    (taken : advanceCheck limits s call check = some s') : RequestLimitInvariant limits s' := by
  have old : check.nowTs - bucketRetentionSecs ≤ s.clock - bucketRetentionSecs :=
    Int.sub_le_sub_right (invariant.clock check (List.mem_of_getElem? there)) _
  unfold advanceCheck at taken
  split at taken
  · rename_i phase
    cases taken
    apply invariant.setPhase there
    · intro _
      simp [RequestCheck.reading, phase]
    · intro subject new
      cases new
    · intro subject new
      cases new
  · rename_i subject phase
    split at taken
    · cases taken
      exact invariant.increment there phase
    · rename_i uncounted
      cases taken
      exact invariant.judge there (.inr ⟨phase, Bool.eq_false_iff.2 uncounted⟩)
  · rename_i subject phase
    cases taken
    exact invariant.judge there (.inl phase)
  · rename_i subject verdict phase
    have same := RequestCheck.judgedAllowed_of_phase (.inl phase)
    split at taken
    · cases taken
      exact invariant.passVerdict there rfl fun owner new => (same owner).trans new
    · cases taken
      exact (invariant.setLastPruned check.nowTs).passVerdict there rfl
        fun owner new => (same owner).trans new
  · rename_i subject verdict phase
    have closed := guard _ ⟨call, check, rfl, there, rfl, subject, verdict, .inl phase⟩
    have same := RequestCheck.judgedAllowed_of_phase (.inr (.inl phase))
    cases taken
    exact (invariant.prune old closed fun subject since later =>
      sum_deleteOldTokenRequestBuckets later s.buckets subject).passVerdict there rfl
        fun owner new => (same owner).trans new
  · rename_i subject verdict phase
    have closed := guard _ ⟨call, check, rfl, there, rfl, subject, verdict, .inr phase⟩
    have same := RequestCheck.judgedAllowed_of_phase (.inr (.inr phase))
    cases taken
    exact (invariant.prune old closed fun subject since later =>
      sum_deleteOldAccountRequestBuckets later s.buckets subject).passVerdict there rfl
        fun owner new => (same owner).trans new
  · cases taken
  · cases taken

theorem requestLimitInvariant_step {s' : RequestLimitState} {action : RequestLimitAction}
    (invariant : RequestLimitInvariant limits s) (guard : PrunesNoOpenWindow s action)
    (taken : (requestLimitSystem limits).step s action = some s') :
    RequestLimitInvariant limits s' := by
  cases action with
  | tick secs =>
      cases taken
      have later : s.clock ≤ s.clock + secs := Int.le_add_of_nonneg_right (Int.natCast_nonneg secs)
      obtain ⟨pruned, kept⟩ := invariant.kept
      exact
        { clock := fun check member => Int.le_trans (invariant.clock check member) later
          bounded := invariant.bounded
          kept := ⟨pruned, Int.le_trans kept.old (Int.sub_le_sub_right later _), kept.open',
            kept.counts⟩ }
  | bind tokenId userId =>
      cases taken
      obtain ⟨pruned, kept⟩ := invariant.kept
      exact ⟨invariant.clock, invariant.bounded, pruned, kept.old, kept.open', kept.counts⟩
  | check tokenId =>
      cases taken
      obtain ⟨pruned, kept⟩ := invariant.kept
      refine ⟨?_, ?_, pruned, kept.old, ?_, ?_⟩
      · intro check member
        rcases List.mem_append.1 member with old | new
        · exact invariant.clock check old
        · rw [List.mem_singleton.1 new]
      · intro subject first
        have bounded := invariant.bounded subject first
        simpa [RequestLimitState.judgedIn, RequestCheck.judgedAllowed] using bounded
      · intro check member reading
        rcases List.mem_append.1 member with old | new
        · exact kept.open' check old reading
        · rw [List.mem_singleton.1 new]
          exact Int.le_trans kept.old (le_hourWindowStart s.clock)
      · intro subject since later
        have counts := kept.counts subject since later
        simpa [RequestLimitState.countedSince, RequestCheck.counted,
          RequestCheck.judgedAllowed] using counts
  | advance call =>
      simp only [requestLimitSystem, requestLimitStep] at taken
      split at taken
      · rename_i check there
        exact requestLimitInvariant_advance invariant there guard taken
      · cases taken
  | abandon call =>
      simp only [requestLimitSystem, requestLimitStep] at taken
      split at taken
      · rename_i check there
        split at taken
        · cases taken
        · cases taken
          exact invariant.passVerdict there rfl fun owner new => by cases new
      · cases taken

/-! ### The limit -/

/-- The deletes of a cleanup leave the sums of all windows that begin at their threshold or
later. -/
theorem sum_of_prunes {s' : RequestLimitState} {action : RequestLimitAction} {threshold : Int}
    (prunes : s.Prunes action threshold)
    (taken : (requestLimitSystem limits).step s action = some s') (subject : QuotaSubject)
    {since : Int} (later : threshold ≤ since) :
    sumUsageBuckets s'.buckets subject .requestMinute since =
      sumUsageBuckets s.buckets subject .requestMinute since := by
  obtain ⟨call, check, rfl, there, rfl, owner, verdict, phase | phase⟩ := prunes
  · simp only [requestLimitSystem, requestLimitStep, there, advanceCheck, phase] at taken
    cases taken
    exact sum_deleteOldTokenRequestBuckets later s.buckets subject
  · simp only [requestLimitSystem, requestLimitStep, there, advanceCheck, phase] at taken
    cases taken
    exact sum_deleteOldAccountRequestBuckets later s.buckets subject

theorem requestLimitInvariant_initial (limits : QuotaSubject → Int)
    (bindings : String → Option String) {buckets : UsageBuckets} (clock : Int)
    (counts : ∀ key count, buckets.find key = some count → 0 ≤ count) :
    RequestLimitInvariant limits (.initial bindings buckets clock) where
  clock := by simp [RequestLimitState.initial]
  bounded := fun subject first => Int.le_max_right _ _
  kept := by
    refine ⟨clock - bucketRetentionSecs, Int.le_refl _, by simp [RequestLimitState.initial], ?_⟩
    intro subject since _
    apply List.sum_nonneg
    intro count member
    obtain ⟨row, selected, rfl⟩ := List.mem_map.1 member
    exact counts row.1 row.2 (KeyedTable.find_eq_some_iff.2 (List.mem_of_mem_filter selected))

/-- Where no delete reaches the window of a check between its clock and its sum, no window of
60 minute buckets has more requests of a subject allowed than its limit, and a delete changes
no sum that a check reads later, be it running or still to come. -/
theorem requestLimit_hourly (limits : QuotaSubject → Int) (bindings : String → Option String)
    {buckets : UsageBuckets} (clock : Int)
    (counts : ∀ key count, buckets.find key = some count → 0 ≤ count)
    {actions : List RequestLimitAction}
    (guarded : (requestLimitSystem limits).Guarded PrunesNoOpenWindow
      (.initial bindings buckets clock) actions) :
    (requestLimitSystem limits).AlongRun
      (fun s => ∀ subject first, (s.allowedIn subject first : Int) ≤ max (limits subject) 0)
      (.initial bindings buckets clock) actions ∧
    ∀ first action rest s s' threshold, actions = first ++ action :: rest →
      (requestLimitSystem limits).run (.initial bindings buckets clock) first = some s →
      (requestLimitSystem limits).step s action = some s' → s.Prunes action threshold →
      ∀ subject now, (s.clock ≤ now ∨ ∃ check ∈ s.checks, check.reading = true ∧ check.nowTs = now) →
        sumUsageBuckets s'.buckets subject .requestMinute (hourWindowStart now) =
          sumUsageBuckets s.buckets subject .requestMinute (hourWindowStart now) := by
  have initial := requestLimitInvariant_initial limits bindings clock counts
  have along : ∀ {actions}, (requestLimitSystem limits).Guarded PrunesNoOpenWindow
      (.initial bindings buckets clock) actions →
        (requestLimitSystem limits).AlongRun (RequestLimitInvariant limits)
          (.initial bindings buckets clock) actions :=
    (requestLimitSystem limits).alongRun_of_guarded
      (fun _ _ _ invariant guard taken => requestLimitInvariant_step invariant guard taken) initial
  constructor
  · refine (along guarded).mono _ fun s invariant subject first => ?_
    exact Int.le_trans (Int.ofNat_le.2 (s.allowedIn_le_judgedIn subject first))
      (invariant.bounded subject first)
  · intro first action rest s s' threshold same ran taken prunes subject now later
    rw [same] at guarded
    obtain ⟨before, after⟩ := guarded.split _ ran
    have guard := (after s' taken).1
    have invariant := (along before).last _ ran
    apply sum_of_prunes prunes taken subject
    rcases later with later | ⟨check, member, reading, rfl⟩
    · obtain ⟨call, check, _, there, rfl, _⟩ := prunes
      have past := invariant.clock check (List.mem_of_getElem? there)
      exact Int.le_trans (Int.sub_le_sub_right (Int.le_trans past later) _)
        (le_hourWindowStart now)
    · exact guard threshold prunes check member reading

/-! ### Two runs -/

/-- No check has read the clock so long before another that the retention does not cover it. -/
def ChecksAbreast (s : RequestLimitState) : Prop :=
  ∀ check ∈ s.checks, ∀ other ∈ s.checks,
    other.nowTs - bucketRetentionSecs ≤ hourWindowStart check.nowTs

instance : DecidablePred ChecksAbreast := fun s => by
  unfold ChecksAbreast
  infer_instance

theorem prunesNoOpenWindow_of_abreast (abreast : ChecksAbreast s) (action : RequestLimitAction) :
    PrunesNoOpenWindow s action := by
  rintro _ ⟨call, pruning, _, there, rfl, _⟩ check member _
  exact abreast check member pruning (List.mem_of_getElem? there)

/-- A bucket of two days ago, and one of the last hour. -/
def earlierBuckets : UsageBuckets where
  rows :=
    [({ subject := .token "t", bucketStart := 0, granularity := .requestMinute }, 5),
      ({ subject := .token "t", bucketStart := 172800, granularity := .requestMinute }, 1)]
  distinct := by decide

/-- The first check has its verdict and is about to delete the old bucket when the second one
counts its request; the second is judged between the two deletes. -/
def promptCheckRun : List RequestLimitAction :=
  [.check "t", .advance 0, .advance 0, .advance 0, .advance 0, .check "t", .advance 1,
    .advance 1, .advance 0, .advance 1, .advance 0, .advance 1]

theorem requestLimit_hourly_prompt :
    (∃ s, (requestLimitSystem fun _ => 3).run (.initial (fun _ => none) earlierBuckets 172860)
        promptCheckRun = some s ∧ s.allowedIn (.token "t") 172800 = 2) ∧
      (requestLimitSystem fun _ => 3).AlongRun
        (fun s => ∀ subject first, (s.allowedIn subject first : Int) ≤ max 3 0)
        (.initial (fun _ => none) earlierBuckets 172860) promptCheckRun ∧
      ∃ s s', (requestLimitSystem fun _ => 3).run
          (.initial (fun _ => none) earlierBuckets 172860) (promptCheckRun.take 8) = some s ∧
        (requestLimitSystem fun _ => 3).step s (.advance 0) = some s' ∧
        s'.buckets.rows ≠ s.buckets.rows ∧
        sumUsageBuckets s'.buckets (.token "t") .requestMinute (hourWindowStart 172860) =
          sumUsageBuckets s.buckets (.token "t") .requestMinute (hourWindowStart 172860) := by
  have counts : ∀ key count, earlierBuckets.find key = some count → 0 ≤ count := by
    intro key count found
    have listed := KeyedTable.find_eq_some_iff.1 found
    simp only [earlierBuckets, List.mem_cons, Prod.mk.injEq, List.not_mem_nil, or_false] at listed
    omega
  have abreast : (requestLimitSystem fun _ => 3).AlongRun ChecksAbreast
      (.initial (fun _ => none) earlierBuckets 172860) promptCheckRun := by decide +kernel
  obtain ⟨bounded, kept⟩ := requestLimit_hourly (fun _ => 3) (fun _ => none) 172860 counts
    (abreast.guarded _ fun _ action abreast => prunesNoOpenWindow_of_abreast abreast action)
  refine ⟨⟨_, rfl, by decide⟩, bounded, _, _, rfl, rfl, by decide, ?_⟩
  refine kept (promptCheckRun.take 8) (.advance 0) (promptCheckRun.drop 9) _ _ 60 rfl rfl rfl
    ⟨0, _, rfl, rfl, by decide, .token "t", _, Or.inl rfl⟩ _ _ (Or.inl (by decide))

/-- Two checks stall for two days between the clock and their sums, and a cleanup deletes what
they have counted: both are allowed, with a limit of one. -/
theorem requestLimit_stalled_checks :
    ∃ s, (requestLimitSystem fun _ => 1).run (.initial (fun _ => none) .empty 0)
        [.check "t", .check "t", .advance 0, .advance 0, .advance 1, .advance 1, .tick 172860,
          .check "u", .advance 2, .advance 2, .advance 2, .advance 2, .advance 2, .advance 2,
          .advance 0, .advance 0, .advance 1, .advance 1] = some s ∧
      ¬ ∀ subject first, (s.allowedIn subject first : Int) ≤ max 1 0 := by
  refine ⟨_, rfl, ?_⟩
  intro bounded
  have here := bounded (.token "t") 0
  revert here
  decide

end TavilyHikari.Store
