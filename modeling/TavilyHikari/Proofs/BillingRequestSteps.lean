/-
Module: TavilyHikari.Proofs.BillingRequestSteps
Purpose: What one statement of a billable request does, to itself, to the ledger,
  and to the subjects that other requests have locked.
Trusted boundary: none
Main exports: SnapshotSound, RequestSound, AdvanceStep, AdvanceStep.of_advance
-/
import TavilyHikari.Proofs.RecordedCredits

namespace TavilyHikari.Store

open Library BillingDb

variable {localDayBucketStartUtcTs : Int → Int} {limits : QuotaSubject → QuotaLimits}

/-! ### What a request knows -/

/-- A snapshot at `now` sees all that is recorded for its subject. -/
structure SnapshotSound (db : BillingDb) (clock : Int) (subject : QuotaSubject) (now : Int) :
    Prop where
  before : now ≤ clock
  past : db.RecordedBy subject now
  month : db.MonthNotPast subject (startOfMonthTs now)

/-- What the phase of a request says about the database. -/
def BillingPhase.Sound (limits : QuotaSubject → QuotaLimits) (db : BillingDb) (clock : Int)
    (request : BillingRequest) : BillingPhase → Prop
  | .reconciling subject pending _ _ =>
      ∀ logId ∈ listPendingBillingLogIds db subject, logId ∈ pending
  | .locked => request.subject.billingSubject ∈ request.held
  | .summingHour now =>
      request.subject.billingSubject ∈ request.held ∧ SnapshotSound db clock request.subject now
  | .summingDay now hourlyUsed =>
      request.subject.billingSubject ∈ request.held ∧
        SnapshotSound db clock request.subject now ∧
        hourlyUsed = db.recordedInWindow request.subject .hour now
  | .selectingMonth now hourlyUsed dailyUsed =>
      request.subject.billingSubject ∈ request.held ∧
        SnapshotSound db clock request.subject now ∧
        hourlyUsed = db.recordedInWindow request.subject .hour now ∧
        dailyUsed = db.recordedInWindow request.subject .day now
  | .rollingMonth now hourlyUsed dailyUsed =>
      request.subject.billingSubject ∈ request.held ∧
        SnapshotSound db clock request.subject now ∧
        hourlyUsed = db.recordedInWindow request.subject .hour now ∧
        dailyUsed = db.recordedInWindow request.subject .day now ∧
        db.recordedInWindow request.subject .month now = 0
  | .passed =>
      request.subject.billingSubject ∈ request.held ∧
        ∀ window, db.recordedInWindow request.subject window clock +
          reservation request.reservedBillableTotal ≤ (limits request.subject).limit window
  | _ => True

structure RequestSound (limits : QuotaSubject → QuotaLimits) (db : BillingDb) (clock : Int)
    (request : BillingRequest) : Prop where
  /-- The subjects it has reconciled stay so until it records a charge. -/
  reconciled : (∀ logId, request.phase ≠ .recorded logId) →
    ∀ subject ∈ request.held, db.Reconciled subject
  phase : request.phase.Sound limits db clock request

theorem BillingRequest.held_subset_leases {request : BillingRequest} {subject : String}
    (held : subject ∈ request.held) : subject ∈ request.leases :=
  List.mem_append_left _ held

@[simp] theorem BillingRequest.finish_leases (request : BillingRequest) :
    request.finish.leases = [] := rfl

theorem RequestSound.finish (db : BillingDb) (clock : Int) (request : BillingRequest) :
    RequestSound limits db clock request.finish where
  reconciled := by simp [BillingRequest.finish]
  phase := trivial

theorem SnapshotSound.of_leaves {db db' : BillingDb} {clock : Int} {subject : QuotaSubject}
    {now : Int} (sound : SnapshotSound db clock subject now)
    (leaves : LeavesSubject db db' subject.billingSubject)
    (reconciled : db.Reconciled subject.billingSubject) : SnapshotSound db' clock subject now :=
  ⟨sound.before, leaves.recordedBy sound.past, leaves.monthNotPast reconciled sound.month⟩

/-- A request keeps what it knows through a step that leaves its subjects. -/
theorem RequestSound.of_leaves {db db' : BillingDb} {clock : Int} {request : BillingRequest}
    (sound : RequestSound limits db clock request)
    (leaves : ∀ subject ∈ request.leases, LeavesSubject db db' subject) :
    RequestSound limits db' clock request where
  reconciled := fun running subject held =>
    (leaves subject (BillingRequest.held_subset_leases held)).reconciled
      (sound.reconciled running subject held)
  phase := by
    have own : request.subject.billingSubject ∈ request.held →
        (∀ logId, request.phase ≠ .recorded logId) →
        LeavesSubject db db' request.subject.billingSubject ∧
          db.Reconciled request.subject.billingSubject := fun held running =>
      ⟨leaves _ (BillingRequest.held_subset_leases held), sound.reconciled running _ held⟩
    have totals : ∀ {window now}, LeavesSubject db db' request.subject.billingSubject →
        db'.recordedInWindow request.subject window now =
          db.recordedInWindow request.subject window now :=
      fun left => left.recorded request.subject rfl _
    have known := sound.phase
    cases phase : request.phase with
    | arrived => trivial
    | locking subjects => trivial
    | listing subject subjects => trivial
    | reconciling subject pending attempts subjects =>
        rw [phase] at known
        have leased : subject ∈ request.leases := by
          simp [BillingRequest.leases, phase, BillingPhase.leased]
        intro logId listed
        exact known logId ((leaves subject leased).pending logId listed)
    | locked =>
        rw [phase] at known
        exact known
    | summingHour now =>
        rw [phase] at known
        obtain ⟨left, reconciled⟩ := own known.1 (by simp [phase])
        exact ⟨known.1, known.2.of_leaves left reconciled⟩
    | summingDay now hourlyUsed =>
        rw [phase] at known
        obtain ⟨held, snapshot, hour⟩ := known
        obtain ⟨left, reconciled⟩ := own held (by simp [phase])
        exact ⟨held, snapshot.of_leaves left reconciled, hour.trans (totals left).symm⟩
    | selectingMonth now hourlyUsed dailyUsed =>
        rw [phase] at known
        obtain ⟨held, snapshot, hour, day⟩ := known
        obtain ⟨left, reconciled⟩ := own held (by simp [phase])
        exact ⟨held, snapshot.of_leaves left reconciled, hour.trans (totals left).symm,
          day.trans (totals left).symm⟩
    | rollingMonth now hourlyUsed dailyUsed =>
        rw [phase] at known
        obtain ⟨held, snapshot, hour, day, month⟩ := known
        obtain ⟨left, reconciled⟩ := own held (by simp [phase])
        exact ⟨held, snapshot.of_leaves left reconciled, hour.trans (totals left).symm,
          day.trans (totals left).symm, (totals left).trans month⟩
    | passed =>
        rw [phase] at known
        obtain ⟨held, room⟩ := known
        obtain ⟨left, _⟩ := own held (by simp [phase])
        refine ⟨held, fun window => ?_⟩
        rw [totals left]
        exact room window
    | recorded logId => trivial
    | finished => trivial

/-- A request keeps what it knows when the clock moves on. -/
theorem RequestSound.tick {db : BillingDb} {clock later : Int} {request : BillingRequest}
    (sound : RequestSound limits db clock request) (current : LedgerCurrent db clock)
    (after : clock ≤ later) : RequestSound limits db later request where
  reconciled := sound.reconciled
  phase := by
    have snapshots : ∀ {now}, SnapshotSound db clock request.subject now →
        SnapshotSound db later request.subject now :=
      fun snapshot => ⟨snapshot.before.trans after, snapshot.past, snapshot.month⟩
    have known := sound.phase
    cases phase : request.phase with
    | summingHour now =>
        rw [phase] at known
        exact ⟨known.1, snapshots known.2⟩
    | summingDay now hourlyUsed =>
        rw [phase] at known
        exact ⟨known.1, snapshots known.2.1, known.2.2⟩
    | selectingMonth now hourlyUsed dailyUsed =>
        rw [phase] at known
        exact ⟨known.1, snapshots known.2.1, known.2.2⟩
    | rollingMonth now hourlyUsed dailyUsed =>
        rw [phase] at known
        exact ⟨known.1, snapshots known.2.1, known.2.2⟩
    | passed =>
        rw [phase] at known
        refine ⟨known.1, fun window => ?_⟩
        have total := (current.past request.subject).recordedInWindow_le after window
        have room := known.2 window
        omega
    | arrived => trivial
    | locking subjects => trivial
    | listing subject subjects => trivial
    | reconciling subject pending attempts subjects =>
        rw [phase] at known
        exact known
    | locked =>
        rw [phase] at known
        exact known
    | recorded logId => trivial
    | finished => trivial

/-! ### The counters of a reconciled subject -/

/-- Once a subject is reconciled, its minute buckets hold the hour window. -/
theorem sum_minutes_eq {db : BillingDb} (exact : db.LedgerExact) {subject : QuotaSubject}
    (reconciled : db.Reconciled subject.billingSubject) (now : Int) :
    sumUsageBuckets db.usageBuckets subject .minute (hourWindowStart now) =
      db.recordedInWindow subject .hour now := by
  rw [exact.windows subject .minute _ (by decide), chargedFrom, ← reconciled.recordedWhere_eq]
  rfl

/-- And its hour buckets the day window. -/
theorem sum_hours_eq {db : BillingDb} (exact : db.LedgerExact) {subject : QuotaSubject}
    (reconciled : db.Reconciled subject.billingSubject) (now : Int) :
    sumUsageBuckets db.usageBuckets subject .hour (dayWindowStart now) =
      db.recordedInWindow subject .day now := by
  rw [exact.windows subject .hour _ (by decide), chargedFrom, ← reconciled.recordedWhere_eq]
  rfl

/-- And its monthly row the month. -/
theorem countIn_eq {db : BillingDb} (exact : db.LedgerExact) {subject : QuotaSubject}
    (reconciled : db.Reconciled subject.billingSubject) {now : Int}
    (notPast : db.MonthNotPast subject (startOfMonthTs now)) :
    countIn db.monthlyQuota subject (startOfMonthTs now) =
      db.recordedInWindow subject .month now := by
  rw [exact.month subject _ notPast, chargedInMonth, ← reconciled.recordedWhere_eq]
  rfl

/-! ### One statement of a request -/

/-- What a request may do in one statement: to itself, to the ledger, and to the
subjects of the others. -/
structure AdvanceStep (limits : QuotaSubject → QuotaLimits) (s : BillingRequestState)
    (request : BillingRequest) (db' : BillingDb) (request' : BillingRequest) : Prop where
  current : LedgerCurrent db' s.clock.secs
  sound : RequestSound limits db' s.clock.secs request'
  others : ∀ subject, subject ∉ request.leases → LeavesSubject s.db db' subject
  recorded : ∀ subject counts, db'.recordedWhere subject counts = s.db.recordedWhere subject counts
  leases : ∀ subject ∈ request'.leases, subject ∈ request.leases ∨ s.leaseFree subject = true
  subject : request'.subject = request.subject
  observed : request'.observed = request.observed
  reserved : request'.reservedBillableTotal = request.reservedBillableTotal

/-- A statement that only reads. -/
theorem AdvanceStep.of_read {s : BillingRequestState} {request : BillingRequest}
    {phase : BillingPhase} (current : LedgerCurrent s.db s.clock.secs)
    (sound : RequestSound limits s.db s.clock.secs request)
    (running : ∀ logId, request.phase ≠ .recorded logId)
    (known : phase.Sound limits s.db s.clock.secs { request with phase })
    (leased : ∀ subject ∈ phase.leased,
      subject ∈ request.phase.leased ∨ s.leaseFree subject = true) :
    AdvanceStep limits s request s.db { request with phase } where
  current := current
  sound := ⟨fun _ => sound.reconciled running, known⟩
  others := fun subject _ => .refl s.db subject
  recorded := fun _ _ => rfl
  leases := by
    intro subject listed
    rcases List.mem_append.1 listed with held | locking
    · exact .inl (BillingRequest.held_subset_leases held)
    · exact (leased subject locking).imp_left (List.mem_append_right _)
  subject := rfl
  observed := rfl
  reserved := rfl

/-- A statement after which the request ends. -/
theorem AdvanceStep.of_finish {s : BillingRequestState} {request : BillingRequest}
    {db' : BillingDb} (current : LedgerCurrent db' s.clock.secs)
    (others : ∀ subject, subject ∉ request.leases → LeavesSubject s.db db' subject)
    (recorded : ∀ subject counts,
      db'.recordedWhere subject counts = s.db.recordedWhere subject counts) :
    AdvanceStep limits s request db' request.finish where
  current := current
  sound := .finish db' _ request
  others := others
  recorded := recorded
  leases := by simp
  subject := rfl
  observed := rfl
  reserved := rfl

/-- The decision on a complete snapshot. -/
theorem AdvanceStep.of_precheck {s : BillingRequestState} {request : BillingRequest}
    {db' : BillingDb} {now : Int} (below : ∀ subject window, (limits subject).limit window < i64Max)
    (current : LedgerCurrent db' s.clock.secs)
    (others : ∀ subject, subject ∉ request.leases → LeavesSubject s.db db' subject)
    (recorded : ∀ subject counts,
      db'.recordedWhere subject counts = s.db.recordedWhere subject counts)
    (reconciled : ∀ subject ∈ request.held, db'.Reconciled subject)
    (held : request.subject.billingSubject ∈ request.held)
    (past : db'.RecordedBy request.subject now) (before : now ≤ s.clock.secs)
    {hourlyUsed dailyUsed monthlyUsed : Int}
    (hour : hourlyUsed = db'.recordedInWindow request.subject .hour now)
    (day : dailyUsed = db'.recordedInWindow request.subject .day now)
    (month : monthlyUsed = db'.recordedInWindow request.subject .month now) :
    AdvanceStep limits s request db'
      (BillingRequestState.precheck (limits request.subject) request hourlyUsed dailyUsed
        monthlyUsed) := by
  unfold BillingRequestState.precheck
  simp only
  split
  · exact .of_finish current others recorded
  · rename_i passes
    rw [hour, day, month] at passes
    refine ⟨current, ⟨fun _ => reconciled, held, fun window => ?_⟩, others, recorded, ?_, rfl, rfl,
      rfl⟩
    · have room := within_limits_of_not_precheckBlocks
        (fun window => db'.recordedInWindow request.subject window now)
        (below request.subject) (Bool.eq_false_iff.2 passes) window
      have total := past.recordedInWindow_le before window
      exact (Int.add_le_add_right total _).trans room
    · intro subject listed
      rcases List.mem_append.1 listed with held | leased
      · exact .inl (BillingRequest.held_subset_leases held)
      · cases leased

/-- One call of `apply_pending_billing_log` in the loop over the pending charges. -/
theorem AdvanceStep.of_reconcile {s : BillingRequestState} {request : BillingRequest}
    {subject : String} {logId : Int} {pending : List Int} {attempts : Nat}
    {subjects : List String} (current : LedgerCurrent s.db s.clock.secs)
    (sound : RequestSound limits s.db s.clock.secs request)
    (phase : request.phase = .reconciling subject (logId :: pending) attempts subjects)
    (env : BillingEnv) (healthy : Option Nat) :
    AdvanceStep limits s request
      (BillingRequestState.reconcile env s.db request healthy subject logId pending attempts
        subjects).1
      (BillingRequestState.reconcile env s.db request healthy subject logId pending attempts
        subjects).2 := by
  have known := sound.phase
  rw [phase] at known
  have applied := current.apply env logId healthy
  have leaves := applyPendingBillingLog_leaves env logId healthy s.db
  have reconciled : ∀ held ∈ request.held,
      (applyPendingBillingLog env logId healthy s.db).2.Reconciled held := fun held member =>
    (leaves held).reconciled (sound.reconciled (by simp [phase]) held member)
  have leased : subject ∈ request.leases := by
    simp [BillingRequest.leases, phase, BillingPhase.leased]
  have kept : ∀ held ∈ request.held ++ [subject],
      held ∈ request.leases ∨ s.leaseFree held = true := by
    intro held member
    rcases List.mem_append.1 member with old | here
    · exact .inl (BillingRequest.held_subset_leases old)
    · rw [List.mem_singleton.1 here]
      exact .inl leased
  unfold BillingRequestState.reconcile
  cases ran : applyPendingBillingLog env logId healthy s.db with
  | mk result db' =>
      rw [ran] at applied leaves reconciled
      have recorded : ∀ quotaSubject counts,
          db'.recordedWhere quotaSubject counts = s.db.recordedWhere quotaSubject counts :=
        fun quotaSubject => (leaves quotaSubject.billingSubject).recorded quotaSubject rfl
      cases result with
      | error e => exact .of_finish applied (fun other _ => leaves other) recorded
      | ok outcome =>
          -- The row is no longer pending, the others were listed before.
          have rest : ∀ other ∈ listPendingBillingLogIds db' subject, other ∈ pending := by
            intro other listed
            rcases List.mem_cons.1 (known other ((leaves subject).pending other listed)) with
              same | later
            · rw [same] at listed
              exact absurd listed (applyPendingBillingLog_settles ran subject)
            · exact later
          cases outcome with
          | charged =>
              exact ⟨applied, ⟨fun _ => reconciled, rest⟩, fun other _ => leaves other, recorded,
                kept, rfl, rfl, rfl⟩
          | alreadySettled =>
              exact ⟨applied, ⟨fun _ => reconciled, rest⟩, fun other _ => leaves other, recorded,
                kept, rfl, rfl, rfl⟩
          | retryLater =>
              simp only
              split
              · have both : ∀ message other,
                    LeavesSubject s.db (annotatePendingBillingLog db' logId message) other :=
                  fun message other =>
                    (leaves other).trans
                      (annotatePendingBillingLog_leaves db' logId message other)
                exact .of_finish (applied.annotate logId _) (fun other _ => both _ other)
                  fun quotaSubject => (both _ quotaSubject.billingSubject).recorded quotaSubject rfl
              · exact ⟨applied, ⟨fun _ => reconciled,
                  fun other listed => List.mem_cons_of_mem _ (rest other listed)⟩,
                  fun other _ => leaves other, recorded, kept, rfl, rfl, rfl⟩

theorem AdvanceStep.of_advance {s : BillingRequestState} {request : BillingRequest}
    {healthy : Option Nat} {next : BillingDb × BillingRequest}
    (below : ∀ subject window, (limits subject).limit window < i64Max)
    (current : LedgerCurrent s.db s.clock.secs)
    (sound : RequestSound limits s.db s.clock.secs request)
    (taken : s.advance localDayBucketStartUtcTs limits request healthy = some next) :
    AdvanceStep limits s request next.1 next.2 := by
  have known := sound.phase
  unfold BillingRequestState.advance at taken
  cases phase : request.phase with
  | arrived =>
      simp only [phase] at taken
      cases taken
      exact .of_read current sound (by simp [phase]) trivial (by simp [BillingPhase.leased])
  | locking subjects =>
      cases subjects with
      | nil =>
          simp only [phase] at taken
          split at taken
          · rename_i held
            cases taken
            have reconciled := sound.reconciled (by simp [phase])
            refine ⟨current, ⟨fun _ subject only => ?_, List.mem_singleton_self _⟩,
              fun subject _ => .refl s.db subject, fun _ _ => rfl, fun subject only => ?_, rfl, rfl,
              rfl⟩
            · rw [List.mem_singleton.1 only]
              exact reconciled _ held
            · simp only [BillingRequest.leases, BillingPhase.leased, List.append_nil,
                List.mem_singleton] at only
              rw [only]
              exact .inl (BillingRequest.held_subset_leases held)
          · cases taken
            exact .of_finish current (fun subject _ => .refl s.db subject) fun _ _ => rfl
      | cons subject subjects =>
          simp only [phase] at taken
          split at taken
          · rename_i free
            cases taken
            refine .of_read current sound (by simp [phase]) trivial fun other leased => ?_
            rw [List.mem_singleton.1 leased]
            exact .inr free
          · cases taken
  | listing subject subjects =>
      simp only [phase] at taken
      cases taken
      refine .of_read current sound (by simp [phase]) (fun _ listed => listed)
        fun other leased => ?_
      rw [phase]
      exact .inl leased
  | reconciling subject pending attempts subjects =>
      rw [phase] at known
      cases pending with
      | nil =>
          simp only [phase] at taken
          cases taken
          have empty : s.db.Reconciled subject :=
            List.eq_nil_iff_forall_not_mem.2 fun logId listed => by cases known logId listed
          have reconciled := sound.reconciled (by simp [phase])
          refine ⟨current, ⟨fun _ other held => ?_, trivial⟩, fun other _ => .refl s.db other,
            fun _ _ => rfl, fun other leased => ?_, rfl, rfl, rfl⟩
          · rcases List.mem_append.1 held with old | here
            · exact reconciled other old
            · rw [List.mem_singleton.1 here]
              exact empty
          · simpa [BillingRequest.leases, phase, BillingPhase.leased] using Or.inl leased
      | cons logId pending =>
          simp only [phase] at taken
          cases taken
          exact .of_reconcile current sound phase _ healthy
  | locked =>
      rw [phase] at known
      simp only [phase] at taken
      cases taken
      refine .of_read current sound (by simp [phase]) ⟨known, Int.le_refl _, ?_, ?_⟩
        (by simp [BillingPhase.leased])
      · exact current.past request.subject
      · exact current.months request.subject
  | summingHour now =>
      rw [phase] at known
      obtain ⟨held, snapshot⟩ := known
      have reconciled := sound.reconciled (by simp [phase]) _ held
      simp only [phase] at taken
      cases taken
      exact .of_read current sound (by simp [phase])
        ⟨held, snapshot, sum_minutes_eq current.exact reconciled now⟩ (by simp [BillingPhase.leased])
  | summingDay now hourlyUsed =>
      rw [phase] at known
      obtain ⟨held, snapshot, hour⟩ := known
      have reconciled := sound.reconciled (by simp [phase]) _ held
      simp only [phase] at taken
      cases taken
      exact .of_read current sound (by simp [phase])
        ⟨held, snapshot, hour, sum_hours_eq current.exact reconciled now⟩
        (by simp [BillingPhase.leased])
  | selectingMonth now hourlyUsed dailyUsed =>
      rw [phase] at known
      obtain ⟨held, snapshot, hour, day⟩ := known
      have all := sound.reconciled (by simp [phase])
      have month := countIn_eq current.exact (all _ held) snapshot.month
      have decide' : ∀ monthlyUsed,
          monthlyUsed = s.db.recordedInWindow request.subject .month now →
            AdvanceStep limits s request s.db
              (BillingRequestState.precheck (limits request.subject) request hourlyUsed dailyUsed
                monthlyUsed) := fun monthlyUsed counted =>
        .of_precheck below current (fun subject _ => .refl s.db subject) (fun _ _ => rfl) all held
          snapshot.past snapshot.before hour day counted
      simp only [phase] at taken
      cases found : s.db.monthlyQuota.find request.subject with
      | none =>
          rw [countIn_of_none found] at month
          simp only [found] at taken
          cases taken
          exact decide' 0 month
      | some stored =>
          rw [countIn_of_find found] at month
          have bound := snapshot.month stored found
          simp only [found] at taken
          split at taken
          · rename_i stale
            rw [if_neg (Int.ne_of_lt stale)] at month
            cases taken
            exact .of_read current sound (by simp [phase])
              ⟨held, snapshot, hour, day, month.symm⟩ (by simp [BillingPhase.leased])
          · rename_i fresh
            rw [if_pos (Int.le_antisymm bound (Int.not_lt.1 fresh))] at month
            cases taken
            exact decide' stored.monthCount month
  | rollingMonth now hourlyUsed dailyUsed =>
      rw [phase] at known
      obtain ⟨held, snapshot, hour, day, month⟩ := known
      have all := sound.reconciled (by simp [phase])
      simp only [phase] at taken
      cases taken
      refine .of_precheck below
        (current.reset snapshot.before (all _ held) snapshot.past month) ?_ (fun _ _ => rfl) all
        held snapshot.past snapshot.before hour day month.symm
      intro subject foreign
      refine resetMonth_leaves s.db request.subject _ ?_
      rintro rfl
      exact foreign (BillingRequest.held_subset_leases held)
  | passed =>
      simp only [phase] at taken
      cases taken
  | recorded logId =>
      simp only [phase] at taken
      cases taken
      have leaves := applyPendingBillingLog_leaves
        { now := s.clock, localDayBucketStartUtcTs } logId healthy s.db
      exact .of_finish (current.apply _ logId healthy) (fun subject _ => leaves subject)
        fun subject => (leaves subject.billingSubject).recorded subject rfl
  | finished =>
      simp only [phase] at taken
      cases taken

end TavilyHikari.Store
