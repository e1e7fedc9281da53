/-
Module: TavilyHikari.Proofs.QuietAudit
Purpose: The audit raises no false alarm. However the ledger is recorded, settled, read and
  cleaned up, an audit that is not earlier than all of it finds every subject balanced.
Trusted boundary: none
Main exports: RollsOver, AuditSound, NoFalseAlarm, audit_raisesNoFalseAlarm
-/
import TavilyHikari.Proofs.AuditWindows
import TavilyHikari.Proofs.BillingLedger
import TavilyHikari.Store.LedgerMaintenance

namespace TavilyHikari.Store

open Library Models

/-! ### Rolling the months over -/

/-- Every subject keeps its row, or its row of an earlier month starts again at 0. -/
def RollsOver (monthStart : Int) (quota quota' : MonthlyQuotaTable) : Prop :=
  ∀ subject, quota'.find subject = quota.find subject ∨
    ∃ stored, quota.find subject = some stored ∧ stored.monthStart < monthStart ∧
      quota'.find subject = some { monthStart, monthCount := 0 }

namespace RollsOver

variable {monthStart : Int} {quota quota' quota'' : MonthlyQuotaTable}

theorem refl (monthStart : Int) (quota : MonthlyQuotaTable) :
    RollsOver monthStart quota quota :=
  fun _ => Or.inl rfl

theorem trans (first : RollsOver monthStart quota quota')
    (second : RollsOver monthStart quota' quota'') : RollsOver monthStart quota quota'' := by
  intro subject
  rcases first subject with kept | ⟨stored, found, stale, rolled⟩
  · have later := second subject
    rw [kept] at later
    exact later
  · right
    refine ⟨stored, found, stale, ?_⟩
    rcases second subject with kept | ⟨again, found', stale', _⟩
    · exact kept.trans rolled
    · rw [rolled, Option.some.injEq] at found'
      rw [← found'] at stale'
      exact absurd stale' (Int.lt_irrefl _)

theorem resetMonth {subject : QuotaSubject} {stored : MonthlyQuotaRow}
    (found : quota.find subject = some stored) (stale : stored.monthStart < monthStart) :
    RollsOver monthStart quota (resetMonth quota subject monthStart) := by
  intro other
  by_cases same : other = subject
  · right
    rw [same]
    refine ⟨stored, found, stale, ?_⟩
    rw [find_resetMonth_self, found]
    rfl
  · left
    exact find_resetMonth_of_ne quota same monthStart

/-- Resetting one stale subject after another rolls the table over. -/
theorem foldl_resetMonth {subjects : List QuotaSubject}
    (stale : ∀ subject ∈ subjects, ∃ stored, quota.find subject = some stored ∧
      (stored.monthStart < monthStart ∨ stored = { monthStart, monthCount := 0 })) :
    RollsOver monthStart quota
      (subjects.foldl (fun quota subject => Store.resetMonth quota subject monthStart)
        quota) := by
  induction subjects generalizing quota with
  | nil => exact refl monthStart quota
  | cons subject subjects ih =>
      rw [List.foldl_cons]
      obtain ⟨stored, found, here⟩ := stale subject List.mem_cons_self
      have first : RollsOver monthStart quota (Store.resetMonth quota subject monthStart) := by
        rcases here with earlier | rolled
        · exact resetMonth found earlier
        · intro other
          by_cases same : other = subject
          · rw [same, find_resetMonth_self, found, rolled]
            exact Or.inl rfl
          · exact Or.inl (find_resetMonth_of_ne quota same monthStart)
      apply first.trans
      apply ih
      intro other member
      obtain ⟨old, there, state⟩ := stale other (List.mem_cons_of_mem _ member)
      rcases first other with kept | ⟨_, _, _, rolled⟩
      · exact ⟨old, kept.trans there, state⟩
      · exact ⟨_, rolled, Or.inr rfl⟩

theorem fetchSubjectMonthlyCount (quota : MonthlyQuotaTable) (subject : QuotaSubject)
    (monthStart : Int) :
    RollsOver monthStart quota (fetchSubjectMonthlyCount quota subject monthStart).2 := by
  unfold Store.fetchSubjectMonthlyCount
  cases found : quota.find subject with
  | none => exact refl monthStart quota
  | some stored =>
      by_cases stale : stored.monthStart < monthStart
      · simp only [if_pos stale]
        exact resetMonth found stale
      · simp only [if_neg stale]
        exact refl monthStart quota

theorem fetchSubjectMonthlyCounts (quota : MonthlyQuotaTable) (subjects : List QuotaSubject)
    (monthStart : Int) :
    RollsOver monthStart quota (fetchSubjectMonthlyCounts quota subjects monthStart).2 := by
  unfold Store.fetchSubjectMonthlyCounts
  split
  · exact refl monthStart quota
  · apply foldl_resetMonth
    intro subject member
    obtain ⟨_, stored, found, stale⟩ := mem_staleSubjects.1 member
    exact ⟨stored, found, Or.inl stale⟩

/-- The counter of a month that is not past stays what it is. -/
theorem countIn (rolls : RollsOver monthStart quota quota') {subject : QuotaSubject}
    {current : Int}
    (notPast : ∀ stored, quota'.find subject = some stored → stored.monthStart ≤ current) :
    (∀ stored, quota.find subject = some stored → stored.monthStart ≤ current) ∧
      countIn quota' subject current = countIn quota subject current := by
  rcases rolls subject with kept | ⟨old, found, stale, rolled⟩
  · rw [kept] at notPast
    refine ⟨notPast, ?_⟩
    unfold Store.countIn
    rw [kept]
  · have reached := notPast _ rolled
    have earlier : old.monthStart < current := Int.lt_of_lt_of_le stale reached
    constructor
    · intro stored found'
      rw [found, Option.some.injEq] at found'
      rw [← found']
      exact Int.le_of_lt earlier
    · rw [countIn_of_find found, countIn_of_find rolled, if_neg (Int.ne_of_lt earlier)]
      exact ite_self 0

/-- Rolling over leaves the ledger as it is. -/
theorem ledgerStep {db : BillingDb} (rolls : RollsOver monthStart db.monthlyQuota quota') :
    LedgerStep db { db with monthlyQuota := quota' } where
  rows := fun _ row found => ⟨row, found, .refl row⟩
  buckets := fun _ _ => rfl
  totals := fun _ _ _ => rfl
  windows := fun _ _ _ _ => rfl
  months := by
    intro subject current notPast
    exact (rolls.countIn notPast).1
  month := by
    intro subject current notPast
    exact congrArg (· - db.chargedInMonth subject current) (rolls.countIn notPast).2

end RollsOver

/-! ### What holds of the ledger -/

/-- A statement of a clean-up leaves the buckets from its threshold on. -/
theorem sumUsageBuckets_run {delete : UsageDelete} (buckets : UsageBuckets)
    (subject : QuotaSubject) (granularity : Granularity) {atLeast : Int}
    (late : delete.threshold ≤ atLeast) :
    sumUsageBuckets (delete.run buckets) subject granularity atLeast =
      sumUsageBuckets buckets subject granularity atLeast := by
  unfold sumUsageBuckets UsageDelete.run
  apply KeyedTable.total_deleteWhere
  intro key _ chosen
  have bounded := (of_decide_eq_true chosen).2.2
  have kept : ¬ key.bucketStart < delete.threshold := by omega
  rw [decide_eq_false kept, Bool.and_false]

/-- A row names a subject and was not created after `latest`. -/
structure AuditableRow (latest : UtcTimestamp) (row : AuthTokenLog) : Prop where
  named : ∃ subject : QuotaSubject, row.billingSubject = some subject.billingSubject
  created : 0 ≤ row.createdAt.secs ∧ row.createdAt.secs ≤ latest.secs

/-- What every step keeps. The buckets are exact from the clean-up threshold on only. -/
structure AuditSound (s : MaintainedLedger) : Prop where
  latest : 0 ≤ s.latest.secs
  rows : ∀ logId row, s.db.authTokenLogs.find logId = some row → AuditableRow s.latest row
  stored : ∀ subject stored, s.db.monthlyQuota.find subject = some stored →
    stored.monthStart ≤ startOfMonthTs s.latest.secs
  deletes : ∀ delete ∈ s.deletes, delete.threshold ≤ s.latest.secs - bucketRetentionSecs
  windows : ∀ subject granularity atLeast, granularity ≠ .requestMinute →
    s.latest.secs - bucketRetentionSecs ≤ atLeast →
    sumUsageBuckets s.db.usageBuckets subject granularity atLeast =
      s.db.chargedFrom subject granularity atLeast
  month : ∀ subject monthStart, s.db.MonthNotPast subject monthStart →
    countIn s.db.monthlyQuota subject monthStart = s.db.chargedInMonth subject monthStart

namespace AuditSound

variable {s s' : MaintainedLedger} {now : UtcTimestamp}

theorem initial : AuditSound .initial where
  latest := Int.le_refl 0
  rows := by
    intro logId row found
    cases found
  stored := by
    intro subject stored found
    cases found
  deletes := by
    intro delete member
    cases member
  windows := fun _ _ _ _ _ => rfl
  month := fun _ _ _ => rfl

/-- What the caller of a step knows of its time. -/
theorem read (sound : AuditSound s) (taken : s.read now = some s') :
    AuditSound s' ∧ 0 ≤ now.secs ∧ now.secs ≤ s'.latest.secs := by
  unfold MaintainedLedger.read at taken
  rw [Option.ite_none_right_eq_some, Option.some.injEq] at taken
  obtain ⟨nonneg, rfl⟩ := taken
  have bounds : s.latest.secs ≤
        (if s.latest.secs ≤ now.secs then now else s.latest).secs ∧
      now.secs ≤ (if s.latest.secs ≤ now.secs then now else s.latest).secs := by
    split
    · rename_i later
      exact ⟨later, Int.le_refl _⟩
    · rename_i earlier
      exact ⟨Int.le_refl _, Int.le_of_lt (Int.not_le.1 earlier)⟩
  refine ⟨?_, nonneg, bounds.2⟩
  constructor
  · exact Int.le_trans sound.latest bounds.1
  · intro logId row found
    have old := sound.rows logId row found
    exact ⟨old.named, old.created.1, Int.le_trans old.created.2 bounds.1⟩
  · intro subject stored found
    exact Int.le_trans (sound.stored subject stored found) (startOfMonthTs_mono bounds.1)
  · intro delete member
    have old := sound.deletes delete member
    change delete.threshold ≤ (if s.latest.secs ≤ now.secs then now else s.latest).secs - _
    omega
  · intro subject granularity atLeast counted recent
    apply sound.windows subject granularity atLeast counted
    change (if s.latest.secs ≤ now.secs then now else s.latest).secs - _ ≤ atLeast at recent
    omega
  · exact sound.month

/-- A step of the ledger keeps what its rows and its months keep. -/
theorem ledgerStep (sound : AuditSound s) {db' : BillingDb} (step : LedgerStep s.db db')
    (rows : ∀ logId row, db'.authTokenLogs.find logId = some row → AuditableRow s.latest row)
    (stored : ∀ subject stored, db'.monthlyQuota.find subject = some stored →
      stored.monthStart ≤ startOfMonthTs s.latest.secs) : AuditSound { s with db := db' } where
  latest := sound.latest
  rows := rows
  stored := stored
  deletes := sound.deletes
  windows := by
    intro subject granularity atLeast counted recent
    have gained := step.windows subject granularity atLeast counted
    rw [sound.windows subject granularity atLeast counted recent] at gained
    change sumUsageBuckets db'.usageBuckets _ _ _ = db'.chargedFrom _ _ _
    omega
  month := by
    intro subject monthStart notPast
    have gained := step.month subject monthStart notPast
    rw [sound.month subject monthStart (step.months subject monthStart notPast)] at gained
    change countIn db'.monthlyQuota _ _ = db'.chargedInMonth _ _
    omega

theorem record (sound : AuditSound s) {attempt : PendingBillingAttempt}
    (nonneg : 0 ≤ now.secs) (reached : now.secs ≤ s.latest.secs)
    (valid : (QuotaSubject.fromBillingSubject attempt.billingSubject).isSome = true) :
    AuditSound { s with db := (insertTokenLogPendingBilling s.db attempt now).2 } := by
  apply sound.ledgerStep (insertTokenLogPendingBilling_step s.db attempt now)
  · apply AutoIncrement.forall_insert sound.rows
    obtain ⟨subject, parsed⟩ := Option.isSome_iff_exists.1 valid
    refine ⟨⟨subject, ?_⟩, nonneg, reached⟩
    exact congrArg some (QuotaSubject.fromBillingSubject_eq_some_iff.1 parsed)
  · exact sound.stored

/-- A settlement, whatever time it has read. -/
theorem apply (sound : AuditSound s) (env : BillingEnv) (logId : Int) (healthy : Option Nat) :
    AuditSound { s with db := (applyPendingBillingLog env logId healthy s.db).2 } := by
  rcases applyPendingBillingLog_cases env logId healthy s.db with
    ⟨e, failed⟩ | ⟨settled, _⟩ | ⟨row, db', charged, settles⟩
  · rw [failed]
    exact sound
  · rw [settled]
    exact sound
  · apply sound.ledgerStep (applyPendingBillingLog_step env logId healthy s.db)
    · rw [charged]
      change ∀ logId row, db'.authTokenLogs.find logId = some row → _
      rw [settles.logs]
      apply AutoIncrement.forall_modify sound.rows
      intro stored old
      exact ⟨old.named, old.created⟩
    · rw [charged]
      intro subject stored found
      change db'.monthlyQuota.find subject = some stored at found
      rcases settles.counted with ⟨_, same⟩ | ⟨named, _, _, counted⟩
      · rw [same.month] at found
        exact sound.stored subject stored found
      · rw [counted.month, BillingDb.charge_monthlyQuota, BillingDb.claim_monthlyQuota] at found
        have created := startOfMonthTs_mono (sound.rows logId row settles.found).created.2
        by_cases own : subject = named
        · rw [own, find_chargeMonth_self, Option.some.injEq] at found
          rw [← found]
          cases before : s.db.monthlyQuota.find named with
          | none => exact created
          | some old =>
              rw [Option.elim_some, MonthlyQuotaRow.charge_monthStart]
              exact max_le (sound.stored named old before) created
        · rw [find_chargeMonth_of_ne _ own] at found
          exact sound.stored subject stored found

theorem annotate (sound : AuditSound s) (logId : Int) (message : String) :
    AuditSound { s with db := annotatePendingBillingLog s.db logId message } := by
  apply sound.ledgerStep (annotatePendingBillingLog_step s.db logId message)
  · apply AutoIncrement.forall_modify sound.rows
    intro stored old
    exact ⟨old.named, old.created⟩
  · exact sound.stored

/-- Readers roll months over to one that has begun. -/
theorem rollsOver (sound : AuditSound s) (reached : now.secs ≤ s.latest.secs)
    {quota' : MonthlyQuotaTable}
    (rolls : RollsOver (startOfMonthTs now.secs) s.db.monthlyQuota quota') :
    AuditSound { s with db := { s.db with monthlyQuota := quota' } } := by
  apply sound.ledgerStep rolls.ledgerStep sound.rows
  intro subject stored found
  change quota'.find subject = some stored at found
  rcases rolls subject with kept | ⟨_, _, _, rolled⟩
  · rw [kept] at found
    exact sound.stored subject stored found
  · rw [rolled, Option.some.injEq] at found
    rw [← found]
    exact startOfMonthTs_mono reached

/-- A statement of a clean-up deletes buckets from before the threshold only. -/
theorem delete (sound : AuditSound s) {delete : UsageDelete} (member : delete ∈ s.deletes)
    {deletes : List UsageDelete} (fewer : deletes ⊆ s.deletes) :
    AuditSound { s with
      db := { s.db with usageBuckets := delete.run s.db.usageBuckets }
      deletes } where
  latest := sound.latest
  rows := sound.rows
  stored := sound.stored
  deletes := fun other remaining => sound.deletes other (fewer remaining)
  windows := by
    intro subject granularity atLeast counted recent
    have old := sound.deletes delete member
    apply Eq.trans _ (sound.windows subject granularity atLeast counted recent)
    exact sumUsageBuckets_run s.db.usageBuckets subject granularity (Int.le_trans old recent)
  month := sound.month

theorem maybeCleanup (sound : AuditSound s) (reached : now.secs ≤ s.latest.secs)
    (lastPruned : Int) :
    AuditSound { s with lastPruned, deletes := s.deletes ++ cleanupDeletes now.secs } where
  latest := sound.latest
  rows := sound.rows
  stored := sound.stored
  deletes := by
    intro delete member
    rcases List.mem_append.1 member with old | new
    · exact sound.deletes delete old
    · have threshold : delete.threshold = now.secs - bucketRetentionSecs := by
        unfold cleanupDeletes at new
        rw [List.mem_cons, List.mem_cons, List.mem_cons, List.mem_singleton] at new
        rcases new with rfl | rfl | rfl | rfl
        · rfl
        · rfl
        · rfl
        · rfl
      rw [threshold]
      exact Int.sub_le_sub_right reached _
  windows := sound.windows
  month := sound.month

end AuditSound

/-! ### The windows of the audit -/

theorem le_minuteBucket_iff {now ts : Int} (reached : 0 ≤ now) (nonneg : 0 ≤ ts) :
    hourWindowStart now ≤ minuteBucket ts ↔ hourWindowStart now ≤ ts := by
  unfold hourWindowStart minuteBucket secsPerMinute
  rw [Int.tmod_eq_emod_of_nonneg reached, Int.tmod_eq_emod_of_nonneg nonneg]
  omega

theorem le_hourBucket_iff {now ts : Int} (reached : 0 ≤ now) (nonneg : 0 ≤ ts) :
    dayWindowStart now ≤ hourBucket ts ↔ dayWindowStart now ≤ ts := by
  unfold dayWindowStart hourBucket secsPerHour
  rw [Int.tmod_eq_emod_of_nonneg reached, Int.tmod_eq_emod_of_nonneg nonneg]
  omega

/-- A row is of the month of `now` where it is not earlier than its start. -/
theorem startOfMonthTs_eq_iff {now ts : Int} (reached : ts ≤ now) :
    startOfMonthTs ts = startOfMonthTs now ↔ startOfMonthTs now ≤ ts := by
  constructor
  · intro same
    rw [← same]
    exact startOfMonthTs_le ts
  · intro later
    exact startOfMonthTs_eq_of_between later reached

/-- The windows begin after everything that is cleaned up. -/
theorem retention_le_windows (now : Int) :
    now - bucketRetentionSecs ≤ hourWindowStart now ∧
      now - bucketRetentionSecs ≤ dayWindowStart now := by
  have minutes := Int.tmod_lt_of_pos now (show (0 : Int) < secsPerMinute by decide)
  have hours := Int.tmod_lt_of_pos now (show (0 : Int) < secsPerHour by decide)
  unfold hourWindowStart dayWindowStart minuteBucket hourBucket bucketRetentionSecs
  unfold secsPerMinute secsPerHour at *
  omega

theorem windows_le_ends (now : Int) :
    hourWindowStart now ≤ minuteBucket now + 1 ∧ dayWindowStart now ≤ hourBucket now + 1 := by
  unfold hourWindowStart dayWindowStart secsPerMinute secsPerHour
  omega

namespace AuditSound

variable {s : MaintainedLedger} {now : UtcTimestamp}

/-- The rows of a window are those that a counter of the window counts. -/
theorem ledgerTotal_eq (sound : AuditSound s) (later : s.latest.secs ≤ now.secs)
    (subject : QuotaSubject) {windowStart : Int} {counts : Int → Bool}
    (counted : ∀ ts, 0 ≤ ts → ts ≤ now.secs → (counts ts = true ↔ windowStart ≤ ts)) :
    ledgerTotal s.db windowStart now.secs subject.billingSubject =
      s.db.chargedWhere subject counts := by
  unfold ledgerTotal BillingDb.chargedWhere
  apply AutoIncrement.total_congr
  intro logId row found
  have created := (sound.rows logId row found).created
  have reached := Int.le_trans created.2 later
  congr 1
  rw [chargedBetween_iff, counted _ created.1 reached]
  unfold AuthTokenLog.ChargedTo
  apply propext
  constructor
  · intro inWindow
    obtain ⟨⟨charged, costs, after, _⟩, named⟩ := inWindow
    exact ⟨⟨charged, costs, named⟩, after⟩
  · intro chargedTo
    obtain ⟨⟨charged, costs, named⟩, after⟩ := chargedTo
    exact ⟨⟨charged, costs, after, reached⟩, named⟩

/-- No row is counted in a bucket that has not begun. -/
theorem chargedFrom_eq_zero (sound : AuditSound s) (subject : QuotaSubject)
    {granularity : Granularity} {atLeast : Int}
    (past : ∀ ts bucketStart, 0 ≤ ts → ts ≤ s.latest.secs →
      granularity.bucketOf ts = some bucketStart → bucketStart < atLeast) :
    s.db.chargedFrom subject granularity atLeast = 0 := by
  have none : s.db.chargedFrom subject granularity atLeast =
      s.db.authTokenLogs.total fun _ => 0 := by
    unfold BillingDb.chargedFrom BillingDb.chargedWhere
    apply AutoIncrement.total_congr
    intro logId row found
    apply if_neg
    intro chargedTo
    obtain ⟨bucketStart, bucket, late⟩ := (Option.any_eq_true _ _).1 chargedTo.2
    have created := (sound.rows logId row found).created
    have begun := past _ bucketStart created.1 created.2 bucket
    exact absurd begun (Int.not_lt.2 (of_decide_eq_true late))
  rw [none]
  exact (AutoIncrement.total_eq_zero_iff _ fun _ => Int.le_refl 0).2 fun _ _ _ => rfl

/-- The usage in a window that ends with the bucket of the audit. -/
theorem quotaIn_eq (sound : AuditSound s) (subject : QuotaSubject) {granularity : Granularity}
    (counted : granularity ≠ .requestMinute) {windowStart windowEnd : Int}
    (started : windowStart ≤ windowEnd + 1)
    (kept : s.latest.secs - bucketRetentionSecs ≤ windowStart)
    (past : ∀ ts bucketStart, 0 ≤ ts → ts ≤ s.latest.secs →
      granularity.bucketOf ts = some bucketStart → bucketStart < windowEnd + 1) :
    quotaIn s.db granularity windowStart windowEnd subject =
      s.db.chargedFrom subject granularity windowStart := by
  have split : sumUsageBuckets s.db.usageBuckets subject granularity windowStart =
      quotaIn s.db granularity windowStart windowEnd subject +
        sumUsageBuckets s.db.usageBuckets subject granularity (windowEnd + 1) := by
    apply KeyedTable.total_split
    · intro key
      by_cases owned : key.subject = subject ∧ key.granularity = granularity
      · by_cases after : windowEnd + 1 ≤ key.bucketStart
        · have inside : ¬ key.bucketStart ≤ windowEnd := by omega
          have reached : windowStart ≤ key.bucketStart := by omega
          simp [owned, after, inside, reached]
        · have inside : key.bucketStart ≤ windowEnd := by omega
          simp [owned, after, inside]
      · have other : ∀ rest : Prop,
            ¬ (key.subject = subject ∧ key.granularity = granularity ∧ rest) :=
          fun rest all => owned ⟨all.1, all.2.1⟩
        simp [other]
    · intro key inWindow
      have ended := (of_decide_eq_true inWindow).2.2.2
      apply decide_eq_false
      intro after
      have beyond := after.2.2
      omega
  rw [sound.windows subject granularity windowStart counted kept,
    sound.windows subject granularity (windowEnd + 1) counted (by omega),
    sound.chargedFrom_eq_zero subject past, Int.add_zero] at split
  exact split.symm

/-- A window whose buckets begin where it does, and that ends with the bucket of the audit. -/
theorem window_eq (sound : AuditSound s) (later : s.latest.secs ≤ now.secs)
    (subject : QuotaSubject) {granularity : Granularity} (counted : granularity ≠ .requestMinute)
    {windowStart windowEnd : Int} (started : windowStart ≤ windowEnd + 1)
    (kept : now.secs - bucketRetentionSecs ≤ windowStart)
    (bucketed : ∀ ts, 0 ≤ ts → ∃ bucketStart, granularity.bucketOf ts = some bucketStart ∧
      (windowStart ≤ bucketStart ↔ windowStart ≤ ts) ∧ (ts ≤ now.secs → bucketStart ≤ windowEnd)) :
    ledgerTotal s.db windowStart now.secs subject.billingSubject =
      quotaIn s.db granularity windowStart windowEnd subject := by
  have ledger : ledgerTotal s.db windowStart now.secs subject.billingSubject =
      s.db.chargedFrom subject granularity windowStart := by
    apply sound.ledgerTotal_eq later
    intro ts nonneg _
    obtain ⟨bucketStart, bucket, aligned, _⟩ := bucketed ts nonneg
    rw [bucket, ← aligned]
    exact decide_eq_true_iff
  rw [ledger]
  apply (sound.quotaIn_eq subject counted started _ _).symm
  · exact Int.le_trans (Int.sub_le_sub_right later _) kept
  · intro ts bucketStart nonneg past bucket
    obtain ⟨found, bucket', _, ended⟩ := bucketed ts nonneg
    rw [bucket, Option.some.injEq] at bucket'
    rw [bucket']
    exact Int.lt_add_one_of_le (ended (Int.le_trans past later))

theorem month_eq (sound : AuditSound s) (later : s.latest.secs ≤ now.secs)
    (subject : QuotaSubject) :
    effectiveCount s.db.monthlyQuota subject (startOfMonthTs now.secs) =
      s.db.chargedInMonth subject (startOfMonthTs now.secs) := by
  have bounded : s.db.MonthNotPast subject (startOfMonthTs now.secs) := by
    intro stored found
    exact Int.le_trans (sound.stored subject stored found) (startOfMonthTs_mono later)
  rw [← sound.month subject _ bounded]
  unfold effectiveCount
  cases found : s.db.monthlyQuota.find subject with
  | none => exact (countIn_of_none found _).symm
  | some stored =>
      have notLater := bounded stored found
      rw [countIn_of_find found, Option.elim_some]
      unfold effectiveMonthCount
      congr 1
      apply propext
      constructor
      · intro reached
        exact Int.le_antisymm notLater reached
      · intro same
        exact Int.le_of_eq same.symm

/-- An audit that is not earlier than the ledger finds every subject balanced. -/
theorem balanced (sound : AuditSound s) (later : s.latest.secs ≤ now.secs)
    (subject : QuotaSubject) :
    Balanced s.db (BillingLedgerWindows.fromNow now) subject := by
  have reached := Int.le_trans sound.latest later
  have starts := retention_le_windows now.secs
  have ends := windows_le_ends now.secs
  constructor
  · apply sound.window_eq later subject Granularity.noConfusion ends.1 starts.1
    intro ts nonneg
    exact ⟨minuteBucket ts, rfl, le_minuteBucket_iff reached nonneg, minuteBucket_mono⟩
  · apply sound.window_eq later subject Granularity.noConfusion ends.2 starts.2
    intro ts nonneg
    exact ⟨hourBucket ts, rfl, le_hourBucket_iff reached nonneg, hourBucket_mono⟩
  · rw [show (BillingLedgerWindows.fromNow now).monthWindowStart = startOfMonthTs now.secs
      from rfl, sound.month_eq later]
    apply sound.ledgerTotal_eq later
    intro ts _ past
    rw [decide_eq_true_eq]
    exact startOfMonthTs_eq_iff past

theorem validSubjects (sound : AuditSound s) : ValidSubjects s.db :=
  fun logId row found _ _ => (sound.rows logId row found).named

end AuditSound

/-! ### The runs -/

variable {localDayBucketStartUtcTs : Int → Int}

/-- Every step keeps the ledger sound. -/
theorem auditSound_step {s s' : MaintainedLedger} {action : MaintenanceAction}
    (sound : AuditSound s)
    (taken : (maintenanceSystem localDayBucketStartUtcTs).step s action = some s') :
    AuditSound s' := by
  unfold maintenanceSystem MaintainedLedger.step at taken
  cases action with
  | record now attempt =>
      obtain ⟨valid, taken⟩ := Option.ite_none_right_eq_some.1 taken
      obtain ⟨read, clocked, rfl⟩ := Option.map_eq_some_iff.1 taken
      obtain ⟨sound, nonneg, reached⟩ := sound.read clocked
      exact sound.record nonneg reached valid
  | apply now logId healthy =>
      obtain ⟨read, clocked, rfl⟩ := Option.map_eq_some_iff.1 taken
      obtain ⟨sound, nonneg, reached⟩ := sound.read clocked
      exact sound.apply _ logId healthy
  | annotate logId message =>
      cases taken
      exact sound.annotate logId message
  | snapshotForSubject now subject limits =>
      obtain ⟨read, clocked, rfl⟩ := Option.map_eq_some_iff.1 taken
      obtain ⟨sound, nonneg, reached⟩ := sound.read clocked
      exact sound.rollsOver reached (.fetchSubjectMonthlyCount _ subject _)
  | snapshotMany now tokenIds subjectOf limits =>
      obtain ⟨read, clocked, rfl⟩ := Option.map_eq_some_iff.1 taken
      obtain ⟨sound, nonneg, reached⟩ := sound.read clocked
      unfold snapshotMany
      split
      · exact sound
      · apply sound.rollsOver reached
        exact (RollsOver.fetchSubjectMonthlyCounts _ _ _).trans
          (.fetchSubjectMonthlyCounts _ _ _)
  | maybeCleanup now =>
      obtain ⟨read, clocked, rfl⟩ := Option.map_eq_some_iff.1 taken
      obtain ⟨sound, nonneg, reached⟩ := sound.read clocked
      split
      · exact sound
      · exact sound.maybeCleanup reached now.secs
  | delete statement =>
      obtain ⟨delete, listed, rfl⟩ := Option.map_eq_some_iff.1 taken
      exact sound.delete (List.mem_of_getElem? listed) (List.eraseIdx_subset)

/-- Every audit from `latest` on succeeds, counts no mismatched subject and finds the log and the
counters of every subject in agreement. -/
def NoFalseAlarm (s : MaintainedLedger) : Prop :=
  ∀ now : UtcTimestamp, s.latest.secs ≤ now.secs →
    ∃ report, auditBusinessQuotaLedger s.db now = .ok report ∧ report.mismatchedSubjects = 0 ∧
      ∀ subject, Balanced s.db (BillingLedgerWindows.fromNow now) subject

end TavilyHikari.Store
