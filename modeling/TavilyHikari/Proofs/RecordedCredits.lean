/-
Module: TavilyHikari.Proofs.RecordedCredits
Purpose: The credits recorded for a subject, charged or still pending: how the
  windows over them move, what a step of somebody else leaves of them, and that
  the counters stay exact and never ahead of the clock.
Trusted boundary: none
Main exports: RecordedBy, Reconciled, LeavesSubject, LedgerCurrent
-/
import TavilyHikari.Proofs.BillingLedger
import TavilyHikari.Store.BillingRequestSystem

namespace TavilyHikari.Store

open Library

/-! ### Windows move forward -/

/-- What a later window counts of the past, the earlier window counts too. -/
theorem QuotaWindow.counts_of_later {window : QuotaWindow} {now later ts : Int}
    (after : now ≤ later) (past : ts ≤ now) (counts : window.counts later ts = true) :
    window.counts now ts = true := by
  cases window with
  | hour =>
      have start := minuteBucket_mono after
      have counted := of_decide_eq_true counts
      apply decide_eq_true
      simp only [hourWindowStart, ge_iff_le] at counted ⊢
      omega
  | day =>
      have start := hourBucket_mono after
      have counted := of_decide_eq_true counts
      apply decide_eq_true
      simp only [dayWindowStart, ge_iff_le] at counted ⊢
      omega
  | month =>
      have first := startOfMonthTs_mono past
      have second := startOfMonthTs_mono after
      simp only [QuotaWindow.counts, decide_eq_true_eq] at counts ⊢
      omega

/-! ### Recorded credits -/

namespace AuthTokenLog

/-- What the row adds to the recorded credits that `counts` selects. -/
def recordedFor (row : AuthTokenLog) (subject : QuotaSubject) (counts : Int → Bool) : Int :=
  if row.RecordedFor subject ∧ counts row.createdAt.secs then row.credits else 0

theorem recordedFor_nonneg (row : AuthTokenLog) (subject : QuotaSubject) (counts : Int → Bool) :
    0 ≤ row.recordedFor subject counts := by
  unfold recordedFor
  split
  · rename_i recorded
    exact Int.le_of_lt recorded.1.2.1
  · exact Int.le_refl 0

/-- Charging a pending row records nothing new. -/
theorem recordedFor_charged {row : AuthTokenLog} (pending : row.billingState = billingStatePending)
    (subject : QuotaSubject) (counts : Int → Bool) :
    row.charged.recordedFor subject counts = row.recordedFor subject counts := by
  simp only [recordedFor, RecordedFor, charged_billingState, charged_credits,
    charged_billingSubject, charged_createdAt, pending, or_true, true_or, true_and]

end AuthTokenLog

namespace BillingDb

theorem recordedWhere_eq (db : BillingDb) (subject : QuotaSubject) (counts : Int → Bool) :
    db.recordedWhere subject counts =
      db.authTokenLogs.total fun row => row.recordedFor subject counts := rfl

/-- A row that changes in nothing that is recorded of it. -/
theorem recordedWhere_of_modify {db db' : BillingDb} {logId : Int}
    {change : AuthTokenLog → AuthTokenLog}
    (changed : db'.authTokenLogs = db.authTokenLogs.modify logId change)
    {subject : QuotaSubject} {counts : Int → Bool}
    (kept : ∀ row, db.authTokenLogs.find logId = some row →
      (change row).recordedFor subject counts = row.recordedFor subject counts) :
    db'.recordedWhere subject counts = db.recordedWhere subject counts := by
  rw [recordedWhere_eq, recordedWhere_eq, changed, AutoIncrement.total_modify]
  cases found : db.authTokenLogs.find logId with
  | none => exact Int.add_zero _
  | some row =>
      simp only [Option.elim_some, kept row found]
      omega

theorem recordedWhere_mono (db : BillingDb) (subject : QuotaSubject) {fewer more : Int → Bool}
    (weaker : ∀ ts, fewer ts = true → more ts = true) :
    db.recordedWhere subject fewer ≤ db.recordedWhere subject more := by
  rw [recordedWhere_eq, recordedWhere_eq]
  refine (db.authTokenLogs.table.total_le_total fun row => ?_).1
  by_cases recorded : row.RecordedFor subject ∧ fewer row.createdAt.secs = true
  · have counted := weaker _ recorded.2
    rw [AuthTokenLog.recordedFor, AuthTokenLog.recordedFor, if_pos recorded,
      if_pos ⟨recorded.1, counted⟩]
  · rw [AuthTokenLog.recordedFor, if_neg recorded]
    exact row.recordedFor_nonneg subject more

theorem recordedWhere_nonneg (db : BillingDb) (subject : QuotaSubject) (counts : Int → Bool) :
    0 ≤ db.recordedWhere subject counts := by
  have above := (db.authTokenLogs.table.total_le_total
    fun row => row.recordedFor_nonneg subject counts).1
  have zero : db.authTokenLogs.table.total (fun _ => true) (fun _ => 0) = 0 := by
    simp [KeyedTable.total]
  rw [zero] at above
  exact above

/-- Nothing is recorded for the subject after `now`. -/
def RecordedBy (db : BillingDb) (subject : QuotaSubject) (now : Int) : Prop :=
  db.recordedWhere subject (fun ts => now < ts) = 0

/-- Then only the times up to `now` matter. -/
theorem RecordedBy.recordedWhere_eq {db : BillingDb} {subject : QuotaSubject} {now : Int}
    (past : db.RecordedBy subject now) (counts : Int → Bool) :
    db.recordedWhere subject (fun ts => counts ts && decide (ts ≤ now)) =
      db.recordedWhere subject counts := by
  have rows := (db.authTokenLogs.total_eq_zero_iff
    fun row => row.recordedFor_nonneg subject fun ts => now < ts).1 past
  have below : ∀ row : AuthTokenLog,
      row.recordedFor subject (fun ts => counts ts && decide (ts ≤ now)) ≤
        row.recordedFor subject counts := by
    intro row
    by_cases recorded : row.RecordedFor subject ∧
        (counts row.createdAt.secs && decide (row.createdAt.secs ≤ now)) = true
    · have counted := (Bool.and_eq_true_iff.1 recorded.2).1
      rw [AuthTokenLog.recordedFor, AuthTokenLog.recordedFor, if_pos recorded,
        if_pos ⟨recorded.1, counted⟩]
    · rw [AuthTokenLog.recordedFor, if_neg recorded]
      exact row.recordedFor_nonneg subject counts
  refine (db.authTokenLogs.total_eq_total_iff below).2 fun id row found => ?_
  have late := rows id row found
  simp only [AuthTokenLog.recordedFor, decide_eq_true_eq, Bool.and_eq_true] at late ⊢
  by_cases recorded : row.RecordedFor subject
  · have costs := recorded.2.1
    have early : row.createdAt.secs ≤ now := by
      apply Int.not_lt.1
      intro after
      rw [if_pos ⟨recorded, after⟩] at late
      omega
    simp only [recorded, early, and_true]
  · simp only [recorded, false_and]

/-- A later window holds no more, while nothing is recorded in between. -/
theorem RecordedBy.recordedInWindow_le {db : BillingDb} {subject : QuotaSubject}
    {now later : Int} (past : db.RecordedBy subject now) (after : now ≤ later)
    (window : QuotaWindow) :
    db.recordedInWindow subject window later ≤ db.recordedInWindow subject window now := by
  unfold recordedInWindow
  rw [← past.recordedWhere_eq (window.counts later)]
  apply recordedWhere_mono
  intro ts counted
  rw [Bool.and_eq_true, decide_eq_true_eq] at counted
  exact window.counts_of_later after counted.2 counted.1

theorem RecordedBy.later {db : BillingDb} {subject : QuotaSubject} {now later : Int}
    (past : db.RecordedBy subject now) (after : now ≤ later) : db.RecordedBy subject later := by
  have above : db.recordedWhere subject (fun ts => later < ts) ≤ 0 := by
    rw [← past]
    apply recordedWhere_mono
    intro ts late
    rw [decide_eq_true_eq] at late ⊢
    omega
  exact Int.le_antisymm above (db.recordedWhere_nonneg subject _)

/-- Nothing is pending for the subject. -/
def Reconciled (db : BillingDb) (subject : String) : Prop :=
  listPendingBillingLogIds db subject = []

theorem mem_listPendingBillingLogIds {db : BillingDb} {subject : String} {logId : Int} :
    logId ∈ listPendingBillingLogIds db subject ↔
      ∃ row, db.authTokenLogs.find logId = some row ∧ row.billingState = billingStatePending ∧
        row.billingSubject = some subject ∧ 0 < row.credits := by
  simp only [listPendingBillingLogIds, AutoIncrement.mem_idsWhere, decide_eq_true_eq, gt_iff_lt]

/-- Then everything recorded is charged. -/
theorem Reconciled.recordedWhere_eq {db : BillingDb} {subject : QuotaSubject}
    (reconciled : db.Reconciled subject.billingSubject) (counts : Int → Bool) :
    db.recordedWhere subject counts = db.chargedWhere subject counts := by
  have below : ∀ row : AuthTokenLog,
      row.chargedFor subject counts ≤ row.recordedFor subject counts := by
    intro row
    by_cases charged : row.ChargedTo subject ∧ counts row.createdAt.secs = true
    · have recorded : row.RecordedFor subject := ⟨.inr charged.1.1, charged.1.2⟩
      rw [AuthTokenLog.chargedFor, AuthTokenLog.recordedFor, if_pos charged,
        if_pos ⟨recorded, charged.2⟩]
    · rw [AuthTokenLog.chargedFor, if_neg charged]
      exact row.recordedFor_nonneg subject counts
  symm
  refine (db.authTokenLogs.total_eq_total_iff below).2 fun id row found => ?_
  have settled : row.RecordedFor subject ↔ row.ChargedTo subject := by
    refine ⟨fun recorded => ?_, fun charged => ⟨.inr charged.1, charged.2⟩⟩
    obtain ⟨pending | charged, costs, owner⟩ := recorded
    · have listed := mem_listPendingBillingLogIds.2 ⟨row, found, pending, owner, costs⟩
      rw [show listPendingBillingLogIds db subject.billingSubject = [] from reconciled] at listed
      cases listed
    · exact ⟨charged, costs, owner⟩
  simp only [AuthTokenLog.chargedFor, AuthTokenLog.recordedFor, settled]

/-! ### What a step leaves of a subject whose lease somebody else holds -/

/-- Nothing new is pending for the subject, what is recorded for it stays, and so
does its month once it is reconciled. -/
structure LeavesSubject (db db' : BillingDb) (subject : String) : Prop where
  pending : ∀ logId ∈ listPendingBillingLogIds db' subject,
    logId ∈ listPendingBillingLogIds db subject
  recorded : ∀ quotaSubject : QuotaSubject, quotaSubject.billingSubject = subject → ∀ counts,
    db'.recordedWhere quotaSubject counts = db.recordedWhere quotaSubject counts
  month : db.Reconciled subject → ∀ quotaSubject : QuotaSubject,
    quotaSubject.billingSubject = subject →
      db'.monthlyQuota.find quotaSubject = db.monthlyQuota.find quotaSubject

theorem LeavesSubject.refl (db : BillingDb) (subject : String) : LeavesSubject db db subject :=
  ⟨fun _ listed => listed, fun _ _ _ => rfl, fun _ _ _ => rfl⟩

theorem LeavesSubject.reconciled {db db' : BillingDb} {subject : String}
    (leaves : LeavesSubject db db' subject) (reconciled : db.Reconciled subject) :
    db'.Reconciled subject := by
  refine List.eq_nil_iff_forall_not_mem.2 fun logId listed => ?_
  have before := leaves.pending logId listed
  rw [show listPendingBillingLogIds db subject = [] from reconciled] at before
  cases before

theorem LeavesSubject.trans {db db' db'' : BillingDb} {subject : String}
    (first : LeavesSubject db db' subject) (second : LeavesSubject db' db'' subject) :
    LeavesSubject db db'' subject where
  pending := fun logId listed => first.pending logId (second.pending logId listed)
  recorded := fun quotaSubject named counts =>
    (second.recorded quotaSubject named counts).trans (first.recorded quotaSubject named counts)
  month := fun reconciled quotaSubject named =>
    (second.month (first.reconciled reconciled) quotaSubject named).trans
      (first.month reconciled quotaSubject named)

theorem LeavesSubject.recordedBy {db db' : BillingDb} {subject : QuotaSubject}
    (leaves : LeavesSubject db db' subject.billingSubject) {now : Int}
    (past : db.RecordedBy subject now) : db'.RecordedBy subject now :=
  (leaves.recorded subject rfl _).trans past

theorem LeavesSubject.monthNotPast {db db' : BillingDb} {subject : QuotaSubject}
    (leaves : LeavesSubject db db' subject.billingSubject)
    (reconciled : db.Reconciled subject.billingSubject) {monthStart : Int}
    (notPast : db.MonthNotPast subject monthStart) : db'.MonthNotPast subject monthStart := by
  intro stored found
  rw [leaves.month reconciled subject rfl] at found
  exact notPast stored found

end BillingDb

open BillingDb

/-- The pending rows after a change that keeps what a list of them looks at, or
charges a row. -/
theorem mem_pending_of_modify {db db' : BillingDb} {logId : Int}
    {change : AuthTokenLog → AuthTokenLog}
    (changed : db'.authTokenLogs = db.authTokenLogs.modify logId change)
    (kept : ∀ row, (change row).billingState = billingStatePending →
      row.billingState = billingStatePending ∧ row.billingSubject = (change row).billingSubject ∧
        row.credits = (change row).credits)
    {subject : String} {other : Int} (listed : other ∈ listPendingBillingLogIds db' subject) :
    other ∈ listPendingBillingLogIds db subject := by
  rw [mem_listPendingBillingLogIds] at listed ⊢
  obtain ⟨row, found, pending, owner, costs⟩ := listed
  rw [changed] at found
  by_cases same : other = logId
  · subst same
    rw [AutoIncrement.find_modify_self, Option.map_eq_some_iff] at found
    obtain ⟨old, found, rfl⟩ := found
    obtain ⟨state, subjects, credits⟩ := kept old pending
    exact ⟨old, found, state, subjects.trans owner, by rw [credits]; exact costs⟩
  · rw [AutoIncrement.find_modify_of_ne _ same] at found
    exact ⟨row, found, pending, owner, costs⟩

theorem annotatePendingBillingLog_leaves (db : BillingDb) (logId : Int) (message subject : String) :
    LeavesSubject db (annotatePendingBillingLog db logId message) subject := by
  have changed : (annotatePendingBillingLog db logId message).authTokenLogs =
      db.authTokenLogs.modify logId fun row =>
        { row with errorMessage := some (annotatedMessage row.errorMessage message) } := rfl
  refine ⟨fun _ listed => ?_, fun _ _ _ => ?_, fun _ _ _ => rfl⟩
  · exact mem_pending_of_modify changed (fun _ pending => ⟨pending, rfl, rfl⟩) listed
  · exact recordedWhere_of_modify changed fun _ _ => rfl

/-- A charge of a row leaves every subject: of the one it charges, a row was
pending. -/
theorem Settles.leaves {db db' : BillingDb} {logId : Int} {row : AuthTokenLog}
    (settles : Settles db db' logId row) (subject : String) : LeavesSubject db db' subject := by
  have logs := settles.logs
  refine ⟨fun other listed => mem_pending_of_modify logs ?_ listed, ?_, ?_⟩
  · intro charged pending
    exact absurd pending.symm billingStatePending_ne_charged
  · intro quotaSubject _ counts
    refine recordedWhere_of_modify logs fun stored found => ?_
    rw [settles.found] at found
    cases found
    exact AuthTokenLog.recordedFor_charged settles.pending quotaSubject counts
  · intro reconciled quotaSubject named
    rcases settles.counted with ⟨_, same⟩ | ⟨charged, costs, owner, counted⟩
    · rw [same.month]
      rfl
    · rw [counted.month]
      refine find_chargeMonth_of_ne _ ?_ _ _
      rintro rfl
      have listed := mem_listPendingBillingLogIds.2
        ⟨row, settles.found, settles.pending, owner, costs⟩
      rw [named, show listPendingBillingLogIds db subject = [] from reconciled] at listed
      cases listed

theorem applyPendingBillingLog_leaves (env : BillingEnv) (logId : Int) (healthy : Option Nat)
    (db : BillingDb) (subject : String) :
    LeavesSubject db (applyPendingBillingLog env logId healthy db).2 subject := by
  rcases applyPendingBillingLog_cases env logId healthy db with
    ⟨e, failed⟩ | ⟨settled, _⟩ | ⟨row, db', charged, settles⟩
  · rw [failed]
    exact .refl db subject
  · rw [settled]
    exact .refl db subject
  · rw [charged]
    exact settles.leaves subject

/-- A call that succeeds leaves its row no longer pending. -/
theorem applyPendingBillingLog_settles {env : BillingEnv} {logId : Int} {healthy : Option Nat}
    {db db' : BillingDb} {outcome : PendingBillingSettleOutcome}
    (ran : applyPendingBillingLog env logId healthy db = (.ok outcome, db')) (subject : String) :
    logId ∉ listPendingBillingLogIds db' subject := by
  intro listed
  obtain ⟨stored, found, pending, _, _⟩ := mem_listPendingBillingLogIds.1 listed
  rcases applyPendingBillingLog_cases env logId healthy db with
    ⟨e, failed⟩ | ⟨same, row, old, charged⟩ | ⟨row, after, same, settles⟩
  · rw [failed] at ran
    cases ran
  · rw [same] at ran
    cases ran
    rw [old] at found
    cases found
    exact billingStatePending_ne_charged (pending.symm.trans charged)
  · rw [same] at ran
    cases ran
    rw [settles.logs, AutoIncrement.find_modify_self, settles.found] at found
    cases found
    exact billingStatePending_ne_charged pending.symm

/-- A reset of another subject's month. -/
theorem resetMonth_leaves (db : BillingDb) (own : QuotaSubject) (monthStart : Int)
    {subject : String} (other : subject ≠ own.billingSubject) :
    LeavesSubject db { db with monthlyQuota := resetMonth db.monthlyQuota own monthStart }
      subject where
  pending := fun _ listed => listed
  recorded := fun _ _ _ => rfl
  month := by
    intro _ quotaSubject named
    refine find_resetMonth_of_ne _ ?_ _
    rintro rfl
    exact other named.symm

/-! ### The ledger under a clock -/

/-- The counters are exact, and nothing of them is ahead of the clock. -/
structure LedgerCurrent (db : BillingDb) (clock : Int) : Prop where
  exact : db.LedgerExact
  past : ∀ subject, db.RecordedBy subject clock
  months : ∀ subject, db.MonthNotPast subject (startOfMonthTs clock)

namespace LedgerCurrent

theorem of_empty (clock : Int) : LedgerCurrent .empty clock where
  exact := .of_empty
  past := fun _ => rfl
  months := by
    intro subject stored found
    cases found

theorem tick {db : BillingDb} {clock later : Int} (current : LedgerCurrent db clock)
    (after : clock ≤ later) : LedgerCurrent db later where
  exact := current.exact
  past := fun subject => (current.past subject).later after
  months := fun subject stored found =>
    (current.months subject stored found).trans (startOfMonthTs_mono after)

/-- A step that leaves all subjects and all months. -/
theorem of_leaves {db db' : BillingDb} {clock : Int} (current : LedgerCurrent db clock)
    (step : LedgerStep db db') (leaves : ∀ subject, LeavesSubject db db' subject)
    (months : ∀ subject, db'.MonthNotPast subject (startOfMonthTs clock)) :
    LedgerCurrent db' clock where
  exact := step.exact current.exact
  past := fun subject => (leaves subject.billingSubject).recordedBy (current.past subject)
  months := months

theorem annotate {db : BillingDb} {clock : Int} (current : LedgerCurrent db clock) (logId : Int)
    (message : String) : LedgerCurrent (annotatePendingBillingLog db logId message) clock :=
  current.of_leaves (annotatePendingBillingLog_step db logId message)
    (annotatePendingBillingLog_leaves db logId message) current.months

/-- A charge counts for the month of its row, which is not ahead of the clock. -/
theorem settles {db db' : BillingDb} {clock logId : Int} {row : AuthTokenLog}
    (current : LedgerCurrent db clock) (step : LedgerStep db db')
    (settles : Settles db db' logId row) : LedgerCurrent db' clock := by
  refine current.of_leaves step settles.leaves fun subject => ?_
  rcases settles.counted with ⟨_, same⟩ | ⟨charged, costs, owner, counted⟩
  · intro stored found
    rw [same.month] at found
    exact current.months subject stored found
  · have early : row.createdAt.secs ≤ clock := by
      apply Int.not_lt.1
      intro late
      have recorded : row.RecordedFor charged := ⟨.inl settles.pending, costs, owner⟩
      have counts := (db.authTokenLogs.total_eq_zero_iff
        fun row => row.recordedFor_nonneg charged fun ts => clock < ts).1 (current.past charged)
        logId row settles.found
      rw [AuthTokenLog.recordedFor, if_pos ⟨recorded, decide_eq_true late⟩] at counts
      omega
    intro stored found
    rw [counted.month, charge_monthlyQuota, claim_monthlyQuota] at found
    by_cases same : subject = charged
    · subst same
      rw [find_chargeMonth_self] at found
      cases found
      cases before : db.monthlyQuota.find subject with
      | none => exact startOfMonthTs_mono early
      | some old =>
          have bound := current.months subject old before
          simp only [Option.elim_some, MonthlyQuotaRow.charge_monthStart]
          exact max_le bound (startOfMonthTs_mono early)
    · rw [find_chargeMonth_of_ne _ same] at found
      exact current.months subject stored found

theorem apply {db : BillingDb} {clock : Int} (current : LedgerCurrent db clock)
    (env : BillingEnv) (logId : Int) (healthy : Option Nat) :
    LedgerCurrent (applyPendingBillingLog env logId healthy db).2 clock := by
  have step := applyPendingBillingLog_step env logId healthy db
  rcases applyPendingBillingLog_cases env logId healthy db with
    ⟨e, failed⟩ | ⟨settled, _⟩ | ⟨row, db', charged, settles⟩
  · rw [failed]
    exact current
  · rw [settled]
    exact current
  · rw [charged] at step ⊢
    exact current.settles step settles

/-- A reset into a month for which nothing is recorded takes nothing away. -/
theorem reset {db : BillingDb} {clock now : Int} (current : LedgerCurrent db clock)
    {own : QuotaSubject} (before : now ≤ clock)
    (reconciled : db.Reconciled own.billingSubject) (past : db.RecordedBy own now)
    (nothing : db.recordedInWindow own .month now = 0) :
    LedgerCurrent
      { db with monthlyQuota := resetMonth db.monthlyQuota own (startOfMonthTs now) } clock where
  exact := by
    refine ⟨current.exact.buckets, current.exact.minutes, current.exact.hours,
      current.exact.windows, ?_⟩
    intro subject monthStart notPast
    by_cases same : subject = own
    · subst same
      rw [countIn_resetMonth_self]
      cases stored : db.monthlyQuota.find subject with
      | none =>
          have exact := current.exact.month subject monthStart
            (fun row found => by rw [stored] at found; cases found)
          rw [countIn_of_none stored] at exact
          exact exact
      | some row =>
          have bound : startOfMonthTs now ≤ monthStart :=
            notPast ⟨startOfMonthTs now, 0⟩ (by simp [stored])
          -- No row of this month or of a later one is there.
          have above : db.chargedInMonth subject monthStart ≤ 0 := by
            rw [← nothing, chargedInMonth, ← reconciled.recordedWhere_eq,
              ← past.recordedWhere_eq]
            apply recordedWhere_mono
            intro ts counted
            rw [Bool.and_eq_true, decide_eq_true_eq, decide_eq_true_eq] at counted
            have month := startOfMonthTs_mono counted.2
            exact decide_eq_true (by omega)
          have below : 0 ≤ db.chargedInMonth subject monthStart := by
            rw [chargedInMonth, ← reconciled.recordedWhere_eq]
            exact db.recordedWhere_nonneg subject _
          exact Int.le_antisymm below above
    · rw [countIn_resetMonth_of_ne _ same]
      refine current.exact.month subject monthStart fun stored found => notPast stored ?_
      rw [find_resetMonth_of_ne _ same, found]
  past := current.past
  months := by
    intro subject stored found
    by_cases same : subject = own
    · subst same
      rw [find_resetMonth_self, Option.map_eq_some_iff] at found
      obtain ⟨_, _, rfl⟩ := found
      exact startOfMonthTs_mono before
    · rw [find_resetMonth_of_ne _ same] at found
      exact current.months subject stored found

theorem insert {db : BillingDb} {clock : UtcTimestamp} (current : LedgerCurrent db clock.secs)
    (attempt : PendingBillingAttempt) :
    LedgerCurrent (insertTokenLogPendingBilling db attempt clock).2 clock.secs where
  exact := (insertTokenLogPendingBilling_step db attempt clock).exact current.exact
  past := by
    intro subject
    have now : (attempt.row clock).recordedFor subject (fun ts => clock.secs < ts) = 0 := by
      simp [AuthTokenLog.recordedFor, PendingBillingAttempt.row]
    have before := current.past subject
    unfold RecordedBy at before ⊢
    rw [recordedWhere_eq] at before ⊢
    rw [insertTokenLogPendingBilling, AutoIncrement.total_insert, now, before]
    rfl
  months := current.months

end LedgerCurrent

end TavilyHikari.Store
