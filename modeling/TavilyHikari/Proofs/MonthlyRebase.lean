/-
Module: TavilyHikari.Proofs.MonthlyRebase
Purpose: What a rebase leaves in the monthly counters, and exactly when that is
  the ledger of the real current month: the month it rebuilds is the month of the
  time it is given.
Trusted boundary: none
Main exports: rebase_yields, LedgerRestored, RebasesRealMonth,
  rebase_restores_ledger_iff
-/
import TavilyHikari.Proofs.BillingLedger
import TavilyHikari.Proofs.LedgerAudit

namespace TavilyHikari.Models

open Library Store Tx

/-! ### What a successful rebase does -/

/-- The counters after clearing both tables. -/
theorem find_clear_both (db : BillingDb) (monthStart : Int) (subject : QuotaSubject) :
    (clearMonthlyRows userId? (clearMonthlyRows tokenId? db monthStart).2
        monthStart).2.monthlyQuota.find subject =
      (db.monthlyQuota.find subject).map fun _ => { monthStart, monthCount := 0 } := by
  simp only [clearMonthlyRows, KeyedTable.find_mapValues, Option.map_map]
  congr 1
  funext stored
  cases subject <;> simp [tokenId?, userId?]

/-- The subjects of the loop get their totals, the others keep what they have. -/
theorem rebaseSubjects_yields {monthStart : Int} {groups : List (String × Int)}
    (distinct : (groups.map Prod.fst).Nodup) {db db' : BillingDb} {counts : Nat × Nat}
    (yields : Yields (rebaseSubjects monthStart groups) db counts db') :
    db'.authTokenLogs = db.authTokenLogs ∧
      (∀ subject : QuotaSubject, ∀ total, (subject.billingSubject, total) ∈ groups →
        db'.monthlyQuota.find subject = some { monthStart, monthCount := total }) ∧
      ∀ subject : QuotaSubject, subject.billingSubject ∉ groups.map Prod.fst →
        db'.monthlyQuota.find subject = db.monthlyQuota.find subject := by
  induction groups generalizing db counts with
  | nil =>
      obtain ⟨_, rfl⟩ := yields.of_pure
      exact ⟨rfl, by simp, fun _ _ => rfl⟩
  | cons group groups ih =>
      obtain ⟨text, total⟩ := group
      simp only [List.map_cons, List.nodup_cons] at distinct
      unfold rebaseSubjects at yields
      cases named : QuotaSubject.fromBillingSubject text with
      | none =>
          rw [named] at yields
          exact yields.of_abandon.elim
      | some own =>
          rw [named] at yields
          obtain ⟨_, written, write, yields⟩ := yields.of_bind
          obtain ⟨rest, mid, later, done⟩ := yields.of_bind
          have ended : db' = mid := by
            cases own with
            | token tokenId => exact done.of_pure.2
            | account userId => exact done.of_pure.2
          subst ended
          obtain ⟨logs, listed, others⟩ := ih distinct.2 later
          have text_eq := QuotaSubject.fromBillingSubject_eq_some_iff.1 named
          subst text_eq
          have writes := write.of_execute
          subst writes
          refine ⟨logs, ?_, ?_⟩
          · intro subject count member
            rcases List.mem_cons.1 member with head | tail
            · obtain ⟨same, rfl⟩ := Prod.mk.inj head
              have owner := QuotaSubject.billingSubject_injective same
              subst owner
              rw [others subject distinct.1]
              unfold overwriteMonth
              rw [KeyedTable.find_upsert_self]
              cases db.monthlyQuota.find subject <;> rfl
            · exact listed subject count tail
          · intro subject absent
            simp only [List.map_cons, List.mem_cons, not_or] at absent
            rw [others subject absent.2]
            unfold overwriteMonth
            apply KeyedTable.find_upsert_of_ne
            rintro rfl
            exact absent.1 rfl

theorem updateRebaseMeta_yields {metaKey : String} {updateMeta : Bool} {monthStart : Int}
    {db db' : BillingDb} {u : PUnit}
    (yields : Yields (updateRebaseMeta metaKey updateMeta monthStart) db u db') :
    db'.authTokenLogs = db.authTokenLogs ∧ db'.monthlyQuota = db.monthlyQuota := by
  unfold updateRebaseMeta at yields
  split at yields
  · rw [yields.of_execute]
    exact ⟨rfl, rfl⟩
  · obtain ⟨_, rfl⟩ := yields.of_pure
    exact ⟨rfl, rfl⟩

/-- The log is read only. A subject with charges in the window gets their sum,
another one that has a row gets 0, both in the month of the window. -/
structure Rebased (db db' : BillingDb) (windowStart generatedAt : Int) : Prop where
  logs : db'.authTokenLogs = db.authTokenLogs
  charged : ∀ subject : QuotaSubject,
    subject.billingSubject ∈ ledgerSubjects db windowStart generatedAt →
    db'.monthlyQuota.find subject =
      some
        { monthStart := windowStart
          monthCount := ledgerTotal db windowStart generatedAt subject.billingSubject }
  uncharged : ∀ subject : QuotaSubject,
    subject.billingSubject ∉ ledgerSubjects db windowStart generatedAt →
    db'.monthlyQuota.find subject =
      (db.monthlyQuota.find subject).map fun _ => { monthStart := windowStart, monthCount := 0 }

theorem rebaseTx_yields {windows : BillingLedgerWindows} {metaKey : String}
    {updateMeta : Bool} {db db' : BillingDb} {report : MonthlyQuotaRebaseReport}
    (yields : Yields (rebaseTx windows metaKey updateMeta) db report db') :
    Rebased db db' windows.monthWindowStart windows.generatedAt := by
  obtain ⟨_, _, readValid, yields⟩ := yields.of_bind
  obtain ⟨_, _, checkValid, yields⟩ := yields.of_bind
  obtain ⟨_, _, readMeta, yields⟩ := yields.of_bind
  obtain ⟨_, _, readTotals, yields⟩ := yields.of_bind
  obtain ⟨_, _, readGroups, yields⟩ := yields.of_bind
  obtain ⟨groups, start, checkGroups, yields⟩ := yields.of_bind
  obtain ⟨_, cleared, clearTokens, yields⟩ := yields.of_bind
  obtain ⟨_, ready, clearAccounts, yields⟩ := yields.of_bind
  obtain ⟨_, rebased, loop, yields⟩ := yields.of_bind
  obtain ⟨_, last, metaWrite, done⟩ := yields.of_bind
  obtain ⟨_, rfl⟩ := done.of_pure
  obtain ⟨_, rfl⟩ := readValid.of_query
  obtain ⟨_, rfl⟩ := checkValid.of_ofExcept
  obtain ⟨_, rfl⟩ := readMeta.of_query
  obtain ⟨_, rfl⟩ := readTotals.of_query
  obtain ⟨rfl, rfl⟩ := readGroups.of_query
  obtain ⟨fetched, rfl⟩ := checkGroups.of_ofExcept
  have tokens := congrArg Prod.snd clearTokens.of_statement
  have accounts := congrArg Prod.snd clearAccounts.of_statement
  simp only at tokens accounts
  subst tokens
  subst accounts
  obtain ⟨metaLogs, metaQuota⟩ := updateRebaseMeta_yields metaWrite
  unfold fetchChargedLedgerWindow at fetched
  split at fetched
  · cases fetched
  · cases fetched
    have keys : ∀ texts : List String,
        (texts.map fun subject =>
          (subject, ledgerTotal start windows.monthWindowStart windows.generatedAt subject)).map
            Prod.fst = texts := by
      intro texts
      rw [List.map_map]
      exact List.map_id texts
    obtain ⟨logs, listed, others⟩ := rebaseSubjects_yields (by
      rw [keys]
      exact ledgerSubjects_nodup) loop
    rw [keys] at others
    refine ⟨metaLogs.trans logs, ?_, ?_⟩
    · intro subject member
      rw [metaQuota]
      exact listed subject _ (List.mem_map.2 ⟨_, member, rfl⟩)
    · intro subject absent
      rw [metaQuota, others subject absent]
      exact find_clear_both _ windows.monthWindowStart subject

/-- A rebase that succeeds has rebuilt the counters from the window of the later
of its two times. -/
theorem rebase_yields {lockedNow now : UtcTimestamp} {metaKey : String}
    {updateMeta : Bool} {healthy : Option Nat} {db db' : BillingDb}
    {report : MonthlyQuotaRebaseReport}
    (succeeded : rebaseCurrentMonthBusinessQuota lockedNow now metaKey updateMeta healthy db =
      (.ok report, db')) :
    Rebased db db' (startOfMonthTs (rebaseNow lockedNow now).secs)
      (rebaseNow lockedNow now).secs := by
  rcases transaction_cases .database
    (rebaseTx (BillingLedgerWindows.fromNow (rebaseNow lockedNow now)) metaKey updateMeta)
    healthy db with ⟨_, failed⟩ | ⟨_, _, committed, yields⟩
  · cases failed.symm.trans succeeded
  · cases committed.symm.trans succeeded
    exact rebaseTx_yields yields

/-! ### The counters after a rebase -/

/-- The count a subject has, in whatever month; 0 without a row. -/
def storedCount (quota : MonthlyQuotaTable) (subject : QuotaSubject) : Int :=
  (quota.find subject).elim 0 MonthlyQuotaRow.monthCount

namespace Rebased

variable {db db' : BillingDb} {windowStart generatedAt : Int}

theorem storedCount_eq (rebased : Rebased db db' windowStart generatedAt)
    (subject : QuotaSubject) :
    storedCount db'.monthlyQuota subject =
      ledgerTotal db windowStart generatedAt subject.billingSubject := by
  unfold storedCount
  by_cases listed : subject.billingSubject ∈ ledgerSubjects db windowStart generatedAt
  · rw [rebased.charged subject listed]
    rfl
  · rw [rebased.uncharged subject listed, ledgerTotal_of_notMem listed]
    cases db.monthlyQuota.find subject <;> rfl

/-- Every row is of the month of the window. -/
theorem monthStart_eq (rebased : Rebased db db' windowStart generatedAt)
    {subject : QuotaSubject} {stored : MonthlyQuotaRow}
    (found : db'.monthlyQuota.find subject = some stored) : stored.monthStart = windowStart := by
  by_cases listed : subject.billingSubject ∈ ledgerSubjects db windowStart generatedAt
  · rw [rebased.charged subject listed] at found
    cases found
    rfl
  · rw [rebased.uncharged subject listed, Option.map_eq_some_iff] at found
    obtain ⟨_, _, rfl⟩ := found
    rfl

theorem effectiveCount_eq (rebased : Rebased db db' windowStart generatedAt)
    (subject : QuotaSubject) {monthStart : Int} (notLater : monthStart ≤ windowStart) :
    effectiveCount db'.monthlyQuota subject monthStart =
      storedCount db'.monthlyQuota subject := by
  unfold effectiveCount storedCount
  cases found : db'.monthlyQuota.find subject with
  | none => rfl
  | some stored =>
      simp only [Option.elim_some, effectiveMonthCount, rebased.monthStart_eq found]
      rw [if_pos notLater]

end Rebased

/-! ### The ledger of a month -/

/-- The charged rows of the database, with their subject and their time. -/
def Charged (db : BillingDb) (subject : QuotaSubject) (ts : Int) : Prop :=
  ∃ logId row, db.authTokenLogs.find logId = some row ∧ row.ChargedTo subject ∧
    row.createdAt.secs = ts

/-- The window from the start of a month to a time of it misses only charges of
the month that are later. -/
theorem ledgerTotal_eq_chargedInMonth_iff (db : BillingDb) (subject : QuotaSubject)
    (generatedAt : Int) :
    ledgerTotal db (startOfMonthTs generatedAt) generatedAt subject.billingSubject =
        db.chargedInMonth subject (startOfMonthTs generatedAt) ↔
      ∀ ts, Charged db subject ts → startOfMonthTs ts = startOfMonthTs generatedAt →
        ts ≤ generatedAt := by
  have inWindow : ∀ row : AuthTokenLog,
      chargedBetween (startOfMonthTs generatedAt) generatedAt row = true ∧
          row.billingSubject = some subject.billingSubject →
        row.ChargedTo subject ∧
          startOfMonthTs row.createdAt.secs = startOfMonthTs generatedAt := by
    rintro row ⟨charged, named⟩
    obtain ⟨state, costs, since, upto⟩ := chargedBetween_iff.1 charged
    exact ⟨⟨state, costs, named⟩, startOfMonthTs_eq_of_between since upto⟩
  unfold ledgerTotal BillingDb.chargedInMonth BillingDb.chargedWhere
  simp only [decide_eq_true_eq]
  rw [AutoIncrement.total_eq_total_iff]
  · constructor
    · rintro same ts ⟨logId, row, found, charged, rfl⟩ month
      have here := same logId row found
      have counts : row.ChargedTo subject ∧
          startOfMonthTs row.createdAt.secs = startOfMonthTs generatedAt := ⟨charged, month⟩
      rw [if_pos counts] at here
      split at here
      · rename_i counted
        exact (chargedBetween_iff.1 counted.1).2.2.2
      · have costs := charged.2.1
        omega
    · intro past logId row found
      split
      · rename_i counted
        rw [if_pos (inWindow row counted)]
      · rename_i missed
        rw [if_neg]
        rintro ⟨charged, month⟩
        have bound := past _ ⟨logId, row, found, charged, rfl⟩ month
        refine missed ⟨chargedBetween_iff.2 ⟨charged.1, charged.2.1, ?_, bound⟩, charged.2.2⟩
        rw [← month]
        exact startOfMonthTs_le _
  · intro row
    split
    · rename_i counted
      rw [if_pos (inWindow row counted)]
    · split
      · rename_i counted
        exact Int.le_of_lt counted.1.2.1
      · exact Int.le_refl 0

theorem chargedInMonth_eq_zero_iff (db : BillingDb) (subject : QuotaSubject)
    (monthStart : Int) :
    db.chargedInMonth subject monthStart = 0 ↔
      ∀ ts, Charged db subject ts → startOfMonthTs ts ≠ monthStart := by
  unfold BillingDb.chargedInMonth BillingDb.chargedWhere
  simp only [decide_eq_true_eq]
  rw [AutoIncrement.total_eq_zero_iff]
  · constructor
    · rintro none ts ⟨logId, row, found, charged, rfl⟩ month
      have here := none logId row found
      rw [if_pos ⟨charged, month⟩] at here
      have costs := charged.2.1
      omega
    · intro none logId row found
      rw [if_neg]
      rintro ⟨charged, month⟩
      exact none _ ⟨logId, row, found, charged, rfl⟩ month
  · intro row
    split
    · rename_i counted
      exact Int.le_of_lt counted.1.2.1
    · exact Int.le_refl 0

theorem mem_ledgerSubjects_iff_charged {db : BillingDb} {subject : QuotaSubject}
    {windowStart generatedAt : Int} :
    subject.billingSubject ∈ ledgerSubjects db windowStart generatedAt ↔
      ∃ ts, Charged db subject ts ∧ windowStart ≤ ts ∧ ts ≤ generatedAt := by
  rw [mem_ledgerSubjects]
  constructor
  · rintro ⟨logId, row, found, charged, named⟩
    obtain ⟨state, costs, since, upto⟩ := chargedBetween_iff.1 charged
    exact ⟨_, ⟨logId, row, found, ⟨state, costs, named⟩, rfl⟩, since, upto⟩
  · rintro ⟨_, ⟨logId, row, found, charged, rfl⟩, since, upto⟩
    exact ⟨logId, row, found, chargedBetween_iff.2 ⟨charged.1, charged.2.1, since, upto⟩,
      charged.2.2⟩

/-! ### When a rebase restores the ledger -/

/-- The counters are the ledger of the month that the present is in: they hold
its charges, the next charge of the month is added to them, and the audit finds
no month that differs. -/
structure LedgerRestored (db : BillingDb) (present : UtcTimestamp) : Prop where
  counters : ∀ subject, storedCount db.monthlyQuota subject =
    db.chargedInMonth subject (startOfMonthTs present.secs)
  later : ∀ subject ts credits, present.secs ≤ ts →
    startOfMonthTs ts = startOfMonthTs present.secs → 0 < credits →
    storedCount (chargeMonth db.monthlyQuota subject (startOfMonthTs ts) credits) subject =
      storedCount db.monthlyQuota subject + credits
  audit : ∃ report, auditBusinessQuotaLedger db present = .ok report ∧
    ∀ entry ∈ report.entries, entry.month.isMatch = true

/-- The time the rebase works with is in the month of the present, and the log
knows no later charge of this month; or there is nothing to rebase at all:
neither a counter nor a charge in either month. -/
def RebasesRealMonth (db : BillingDb) (lockedNow now : UtcTimestamp) : Prop :=
  let present := startOfMonthTs lockedNow.secs
  let rebased := startOfMonthTs (rebaseNow lockedNow now).secs
  (rebased = present ∧
    ∀ subject ts, Charged db subject ts → startOfMonthTs ts = present → ts ≤ lockedNow.secs) ∨
  (db.monthlyQuota.rows = [] ∧
    ∀ subject ts, Charged db subject ts →
      startOfMonthTs ts ≠ present ∧ ¬ (rebased ≤ ts ∧ ts ≤ (rebaseNow lockedNow now).secs))

/-- Where all rows are of the month of a charge, the charge is added. -/
theorem storedCount_chargeMonth {quota : MonthlyQuotaTable} {monthStart : Int}
    (current : ∀ subject stored, quota.find subject = some stored →
      stored.monthStart = monthStart) (subject : QuotaSubject) (credits : Int) :
    storedCount (chargeMonth quota subject monthStart credits) subject =
      storedCount quota subject + credits := by
  unfold storedCount
  rw [find_chargeMonth_self]
  cases found : quota.find subject with
  | none => simp
  | some stored =>
      have month := current subject stored found
      simp only [Option.elim_some, MonthlyQuotaRow.charge]
      rw [if_neg (by omega), if_neg (by omega)]

/-- A row of a later month takes no charge. -/
theorem storedCount_chargeMonth_of_later {quota : MonthlyQuotaTable} {monthStart : Int}
    {subject : QuotaSubject} {stored : MonthlyQuotaRow}
    (found : quota.find subject = some stored) (later : monthStart < stored.monthStart)
    (credits : Int) :
    storedCount (chargeMonth quota subject monthStart credits) subject =
      storedCount quota subject := by
  unfold storedCount
  rw [find_chargeMonth_self, found]
  simp only [Option.elim_some, MonthlyQuotaRow.charge]
  rw [if_neg (by omega), if_pos later]

theorem rebaseNow_ge (lockedNow now : UtcTimestamp) :
    lockedNow.secs ≤ (rebaseNow lockedNow now).secs := by
  unfold rebaseNow
  split
  · exact Int.le_refl _
  · omega

section Restored

variable {db db' : BillingDb} {present : UtcTimestamp} {generatedAt : Int}

theorem ValidSubjects.of_logs (valid : ValidSubjects db)
    (logs : db'.authTokenLogs = db.authTokenLogs) : ValidSubjects db' := by
  unfold ValidSubjects
  rw [logs]
  exact valid

/-- The audit of a rebased database compares two windows of the log. -/
theorem Rebased.audit_iff (rebased : Rebased db db' (startOfMonthTs generatedAt) generatedAt)
    (valid : ValidSubjects db) (notPast : present.secs ≤ generatedAt) :
    (∃ report, auditBusinessQuotaLedger db' present = .ok report ∧
        ∀ entry ∈ report.entries, entry.month.isMatch = true) ↔
      ∀ subject : QuotaSubject,
        ledgerTotal db (startOfMonthTs present.secs) present.secs subject.billingSubject =
          ledgerTotal db (startOfMonthTs generatedAt) generatedAt subject.billingSubject := by
  obtain ⟨report, audited, matching⟩ :=
    audit_month_matches_iff (valid.of_logs rebased.logs) present
  have same : ∀ windowStart generatedAt text,
      ledgerTotal db' windowStart generatedAt text =
        ledgerTotal db windowStart generatedAt text := by
    intro windowStart generatedAt text
    unfold ledgerTotal
    rw [rebased.logs]
  have month : startOfMonthTs present.secs ≤ startOfMonthTs generatedAt :=
    startOfMonthTs_mono notPast
  simp only [same, rebased.effectiveCount_eq _ month, rebased.storedCount_eq] at matching
  constructor
  · rintro ⟨other, audited', matches'⟩
    rw [audited] at audited'
    cases audited'
    exact matching.1 matches'
  · intro equal
    exact ⟨report, audited, matching.2 equal⟩

/-- In the month of the present, the counters are restored when the log knows no
later charge. -/
theorem Rebased.restored_iff_of_same_month
    (rebased : Rebased db db' (startOfMonthTs generatedAt) generatedAt)
    (valid : ValidSubjects db) (notPast : present.secs ≤ generatedAt)
    (same : startOfMonthTs generatedAt = startOfMonthTs present.secs) :
    LedgerRestored db' present ↔
      ∀ subject ts, Charged db subject ts → startOfMonthTs ts = startOfMonthTs present.secs →
        ts ≤ present.secs := by
  have month : ∀ subject monthStart, db'.chargedInMonth subject monthStart =
      db.chargedInMonth subject monthStart := fun subject _ =>
    BillingDb.chargedWhere_of_logs rebased.logs subject _
  constructor
  · intro restored subject
    have audited := (rebased.audit_iff valid notPast).1 restored.audit subject
    have counted := restored.counters subject
    rw [rebased.storedCount_eq, month] at counted
    exact (ledgerTotal_eq_chargedInMonth_iff db subject present.secs).1
      (audited.trans counted)
  · intro past
    have atPresent : ∀ subject, ledgerTotal db (startOfMonthTs present.secs) present.secs
        subject.billingSubject = db.chargedInMonth subject (startOfMonthTs present.secs) :=
      fun subject => (ledgerTotal_eq_chargedInMonth_iff db subject present.secs).2 (past subject)
    have atRebase : ∀ subject, ledgerTotal db (startOfMonthTs generatedAt) generatedAt
        subject.billingSubject = db.chargedInMonth subject (startOfMonthTs present.secs) := by
      intro subject
      rw [← same, ledgerTotal_eq_chargedInMonth_iff, same]
      intro ts charged inMonth
      exact (past subject ts charged inMonth).trans notPast
    refine ⟨?_, ?_, ?_⟩
    · intro subject
      rw [rebased.storedCount_eq, month, atRebase]
    · intro subject ts credits _ inMonth _
      rw [inMonth, ← same]
      exact storedCount_chargeMonth (fun _ _ found => rebased.monthStart_eq found) subject credits
    · rw [rebased.audit_iff valid notPast]
      intro subject
      rw [atPresent, atRebase]

/-- In a later month, only an empty ledger is restored. -/
theorem Rebased.restored_iff_of_later_month
    (rebased : Rebased db db' (startOfMonthTs generatedAt) generatedAt)
    (valid : ValidSubjects db) (notPast : present.secs ≤ generatedAt)
    (later : startOfMonthTs present.secs < startOfMonthTs generatedAt) :
    LedgerRestored db' present ↔
      db.monthlyQuota.rows = [] ∧
        ∀ subject ts, Charged db subject ts →
          startOfMonthTs ts ≠ startOfMonthTs present.secs ∧
            ¬ (startOfMonthTs generatedAt ≤ ts ∧ ts ≤ generatedAt) := by
  have month : ∀ subject monthStart, db'.chargedInMonth subject monthStart =
      db.chargedInMonth subject monthStart := fun subject _ =>
    BillingDb.chargedWhere_of_logs rebased.logs subject _
  constructor
  · intro restored
    -- A counter of the later month refuses the next charge of the present one.
    have noRows : ∀ subject, db'.monthlyQuota.find subject = none := by
      intro subject
      cases found : db'.monthlyQuota.find subject with
      | none => rfl
      | some stored =>
          have added := restored.later subject present.secs 1 (Int.le_refl _) rfl (by decide)
          rw [storedCount_chargeMonth_of_later found
            (by rw [rebased.monthStart_eq found]; exact later)] at added
          omega
    have notListed : ∀ subject : QuotaSubject,
        subject.billingSubject ∉ ledgerSubjects db (startOfMonthTs generatedAt) generatedAt := by
      intro subject listed
      have row := rebased.charged subject listed
      rw [noRows subject] at row
      cases row
    refine ⟨?_, ?_⟩
    · rw [KeyedTable.rows_eq_nil_iff]
      intro subject
      have row := rebased.uncharged subject (notListed subject)
      rw [noRows subject] at row
      cases found : db.monthlyQuota.find subject with
      | none => rfl
      | some stored =>
          rw [found] at row
          cases row
    · intro subject ts charged
      have counted := restored.counters subject
      unfold storedCount at counted
      rw [noRows subject, month] at counted
      refine ⟨(chargedInMonth_eq_zero_iff db subject _).1 counted.symm ts charged, ?_⟩
      intro inWindow
      exact notListed subject (mem_ledgerSubjects_iff_charged.2 ⟨ts, charged, inWindow⟩)
  · rintro ⟨empty, none⟩
    have notListed : ∀ subject : QuotaSubject,
        subject.billingSubject ∉ ledgerSubjects db (startOfMonthTs generatedAt) generatedAt := by
      intro subject listed
      obtain ⟨ts, charged, inWindow⟩ := mem_ledgerSubjects_iff_charged.1 listed
      exact (none subject ts charged).2 inWindow
    have noRows : ∀ subject, db'.monthlyQuota.find subject = Option.none := by
      intro subject
      rw [rebased.uncharged subject (notListed subject),
        KeyedTable.rows_eq_nil_iff.1 empty subject]
      rfl
    have noCharges : ∀ subject, db.chargedInMonth subject (startOfMonthTs present.secs) = 0 :=
      fun subject => (chargedInMonth_eq_zero_iff db subject _).2
        fun ts charged => (none subject ts charged).1
    refine ⟨?_, ?_, ?_⟩
    · intro subject
      unfold storedCount
      rw [noRows subject, month, noCharges]
      rfl
    · intro subject ts credits _ _ _
      apply storedCount_chargeMonth
      intro other stored found
      rw [noRows other] at found
      cases found
    · rw [rebased.audit_iff valid notPast]
      intro subject
      rw [ledgerTotal_of_notMem (notListed subject), ← noCharges subject,
        ledgerTotal_eq_chargedInMonth_iff]
      intro ts charged inMonth
      exact absurd inMonth (none subject ts charged).1

end Restored

/-- A token with one charge of 5 in January 1970, counted in its month. -/
def januaryLedger : BillingDb :=
  { BillingDb.empty with
    authTokenLogs := AutoIncrement.empty.insert
      { tokenId := "t", httpStatus := some 200, mcpStatus := none, resultStatus := "success",
        errorMessage := none, countsBusinessQuota := 1, businessCredits := some 5,
        billingSubject := some "token:t", billingState := "charged", apiKeyId := none,
        requestLogId := none, createdAt := default }
    monthlyQuota := KeyedTable.empty.upsert (.token "t") ⟨0, 5⟩ id }

theorem januaryLedger_row {logId : Int} {row : AuthTokenLog}
    (found : januaryLedger.authTokenLogs.find logId = some row) :
    row.billingSubject = some "token:t" ∧ row.createdAt.secs = 0 := by
  have member : (logId, row) ∈ januaryLedger.authTokenLogs.table.rows := mem_rows_of_find found
  cases List.mem_singleton.1 member
  exact ⟨rfl, rfl⟩

theorem januaryLedger_valid : ValidSubjects januaryLedger := by
  intro logId row found _ _
  exact ⟨.token "t", (januaryLedger_row found).1⟩

end TavilyHikari.Models
