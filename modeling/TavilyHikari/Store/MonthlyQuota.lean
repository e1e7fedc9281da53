/-
Module: TavilyHikari.Store.MonthlyQuota
Purpose: The monthly quota counters of `store/mod.rs`: the upsert every charge
  runs, and the readers that roll a stale row over to the current month.
Trusted boundary: none
Main exports: MonthlyQuotaRow, MonthlyQuotaTable, chargeMonth, resetMonth,
  staleSubjects, fetchSubjectMonthlyCount, fetchSubjectMonthlyCounts,
  incrementMonthlyQuotaBy
-/
import TavilyHikari.Library.Calendar
import TavilyHikari.Library.KeyedTable
import TavilyHikari.Store.QuotaSubject

namespace TavilyHikari.Store

open Library

/-- A row of `auth_token_quota` or `account_monthly_quota`. -/
structure MonthlyQuotaRow where
  monthStart : Int
  monthCount : Int
deriving DecidableEq, Repr

/-- Both monthly tables. The key says which of them a row belongs to: token
subjects are rows of `auth_token_quota`, accounts of `account_monthly_quota`. -/
abbrev MonthlyQuotaTable := KeyedTable QuotaSubject MonthlyQuotaRow

/-- The `DO UPDATE SET` of the monthly upserts. -/
def MonthlyQuotaRow.charge (stored : MonthlyQuotaRow) (monthStart credits : Int) :
    MonthlyQuotaRow where
  monthStart :=
    if monthStart > stored.monthStart then monthStart else stored.monthStart
  monthCount :=
    if monthStart > stored.monthStart then credits
    else if monthStart < stored.monthStart then stored.monthCount
    else stored.monthCount + credits

/-- The monthly upsert of `apply_pending_billing_log` and of
`increment_monthly_quota_by`. -/
def chargeMonth (quota : MonthlyQuotaTable) (subject : QuotaSubject)
    (monthStart credits : Int) : MonthlyQuotaTable :=
  quota.upsert subject { monthStart := monthStart, monthCount := credits }
    fun stored => stored.charge monthStart credits

/-- `UPDATE ... SET month_start = ?, month_count = 0 WHERE` the subject. The
statement has no condition on the month it overwrites. -/
def resetMonth (quota : MonthlyQuotaTable) (subject : QuotaSubject)
    (monthStart : Int) : MonthlyQuotaTable :=
  quota.modify subject fun _ => { monthStart := monthStart, monthCount := 0 }

/-- `SELECT ..., month_start, month_count ... WHERE` the subject `IN` a list. -/
def selectMonthRows (quota : MonthlyQuotaTable) (subjects : List QuotaSubject) :
    List (QuotaSubject × MonthlyQuotaRow) :=
  quota.rows.filter fun row => row.1 ∈ subjects

/-- The count a reader reports for a selected row. -/
def MonthlyQuotaRow.reported (stored : MonthlyQuotaRow) (currentMonthStart : Int) : Int :=
  if stored.monthStart < currentMonthStart then 0 else stored.monthCount

/-- `stale_ids`: the selected rows of an earlier month, which the reader then
resets one `UPDATE` at a time. -/
def staleSubjects (rows : List (QuotaSubject × MonthlyQuotaRow))
    (currentMonthStart : Int) : List QuotaSubject :=
  (rows.filter fun row => row.2.monthStart < currentMonthStart).map Prod.fst

/-- What `fetch_monthly_counts` and `fetch_account_monthly_counts` do with the rows
of their subjects, run without anybody else in between. -/
def fetchSubjectMonthlyCounts (quota : MonthlyQuotaTable)
    (subjects : List QuotaSubject) (currentMonthStart : Int) :
    List (QuotaSubject × Int) × MonthlyQuotaTable :=
  if subjects.isEmpty then ([], quota)
  else
    let rows := selectMonthRows quota subjects
    (rows.map fun row => (row.1, row.2.reported currentMonthStart),
      (staleSubjects rows currentMonthStart).foldl
        (fun quota subject => resetMonth quota subject currentMonthStart) quota)

/-- `fetch_monthly_count` and `fetch_account_monthly_count`, run without anybody
else in between. -/
def fetchSubjectMonthlyCount (quota : MonthlyQuotaTable) (subject : QuotaSubject)
    (currentMonthStart : Int) : Int × MonthlyQuotaTable :=
  match quota.find subject with
  | none => (0, quota)
  | some stored =>
      if stored.monthStart < currentMonthStart then
        (0, resetMonth quota subject currentMonthStart)
      else (stored.monthCount, quota)

def fetchMonthlyCount (quota : MonthlyQuotaTable) (tokenId : String)
    (currentMonthStart : Int) : Int × MonthlyQuotaTable :=
  fetchSubjectMonthlyCount quota (.token tokenId) currentMonthStart

def fetchAccountMonthlyCount (quota : MonthlyQuotaTable) (userId : String)
    (currentMonthStart : Int) : Int × MonthlyQuotaTable :=
  fetchSubjectMonthlyCount quota (.account userId) currentMonthStart

/-- `increment_monthly_quota_by` and `increment_account_monthly_quota_by`. A
delta that is not positive only reads. -/
def incrementMonthlyQuotaBy (quota : MonthlyQuotaTable) (subject : QuotaSubject)
    (currentMonthStart delta : Int) : Int × MonthlyQuotaTable :=
  if delta ≤ 0 then fetchSubjectMonthlyCount quota subject currentMonthStart
  else
    let charged := chargeMonth quota subject currentMonthStart delta
    (((charged.find subject).map MonthlyQuotaRow.monthCount).getD 0, charged)

/-- What the table holds for a subject in one month: the count of its row when
the row is of that month. -/
def countIn (quota : MonthlyQuotaTable) (subject : QuotaSubject) (monthStart : Int) : Int :=
  match quota.find subject with
  | none => 0
  | some stored => if stored.monthStart = monthStart then stored.monthCount else 0

theorem countIn_of_find {quota : MonthlyQuotaTable} {subject : QuotaSubject}
    {stored : MonthlyQuotaRow} (found : quota.find subject = some stored)
    (monthStart : Int) :
    countIn quota subject monthStart =
      if stored.monthStart = monthStart then stored.monthCount else 0 := by
  rw [countIn, found]

theorem countIn_of_none {quota : MonthlyQuotaTable} {subject : QuotaSubject}
    (missing : quota.find subject = none) (monthStart : Int) :
    countIn quota subject monthStart = 0 := by
  rw [countIn, missing]

/-! ### What the statements do to a row -/

@[simp] theorem find_chargeMonth_self (quota : MonthlyQuotaTable)
    (subject : QuotaSubject) (monthStart credits : Int) :
    (chargeMonth quota subject monthStart credits).find subject =
      some ((quota.find subject).elim
        { monthStart := monthStart, monthCount := credits }
        fun stored => stored.charge monthStart credits) :=
  quota.find_upsert_self subject _ _

theorem find_chargeMonth_of_ne (quota : MonthlyQuotaTable)
    {subject other : QuotaSubject} (different : other ≠ subject)
    (monthStart credits : Int) :
    (chargeMonth quota subject monthStart credits).find other = quota.find other :=
  quota.find_upsert_of_ne different _ _

@[simp] theorem find_resetMonth_self (quota : MonthlyQuotaTable)
    (subject : QuotaSubject) (monthStart : Int) :
    (resetMonth quota subject monthStart).find subject =
      (quota.find subject).map
        fun _ => { monthStart := monthStart, monthCount := 0 } :=
  quota.find_modify_self subject _

theorem find_resetMonth_of_ne (quota : MonthlyQuotaTable)
    {subject other : QuotaSubject} (different : other ≠ subject)
    (monthStart : Int) :
    (resetMonth quota subject monthStart).find other = quota.find other :=
  quota.find_modify_of_ne different _

/-- No row goes back in time through a charge. -/
theorem MonthlyQuotaRow.charge_monthStart (stored : MonthlyQuotaRow)
    (monthStart credits : Int) :
    (stored.charge monthStart credits).monthStart = max stored.monthStart monthStart := by
  simp only [charge]
  split_ifs <;> omega

/-- A month that is not past after a charge was not past before it, nor is it
before the month of the charge. -/
theorem notPast_of_chargeMonth {quota : MonthlyQuotaTable} {subject other : QuotaSubject}
    {monthStart credits current : Int}
    (notPast : ∀ stored,
      (chargeMonth quota subject monthStart credits).find other = some stored →
        stored.monthStart ≤ current) :
    (∀ stored, quota.find other = some stored → stored.monthStart ≤ current) ∧
      (other = subject → monthStart ≤ current) := by
  by_cases same : other = subject
  · subst same
    have charged := notPast _ (find_chargeMonth_self quota other monthStart credits)
    cases found : quota.find other with
    | none =>
        rw [found] at charged
        exact ⟨fun _ impossible => (by cases impossible), fun _ => charged⟩
    | some old =>
        rw [found] at charged
        simp only [Option.elim_some, MonthlyQuotaRow.charge_monthStart] at charged
        refine ⟨?_, fun _ => (le_max_right _ _).trans charged⟩
        rintro stored ⟨⟩
        exact (le_max_left _ _).trans charged
  · rw [find_chargeMonth_of_ne quota same] at notPast
    exact ⟨notPast, fun equal => absurd equal same⟩

/-- A charge of a month that is not past adds its credits to what the table
holds for that month, whatever the row was before. -/
theorem countIn_chargeMonth_of_le (quota : MonthlyQuotaTable)
    (subject : QuotaSubject) (monthStart credits : Int)
    (notPast : ∀ stored, quota.find subject = some stored →
      stored.monthStart ≤ monthStart) :
    countIn (chargeMonth quota subject monthStart credits) subject monthStart =
      countIn quota subject monthStart + credits := by
  rw [countIn_of_find (find_chargeMonth_self quota subject monthStart credits)]
  cases found : quota.find subject with
  | none => simp [countIn_of_none found]
  | some stored =>
      have bound := notPast stored found
      rw [countIn_of_find found]
      simp only [Option.elim_some, MonthlyQuotaRow.charge]
      split_ifs <;> omega

/-- A charge of another month leaves the counter of a month alone, unless it
rolls the row past it. -/
theorem countIn_chargeMonth_of_lt (quota : MonthlyQuotaTable)
    (subject : QuotaSubject) {monthStart current : Int} (credits : Int)
    (earlier : monthStart < current) :
    countIn (chargeMonth quota subject monthStart credits) subject current =
      countIn quota subject current := by
  rw [countIn_of_find (find_chargeMonth_self quota subject monthStart credits)]
  cases found : quota.find subject with
  | none =>
      rw [countIn_of_none found]
      simp only [Option.elim_none]
      split_ifs <;> omega
  | some stored =>
      rw [countIn_of_find found]
      simp only [Option.elim_some, MonthlyQuotaRow.charge]
      split_ifs <;> omega

theorem countIn_chargeMonth_of_ne (quota : MonthlyQuotaTable)
    {subject other : QuotaSubject} (different : other ≠ subject)
    (monthStart credits current : Int) :
    countIn (chargeMonth quota subject monthStart credits) other current =
      countIn quota other current := by
  simp only [countIn, find_chargeMonth_of_ne quota different]

/-- A reset leaves nothing in the counter, for any month. -/
theorem countIn_resetMonth_self (quota : MonthlyQuotaTable)
    (subject : QuotaSubject) (monthStart current : Int) :
    countIn (resetMonth quota subject monthStart) subject current = 0 := by
  cases found : quota.find subject with
  | none => exact countIn_of_none (by simp [found]) current
  | some stored =>
      have after : (resetMonth quota subject monthStart).find subject =
          some { monthStart := monthStart, monthCount := 0 } := by simp [found]
      rw [countIn_of_find after]
      simp

theorem countIn_resetMonth_of_ne (quota : MonthlyQuotaTable)
    {subject other : QuotaSubject} (different : other ≠ subject)
    (monthStart current : Int) :
    countIn (resetMonth quota subject monthStart) other current =
      countIn quota other current := by
  simp only [countIn, find_resetMonth_of_ne quota different]

/-! ### The single reader is the bulk reader of one subject -/

theorem mem_staleSubjects {quota : MonthlyQuotaTable} {subjects : List QuotaSubject}
    {currentMonthStart : Int} {subject : QuotaSubject} :
    subject ∈ staleSubjects (selectMonthRows quota subjects) currentMonthStart ↔
      subject ∈ subjects ∧ ∃ stored, quota.find subject = some stored ∧
        stored.monthStart < currentMonthStart := by
  simp only [staleSubjects, selectMonthRows, List.mem_map, List.mem_filter,
    decide_eq_true_eq, Prod.exists, exists_and_right, exists_eq_right,
    KeyedTable.find_eq_some_iff]
  constructor
  · rintro ⟨stored, ⟨member, wanted⟩, stale⟩
    exact ⟨wanted, stored, member, stale⟩
  · rintro ⟨wanted, stored, member, stale⟩
    exact ⟨stored, ⟨member, wanted⟩, stale⟩

end TavilyHikari.Store
