/-
Module: TavilyHikari.Proofs.QuotaSnapshots
Purpose: Many quota snapshots at once are the snapshots of the tokens one by one (the same
  verdicts, and the same months and limits left behind) exactly where no statement over the
  list has more variables than SQLite takes.
Trusted boundary: none
Main exports: SnapshotTaken, verdictAt, snapshotForToken_eq, WithinVariableLimit,
  snapshotMany_eq, SnapshotsAgree, snapshotMany_eq_snapshotForToken
-/
import Mathlib.Data.Prod.Lex
import Mathlib.Data.String.Basic
import TavilyHikari.TavilyProxy.QuotaSnapshots

namespace TavilyHikari.Store

open Library

/-! ### Usage in bulk -/

section

variable {buckets : UsageBuckets} {subjects : List QuotaSubject} {granularity : Granularity}
  {atLeast : Int} {subject : QuotaSubject}

/-- The selected rows of one subject. -/
theorem filter_selectUsageRows (member : subject ∈ subjects) :
    (selectUsageRows buckets subjects granularity atLeast).filter
        (fun row => row.1.subject = subject) =
      buckets.rows.filter fun row => decide (row.1.subject = subject ∧
        row.1.granularity = granularity ∧ row.1.bucketStart ≥ atLeast) := by
  rw [selectUsageRows, List.filter_filter]
  apply List.filter_congr
  intro row _
  rw [Bool.eq_iff_iff]
  simp only [Bool.and_eq_true, decide_eq_true_eq]
  constructor
  · intro ⟨own, ⟨same, late⟩, _⟩
    exact ⟨own, same, late⟩
  · intro ⟨own, same, late⟩
    exact ⟨own, ⟨same, late⟩, own ▸ member⟩

theorem valuesOf_selectUsageRows (member : subject ∈ subjects)
    (value : UsageBucketKey × Int → Int) :
    valuesOf subject ((selectUsageRows buckets subjects granularity atLeast).map
        fun row => (row.1.subject, value row)) =
      (buckets.rows.filter fun row => decide (row.1.subject = subject ∧
        row.1.granularity = granularity ∧ row.1.bucketStart ≥ atLeast)).map value := by
  rw [valuesOf, List.filter_map, List.map_map, ← filter_selectUsageRows member]
  rfl

/-- Nobody's rows are none. -/
theorem selectUsageRows_nil : selectUsageRows buckets [] granularity atLeast = [] := by
  simp [selectUsageRows]

theorem sumSubjectUsageBucketsBulk_eq_withVariables :
    sumSubjectUsageBucketsBulk buckets subjects granularity atLeast =
      withVariables (2 + subjects.length)
        (.collect (· + ·) ((selectUsageRows buckets subjects granularity atLeast).map
          fun row => (row.1.subject, row.2))) := by
  unfold sumSubjectUsageBucketsBulk
  split
  · rename_i nobody
    rw [List.isEmpty_iff.1 nobody, selectUsageRows_nil]
    rfl
  · rfl

theorem earliestSubjectUsageBucketSinceBulk_eq_withVariables :
    earliestSubjectUsageBucketSinceBulk buckets subjects granularity atLeast =
      withVariables (2 + subjects.length)
        (.collect min ((selectUsageRows buckets subjects granularity atLeast).map
          fun row => (row.1.subject, row.1.bucketStart))) := by
  unfold earliestSubjectUsageBucketSinceBulk
  split
  · rename_i nobody
    rw [List.isEmpty_iff.1 nobody, selectUsageRows_nil]
    rfl
  · rfl

theorem exists_sumSubjectUsageBucketsBulk
    (few : 2 + subjects.length ≤ sqliteMaxVariableNumber) :
    ∃ totals, sumSubjectUsageBucketsBulk buckets subjects granularity atLeast = some totals :=
  ⟨_, by rw [sumSubjectUsageBucketsBulk_eq_withVariables, withVariables_of_le _ few]⟩

theorem few_of_sumSubjectUsageBucketsBulk {totals : KeyedTable QuotaSubject Int}
    (read : sumSubjectUsageBucketsBulk buckets subjects granularity atLeast = some totals) :
    2 + subjects.length ≤ sqliteMaxVariableNumber := by
  rw [sumSubjectUsageBucketsBulk_eq_withVariables, withVariables_eq_some_iff] at read
  exact read.1

/-- The bulk sum of a subject is its sum. -/
theorem find_sumSubjectUsageBucketsBulk {totals : KeyedTable QuotaSubject Int}
    (read : sumSubjectUsageBucketsBulk buckets subjects granularity atLeast = some totals)
    (member : subject ∈ subjects) :
    (totals.find subject).getD 0 = sumUsageBuckets buckets subject granularity atLeast := by
  rw [sumSubjectUsageBucketsBulk_eq_withVariables, withVariables_eq_some_iff] at read
  rw [← read.2, KeyedTable.find_collect, mergeAll_add, valuesOf_selectUsageRows member]
  rfl

/-- The earliest bucket of a subject, where the bulk reader finds one. -/
theorem find_earliestSubjectUsageBucketSinceBulk {oldest : KeyedTable QuotaSubject Int}
    (read : earliestSubjectUsageBucketSinceBulk buckets subjects granularity atLeast =
      some oldest) {earliest : Int} (member : subject ∈ subjects) :
    oldest.find subject = some earliest ↔
      (∃ count, buckets.find { subject, bucketStart := earliest, granularity } = some count ∧
        atLeast ≤ earliest) ∧
      ∀ start count, buckets.find { subject, bucketStart := start, granularity } = some count →
        atLeast ≤ start → earliest ≤ start := by
  have among (start : Int) : start ∈ (buckets.rows.filter fun row =>
      decide (row.1.subject = subject ∧ row.1.granularity = granularity ∧
        row.1.bucketStart ≥ atLeast)).map (fun row => row.1.bucketStart) ↔
      ∃ count, buckets.find { subject, bucketStart := start, granularity } = some count ∧
        atLeast ≤ start := by
    simp only [List.mem_map, List.mem_filter, decide_eq_true_eq, KeyedTable.find_eq_some_iff]
    constructor
    · rintro ⟨⟨key, count⟩, ⟨held, rfl, rfl, late⟩, rfl⟩
      exact ⟨count, held, late⟩
    · intro ⟨count, held, late⟩
      exact ⟨_, ⟨held, rfl, rfl, late⟩, rfl⟩
  rw [earliestSubjectUsageBucketSinceBulk_eq_withVariables, withVariables_eq_some_iff] at read
  rw [← read.2, KeyedTable.find_collect, mergeAll_min, valuesOf_selectUsageRows member,
    List.min?_eq_some_iff]
  simp only [among]
  constructor
  · intro ⟨own, least⟩
    exact ⟨own, fun start count held late => least start ⟨count, held, late⟩⟩
  · intro ⟨own, least⟩
    exact ⟨own, fun start ⟨count, held, late⟩ => least start count held late⟩

end

/-! ### Months in bulk -/

/-- A row as a reader of the month leaves it. -/
def MonthlyQuotaRow.rolledOver (stored : MonthlyQuotaRow) (monthStart : Int) : MonthlyQuotaRow :=
  if stored.monthStart < monthStart then { monthStart, monthCount := 0 } else stored

@[simp] theorem MonthlyQuotaRow.rolledOver_rolledOver (stored : MonthlyQuotaRow)
    (monthStart : Int) :
    (stored.rolledOver monthStart).rolledOver monthStart = stored.rolledOver monthStart := by
  unfold rolledOver
  split <;> simp_all

@[simp] theorem MonthlyQuotaRow.reported_rolledOver (stored : MonthlyQuotaRow)
    (monthStart : Int) :
    (stored.rolledOver monthStart).reported monthStart = stored.reported monthStart := by
  unfold rolledOver reported
  split <;> simp_all

theorem fetchSubjectMonthlyCount_fst (quota : MonthlyQuotaTable) (subject : QuotaSubject)
    (monthStart : Int) :
    (fetchSubjectMonthlyCount quota subject monthStart).1 =
      ((quota.find subject).map fun stored => stored.reported monthStart).getD 0 := by
  unfold fetchSubjectMonthlyCount MonthlyQuotaRow.reported
  cases quota.find subject with
  | none => rfl
  | some stored =>
      by_cases stale : stored.monthStart < monthStart
      · simp only [if_pos stale, Option.map_some, Option.getD_some]
      · simp only [if_neg stale, Option.map_some, Option.getD_some]

theorem find_fetchSubjectMonthlyCount (quota : MonthlyQuotaTable) (subject other : QuotaSubject)
    (monthStart : Int) :
    (fetchSubjectMonthlyCount quota subject monthStart).2.find other =
      if other = subject then (quota.find other).map fun stored => stored.rolledOver monthStart
      else quota.find other := by
  unfold fetchSubjectMonthlyCount MonthlyQuotaRow.rolledOver
  cases found : quota.find subject with
  | none =>
      by_cases same : other = subject
      · rw [if_pos same, same, found]
        rfl
      · rw [if_neg same]
  | some stored =>
      by_cases stale : stored.monthStart < monthStart
      · simp only [if_pos stale]
        by_cases same : other = subject
        · rw [if_pos same, same, find_resetMonth_self, found]
          simp only [Option.map_some, if_pos stale]
        · rw [if_neg same, find_resetMonth_of_ne quota same]
      · simp only [if_neg stale]
        by_cases same : other = subject
        · rw [if_pos same, same, found]
          simp only [Option.map_some, if_neg stale]
        · rw [if_neg same]

theorem find_foldl_resetMonth (quota : MonthlyQuotaTable) (subjects : List QuotaSubject)
    (monthStart : Int) (other : QuotaSubject) :
    (subjects.foldl (fun quota subject => resetMonth quota subject monthStart) quota).find other =
      if other ∈ subjects then
        (quota.find other).map fun _ => { monthStart, monthCount := 0 }
      else quota.find other := by
  induction subjects generalizing quota with
  | nil => rfl
  | cons subject subjects ih =>
      rw [List.foldl_cons, ih]
      by_cases same : other = subject
      · rw [same, find_resetMonth_self, if_pos List.mem_cons_self]
        by_cases later : subject ∈ subjects
        · rw [if_pos later, Option.map_map]
          rfl
        · rw [if_neg later]
      · simp only [find_resetMonth_of_ne quota same, List.mem_cons, same, false_or]

theorem find_fetchSubjectMonthlyCounts (quota : MonthlyQuotaTable) (subjects : List QuotaSubject)
    (other : QuotaSubject) (monthStart : Int) :
    (fetchSubjectMonthlyCounts quota subjects monthStart).2.find other =
      if other ∈ subjects then (quota.find other).map fun stored => stored.rolledOver monthStart
      else quota.find other := by
  unfold fetchSubjectMonthlyCounts
  by_cases none : subjects.isEmpty = true
  · rw [if_pos none, List.isEmpty_iff.mp none, if_neg List.not_mem_nil]
  · rw [if_neg none]
    simp only [find_foldl_resetMonth, mem_staleSubjects]
    by_cases member : other ∈ subjects
    · rw [if_pos member]
      cases found : quota.find other with
      | none => simp
      | some stored =>
          unfold MonthlyQuotaRow.rolledOver
          by_cases stale : stored.monthStart < monthStart
          · simp [member, stale]
          · simp [stale]
    · rw [if_neg member, if_neg fun stale => member stale.1]

/-- The count that is looked up for a subject. -/
theorem countOf_eq (counts : List (QuotaSubject × Int)) (subject : QuotaSubject) :
    countOf counts subject = (valuesOf subject counts).head?.getD 0 := by
  rw [countOf, valuesOf, List.head?_map, List.head?_filter]

theorem countOf_fetchSubjectMonthlyCounts (quota : MonthlyQuotaTable)
    {subjects : List QuotaSubject} {subject : QuotaSubject} (member : subject ∈ subjects)
    (monthStart : Int) :
    countOf (fetchSubjectMonthlyCounts quota subjects monthStart).1 subject =
      ((quota.find subject).map fun stored => stored.reported monthStart).getD 0 := by
  have listed : ¬subjects.isEmpty = true := by
    rw [List.isEmpty_iff]
    exact List.ne_nil_of_mem member
  have own : valuesOf subject ((selectMonthRows quota subjects).map fun row =>
      (row.1, row.2.reported monthStart)) =
      (quota.find subject).toList.map fun stored => stored.reported monthStart := by
    have rows : (selectMonthRows quota subjects).filter (fun row => row.1 = subject) =
        quota.rows.filter fun row => row.1 = subject := by
      rw [selectMonthRows, List.filter_filter]
      apply List.filter_congr
      intro row _
      by_cases same : row.1 = subject
      · simp [same, member]
      · simp [same]
    rw [← KeyedTable.valuesOf_rows, valuesOf, valuesOf, List.filter_map, List.map_map,
      List.map_map, ← rows]
    rfl
  rw [countOf_eq, fetchSubjectMonthlyCounts, if_neg listed]
  simp only [own]
  cases quota.find subject with
  | none => rfl
  | some stored => rfl

theorem fetchSubjectMonthlyCountsBulk_of_le (quota : MonthlyQuotaTable)
    {subjects : List QuotaSubject} (monthStart : Int)
    (few : subjects.length ≤ sqliteMaxVariableNumber) :
    fetchSubjectMonthlyCountsBulk quota subjects monthStart =
      some (fetchSubjectMonthlyCounts quota subjects monthStart) := by
  unfold fetchSubjectMonthlyCountsBulk
  split
  · rename_i nobody
    rw [List.isEmpty_iff.1 nobody]
    rfl
  · exact withVariables_of_le _ few

/-! ### Limits in bulk -/

/-- What the order of the bindings compares, one after the other. -/
def tagOrderRank (binding : UserTagBindingRecord) : Bool ×ₗ String ×ₗ String :=
  toLex (binding.tag.systemKey.isNone,
    toLex (binding.tag.systemKey.getD binding.tag.name, binding.tag.displayName))

theorem bindingOrder_iff (a b : UserTagBindingRecord) :
    bindingOrder a b ↔ tagOrderRank a ≤ tagOrderRank b := by
  simp only [bindingOrder, tagOrderRank, Prod.Lex.le_iff, ofLex_toLex]
  cases a.tag.systemKey with
  | none => cases b.tag.systemKey <;> simp
  | some key => cases b.tag.systemKey <;> simp

instance : Std.Total bindingOrder :=
  ⟨fun a b => by simpa only [bindingOrder_iff] using le_total (tagOrderRank a) (tagOrderRank b)⟩

instance : IsTrans UserTagBindingRecord bindingOrder :=
  ⟨fun a b c first second => by
    rw [bindingOrder_iff] at *
    exact le_trans first second⟩

section

variable {defaults : AccountDefaults} {db : QuotaDb} {userId : String} {userIds : List String}

/-- The bulk reader has the bindings of a user in their order. -/
theorem valuesOf_listUserTagBindingsForUsers {tagBindings : List (String × UserTagBindingRecord)}
    (read : listUserTagBindingsForUsers userIds db = some tagBindings)
    (member : userId ∈ userIds) :
    valuesOf userId tagBindings = listUserTagBindingsForUser db userId := by
  have listed : ¬userIds.isEmpty = true := by
    rw [List.isEmpty_iff]
    exact List.ne_nil_of_mem member
  rw [listUserTagBindingsForUsers, if_neg listed, withVariables_eq_some_iff] at read
  rw [← read.2, valuesOf_insertionSort, listUserTagBindingsForUser]
  congr 1
  induction db.userTagBindings.rows with
  | nil => rfl
  | cons row rows ih =>
      by_cases own : row.1.1 = userId
      · cases found : db.userTags.find row.1.2 with
        | none => simpa [own, member, found] using ih
        | some tag => simpa [own, member, found, valuesOf_cons] using ih
      · by_cases other : row.1.1 ∈ userIds
        · cases found : db.userTags.find row.1.2 with
          | none => simpa [own, other, found] using ih
          | some tag => simpa [own, other, found, valuesOf_cons] using ih
        · simpa [own, other] using ih

theorem find_fetchAccountQuotaLimitsBulk {limits found : AccountQuotaLimitsTable}
    (read : fetchAccountQuotaLimitsBulk userIds limits = some found)
    (member : userId ∈ userIds) : found.find userId = limits.find userId := by
  have listed : ¬userIds.isEmpty = true := by
    rw [List.isEmpty_iff]
    exact List.ne_nil_of_mem member
  rw [fetchAccountQuotaLimitsBulk, if_neg listed, withVariables_eq_some_iff] at read
  rw [← read.2, KeyedTable.find_deleteWhere]
  cases limits.find userId with
  | none => rfl
  | some found => simp [member]

/-- The limits of a user, the default ones where there are none. -/
def limitsOrDefault (defaults : AccountDefaults) (db : QuotaDb) (userId : String) :
    AccountQuotaLimits :=
  (db.accountQuotaLimits.find userId).getD (defaults.limitsOf userId)

/-- The rows of the users are there, the ones that were missing with the default limits. -/
def LimitsEnsured (defaults : AccountDefaults) (userIds : List String)
    (limits limits' : AccountQuotaLimitsTable) : Prop :=
  ∀ userId, limits'.find userId = (limits.find userId).or
    (if userId ∈ userIds then some (defaults.limitsOf userId) else none)

theorem limitsEnsured_nil (defaults : AccountDefaults) (limits : AccountQuotaLimitsTable) :
    LimitsEnsured defaults [] limits limits := by
  intro userId
  rw [if_neg List.not_mem_nil, Option.or_none]

theorem ensureAccountQuotaLimits_eq (known : userId ∈ db.users) :
    ∃ limits, ensureAccountQuotaLimits defaults userId db =
        some (limitsOrDefault defaults db userId, limits) ∧
      LimitsEnsured defaults [userId] db.accountQuotaLimits limits := by
  unfold ensureAccountQuotaLimits limitsOrDefault
  cases found : db.accountQuotaLimits.find userId with
  | some existing =>
      refine ⟨db.accountQuotaLimits, rfl, ?_⟩
      intro other
      by_cases same : other = userId
      · rw [same, found]
        rfl
      · rw [if_neg (by simpa using same), Option.or_none]
  | none =>
      rw [defaultAccountQuotaLimitsForUser, if_pos known]
      simp only [Option.bind_some, KeyedTable.find_upsert_self, found, Option.map_some,
        Option.getD_none]
      refine ⟨_, rfl, ?_⟩
      intro other
      by_cases same : other = userId
      · rw [same, KeyedTable.find_upsert_self, found, if_pos List.mem_cons_self]
        rfl
      · rw [KeyedTable.find_upsert_of_ne _ same, if_neg (by simpa using same), Option.or_none]

theorem find_defaultAccountQuotaLimitsForUsers {limits : AccountQuotaLimitsTable}
    (read : defaultAccountQuotaLimitsForUsers defaults userIds db = some limits)
    (known : userId ∈ db.users) (member : userId ∈ userIds) :
    limits.find userId = some (defaults.limitsOf userId) := by
  have listed : ¬userIds.isEmpty = true := by
    rw [List.isEmpty_iff]
    exact List.ne_nil_of_mem member
  rw [defaultAccountQuotaLimitsForUsers, if_neg listed, withVariables_eq_some_iff] at read
  rw [← read.2, KeyedTable.find_upsertAll_replace, if_pos]
  exact List.mem_filter.mpr ⟨known, decide_eq_true member⟩

/-- The users of the list without limits. -/
def usersWithoutLimits (userIds : List String) (db : QuotaDb) : List String :=
  userIds.filter fun userId => (db.accountQuotaLimits.find userId).isNone

theorem mem_usersWithoutLimits :
    userId ∈ usersWithoutLimits userIds db ↔
      userId ∈ userIds ∧ db.accountQuotaLimits.find userId = none := by
  rw [usersWithoutLimits, List.mem_filter, Option.isNone_iff_eq_none]

/-- With its first statement it goes on with the users without limits. -/
theorem ensureAccountQuotaLimitsForUsers_of_le (few : userIds.length ≤ sqliteMaxVariableNumber) :
    ensureAccountQuotaLimitsForUsers defaults userIds db =
      if (usersWithoutLimits userIds db).isEmpty then some db.accountQuotaLimits
      else
        (defaultAccountQuotaLimitsForUsers defaults (usersWithoutLimits userIds db) db).bind
          fun defaultsByUser =>
            insertAccountQuotaLimits ((usersWithoutLimits userIds db).map fun userId =>
              (userId, (defaultsByUser.find userId).getD .zeroBase)) db := by
  unfold ensureAccountQuotaLimitsForUsers
  by_cases nobody : userIds.isEmpty = true
  · rw [if_pos nobody, List.isEmpty_iff.1 nobody]
    rfl
  · have read := withVariables_of_le
      (db.accountQuotaLimits.deleteWhere fun userId _ => userId ∉ userIds) few
    have fetched : fetchAccountQuotaLimitsBulk userIds db.accountQuotaLimits = some _ :=
      (if_neg nobody).trans read
    have missing : (userIds.filter fun userId => ((db.accountQuotaLimits.deleteWhere
        fun userId _ => userId ∉ userIds).find userId).isNone) = usersWithoutLimits userIds db := by
      apply List.filter_congr
      intro userId member
      rw [find_fetchAccountQuotaLimitsBulk fetched member]
    rw [if_neg nobody, fetched]
    simp only [Option.bind_eq_bind, Option.bind_some, missing]

/-- The limits of the users are there after it, where no statement has too many variables. -/
theorem ensureAccountQuotaLimitsForUsers_eq (known : ∀ userId ∈ userIds, userId ∈ db.users)
    (few : userIds.length ≤ sqliteMaxVariableNumber)
    (fewMissing : 8 * (usersWithoutLimits userIds db).length ≤ sqliteMaxVariableNumber) :
    ∃ limits, ensureAccountQuotaLimitsForUsers defaults userIds db = some limits ∧
      LimitsEnsured defaults userIds db.accountQuotaLimits limits := by
  rw [ensureAccountQuotaLimitsForUsers_of_le few]
  have among (userId : String) (absent : userId ∈ usersWithoutLimits userIds db) :
      userId ∈ db.users := known userId (mem_usersWithoutLimits.1 absent).1
  by_cases none : (usersWithoutLimits userIds db).isEmpty = true
  · rw [if_pos none]
    refine ⟨_, rfl, ?_⟩
    intro userId
    have stored := @mem_usersWithoutLimits db userId userIds
    rw [List.isEmpty_iff.mp none] at stored
    cases found : db.accountQuotaLimits.find userId with
    | some limits => rfl
    | none =>
        rw [if_neg fun member => List.not_mem_nil (stored.mpr ⟨member, found⟩)]
        rfl
  · have fewDefaults : (usersWithoutLimits userIds db).length ≤ sqliteMaxVariableNumber := by
      omega
    have read : defaultAccountQuotaLimitsForUsers defaults (usersWithoutLimits userIds db) db =
        some _ := (if_neg none).trans (withVariables_of_le _ fewDefaults)
    rw [if_neg none, read, Option.bind_some, insertAccountQuotaLimits, if_pos, withVariables_of_le]
    · refine ⟨_, rfl, ?_⟩
      intro userId
      rw [KeyedTable.find_upsertAll_keep]
      cases found : db.accountQuotaLimits.find userId with
      | some limits => rfl
      | none =>
          by_cases member : userId ∈ userIds
          · have absent := mem_usersWithoutLimits.mpr ⟨member, found⟩
            rw [if_pos absent, if_pos member,
              find_defaultAccountQuotaLimitsForUsers read (among userId absent) absent]
            rfl
          · rw [if_neg fun absent => member (mem_usersWithoutLimits.mp absent).1, if_neg member]
    · rwa [List.length_map]
    · rw [List.all_map]
      exact List.all_eq_true.mpr fun userId absent => decide_eq_true (among userId absent)

/-- It fails where one has too many. -/
theorem withinVariables_of_ensureAccountQuotaLimitsForUsers {limits : AccountQuotaLimitsTable}
    (ensured : ensureAccountQuotaLimitsForUsers defaults userIds db = some limits) :
    userIds.length ≤ sqliteMaxVariableNumber ∧
      8 * (usersWithoutLimits userIds db).length ≤ sqliteMaxVariableNumber := by
  have few : userIds.length ≤ sqliteMaxVariableNumber := by
    unfold ensureAccountQuotaLimitsForUsers at ensured
    by_cases nobody : userIds.isEmpty = true
    · rw [List.isEmpty_iff.1 nobody]
      exact Nat.zero_le _
    · rw [if_neg nobody, Option.bind_eq_bind, Option.bind_eq_some_iff] at ensured
      obtain ⟨found, read, _⟩ := ensured
      rw [fetchAccountQuotaLimitsBulk, if_neg nobody, withVariables_eq_some_iff] at read
      exact read.1
  refine ⟨few, ?_⟩
  rw [ensureAccountQuotaLimitsForUsers_of_le few] at ensured
  by_cases none : (usersWithoutLimits userIds db).isEmpty = true
  · rw [List.isEmpty_iff.1 none]
    exact Nat.zero_le _
  · rw [if_neg none, Option.bind_eq_some_iff] at ensured
    obtain ⟨defaultsByUser, _, inserted⟩ := ensured
    unfold insertAccountQuotaLimits at inserted
    split_ifs at inserted
    rw [withVariables_eq_some_iff, List.length_map] at inserted
    exact inserted.1

/-- The limits that a snapshot uses for an account. -/
def effectiveLimits (defaults : AccountDefaults) (db : QuotaDb) (userId : String) :
    AccountQuotaLimits :=
  (buildAccountQuotaResolution (limitsOrDefault defaults db userId)
    (listUserTagBindingsForUser db userId)).effective

theorem resolveAccountQuotaResolution_eq (known : userId ∈ db.users) :
    ∃ resolution limits,
      resolveAccountQuotaResolution defaults userId db = some (resolution, limits) ∧
      resolution.effective = effectiveLimits defaults db userId ∧
      LimitsEnsured defaults [userId] db.accountQuotaLimits limits := by
  obtain ⟨limits, ensured, rows⟩ := @ensureAccountQuotaLimits_eq defaults db userId known
  rw [resolveAccountQuotaResolution, ensured]
  exact ⟨_, limits, rfl, rfl, rows⟩

theorem resolveAccountQuotaLimitsBulk_eq (known : ∀ userId ∈ userIds, userId ∈ db.users)
    (listed : userIds ≠ []) (few : userIds.length ≤ sqliteMaxVariableNumber)
    (fewMissing : 8 * (usersWithoutLimits userIds db).length ≤ sqliteMaxVariableNumber) :
    ∃ effective limits,
      resolveAccountQuotaLimitsBulk defaults userIds db = (some effective, limits) ∧
      (∀ userId ∈ userIds, effective.find userId = some (effectiveLimits defaults db userId)) ∧
      LimitsEnsured defaults userIds db.accountQuotaLimits limits := by
  have somebody : ¬userIds.isEmpty = true := by rwa [List.isEmpty_iff]
  obtain ⟨limits, ensured, rows⟩ :=
    @ensureAccountQuotaLimitsForUsers_eq defaults db userIds known few fewMissing
  have base : fetchAccountQuotaLimitsBulk userIds limits = some _ :=
    (if_neg somebody).trans (withVariables_of_le _ few)
  have tags : listUserTagBindingsForUsers userIds db = some _ :=
    (if_neg somebody).trans (withVariables_of_le _ few)
  rw [resolveAccountQuotaLimitsBulk, if_neg somebody, ensured]
  simp only [base, tags, Option.bind_eq_bind, Option.bind_some]
  refine ⟨_, limits, rfl, ?_, rows⟩
  intro userId member
  rw [KeyedTable.find_upsertAll_replace, if_pos member, effectiveLimits,
    valuesOf_listUserTagBindingsForUsers tags member, find_fetchAccountQuotaLimitsBulk base member,
    rows userId, if_pos member, limitsOrDefault]
  cases db.accountQuotaLimits.find userId with
  | none => rfl
  | some found => rfl

/-- Where it returns, no statement had too many variables. -/
theorem withinVariables_of_resolveAccountQuotaLimitsBulk {effective : AccountQuotaLimitsTable}
    (resolved : (resolveAccountQuotaLimitsBulk defaults userIds db).1 = some effective) :
    8 * (usersWithoutLimits userIds db).length ≤ sqliteMaxVariableNumber := by
  unfold resolveAccountQuotaLimitsBulk at resolved
  split_ifs at resolved with nobody
  · rw [List.isEmpty_iff.1 nobody]
    exact Nat.zero_le _
  · cases ensured : ensureAccountQuotaLimitsForUsers defaults userIds db with
    | none =>
        rw [ensured] at resolved
        cases resolved
    | some limits => exact (withinVariables_of_ensureAccountQuotaLimitsForUsers ensured).2

end

end TavilyHikari.Store

namespace TavilyHikari.TavilyProxy

open Library Store

/-! ### What a snapshot shows and leaves behind -/

namespace QuotaStore

variable {store : QuotaStore}

@[simp] theorem withLimits_billing (store : QuotaStore) (limits : AccountQuotaLimitsTable) :
    (store.withLimits limits).billing = store.billing := rfl

theorem known_of_bound {tokenId userId : String}
    (bound : store.findUserIdByTokenFresh tokenId = some userId) : userId ∈ store.quota.users := by
  rw [findUserIdByTokenFresh, Option.map_eq_some_iff] at bound
  obtain ⟨row, found, rfl⟩ := bound
  exact store.bound tokenId row found

theorem find_listUserBindingsForTokens {tokenIds : List String} {tokenId : String}
    {bindings : KeyedTable String String}
    (read : store.listUserBindingsForTokens tokenIds = some bindings)
    (member : tokenId ∈ tokenIds) : bindings.find tokenId = store.findUserIdByTokenFresh tokenId := by
  have listed : ¬tokenIds.isEmpty = true := by
    rw [List.isEmpty_iff]
    exact List.ne_nil_of_mem member
  rw [listUserBindingsForTokens, if_neg listed, withVariables_eq_some_iff] at read
  have rows : bindings =
      .collect (fun _ userId => userId) ((store.userTokenBindings.deleteWhere
        fun tokenId _ => tokenId ∉ tokenIds).rows.map fun row => (row.1, row.2.userId)) := by
    rw [← read.2]
    unfold KeyedTable.deleteWhere
    simp only [decide_not, Bool.not_not]
    rfl
  have own : valuesOf tokenId ((store.userTokenBindings.deleteWhere
      fun tokenId _ => tokenId ∉ tokenIds).rows.map fun row => (row.1, row.2.userId)) =
      (store.findUserIdByTokenFresh tokenId).toList := by
    rw [valuesOf, List.filter_map, List.map_map]
    have values := KeyedTable.valuesOf_rows
      (store.userTokenBindings.deleteWhere fun tokenId _ => tokenId ∉ tokenIds) tokenId
    rw [KeyedTable.find_deleteWhere] at values
    have mapped := congrArg (List.map UserTokenBinding.userId) values
    rw [valuesOf, List.map_map] at mapped
    refine Eq.trans mapped ?_
    rw [findUserIdByTokenFresh]
    cases store.userTokenBindings.find tokenId with
    | none => rfl
    | some row => simp [member]
  rw [rows, KeyedTable.find_collect, own]
  cases store.findUserIdByTokenFresh tokenId with
  | none => rfl
  | some userId => rfl

end QuotaStore

/-- The limits that a snapshot uses for a subject. -/
def TokenQuota.limitsAt (quota : TokenQuota) (store : QuotaStore) : QuotaSubject → QuotaLimits
  | .account userId => windowLimits (effectiveLimits store.accountDefaults store.quota userId)
  | .token _ => quota.limits

/-- What a snapshot of a subject shows. -/
def TokenQuota.verdictAt (quota : TokenQuota) (store : QuotaStore) (now : Int)
    (subject : QuotaSubject) : TokenQuotaVerdict :=
  .new (sumUsageBuckets store.billing.usageBuckets subject .minute (hourWindowStart now))
    (quota.limitsAt store subject).hourlyLimit
    (sumUsageBuckets store.billing.usageBuckets subject .hour (dayWindowStart now))
    (quota.limitsAt store subject).dailyLimit
    (((store.billing.monthlyQuota.find subject).map fun stored =>
      stored.reported (startOfMonthTs now)).getD 0)
    (quota.limitsAt store subject).monthlyLimit

/-- Snapshots of the subjects were taken: their months are rolled over, and the accounts among
them have limits. Nothing else is different. -/
structure SnapshotTaken (now : Int) (subjects : List QuotaSubject) (store store' : QuotaStore) :
    Prop where
  bindings : store'.userTokenBindings = store.userTokenBindings
  defaults : store'.accountDefaults = store.accountDefaults
  quota : store'.quota =
    { store.quota with accountQuotaLimits := store'.quota.accountQuotaLimits }
  limits : ∀ userId, store'.quota.accountQuotaLimits.find userId =
    (store.quota.accountQuotaLimits.find userId).or
      (if .account userId ∈ subjects then some (store.accountDefaults.limitsOf userId) else none)
  billing : store'.billing = { store.billing with monthlyQuota := store'.billing.monthlyQuota }
  months : ∀ subject, store'.billing.monthlyQuota.find subject =
    if subject ∈ subjects then
      (store.billing.monthlyQuota.find subject).map fun stored =>
        stored.rolledOver (startOfMonthTs now)
    else store.billing.monthlyQuota.find subject

namespace SnapshotTaken

variable {now : Int} {subjects later : List QuotaSubject} {store store' store'' : QuotaStore}

theorem refl (now : Int) (store : QuotaStore) : SnapshotTaken now [] store store where
  bindings := rfl
  defaults := rfl
  quota := rfl
  limits := by simp
  billing := rfl
  months := by simp

theorem trans (first : SnapshotTaken now subjects store store')
    (second : SnapshotTaken now later store' store'') :
    SnapshotTaken now (subjects ++ later) store store'' where
  bindings := second.bindings.trans first.bindings
  defaults := second.defaults.trans first.defaults
  quota := second.quota.trans (congrArg (fun quota : QuotaDb =>
    { quota with accountQuotaLimits := store''.quota.accountQuotaLimits }) first.quota)
  limits := by
    intro userId
    rw [second.limits, first.limits, first.defaults]
    cases store.quota.accountQuotaLimits.find userId with
    | some limits => rfl
    | none =>
        simp only [List.mem_append]
        split <;> simp_all
  billing := second.billing.trans (congrArg (fun billing : BillingDb =>
    { billing with monthlyQuota := store''.billing.monthlyQuota }) first.billing)
  months := by
    intro subject
    rw [second.months, first.months]
    simp only [List.mem_append]
    by_cases one : subject ∈ subjects
    · by_cases two : subject ∈ later
      · simp [one, two, Option.map_map, Function.comp_def]
      · simp [one, two]
    · simp [one]

/-- Only which subjects there are matters. -/
theorem congr (taken : SnapshotTaken now subjects store store')
    (same : ∀ subject, subject ∈ subjects ↔ subject ∈ later) :
    SnapshotTaken now later store store' where
  bindings := taken.bindings
  defaults := taken.defaults
  quota := taken.quota
  limits := by
    intro userId
    rw [taken.limits]
    simp only [same]
  billing := taken.billing
  months := by
    intro subject
    rw [taken.months]
    simp only [same]

/-- What the readers of limits and months leave is what snapshots do. -/
theorem of_readers {userIds : List String} {table : AccountQuotaLimitsTable}
    {monthlyQuota : MonthlyQuotaTable}
    (accounts : ∀ userId, .account userId ∈ subjects ↔ userId ∈ userIds)
    (limits : LimitsEnsured store.accountDefaults userIds store.quota.accountQuotaLimits table)
    (months : ∀ subject, monthlyQuota.find subject =
      if subject ∈ subjects then
        (store.billing.monthlyQuota.find subject).map fun stored =>
          stored.rolledOver (startOfMonthTs now)
      else store.billing.monthlyQuota.find subject) :
    SnapshotTaken now subjects store
      ((store.withLimits table).withBilling { store.billing with monthlyQuota }) where
  bindings := rfl
  defaults := rfl
  quota := rfl
  limits := by
    intro userId
    simp only [accounts]
    exact limits userId
  billing := rfl
  months := months

theorem resolveSubject (taken : SnapshotTaken now subjects store store') (tokenId : String) :
    store'.resolveSubject tokenId = store.resolveSubject tokenId := by
  unfold QuotaStore.resolveSubject QuotaStore.findUserIdByTokenFresh
  rw [taken.bindings]

/-- The limits of an account are what they would have been. -/
theorem effectiveLimits (taken : SnapshotTaken now subjects store store') (userId : String) :
    effectiveLimits store'.accountDefaults store'.quota userId =
      effectiveLimits store.accountDefaults store.quota userId := by
  have base : limitsOrDefault store'.accountDefaults store'.quota userId =
      limitsOrDefault store.accountDefaults store.quota userId := by
    unfold limitsOrDefault
    rw [taken.limits, taken.defaults]
    cases store.quota.accountQuotaLimits.find userId with
    | some limits => rfl
    | none => split <;> rfl
  have tags : listUserTagBindingsForUser store'.quota userId =
      listUserTagBindingsForUser store.quota userId := by
    rw [taken.quota]
    rfl
  unfold Store.effectiveLimits
  rw [base, tags]

/-- A snapshot shows what it would have shown before others. -/
theorem verdictAt (taken : SnapshotTaken now subjects store store') (quota : TokenQuota)
    (subject : QuotaSubject) :
    quota.verdictAt store' now subject = quota.verdictAt store now subject := by
  have limits : quota.limitsAt store' subject = quota.limitsAt store subject := by
    cases subject with
    | token tokenId => rfl
    | account userId =>
        unfold TokenQuota.limitsAt
        simp only [taken.effectiveLimits]
  have buckets : store'.billing.usageBuckets = store.billing.usageBuckets := by
    rw [taken.billing]
  have month : ((store'.billing.monthlyQuota.find subject).map fun stored =>
      stored.reported (startOfMonthTs now)) =
      (store.billing.monthlyQuota.find subject).map fun stored =>
        stored.reported (startOfMonthTs now) := by
    rw [taken.months]
    split
    · rw [Option.map_map]
      simp [Function.comp_def]
    · rfl
  unfold TokenQuota.verdictAt
  rw [limits, buckets, month]

end SnapshotTaken

/-! ### One by one -/

namespace TokenQuota

variable {store : QuotaStore}

theorem snapshotForSubject_eq (quota : TokenQuota) (subject : QuotaSubject) (now : Int)
    (known : ∀ userId, subject = .account userId → userId ∈ store.quota.users) :
    ∃ after, quota.snapshotForSubject subject now store =
        some (quota.verdictAt store now subject, after) ∧
      SnapshotTaken now [subject] store after := by
  have read (limits : QuotaLimits) :
      Store.snapshotForSubject limits store.billing subject now =
        (.new (sumUsageBuckets store.billing.usageBuckets subject .minute (hourWindowStart now))
          limits.hourlyLimit
          (sumUsageBuckets store.billing.usageBuckets subject .hour (dayWindowStart now))
          limits.dailyLimit
          (((store.billing.monthlyQuota.find subject).map fun stored =>
            stored.reported (startOfMonthTs now)).getD 0)
          limits.monthlyLimit,
          { store.billing with
            monthlyQuota := (fetchSubjectMonthlyCount store.billing.monthlyQuota subject
              (startOfMonthTs now)).2 }) := by
    rw [← fetchSubjectMonthlyCount_fst]
    rfl
  have months (other : QuotaSubject) :
      (fetchSubjectMonthlyCount store.billing.monthlyQuota subject (startOfMonthTs now)).2.find
        other = if other ∈ [subject] then
          (store.billing.monthlyQuota.find other).map fun stored =>
            stored.rolledOver (startOfMonthTs now)
        else store.billing.monthlyQuota.find other := by
    rw [find_fetchSubjectMonthlyCount]
    simp only [List.mem_singleton]
  cases subject with
  | token tokenId =>
      have accounts (userId : String) :
          .account userId ∈ [QuotaSubject.token tokenId] ↔ userId ∈ ([] : List String) := by
        simp
      refine ⟨_, ?_, .of_readers accounts (limitsEnsured_nil _ _) months⟩
      unfold snapshotForSubject
      simp only [read]
      rfl
  | account userId =>
      obtain ⟨resolution, table, resolved, effective, rows⟩ :=
        @resolveAccountQuotaResolution_eq store.accountDefaults store.quota userId
          (known userId rfl)
      have accounts (other : String) :
          .account other ∈ [QuotaSubject.account userId] ↔ other ∈ [userId] := by
        simp
      refine ⟨_, ?_, .of_readers accounts rows months⟩
      unfold snapshotForSubject
      simp only [resolved, Option.map_some, read, effective]
      rfl

theorem snapshotForToken_eq (quota : TokenQuota) (tokenId : String) (now : Int) :
    ∃ after, quota.snapshotForToken tokenId now store =
        some (quota.verdictAt store now (store.resolveSubject tokenId), after) ∧
      SnapshotTaken now [store.resolveSubject tokenId] store after := by
  apply quota.snapshotForSubject_eq
  intro userId account
  unfold QuotaStore.resolveSubject at account
  cases bound : store.findUserIdByTokenFresh tokenId with
  | none =>
      rw [bound] at account
      cases account
  | some other =>
      rw [bound] at account
      cases account
      exact QuotaStore.known_of_bound bound

/-- `snapshot_for_token` for one token after another. -/
def snapshotEach (quota : TokenQuota) (now : Int) :
    List String → QuotaStore → Option (List TokenQuotaVerdict × QuotaStore)
  | [], store => some ([], store)
  | tokenId :: tokenIds, store =>
      (quota.snapshotForToken tokenId now store).bind fun (verdict, store) =>
        (quota.snapshotEach now tokenIds store).map fun (verdicts, store) =>
          (verdict :: verdicts, store)

theorem snapshotEach_eq (quota : TokenQuota) (tokenIds : List String) (now : Int) :
    ∃ after, quota.snapshotEach now tokenIds store =
        some (tokenIds.map fun tokenId =>
          quota.verdictAt store now (store.resolveSubject tokenId), after) ∧
      SnapshotTaken now (tokenIds.map store.resolveSubject) store after := by
  induction tokenIds generalizing store with
  | nil => exact ⟨store, rfl, .refl now store⟩
  | cons tokenId tokenIds ih =>
      obtain ⟨next, first, taken⟩ := @snapshotForToken_eq store quota tokenId now
      obtain ⟨after, rest, later⟩ := @ih next
      have subjects : next.resolveSubject = store.resolveSubject := funext taken.resolveSubject
      simp only [subjects, taken.verdictAt] at rest later
      refine ⟨after, ?_, taken.trans later⟩
      simp only [snapshotEach, first, Option.bind_some, rest, Option.map_some, List.map_cons]

/-! ### Many at once -/

section

variable (store) (tokenIds : List String)

/-- The tokens of the list that are bound to nobody. -/
def unboundTokens : List String :=
  tokenIds.filter fun tokenId => (store.findUserIdByTokenFresh tokenId).isNone

/-- The bound tokens of the list, each with its user. -/
def boundTokens : List (String × String) :=
  tokenIds.filterMap fun tokenId =>
    (store.findUserIdByTokenFresh tokenId).map fun userId => (tokenId, userId)

def boundUsers : List String :=
  (((boundTokens store tokenIds).map Prod.snd).insertionSort (· ≤ ·)).dedup

end

variable {tokenIds : List String}

theorem mem_unboundTokens {tokenId : String} :
    tokenId ∈ unboundTokens store tokenIds ↔
      tokenId ∈ tokenIds ∧ store.findUserIdByTokenFresh tokenId = none := by
  rw [unboundTokens, List.mem_filter, Option.isNone_iff_eq_none]

theorem mem_boundTokens {bound : String × String} :
    bound ∈ boundTokens store tokenIds ↔
      bound.1 ∈ tokenIds ∧ store.findUserIdByTokenFresh bound.1 = some bound.2 := by
  simp only [boundTokens, List.mem_filterMap, Option.map_eq_some_iff]
  constructor
  · rintro ⟨tokenId, member, userId, found, rfl⟩
    exact ⟨member, found⟩
  · intro ⟨member, found⟩
    exact ⟨bound.1, member, bound.2, found, rfl⟩

theorem mem_boundUsers {userId : String} :
    userId ∈ boundUsers store tokenIds ↔
      ∃ tokenId ∈ tokenIds, store.findUserIdByTokenFresh tokenId = some userId := by
  rw [boundUsers, List.mem_dedup, List.mem_insertionSort, List.mem_map]
  simp only [mem_boundTokens, Prod.exists, exists_eq_right]

/-- The subjects of the tokens, as the bulk readers are asked for them. -/
theorem mem_subjects {subject : QuotaSubject} :
    subject ∈ (unboundTokens store tokenIds).map QuotaSubject.token ++
        (boundUsers store tokenIds).map .account ↔
      subject ∈ tokenIds.map store.resolveSubject := by
  simp only [List.mem_append, List.mem_map, mem_unboundTokens, mem_boundUsers,
    QuotaStore.resolveSubject]
  constructor
  · rintro (⟨tokenId, ⟨member, none⟩, rfl⟩ | ⟨userId, ⟨tokenId, member, found⟩, rfl⟩)
    · exact ⟨tokenId, member, by rw [none]⟩
    · exact ⟨tokenId, member, by rw [found]⟩
  · rintro ⟨tokenId, member, rfl⟩
    cases found : store.findUserIdByTokenFresh tokenId with
    | none => exact Or.inl ⟨tokenId, ⟨member, found⟩, rfl⟩
    | some userId => exact Or.inr ⟨userId, ⟨tokenId, member, found⟩, rfl⟩

/-- The map of the verdicts of bound tokens. -/
theorem find_upsertAll_bound (t : KeyedTable String TokenQuotaVerdict)
    (verdict : String → TokenQuotaVerdict) (tokenId : String) :
    (t.upsertAll id (fun verdict _ => verdict)
      ((boundTokens store tokenIds).map fun bound => (bound.1, verdict bound.2))).find tokenId =
      if tokenId ∈ tokenIds then
        (store.findUserIdByTokenFresh tokenId).elim (t.find tokenId) fun userId =>
          some (verdict userId)
      else t.find tokenId := by
  have entries : ((boundTokens store tokenIds).map fun bound => (bound.1, verdict bound.2)) =
      ((boundTokens store tokenIds).map Prod.fst).map fun tokenId =>
        (tokenId, verdict ((store.findUserIdByTokenFresh tokenId).getD "")) := by
    rw [List.map_map]
    apply List.map_congr_left
    intro bound member
    rw [Function.comp_apply, (mem_boundTokens.mp member).2, Option.getD_some]
  have among : tokenId ∈ (boundTokens store tokenIds).map Prod.fst ↔
      tokenId ∈ tokenIds ∧ ∃ userId, store.findUserIdByTokenFresh tokenId = some userId := by
    simp only [List.mem_map, mem_boundTokens, Prod.exists, exists_and_right, exists_eq_right,
      exists_and_left]
  rw [entries, KeyedTable.find_upsertAll_replace]
  by_cases member : tokenId ∈ tokenIds
  · rw [if_pos member]
    cases found : store.findUserIdByTokenFresh tokenId with
    | none =>
        rw [if_neg]
        · rfl
        · intro bound
          obtain ⟨userId, other⟩ := (among.mp bound).2
          rw [found] at other
          cases other
    | some userId =>
        rw [if_pos (among.mpr ⟨member, userId, found⟩)]
        rfl
  · rw [if_neg member, if_neg fun bound => member (among.mp bound).1]

/-- What the bulk readers find of a subject makes its verdict. -/
theorem verdictOf_eq (quota : TokenQuota) (store : QuotaStore) (now : Int)
    {subjects : List QuotaSubject} {subject : QuotaSubject} (member : subject ∈ subjects)
    {hourly daily : KeyedTable QuotaSubject Int}
    (hourlyRead : sumSubjectUsageBucketsBulk store.billing.usageBuckets subjects .minute
      (hourWindowStart now) = some hourly)
    (dailyRead : sumSubjectUsageBucketsBulk store.billing.usageBuckets subjects .hour
      (dayWindowStart now) = some daily)
    {limits : QuotaLimits} (same : limits = quota.limitsAt store subject) :
    verdictOf hourly daily
        (fetchSubjectMonthlyCounts store.billing.monthlyQuota subjects (startOfMonthTs now)).1
        limits subject =
      quota.verdictAt store now subject := by
  rw [verdictOf, find_sumSubjectUsageBucketsBulk hourlyRead member,
    find_sumSubjectUsageBucketsBulk dailyRead member, countOf_fetchSubjectMonthlyCounts _ member,
    same]
  rfl

/-- The store after the months of the unbound tokens were read. -/
def tokensRead (store : QuotaStore) (tokenIds : List String) (now : Int) : QuotaStore :=
  store.withBilling { store.billing with
    monthlyQuota := (fetchSubjectMonthlyCounts store.billing.monthlyQuota
      ((unboundTokens store tokenIds).map .token) (startOfMonthTs now)).2 }

theorem tokensRead_taken (store : QuotaStore) (tokenIds : List String) (now : Int) :
    SnapshotTaken now ((unboundTokens store tokenIds).map .token) store
      (tokensRead store tokenIds now) := by
  have accounts (userId : String) :
      .account userId ∈ (unboundTokens store tokenIds).map QuotaSubject.token ↔
        userId ∈ ([] : List String) := by
    simp
  exact .of_readers accounts (limitsEnsured_nil _ _)
    fun subject => find_fetchSubjectMonthlyCounts _ _ subject _

/-- The map of the verdicts, where each token has the one of its subject. -/
theorem find_verdicts (verdict : QuotaSubject → TokenQuotaVerdict) (tokenId : String) :
    ((KeyedTable.empty.upsertAll id (fun verdict _ => verdict)
      ((unboundTokens store tokenIds).map fun tokenId =>
        (tokenId, verdict (.token tokenId)))).upsertAll id (fun verdict _ => verdict)
      ((boundTokens store tokenIds).map fun bound => (bound.1, verdict (.account bound.2)))).find
        tokenId =
      if tokenId ∈ tokenIds then some (verdict (store.resolveSubject tokenId)) else none := by
  rw [find_upsertAll_bound _ fun userId => verdict (.account userId),
    KeyedTable.find_upsertAll_replace _ fun tokenId => verdict (.token tokenId)]
  unfold QuotaStore.resolveSubject
  by_cases member : tokenId ∈ tokenIds
  · rw [if_pos member, if_pos member]
    cases found : store.findUserIdByTokenFresh tokenId with
    | none => exact if_pos (mem_unboundTokens.mpr ⟨member, found⟩)
    | some userId => rfl
  · rw [if_neg member, if_neg member]
    exact if_neg fun listed => member (mem_unboundTokens.mp listed).1

/-! ### The variables of the statements -/

/-- No statement over the list has too many variables: the tokens, those of them that are bound
to nobody, the users of the others, and the eight columns of those without limits. -/
structure WithinVariableLimit (store : QuotaStore) (tokenIds : List String) : Prop where
  tokens : tokenIds.length ≤ sqliteMaxVariableNumber
  unbound : 2 + (unboundTokens store tokenIds).length ≤ sqliteMaxVariableNumber
  users : 2 + (boundUsers store tokenIds).length ≤ sqliteMaxVariableNumber
  limits : 8 * (usersWithoutLimits (boundUsers store tokenIds) store.quota).length ≤
    sqliteMaxVariableNumber

theorem snapshotAccounts_eq (quota : TokenQuota) {accountSubjects : List (String × String)}
    {userIds : List String} (now : Int) (verdicts : KeyedTable String TokenQuotaVerdict)
    (users : ∀ bound ∈ accountSubjects, bound.2 ∈ userIds)
    (known : ∀ userId ∈ userIds, userId ∈ store.quota.users) (listed : userIds ≠ [])
    (few : 2 + userIds.length ≤ sqliteMaxVariableNumber)
    (fewMissing : 8 * (usersWithoutLimits userIds store.quota).length ≤
      sqliteMaxVariableNumber) :
    ∃ after, snapshotAccounts accountSubjects userIds now verdicts store =
        (some (verdicts.upsertAll id (fun verdict _ => verdict) (accountSubjects.map fun bound =>
          (bound.1, quota.verdictAt store now (.account bound.2)))), after) ∧
      SnapshotTaken now (userIds.map .account) store after := by
  have fewUsers : userIds.length ≤ sqliteMaxVariableNumber := by omega
  obtain ⟨effective, table, resolved, limits, rows⟩ :=
    @resolveAccountQuotaLimitsBulk_eq store.accountDefaults store.quota userIds known listed
      fewUsers fewMissing
  have count : (userIds.map QuotaSubject.account).length = userIds.length := List.length_map _
  obtain ⟨hourly, hourlyRead⟩ := @exists_sumSubjectUsageBucketsBulk store.billing.usageBuckets
    (userIds.map .account) .minute (hourWindowStart now) (by rwa [count])
  obtain ⟨daily, dailyRead⟩ := @exists_sumSubjectUsageBucketsBulk store.billing.usageBuckets
    (userIds.map .account) .hour (dayWindowStart now) (by rwa [count])
  have months := fetchSubjectMonthlyCountsBulk_of_le store.billing.monthlyQuota
    (startOfMonthTs now) (count.trans_le fewUsers)
  have accountVerdict : ∀ bound ∈ accountSubjects,
      verdictOf hourly daily
          (fetchSubjectMonthlyCounts store.billing.monthlyQuota (userIds.map .account)
            (startOfMonthTs now)).1
          (windowLimits ((effective.find bound.2).getD .zeroBase)) (.account bound.2) =
        quota.verdictAt store now (.account bound.2) := by
    intro bound member
    apply quota.verdictOf_eq store now (List.mem_map_of_mem (users bound member)) hourlyRead
      dailyRead
    rw [limits bound.2 (users bound member)]
    rfl
  have accounts (userId : String) :
      .account userId ∈ userIds.map QuotaSubject.account ↔ userId ∈ userIds := by
    simp
  refine ⟨(store.withLimits table).withBilling { store.billing with
    monthlyQuota := (fetchSubjectMonthlyCounts store.billing.monthlyQuota (userIds.map .account)
      (startOfMonthTs now)).2 }, ?_, .of_readers accounts rows
        fun subject => find_fetchSubjectMonthlyCounts _ _ subject _⟩
  unfold snapshotAccounts
  simp only [resolved, QuotaStore.withLimits_billing, sumAccountUsageBucketsBulk,
    fetchAccountMonthlyCounts, hourlyRead, dailyRead, months, Option.bind_eq_bind,
    Option.bind_some]
  rw [← List.map_congr_left fun bound member =>
    congrArg (Prod.mk bound.1) (accountVerdict bound member)]

/-- What is done with the list once its bindings are read. -/
theorem snapshotMany_of_le (quota : TokenQuota) (tokenIds : List String) (now : Int)
    (store : QuotaStore) (listed : ¬tokenIds.isEmpty = true)
    (few : tokenIds.length ≤ sqliteMaxVariableNumber) :
    quota.snapshotMany tokenIds now store =
      match (do
        let hourly ← sumUsageBucketsBulk store.billing.usageBuckets (unboundTokens store tokenIds)
          .minute (hourWindowStart now)
        let daily ← sumUsageBucketsBulk store.billing.usageBuckets (unboundTokens store tokenIds)
          .hour (dayWindowStart now)
        let monthly ← fetchMonthlyCounts store.billing.monthlyQuota (unboundTokens store tokenIds)
          (startOfMonthTs now)
        some (hourly, daily, monthly)) with
      | none => (none, store)
      | some (hourly, daily, monthly, monthlyQuota) =>
          let verdicts := KeyedTable.empty.upsertAll id (fun verdict _ => verdict)
            ((unboundTokens store tokenIds).map fun tokenId =>
              (tokenId, verdictOf hourly daily monthly quota.limits (.token tokenId)))
          let after := store.withBilling { store.billing with monthlyQuota }
          if (boundUsers store tokenIds).isEmpty then (some verdicts, after)
          else
            snapshotAccounts (boundTokens store tokenIds) (boundUsers store tokenIds) now verdicts
              after := by
  have read : store.listUserBindingsForTokens tokenIds = some _ :=
    (if_neg listed).trans (withVariables_of_le _ few)
  have binding := fun tokenId (member : tokenId ∈ tokenIds) =>
    QuotaStore.find_listUserBindingsForTokens read member
  unfold snapshotMany
  rw [if_neg listed, read]
  generalize (KeyedTable.empty.upsertAll id (fun userId _ => userId)
    ((store.userTokenBindings.rows.filter fun row => row.1 ∈ tokenIds).map fun row =>
      (row.1, row.2.userId))) = bindings at binding
  have unbound : (tokenIds.filter fun tokenId => (bindings.find tokenId).isNone) =
      unboundTokens store tokenIds := by
    apply List.filter_congr
    intro tokenId member
    rw [binding tokenId member]
  have bound : (tokenIds.filterMap fun tokenId => (bindings.find tokenId).map fun userId =>
      (tokenId, userId)) = boundTokens store tokenIds := by
    apply List.filterMap_congr
    intro tokenId member
    rw [binding tokenId member]
  simp only [unbound, bound]
  rfl

theorem length_map_token (ids : List String) : (ids.map QuotaSubject.token).length = ids.length :=
  List.length_map _

/-- Within the limit the bulk snapshot has the verdict of every token of the list. -/
theorem snapshotMany_eq (quota : TokenQuota) {tokenIds : List String} (now : Int)
    (within : WithinVariableLimit store tokenIds) :
    ∃ verdicts after, quota.snapshotMany tokenIds now store = (some verdicts, after) ∧
      (∀ tokenId, verdicts.find tokenId =
        if tokenId ∈ tokenIds then
          some (quota.verdictAt store now (store.resolveSubject tokenId))
        else none) ∧
      SnapshotTaken now (tokenIds.map store.resolveSubject) store after := by
  by_cases nothing : tokenIds.isEmpty = true
  · rw [List.isEmpty_iff.mp nothing]
    exact ⟨.empty, store, rfl, fun tokenId => rfl, .refl now store⟩
  · have few : 2 + ((unboundTokens store tokenIds).map QuotaSubject.token).length ≤
        sqliteMaxVariableNumber := by
      rw [length_map_token]
      exact within.unbound
    obtain ⟨hourly, hourlyRead⟩ := @exists_sumSubjectUsageBucketsBulk store.billing.usageBuckets
      _ .minute (hourWindowStart now) few
    obtain ⟨daily, dailyRead⟩ := @exists_sumSubjectUsageBucketsBulk store.billing.usageBuckets
      _ .hour (dayWindowStart now) few
    have months := fetchSubjectMonthlyCountsBulk_of_le store.billing.monthlyQuota
      (startOfMonthTs now) (Nat.le_of_add_left_le few)
    have tokenVerdict : ∀ tokenId ∈ unboundTokens store tokenIds,
        verdictOf hourly daily
            (fetchSubjectMonthlyCounts store.billing.monthlyQuota
              ((unboundTokens store tokenIds).map .token) (startOfMonthTs now)).1
            quota.limits (.token tokenId) =
          quota.verdictAt store now (.token tokenId) :=
      fun tokenId member =>
        quota.verdictOf_eq store now (List.mem_map_of_mem member) hourlyRead dailyRead rfl
    have tokens := tokensRead_taken store tokenIds now
    rw [snapshotMany_of_le quota tokenIds now store nothing within.tokens]
    simp only [sumUsageBucketsBulk, fetchMonthlyCounts, hourlyRead, dailyRead, months,
      Option.bind_eq_bind, Option.bind_some]
    rw [List.map_congr_left fun tokenId member =>
      congrArg (Prod.mk tokenId) (tokenVerdict tokenId member)]
    by_cases nobody : (boundUsers store tokenIds).isEmpty = true
    · rw [if_pos nobody]
      have none : boundTokens store tokenIds = [] := by
        rw [List.eq_nil_iff_forall_not_mem]
        intro bound member
        have user : bound.2 ∈ boundUsers store tokenIds :=
          mem_boundUsers.mpr ⟨bound.1, mem_boundTokens.mp member⟩
        rw [List.isEmpty_iff.mp nobody] at user
        exact List.not_mem_nil user
      refine ⟨_, tokensRead store tokenIds now, rfl, ?_, ?_⟩
      · intro tokenId
        rw [← find_verdicts (quota.verdictAt store now), none]
        rfl
      · apply tokens.congr
        intro subject
        rw [← mem_subjects, List.isEmpty_iff.mp nobody]
        simp
    · rw [if_neg nobody]
      have known : ∀ userId ∈ boundUsers store tokenIds, userId ∈ store.quota.users := by
        intro userId member
        obtain ⟨tokenId, _, found⟩ := mem_boundUsers.mp member
        exact QuotaStore.known_of_bound found
      have users : ∀ bound ∈ boundTokens store tokenIds, bound.2 ∈ boundUsers store tokenIds :=
        fun bound member => mem_boundUsers.mpr ⟨bound.1, mem_boundTokens.mp member⟩
      obtain ⟨after, accounts, later⟩ := @snapshotAccounts_eq (tokensRead store tokenIds now) quota
        (boundTokens store tokenIds) (boundUsers store tokenIds) now
        (KeyedTable.empty.upsertAll id (fun verdict _ => verdict)
          ((unboundTokens store tokenIds).map fun tokenId =>
            (tokenId, quota.verdictAt store now (.token tokenId))))
        users known (by rwa [List.isEmpty_iff] at nobody) within.users within.limits
      simp only [tokens.verdictAt] at accounts
      exact ⟨_, after, accounts, fun tokenId => find_verdicts (quota.verdictAt store now) tokenId,
        (tokens.trans later).congr fun subject => mem_subjects⟩

/-- Beyond the limit a statement fails, and the call with it. -/
theorem withinVariableLimit_of_snapshotMany {quota : TokenQuota} {tokenIds : List String}
    {now : Int} {verdicts : KeyedTable String TokenQuotaVerdict}
    (returned : (quota.snapshotMany tokenIds now store).1 = some verdicts) :
    WithinVariableLimit store tokenIds := by
  by_cases nothing : tokenIds.isEmpty = true
  · rw [List.isEmpty_iff.mp nothing]
    have two : 2 + 0 ≤ sqliteMaxVariableNumber := by decide
    exact ⟨Nat.zero_le _, two, two, Nat.zero_le _⟩
  · have few : tokenIds.length ≤ sqliteMaxVariableNumber := by
      by_contra many
      have refused : store.listUserBindingsForTokens tokenIds = none :=
        (if_neg nothing).trans (withVariables_of_lt _ (Nat.lt_of_not_le many))
      unfold snapshotMany at returned
      rw [if_neg nothing, refused] at returned
      cases returned
    rw [snapshotMany_of_le quota tokenIds now store nothing few] at returned
    split at returned
    case h_1 => cases returned
    case h_2 hourly daily monthly monthlyQuota read =>
      simp only [Option.bind_eq_bind, Option.bind_eq_some_iff] at read
      obtain ⟨_, hourlyRead, _⟩ := read
      have unbound := few_of_sumSubjectUsageBucketsBulk hourlyRead
      rw [length_map_token] at unbound
      simp only at returned
      split at returned
      · rename_i nobody
        have limits : usersWithoutLimits [] store.quota = [] := rfl
        refine ⟨few, unbound, ?_, ?_⟩
        · rw [List.isEmpty_iff.mp nobody]
          decide
        · rw [List.isEmpty_iff.mp nobody, limits]
          exact Nat.zero_le _
      · unfold snapshotAccounts at returned
        simp only at returned
        split at returned
        case h_1 => cases returned
        case h_2 effective hourly daily monthly monthlyQuota read =>
          simp only [Option.bind_eq_bind, Option.bind_eq_some_iff] at read
          obtain ⟨_, resolved, _, hourlyRead, _⟩ := read
          have users := few_of_sumSubjectUsageBucketsBulk hourlyRead
          rw [List.length_map] at users
          exact ⟨few, unbound, users, withinVariables_of_resolveAccountQuotaLimitsBulk resolved⟩

/-- Bindings and counters are as they were, also after a call that fails. -/
theorem snapshotMany_kept (quota : TokenQuota) (tokenIds : List String) (now : Int)
    (store : QuotaStore) :
    (quota.snapshotMany tokenIds now store).2.userTokenBindings = store.userTokenBindings ∧
      (quota.snapshotMany tokenIds now store).2.billing.usageBuckets =
        store.billing.usageBuckets := by
  unfold snapshotMany
  split
  · exact ⟨rfl, rfl⟩
  · split
    case h_1 => exact ⟨rfl, rfl⟩
    case h_2 =>
      simp only
      split
      case h_1 => exact ⟨rfl, rfl⟩
      case h_2 =>
        split
        · exact ⟨rfl, rfl⟩
        · unfold snapshotAccounts
          simp only
          split
          case h_1 => exact ⟨rfl, rfl⟩
          case h_2 => exact ⟨rfl, rfl⟩

end TokenQuota

/-- The bulk snapshot has for every token of the list, and for no other one, the verdict of its
own snapshot, and rolls its month over like that one does. Run one after the other, the single
snapshots show the same and leave all months as the bulk one does. -/
def SnapshotsAgree (quota : TokenQuota) (store : QuotaStore) (tokenIds : List String)
    (now : Int) : Prop :=
  ∃ verdicts after, quota.snapshotMany tokenIds now store = (some verdicts, after) ∧
    (∀ tokenId, tokenId ∉ tokenIds → verdicts.find tokenId = none) ∧
    (∀ tokenId ∈ tokenIds, ∃ verdict own,
      quota.snapshotForToken tokenId now store = some (verdict, own) ∧
      verdicts.find tokenId = some verdict ∧
      own.billing.monthlyQuota.find (store.resolveSubject tokenId) =
        after.billing.monthlyQuota.find (store.resolveSubject tokenId)) ∧
    (∃ each, quota.snapshotEach now tokenIds store =
        some (tokenIds.filterMap verdicts.find, each) ∧
      ∀ subject, each.billing.monthlyQuota.find subject =
        after.billing.monthlyQuota.find subject)

/-- No token is bound, and nothing has been charged. -/
def unusedStore : QuotaStore where
  userTokenBindings := .empty
  accountDefaults := { legacyDefaults := .zeroBase, zeroBaseCutover := none, createdAt := fun _ => 0 }
  quota :=
    { users := [], accountQuotaLimits := .empty, userTags := .empty, userTagBindings := .empty }
  billing := .empty
  bound _ _ found := by cases found

end TavilyHikari.TavilyProxy
