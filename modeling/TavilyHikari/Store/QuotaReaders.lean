/-
Module: TavilyHikari.Store.QuotaReaders
Purpose: The readers of the usage counters and of the quotas of accounts, for one subject and
  in bulk (`store/mod.rs`). Both create the limits of a user that are missing; one in bulk binds
  its whole list in one statement, which SQLite refuses beyond its number of variables.
Trusted boundary: human-reviewed spec (foreign keys reject a statement; the names and the
  system keys of tags are unique, so an order by them leaves nothing open; a statement may have
  32766 variables)
Main exports: sqliteMaxVariableNumber, withVariables, sumUsageBucketsBulk,
  earliestUsageBucketSinceBulk, fetchMonthlyCounts, AccountDefaults,
  resolveAccountQuotaResolution, resolveAccountQuotaLimitsBulk
-/
import TavilyHikari.Library.Collect
import TavilyHikari.Store.AccountQuota
import TavilyHikari.Store.MonthlyQuota
import TavilyHikari.Store.UsageBuckets

namespace TavilyHikari.Store

open Library

/-! ### Variables of a statement -/

/-- `SQLITE_MAX_VARIABLE_NUMBER`, as SQLite is built by default. -/
def sqliteMaxVariableNumber : Nat := 32766

/-- What a statement yields that binds so many variables: an error beyond the limit. -/
def withVariables {Rows : Type} (count : Nat) (rows : Rows) : Option Rows :=
  if count ≤ sqliteMaxVariableNumber then some rows else none

theorem withVariables_eq_some_iff {Rows : Type} {count : Nat} {rows rows' : Rows} :
    withVariables count rows = some rows' ↔
      count ≤ sqliteMaxVariableNumber ∧ rows = rows' := by
  unfold withVariables
  split <;> simp [*]

theorem withVariables_of_le {Rows : Type} {count : Nat} (rows : Rows)
    (few : count ≤ sqliteMaxVariableNumber) : withVariables count rows = some rows :=
  if_pos few

theorem withVariables_of_lt {Rows : Type} {count : Nat} (rows : Rows)
    (many : sqliteMaxVariableNumber < count) : withVariables count rows = none :=
  if_neg (Nat.not_le_of_lt many)

/-! ### Usage in bulk -/

/-- The rows of the subjects `WHERE granularity = ? AND bucket_start >= ?`. -/
def selectUsageRows (buckets : UsageBuckets) (subjects : List QuotaSubject)
    (granularity : Granularity) (bucketStartAtLeast : Int) : List (UsageBucketKey × Int) :=
  buckets.rows.filter fun row =>
    row.1.granularity = granularity && row.1.bucketStart ≥ bucketStartAtLeast &&
      row.1.subject ∈ subjects

/-- `SELECT SUM(count) ... GROUP BY` the subject. -/
def sumSubjectUsageBucketsBulk (buckets : UsageBuckets) (subjects : List QuotaSubject)
    (granularity : Granularity) (bucketStartAtLeast : Int) :
    Option (KeyedTable QuotaSubject Int) :=
  if subjects.isEmpty then some .empty
  else
    withVariables (2 + subjects.length)
      (.collect (· + ·) ((selectUsageRows buckets subjects granularity bucketStartAtLeast).map
        fun row => (row.1.subject, row.2)))

/-- `SELECT MIN(bucket_start) ... GROUP BY` the subject. -/
def earliestSubjectUsageBucketSinceBulk (buckets : UsageBuckets) (subjects : List QuotaSubject)
    (granularity : Granularity) (bucketStartAtLeast : Int) :
    Option (KeyedTable QuotaSubject Int) :=
  if subjects.isEmpty then some .empty
  else
    withVariables (2 + subjects.length)
      (.collect min ((selectUsageRows buckets subjects granularity bucketStartAtLeast).map
        fun row => (row.1.subject, row.1.bucketStart)))

def sumUsageBucketsBulk (buckets : UsageBuckets) (tokenIds : List String)
    (granularity : Granularity) (bucketStartAtLeast : Int) :
    Option (KeyedTable QuotaSubject Int) :=
  sumSubjectUsageBucketsBulk buckets (tokenIds.map .token) granularity bucketStartAtLeast

def sumAccountUsageBucketsBulk (buckets : UsageBuckets) (userIds : List String)
    (granularity : Granularity) (bucketStartAtLeast : Int) :
    Option (KeyedTable QuotaSubject Int) :=
  sumSubjectUsageBucketsBulk buckets (userIds.map .account) granularity bucketStartAtLeast

def earliestUsageBucketSinceBulk (buckets : UsageBuckets) (tokenIds : List String)
    (granularity : Granularity) (bucketStartAtLeast : Int) :
    Option (KeyedTable QuotaSubject Int) :=
  earliestSubjectUsageBucketSinceBulk buckets (tokenIds.map .token) granularity
    bucketStartAtLeast

def earliestAccountUsageBucketSinceBulk (buckets : UsageBuckets) (userIds : List String)
    (granularity : Granularity) (bucketStartAtLeast : Int) :
    Option (KeyedTable QuotaSubject Int) :=
  earliestSubjectUsageBucketSinceBulk buckets (userIds.map .account) granularity
    bucketStartAtLeast

/-! ### Months in bulk -/

/-- The monthly counts of the subjects; the stale rows are reset one `UPDATE` at a time. -/
def fetchSubjectMonthlyCountsBulk (quota : MonthlyQuotaTable) (subjects : List QuotaSubject)
    (currentMonthStart : Int) : Option (List (QuotaSubject × Int) × MonthlyQuotaTable) :=
  if subjects.isEmpty then some ([], quota)
  else
    withVariables subjects.length (fetchSubjectMonthlyCounts quota subjects currentMonthStart)

def fetchMonthlyCounts (quota : MonthlyQuotaTable) (tokenIds : List String)
    (currentMonthStart : Int) : Option (List (QuotaSubject × Int) × MonthlyQuotaTable) :=
  fetchSubjectMonthlyCountsBulk quota (tokenIds.map .token) currentMonthStart

def fetchAccountMonthlyCounts (quota : MonthlyQuotaTable) (userIds : List String)
    (currentMonthStart : Int) : Option (List (QuotaSubject × Int) × MonthlyQuotaTable) :=
  fetchSubjectMonthlyCountsBulk quota (userIds.map .account) currentMonthStart

/-! ### Limits of accounts -/

abbrev AccountQuotaLimitsTable := KeyedTable String AccountQuotaLimits

/-- `AccountQuotaLimits::zero_base`. -/
def AccountQuotaLimits.zeroBase : AccountQuotaLimits where
  hourlyAnyLimit := 0
  hourlyLimit := 0
  dailyLimit := 0
  monthlyLimit := 0
  inheritsDefaults := false

/-- What the limits of a new row depend on: `AccountQuotaLimits::legacy_defaults` of the
environment, the value of `account_quota_zero_base_cutover_v1`, and `users.created_at`. -/
structure AccountDefaults where
  legacyDefaults : AccountQuotaLimits
  zeroBaseCutover : Option Int
  createdAt : String → Int

namespace AccountDefaults

def accountQuotaZeroBaseCutoverAt (defaults : AccountDefaults) : Int :=
  defaults.zeroBaseCutover.getD i64Max

/-- `default_account_quota_limits_for_created_at`, of a user. -/
def limitsOf (defaults : AccountDefaults) (userId : String) : AccountQuotaLimits :=
  if defaults.createdAt userId ≥ defaults.accountQuotaZeroBaseCutoverAt then .zeroBase
  else defaults.legacyDefaults

end AccountDefaults

/-- `default_account_quota_limits_for_user`, which fails without a row of the user. -/
def defaultAccountQuotaLimitsForUser (defaults : AccountDefaults) (userId : String)
    (db : QuotaDb) : Option AccountQuotaLimits :=
  if userId ∈ db.users then some (defaults.limitsOf userId) else none

/-- `default_account_quota_limits_for_users`. -/
def defaultAccountQuotaLimitsForUsers (defaults : AccountDefaults) (userIds : List String)
    (db : QuotaDb) : Option AccountQuotaLimitsTable :=
  if userIds.isEmpty then some .empty
  else
    withVariables userIds.length
      (KeyedTable.empty.upsertAll id (fun limits _ => limits)
        ((db.users.filter fun userId => userId ∈ userIds).map fun userId =>
          (userId, defaults.limitsOf userId)))

/-- `fetch_account_quota_limits_bulk`. -/
def fetchAccountQuotaLimitsBulk (userIds : List String) (limits : AccountQuotaLimitsTable) :
    Option AccountQuotaLimitsTable :=
  if userIds.isEmpty then some .empty
  else withVariables userIds.length (limits.deleteWhere fun userId _ => userId ∉ userIds)

/-- `ensure_account_quota_limits`: the limits of the user, and the table with them. -/
def ensureAccountQuotaLimits (defaults : AccountDefaults) (userId : String) (db : QuotaDb) :
    Option (AccountQuotaLimits × AccountQuotaLimitsTable) :=
  match db.accountQuotaLimits.find userId with
  | some existing => some (existing, db.accountQuotaLimits)
  | none =>
      (defaultAccountQuotaLimitsForUser defaults userId db).bind fun fresh =>
        let limits := db.accountQuotaLimits.upsert userId fresh id
        (limits.find userId).map fun found => (found, limits)

/-- `INSERT ... VALUES` of eight columns a user `ON CONFLICT(user_id) DO NOTHING`. The foreign
key rejects the rows of users that there are not. -/
def insertAccountQuotaLimits (rows : List (String × AccountQuotaLimits)) (db : QuotaDb) :
    Option AccountQuotaLimitsTable :=
  if rows.all fun row => row.1 ∈ db.users then
    withVariables (8 * rows.length)
      (db.accountQuotaLimits.upsertAll id (fun _ stored => stored) rows)
  else none

/-- `ensure_account_quota_limits_for_users`: the table with the limits of the users. -/
def ensureAccountQuotaLimitsForUsers (defaults : AccountDefaults) (userIds : List String)
    (db : QuotaDb) : Option AccountQuotaLimitsTable :=
  if userIds.isEmpty then some db.accountQuotaLimits
  else do
    let existing ← fetchAccountQuotaLimitsBulk userIds db.accountQuotaLimits
    let missingUserIds := userIds.filter fun userId => (existing.find userId).isNone
    if missingUserIds.isEmpty then some db.accountQuotaLimits
    else do
      let defaultsByUser ← defaultAccountQuotaLimitsForUsers defaults missingUserIds db
      insertAccountQuotaLimits (missingUserIds.map fun userId =>
        (userId, (defaultsByUser.find userId).getD .zeroBase)) db

/-! ### Resolution -/

/-- `list_user_tag_bindings_for_users`, each binding with its user. -/
def listUserTagBindingsForUsers (userIds : List String) (db : QuotaDb) :
    Option (List (String × UserTagBindingRecord)) :=
  if userIds.isEmpty then some []
  else
    withVariables userIds.length
      ((db.userTagBindings.rows.filterMap fun row =>
        if row.1.1 ∈ userIds then
          (db.userTags.find row.1.2).map fun tag => (row.1.1, { source := row.2, tag })
        else none).insertionSort fun a b => bindingOrder a.2 b.2)

/-- `resolve_account_quota_resolution` without a cached resolution. -/
def resolveAccountQuotaResolution (defaults : AccountDefaults) (userId : String) (db : QuotaDb) :
    Option (AccountQuotaResolution × AccountQuotaLimitsTable) :=
  (ensureAccountQuotaLimits defaults userId db).map fun (base, limits) =>
    (buildAccountQuotaResolution base (listUserTagBindingsForUser db userId), limits)

/-- `resolve_account_quota_limits_bulk`: the effective limits of the users, and the table with
the limits of all of them, which a later statement that fails leaves behind. -/
def resolveAccountQuotaLimitsBulk (defaults : AccountDefaults) (userIds : List String)
    (db : QuotaDb) : Option AccountQuotaLimitsTable × AccountQuotaLimitsTable :=
  if userIds.isEmpty then (some .empty, db.accountQuotaLimits)
  else
    match ensureAccountQuotaLimitsForUsers defaults userIds db with
    | none => (none, db.accountQuotaLimits)
    | some limits =>
        let resolved := do
          let baseLimits ← fetchAccountQuotaLimitsBulk userIds limits
          let tagBindings ← listUserTagBindingsForUsers userIds db
          let effective (userId : String) : AccountQuotaLimits :=
            (buildAccountQuotaResolution ((baseLimits.find userId).getD .zeroBase)
              (valuesOf userId tagBindings)).effective
          some (KeyedTable.empty.upsertAll id (fun limits _ => limits)
            (userIds.map fun userId => (userId, effective userId)))
        (resolved, limits)

end TavilyHikari.Store
