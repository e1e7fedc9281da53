/-
Module: TavilyHikari.Models.BillingLedger
Purpose: The audit of the business quota counters against the charged rows of the
  log, and the rebase that rebuilds the monthly counters from them (`models.rs`).
Trusted boundary: human-reviewed spec (the meaning of the queries). The audit
  reads one snapshot; its own statements are taken to go through.
Main exports: BillingLedgerWindows, ensureChargedSubjectsAreValid,
  fetchChargedLedgerWindow, auditBusinessQuotaLedger,
  rebaseCurrentMonthBusinessQuota
-/
import TavilyHikari.Library.Transaction
import TavilyHikari.Store.BillingDb

namespace TavilyHikari.Models

open Library Store

structure BillingLedgerWindows where
  generatedAt : Int
  minuteBucketStart : Int
  hourBucketStart : Int
  hourWindowStart : Int
  dayWindowStart : Int
  monthWindowStart : Int
deriving DecidableEq, Repr

def BillingLedgerWindows.fromNow (now : UtcTimestamp) : BillingLedgerWindows where
  generatedAt := now.secs
  minuteBucketStart := minuteBucket now.secs
  hourBucketStart := hourBucket now.secs
  hourWindowStart := minuteBucket now.secs - 59 * secsPerMinute
  dayWindowStart := hourBucket now.secs - 23 * secsPerHour
  monthWindowStart := startOfMonthTs now.secs

/-! ### Queries over the charged rows -/

/-- `billing_state = 'charged' AND COALESCE(business_credits, 0) > 0 AND
created_at >= ? AND created_at <= ?`. -/
def chargedBetween (windowStart generatedAt : Int) (row : AuthTokenLog) : Bool :=
  row.billingState = billingStateCharged ∧ row.credits > 0 ∧
    row.createdAt.secs ≥ windowStart ∧ row.createdAt.secs ≤ generatedAt

/-- `billing_subject IS NULL OR (billing_subject NOT LIKE 'token:%' AND
billing_subject NOT LIKE 'account:%')`. -/
def likeNoSubject (billingSubject : Option String) : Bool :=
  match billingSubject with
  | none => true
  | some text => !likePrefix "token:" text && !likePrefix "account:" text

def invalidSubjectCount (db : BillingDb) (windowStart generatedAt : Int) : Nat :=
  db.authTokenLogs.table.rows.countP fun row =>
    chargedBetween windowStart generatedAt row.2 && likeNoSubject row.2.billingSubject

def ensureChargedSubjectsAreValid (db : BillingDb) (windowStart generatedAt : Int) :
    Except ProxyError PUnit :=
  let invalidCount := invalidSubjectCount db windowStart generatedAt
  if invalidCount > 0 then
    .error (.quotaDataMissing
      (s!"found {invalidCount} charged auth_token_logs rows with invalid billing_subject " ++
        s!"between {windowStart} and {generatedAt}"))
  else .ok ⟨⟩

/-- `fetch_current_month_charged_totals`: how many rows, and their credits. -/
def fetchCurrentMonthChargedTotals (db : BillingDb) (currentMonthStart generatedAt : Int) :
    Int × Int :=
  (db.authTokenLogs.total fun row =>
      if chargedBetween currentMonthStart generatedAt row then 1 else 0,
    db.authTokenLogs.total fun row =>
      if chargedBetween currentMonthStart generatedAt row then row.credits else 0)

/-- `SUM(business_credits)` of one group. -/
def ledgerTotal (db : BillingDb) (windowStart generatedAt : Int) (billingSubject : String) :
    Int :=
  db.authTokenLogs.total fun row =>
    if chargedBetween windowStart generatedAt row ∧
        row.billingSubject = some billingSubject then
      row.credits
    else 0

/-- The groups of `GROUP BY billing_subject ORDER BY billing_subject`. -/
def ledgerSubjects (db : BillingDb) (windowStart generatedAt : Int) : List String :=
  ((db.authTokenLogs.table.rows.filterMap fun row =>
    if chargedBetween windowStart generatedAt row.2 then row.2.billingSubject
    else none).dedup).insertionSort (· ≤ ·)

/-- `fetch_charged_ledger_window`. A group without a subject cannot be decoded. -/
def fetchChargedLedgerWindow (db : BillingDb) (windowStart generatedAt : Int) :
    Except ProxyError (List (String × Int)) :=
  if db.authTokenLogs.table.rows.any fun row =>
      chargedBetween windowStart generatedAt row.2 && row.2.billingSubject.isNone then
    .error .database
  else
    .ok ((ledgerSubjects db windowStart generatedAt).map fun subject =>
      (subject, ledgerTotal db windowStart generatedAt subject))

/-! ### Queries over the counters -/

def tokenId? : QuotaSubject → Option String
  | .token tokenId => some tokenId
  | .account _ => none

def userId? : QuotaSubject → Option String
  | .account userId => some userId
  | .token _ => none

/-- `SUM(count) ... GROUP BY` the id, over the buckets of a window. -/
def fetchQuotaWindow (id? : QuotaSubject → Option String) (db : BillingDb)
    (granularity : Granularity) (windowStart windowEnd : Int) : List (String × Int) :=
  let inWindow (key : UsageBucketKey) : Bool :=
    key.granularity = granularity ∧ key.bucketStart ≥ windowStart ∧
      key.bucketStart ≤ windowEnd
  let owners := db.usageBuckets.rows.filterMap fun row =>
    if inWindow row.1 then id? row.1.subject else none
  (owners.dedup.insertionSort (· ≤ ·)).map fun owner =>
    (owner,
      db.usageBuckets.total (fun key => inWindow key && (id? key.subject = some owner)) id)

def fetchTokenQuotaWindow := fetchQuotaWindow tokenId?

def fetchAccountQuotaWindow := fetchQuotaWindow userId?

/-- `fetch_token_monthly_quota_rows` and `fetch_account_monthly_quota_rows`. The
order of the rows plays no part. -/
def fetchMonthlyQuotaRows (id? : QuotaSubject → Option String) (db : BillingDb) :
    List (String × MonthlyQuotaRow) :=
  db.monthlyQuota.rows.filterMap fun row => (id? row.1).map fun owner => (owner, row.2)

/-- The count of a row that the audit takes for a month. A row of an earlier
month has none. -/
def effectiveMonthCount (monthWindowStart : Int) (stored : MonthlyQuotaRow) : Int :=
  if stored.monthStart ≥ monthWindowStart then stored.monthCount else 0

/-- The counts that are effective in the month, without those that are 0. -/
def effectiveCounts (monthWindowStart : Int) (rows : List (String × MonthlyQuotaRow)) :
    List (String × Int) :=
  rows.filterMap fun row =>
    let effectiveCount := effectiveMonthCount monthWindowStart row.2
    if effectiveCount ≠ 0 then some (row.1, effectiveCount) else none

/-! ### The audit -/

structure BillingLedgerAccumulator where
  hourLedger : Int := 0
  dayLedger : Int := 0
  monthLedger : Int := 0
  hourQuota : Int := 0
  dayQuota : Int := 0
  monthQuota : Int := 0
deriving DecidableEq, Repr

def BillingLedgerAccumulator.hasAnyValue (totals : BillingLedgerAccumulator) : Bool :=
  totals.hourLedger ≠ 0 || totals.dayLedger ≠ 0 || totals.monthLedger ≠ 0 ||
    totals.hourQuota ≠ 0 || totals.dayQuota ≠ 0 || totals.monthQuota ≠ 0

structure BillingLedgerWindowSnapshot where
  ledgerCredits : Int
  quotaCredits : Int
  diffCredits : Int
deriving DecidableEq, Repr

def BillingLedgerWindowSnapshot.new (ledgerCredits quotaCredits : Int) :
    BillingLedgerWindowSnapshot where
  ledgerCredits := ledgerCredits
  quotaCredits := quotaCredits
  diffCredits := quotaCredits - ledgerCredits

def BillingLedgerWindowSnapshot.isMatch (snapshot : BillingLedgerWindowSnapshot) : Bool :=
  snapshot.diffCredits = 0

structure BillingLedgerAuditEntry where
  billingSubject : String
  subjectKind : String
  subjectId : String
  hour : BillingLedgerWindowSnapshot
  day : BillingLedgerWindowSnapshot
  month : BillingLedgerWindowSnapshot
deriving DecidableEq, Repr

def BillingLedgerAuditEntry.hasMismatch (entry : BillingLedgerAuditEntry) : Bool :=
  !(entry.hour.isMatch && entry.day.isMatch && entry.month.isMatch)

structure BillingLedgerAuditReport where
  windows : BillingLedgerWindows
  currentMonthChargedRows : Int
  currentMonthChargedCredits : Int
  subjectCount : Nat
  mismatchedSubjects : Nat
  hourOnlyMismatches : Nat
  dayOnlyMismatches : Nat
  monthOnlyMismatches : Nat
  mixedMismatches : Nat
  entries : List BillingLedgerAuditEntry
deriving DecidableEq, Repr

/-- `billing_subject_parts`: the kind of a subject and its id. -/
def billingSubjectParts (subject : String) : Except ProxyError (String × String) :=
  match QuotaSubject.fromBillingSubject subject with
  | some (.account userId) => .ok ("account", userId)
  | some (.token tokenId) => .ok ("token", tokenId)
  | none => .error (.quotaDataMissing s!"invalid billing subject: {subject}")

abbrev LedgerSubjects := KeyedTable String BillingLedgerAccumulator

/-- `subjects.entry(subject).or_default().field = value`, one value after
another. -/
def fillSubjects (set : Int → BillingLedgerAccumulator → BillingLedgerAccumulator)
    (values : List (String × Int)) (subjects : LedgerSubjects) : LedgerSubjects :=
  subjects.upsertAll (fun value => set value {}) set values

def tokenSubjects (values : List (String × Int)) : List (String × Int) :=
  values.map fun value => (QuotaSubject.billingSubject (.token value.1), value.2)

def accountSubjects (values : List (String × Int)) : List (String × Int) :=
  values.map fun value => (QuotaSubject.billingSubject (.account value.1), value.2)

/-- The accumulators after all the queries of the audit. -/
def gatherSubjects (db : BillingDb) (windows : BillingLedgerWindows)
    (hourLedger dayLedger monthLedger : List (String × Int)) : LedgerSubjects :=
  fillSubjects (fun value totals => { totals with monthQuota := value })
      (accountSubjects
        (effectiveCounts windows.monthWindowStart (fetchMonthlyQuotaRows userId? db))) <|
  fillSubjects (fun value totals => { totals with monthQuota := value })
      (tokenSubjects
        (effectiveCounts windows.monthWindowStart (fetchMonthlyQuotaRows tokenId? db))) <|
  fillSubjects (fun value totals => { totals with dayQuota := value })
      (accountSubjects (fetchAccountQuotaWindow db .hour windows.dayWindowStart
        windows.hourBucketStart)) <|
  fillSubjects (fun value totals => { totals with dayQuota := value })
      (tokenSubjects (fetchTokenQuotaWindow db .hour windows.dayWindowStart
        windows.hourBucketStart)) <|
  fillSubjects (fun value totals => { totals with hourQuota := value })
      (accountSubjects (fetchAccountQuotaWindow db .minute windows.hourWindowStart
        windows.minuteBucketStart)) <|
  fillSubjects (fun value totals => { totals with hourQuota := value })
      (tokenSubjects (fetchTokenQuotaWindow db .minute windows.hourWindowStart
        windows.minuteBucketStart)) <|
  fillSubjects (fun value totals => { totals with monthLedger := value }) monthLedger <|
  fillSubjects (fun value totals => { totals with dayLedger := value }) dayLedger <|
  fillSubjects (fun value totals => { totals with hourLedger := value }) hourLedger .empty

def auditEntry (billingSubject : String) (totals : BillingLedgerAccumulator) :
    Except ProxyError BillingLedgerAuditEntry :=
  match billingSubjectParts billingSubject with
  | .error e => .error e
  | .ok (subjectKind, subjectId) =>
      .ok
        { billingSubject
          subjectKind
          subjectId
          hour := .new totals.hourLedger totals.hourQuota
          day := .new totals.dayLedger totals.dayQuota
          month := .new totals.monthLedger totals.monthQuota }

/-- The loop over the subjects. Subjects without any value are left out. -/
def auditEntries : List (String × BillingLedgerAccumulator) →
    Except ProxyError (List BillingLedgerAuditEntry)
  | [] => .ok []
  | (billingSubject, totals) :: rest =>
      if totals.hasAnyValue then
        match auditEntry billingSubject totals, auditEntries rest with
        | .ok entry, .ok entries => .ok (entry :: entries)
        | .error e, _ => .error e
        | _, .error e => .error e
      else auditEntries rest

/-- How many entries mismatch in exactly these windows. -/
def countMismatches (entries : List BillingLedgerAuditEntry) (hour day month : Bool) : Nat :=
  entries.countP fun entry =>
    (!entry.hour.isMatch) = hour ∧ (!entry.day.isMatch) = day ∧
      (!entry.month.isMatch) = month

def auditReport (db : BillingDb) (windows : BillingLedgerWindows)
    (entries : List BillingLedgerAuditEntry) : BillingLedgerAuditReport :=
  let (rows, credits) :=
    fetchCurrentMonthChargedTotals db windows.monthWindowStart windows.generatedAt
  { windows
    currentMonthChargedRows := rows
    currentMonthChargedCredits := credits
    subjectCount := entries.length
    mismatchedSubjects := entries.countP BillingLedgerAuditEntry.hasMismatch
    hourOnlyMismatches := countMismatches entries true false false
    dayOnlyMismatches := countMismatches entries false true false
    monthOnlyMismatches := countMismatches entries false false true
    mixedMismatches :=
      countMismatches entries true true false + countMismatches entries true false true +
        countMismatches entries false true true + countMismatches entries true true true
    entries }

/-- `audit_business_quota_ledger_with_pool`. -/
def auditBusinessQuotaLedger (db : BillingDb) (now : UtcTimestamp) :
    Except ProxyError BillingLedgerAuditReport := do
  let windows := BillingLedgerWindows.fromNow now
  ensureChargedSubjectsAreValid db (min windows.dayWindowStart windows.monthWindowStart)
    windows.generatedAt
  let hourLedger ← fetchChargedLedgerWindow db windows.hourWindowStart windows.generatedAt
  let dayLedger ← fetchChargedLedgerWindow db windows.dayWindowStart windows.generatedAt
  let monthLedger ← fetchChargedLedgerWindow db windows.monthWindowStart windows.generatedAt
  let subjects := gatherSubjects db windows hourLedger dayLedger monthLedger
  let entries ← auditEntries (subjects.rows.insertionSort fun one two => one.1 ≤ two.1)
  pure (auditReport db windows entries)

/-! ### The rebase -/

/-- `UPDATE ... SET month_start = ?, month_count = 0`, on one monthly table. -/
def clearMonthlyRows (id? : QuotaSubject → Option String) (db : BillingDb)
    (monthStart : Int) : Int × BillingDb :=
  (db.monthlyQuota.rows.countP fun row => (id? row.1).isSome,
    { db with
      monthlyQuota := db.monthlyQuota.mapValues fun subject stored =>
        if (id? subject).isSome then { monthStart, monthCount := 0 } else stored })

/-- The upsert of the rebase, which overwrites both columns. -/
def overwriteMonth (db : BillingDb) (subject : QuotaSubject) (monthStart total : Int) :
    BillingDb :=
  { db with
    monthlyQuota := db.monthlyQuota.upsert subject { monthStart, monthCount := total }
      fun _ => { monthStart, monthCount := total } }

structure MonthlyQuotaRebaseReport where
  currentMonthStart : Int
  previousRebaseMonthStart : Option Int
  currentMonthChargedRows : Int
  currentMonthChargedCredits : Int
  rebasedSubjectCount : Nat
  rebasedTokenSubjects : Nat
  rebasedAccountSubjects : Nat
  clearedTokenRows : Int
  clearedAccountRows : Int
  metaUpdated : Bool
deriving DecidableEq, Repr

abbrev LedgerTx := Tx ProxyError BillingDb

/-- The loop over the rebased subjects, with how many tokens and accounts there
were. -/
def rebaseSubjects (monthStart : Int) : List (String × Int) → LedgerTx (Nat × Nat)
  | [] => pure (0, 0)
  | (billingSubject, total) :: rest =>
      match QuotaSubject.fromBillingSubject billingSubject with
      | none =>
          Tx.abandon (.quotaDataMissing s!"invalid billing subject: {billingSubject}")
      | some subject => do
          Tx.execute .database fun db => overwriteMonth db subject monthStart total
          let (tokens, accounts) ← rebaseSubjects monthStart rest
          match subject with
          | .token _ => pure (tokens + 1, accounts)
          | .account _ => pure (tokens, accounts + 1)

def updateRebaseMeta (metaKey : String) (updateMeta : Bool) (monthStart : Int) :
    LedgerTx PUnit :=
  if updateMeta then Tx.execute .database fun db => db.setMetaI64 metaKey monthStart
  else pure ⟨⟩

def rebaseTx (windows : BillingLedgerWindows) (metaKey : String) (updateMeta : Bool) :
    LedgerTx MonthlyQuotaRebaseReport := do
  let checked ← Tx.query .database fun db =>
    ensureChargedSubjectsAreValid db windows.monthWindowStart windows.generatedAt
  Tx.ofExcept checked
  let previousRebaseMonthStart ← Tx.query .database fun db => db.getMetaI64 metaKey
  let charged ← Tx.query .database fun db =>
    fetchCurrentMonthChargedTotals db windows.monthWindowStart windows.generatedAt
  let fetched ← Tx.query .database fun db =>
    fetchChargedLedgerWindow db windows.monthWindowStart windows.generatedAt
  let rebasedSubjects ← Tx.ofExcept fetched
  let clearedTokenRows ← Tx.statement .database fun db =>
    clearMonthlyRows tokenId? db windows.monthWindowStart
  let clearedAccountRows ← Tx.statement .database fun db =>
    clearMonthlyRows userId? db windows.monthWindowStart
  let rebased ← rebaseSubjects windows.monthWindowStart rebasedSubjects
  updateRebaseMeta metaKey updateMeta windows.monthWindowStart
  pure
    { currentMonthStart := windows.monthWindowStart
      previousRebaseMonthStart
      currentMonthChargedRows := charged.1
      currentMonthChargedCredits := charged.2
      rebasedSubjectCount := rebasedSubjects.length
      rebasedTokenSubjects := rebased.1
      rebasedAccountSubjects := rebased.2
      clearedTokenRows
      clearedAccountRows
      metaUpdated :=
        updateMeta && (previousRebaseMonthStart ≠ some windows.monthWindowStart) }

/-- The later of the time the caller passes and the time the lock was taken. -/
def rebaseNow (lockedNow now : UtcTimestamp) : UtcTimestamp :=
  if lockedNow.secs > now.secs then lockedNow else now

/-- `rebase_current_month_business_quota_with_pool`. `lockedNow` is `Utc::now()`
once the write lock is held; the transaction breaks after `healthy`
statements. -/
def rebaseCurrentMonthBusinessQuota (lockedNow now : UtcTimestamp) (metaKey : String)
    (updateMeta : Bool) (healthy : Option Nat) (db : BillingDb) :
    Except ProxyError MonthlyQuotaRebaseReport × BillingDb :=
  Tx.transaction .database
    (rebaseTx (BillingLedgerWindows.fromNow (rebaseNow lockedNow now)) metaKey updateMeta)
    healthy db

end TavilyHikari.Models
