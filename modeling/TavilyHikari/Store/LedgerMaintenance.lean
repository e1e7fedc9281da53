/-
Module: TavilyHikari.Store.LedgerMaintenance
Purpose: The billing ledger with those who read and clean up its counters: the quota snapshots,
  which roll the months over, and `TokenQuota::maybe_cleanup` (`tavily_proxy/mod.rs`).
Trusted boundary: human-reviewed spec (`Utc::now` returns no time before 1970)
Main exports: snapshotForSubject, snapshotMany, MaintainedLedger, MaintenanceAction,
  maintenanceSystem
-/
import TavilyHikari.Library.TransitionSystem
import TavilyHikari.Store.PendingBilling
import TavilyHikari.Store.QuotaPrecheck
import TavilyHikari.Store.TokenRequestLimit

namespace TavilyHikari.Store

open Library

/-! ### Snapshots -/

/-- `snapshot_for_subject`, run without a settlement in between. -/
def snapshotForSubject (limits : QuotaLimits) (db : BillingDb) (subject : QuotaSubject)
    (now : Int) : TokenQuotaVerdict × BillingDb :=
  let hourlyUsed := sumUsageBuckets db.usageBuckets subject .minute (hourWindowStart now)
  let dailyUsed := sumUsageBuckets db.usageBuckets subject .hour (dayWindowStart now)
  let (monthlyUsed, monthlyQuota) :=
    fetchSubjectMonthlyCount db.monthlyQuota subject (startOfMonthTs now)
  (.new hourlyUsed limits.hourlyLimit dailyUsed limits.dailyLimit monthlyUsed
    limits.monthlyLimit, { db with monthlyQuota })

/-- The count that a bulk reader has returned for a subject. -/
def countOf (counts : List (QuotaSubject × Int)) (subject : QuotaSubject) : Int :=
  ((counts.find? fun count => count.1 = subject).map Prod.snd).getD 0

/-- `snapshot_many`, run without a settlement in between. A call that SQLite refuses for the
number of its variables leaves what one for fewer of the tokens leaves. -/
def snapshotMany (subjectOf : String → QuotaSubject) (limits : QuotaSubject → QuotaLimits)
    (db : BillingDb) (tokenIds : List String) (now : Int) :
    List (String × TokenQuotaVerdict) × BillingDb :=
  if tokenIds.isEmpty then ([], db)
  else
    let subjects := tokenIds.map subjectOf
    let tokens := subjects.filter fun subject => match subject with
      | .token _ => true
      | .account _ => false
    let accounts := subjects.filter fun subject => match subject with
      | .token _ => false
      | .account _ => true
    let monthStart := startOfMonthTs now
    let (tokenCounts, monthlyQuota) := fetchSubjectMonthlyCounts db.monthlyQuota tokens monthStart
    let (accountCounts, monthlyQuota) :=
      fetchSubjectMonthlyCounts monthlyQuota accounts.dedup monthStart
    let verdict (subject : QuotaSubject) : TokenQuotaVerdict :=
      let limits := limits subject
      .new (sumUsageBuckets db.usageBuckets subject .minute (hourWindowStart now))
        limits.hourlyLimit
        (sumUsageBuckets db.usageBuckets subject .hour (dayWindowStart now)) limits.dailyLimit
        (countOf (tokenCounts ++ accountCounts) subject) limits.monthlyLimit
    (tokenIds.map fun tokenId => (tokenId, verdict (subjectOf tokenId)), { db with monthlyQuota })

/-! ### Clean-up -/

/-- The table of a subject's buckets: `token_usage_buckets` or `account_usage_buckets`. -/
inductive UsageTable where
  | token
  | account
deriving DecidableEq, Repr

def UsageTable.holds : UsageTable → QuotaSubject → Bool
  | .token, .token _ => true
  | .account, .account _ => true
  | _, _ => false

/-- A statement of a clean-up. -/
structure UsageDelete where
  table : UsageTable
  granularity : Granularity
  threshold : Int
deriving DecidableEq, Repr

/-- `delete_old_usage_buckets` or `delete_old_account_usage_buckets`. -/
def UsageDelete.run (delete : UsageDelete) (buckets : UsageBuckets) : UsageBuckets :=
  buckets.deleteWhere fun key _ =>
    delete.table.holds key.subject && key.granularity = delete.granularity &&
      key.bucketStart < delete.threshold

/-- The statements of a clean-up. -/
def cleanupDeletes (nowTs : Int) : List UsageDelete :=
  let threshold := nowTs - bucketRetentionSecs
  [{ table := .token, granularity := .minute, threshold },
    { table := .token, granularity := .hour, threshold },
    { table := .account, granularity := .minute, threshold },
    { table := .account, granularity := .hour, threshold }]

/-! ### The ledger with its readers -/

/-- The ledger, the latest time that a step has read, the time of the last clean-up, and the
statements of clean-ups that are still to run. -/
structure MaintainedLedger where
  latest : UtcTimestamp
  db : BillingDb
  lastPruned : Int
  deletes : List UsageDelete

/-- The steps. Each has the time that its caller has read, in whatever order they did. -/
inductive MaintenanceAction where
  /-- `record_pending_billing_attempt`, with the subject of a token or an account. -/
  | record (now : UtcTimestamp) (attempt : PendingBillingAttempt)
  /-- `apply_pending_billing_log`, which breaks after `healthy` statements. -/
  | apply (now : UtcTimestamp) (logId : Int) (healthy : Option Nat)
  /-- `annotate_pending_billing_attempt`. -/
  | annotate (logId : Int) (message : String)
  | snapshotForSubject (now : UtcTimestamp) (subject : QuotaSubject) (limits : QuotaLimits)
  | snapshotMany (now : UtcTimestamp) (tokenIds : List String)
      (subjectOf : String → QuotaSubject) (limits : QuotaSubject → QuotaLimits)
  /-- `maybe_cleanup`, up to its first statement. -/
  | maybeCleanup (now : UtcTimestamp)
  /-- One of the statements that are still to run. -/
  | delete (statement : Nat)

namespace MaintainedLedger

/-- An empty ledger. -/
def initial : MaintainedLedger where
  latest := default
  db := .empty
  lastPruned := 0
  deletes := []

/-- The caller reads the time, which is not before 1970. -/
def read (s : MaintainedLedger) (now : UtcTimestamp) : Option MaintainedLedger :=
  if 0 ≤ now.secs then
    some { s with latest := if s.latest.secs ≤ now.secs then now else s.latest }
  else none

def step (localDayBucketStartUtcTs : Int → Int) (s : MaintainedLedger) :
    MaintenanceAction → Option MaintainedLedger
  | .record now attempt =>
      if (QuotaSubject.fromBillingSubject attempt.billingSubject).isSome then
        (s.read now).map fun s =>
          { s with db := (insertTokenLogPendingBilling s.db attempt now).2 }
      else none
  | .apply now logId healthy =>
      (s.read now).map fun s =>
        let env := { now, localDayBucketStartUtcTs }
        { s with db := (applyPendingBillingLog env logId healthy s.db).2 }
  | .annotate logId message =>
      some { s with db := annotatePendingBillingLog s.db logId message }
  | .snapshotForSubject now subject limits =>
      (s.read now).map fun s =>
        { s with db := (Store.snapshotForSubject limits s.db subject now.secs).2 }
  | .snapshotMany now tokenIds subjectOf limits =>
      (s.read now).map fun s =>
        { s with db := (Store.snapshotMany subjectOf limits s.db tokenIds now.secs).2 }
  | .maybeCleanup now =>
      (s.read now).map fun s =>
        if now.secs - s.lastPruned < cleanupIntervalSecs then s
        else
          { s with
            lastPruned := now.secs
            deletes := s.deletes ++ cleanupDeletes now.secs }
  | .delete statement =>
      (s.deletes[statement]?).map fun delete =>
        { s with
          db := { s.db with usageBuckets := delete.run s.db.usageBuckets }
          deletes := s.deletes.eraseIdx statement }

end MaintainedLedger

def maintenanceSystem (localDayBucketStartUtcTs : Int → Int) :
    TransitionSystem MaintainedLedger MaintenanceAction where
  step := MaintainedLedger.step localDayBucketStartUtcTs

end TavilyHikari.Store
