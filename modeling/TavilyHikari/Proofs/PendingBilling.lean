/-
Module: TavilyHikari.Proofs.PendingBilling
Purpose: What one call of `apply_pending_billing_log` can do: nothing, or the
  charge of one pending row with all its counters.
Trusted boundary: none
Main exports: Settles, applyPendingBillingLog_cases, applyPendingBillingLog_error
-/
import TavilyHikari.Store.PendingBilling

namespace TavilyHikari.Store

open Library Tx

namespace BillingDb

@[simp] theorem claim_authTokenLogs (db : BillingDb) (logId : Int) :
    (db.claim logId).authTokenLogs =
      db.authTokenLogs.modify logId AuthTokenLog.charged := rfl

@[simp] theorem claim_usageBuckets (db : BillingDb) (logId : Int) :
    (db.claim logId).usageBuckets = db.usageBuckets := rfl

@[simp] theorem claim_monthlyQuota (db : BillingDb) (logId : Int) :
    (db.claim logId).monthlyQuota = db.monthlyQuota := rfl

@[simp] theorem charge_authTokenLogs (db : BillingDb) (subject : QuotaSubject)
    (ts credits : Int) : (db.charge subject ts credits).authTokenLogs = db.authTokenLogs := rfl

@[simp] theorem charge_usageBuckets (db : BillingDb) (subject : QuotaSubject)
    (ts credits : Int) :
    (db.charge subject ts credits).usageBuckets =
      incrementUsageBucketBy
        (incrementUsageBucketBy db.usageBuckets subject (minuteBucket ts) .minute credits)
        subject (hourBucket ts) .hour credits := rfl

@[simp] theorem charge_monthlyQuota (db : BillingDb) (subject : QuotaSubject)
    (ts credits : Int) :
    (db.charge subject ts credits).monthlyQuota =
      chargeMonth db.monthlyQuota subject (startOfMonthTs ts) credits := rfl

/-- What a charge does to the ledger depends on the ledger only. -/
theorem SameLedger.charge {db db' : BillingDb} (same : SameLedger db db')
    (subject : QuotaSubject) (ts credits : Int) :
    SameLedger (db.charge subject ts credits) (db'.charge subject ts credits) :=
  ⟨by simp [same.logs], by simp [same.buckets], by simp [same.month]⟩

end BillingDb

/-- A pending row becomes charged, with what that does to the counters. -/
structure Settles (db db' : BillingDb) (logId : Int) (row : AuthTokenLog) : Prop where
  found : db.authTokenLogs.find logId = some row
  pending : row.billingState = billingStatePending
  counted :
    (row.credits ≤ 0 ∧ BillingDb.SameLedger (db.claim logId) db') ∨
      ∃ subject, 0 < row.credits ∧ row.billingSubject = some subject.billingSubject ∧
        BillingDb.SameLedger ((db.claim logId).charge subject row.createdAt.secs row.credits) db'

/-- Of the logs, settling a row changes that row alone. -/
theorem Settles.logs {db db' : BillingDb} {logId : Int} {row : AuthTokenLog}
    (settles : Settles db db' logId row) :
    db'.authTokenLogs = db.authTokenLogs.modify logId AuthTokenLog.charged := by
  rcases settles.counted with ⟨_, same⟩ | ⟨_, _, _, counted⟩
  · exact same.logs
  · exact counted.logs

/-! ### The statements of the transaction -/

/-- The claim takes a pending row, or leaves everything as it is. -/
theorem claimPending_yields {logId : Int} {db db' : BillingDb} {claimed : Option AuthTokenLog}
    (yields : Yields (claimPending logId) db claimed db') :
    (claimed = none ∧ db' = db) ∨
      ∃ row, claimed = some row ∧ db.authTokenLogs.find logId = some row ∧
        row.billingState = billingStatePending ∧ db' = db.claim logId := by
  have ran := yields.of_statement
  split at ran
  · rename_i row found
    split at ran
    · rename_i pending
      cases ran
      exact Or.inr ⟨row, rfl, found, pending, rfl⟩
    · cases ran
      exact Or.inl ⟨rfl, rfl⟩
  · cases ran
    exact Or.inl ⟨rfl, rfl⟩

/-- A claim that missed finds the row charged already, or still pending; any other row is an error.
-/
theorem claimMissed_yields {logId : Int} {db db' : BillingDb}
    {outcome : PendingBillingSettleOutcome}
    (yields : Yields (claimMissed logId) db outcome db') :
    db' = db ∧ ∃ row, db.authTokenLogs.find logId = some row ∧
      ((outcome = .alreadySettled ∧ row.billingState = billingStateCharged) ∨
        (outcome = .retryLater ∧ row.billingState = billingStatePending)) := by
  obtain ⟨state, mid, read, answer⟩ := yields.of_bind
  obtain ⟨rfl, rfl⟩ := read.of_query
  cases found : mid.authTokenLogs.find logId with
  | none =>
      rw [found] at answer
      exact answer.of_abandon.elim
  | some row =>
      rw [found] at answer
      simp only [Option.map_some] at answer
      split at answer
      · rename_i charged
        obtain ⟨rfl, same⟩ := answer.of_pure
        exact ⟨same, row, rfl, Or.inl ⟨rfl, charged⟩⟩
      · split at answer
        · rename_i pending
          obtain ⟨rfl, same⟩ := answer.of_pure
          exact ⟨same, row, rfl, Or.inr ⟨rfl, pending⟩⟩
        · exact answer.of_abandon.elim

/-- The credits on the request log are not part of the ledger. -/
theorem settleRequestLog_yields {requestLogId : Option Int} {credits : Int}
    {db db' : BillingDb} {u : PUnit}
    (yields : Yields (settleRequestLog requestLogId credits) db u db') :
    BillingDb.SameLedger db db' := by
  cases requestLogId with
  | none =>
      obtain ⟨_, rfl⟩ := yields.of_pure
      exact .refl _
  | some requestLogId =>
      rw [yields.of_execute]
      exact ⟨rfl, rfl, rfl⟩

/-- The three counters of a charge are written as one charge of the ledger. -/
theorem chargeCounters_yields {subject : QuotaSubject} {chargeTs credits : Int}
    {db db' : BillingDb} {u : PUnit}
    (yields : Yields (chargeCounters subject chargeTs credits) db u db') :
    db' = db.charge subject chargeTs credits := by
  obtain ⟨_, minute, first, yields⟩ := yields.of_bind
  obtain ⟨_, hour, second, third⟩ := yields.of_bind
  rw [third.of_execute, second.of_execute, first.of_execute]
  rfl

theorem refreshUserApiKeyBinding_yields {userId apiKeyId resultStatus : String}
    {successAt : Int} {db db' : BillingDb} {u : PUnit}
    (yields : Yields (refreshUserApiKeyBinding userId apiKeyId resultStatus successAt)
      db u db') : BillingDb.SameLedger db db' := by
  unfold refreshUserApiKeyBinding at yields
  split at yields
  · obtain ⟨_, touched, first, second⟩ := yields.of_bind
    rw [second.of_execute, first.of_execute]
    exact ⟨rfl, rfl, rfl⟩
  · obtain ⟨_, rfl⟩ := yields.of_pure
    exact .refl _

theorem refreshTokenApiKeyBinding_yields {tokenId apiKeyId resultStatus : String}
    {successAt : Int} {db db' : BillingDb} {u : PUnit}
    (yields : Yields (refreshTokenApiKeyBinding tokenId apiKeyId resultStatus successAt)
      db u db') : BillingDb.SameLedger db db' := by
  unfold refreshTokenApiKeyBinding at yields
  split at yields
  · obtain ⟨_, touched, first, second⟩ := yields.of_bind
    rw [second.of_execute, first.of_execute]
    exact ⟨rfl, rfl, rfl⟩
  · obtain ⟨_, rfl⟩ := yields.of_pure
    exact .refl _

/-- What is recorded about the key that an account used is not part of the ledger. -/
theorem recordAccountKeyUse_yields {env : BillingEnv} {claimed : AuthTokenLog}
    {userId : String} {chargeTs : Int} {db db' : BillingDb} {u : PUnit}
    (yields : Yields (recordAccountKeyUse env claimed userId chargeTs) db u db') :
    BillingDb.SameLedger db db' := by
  unfold recordAccountKeyUse at yields
  split at yields
  · obtain ⟨_, counted, first, second⟩ := yields.of_bind
    have usage : BillingDb.SameLedger db counted := by
      rw [first.of_execute]
      exact ⟨rfl, rfl, rfl⟩
    exact usage.trans (refreshUserApiKeyBinding_yields second)
  · obtain ⟨_, rfl⟩ := yields.of_pure
    exact .refl _

/-- Nor is what is recorded about the key that a token used. -/
theorem recordTokenKeyUse_yields {claimed : AuthTokenLog} {tokenId : String}
    {db db' : BillingDb} {u : PUnit}
    (yields : Yields (recordTokenKeyUse claimed tokenId) db u db') :
    BillingDb.SameLedger db db' := by
  unfold recordTokenKeyUse at yields
  split at yields
  · exact refreshTokenApiKeyBinding_yields yields
  · obtain ⟨_, rfl⟩ := yields.of_pure
    exact .refl _

/-- The charge is counted at the time of the row. -/
@[simp] theorem chargeTime_createdAt (env : BillingEnv) (createdAt : UtcTimestamp) :
    chargeTime env createdAt.secs = createdAt := by
  simp [chargeTime]

/-- A row is charged to the subject that it names, whichever of the two kinds that is. -/
theorem chargeSubject_yields {env : BillingEnv} {logId : Int} {claimed : AuthTokenLog}
    {billingSubject : String} {db db' : BillingDb} {u : PUnit}
    (yields : Yields (chargeSubject env logId claimed billingSubject) db u db') :
    ∃ subject, billingSubject = QuotaSubject.billingSubject subject ∧
      BillingDb.SameLedger (db.charge subject claimed.createdAt.secs claimed.credits) db' := by
  unfold chargeSubject at yields
  simp only [chargeTime_createdAt] at yields
  cases named : QuotaSubject.fromBillingSubject billingSubject with
  | none =>
      rw [named] at yields
      exact yields.of_abandon.elim
  | some subject =>
      rw [named] at yields
      refine ⟨subject, QuotaSubject.fromBillingSubject_eq_some_iff.1 named, ?_⟩
      cases subject with
      | account userId =>
          obtain ⟨_, counted, first, second⟩ := yields.of_bind
          rw [← chargeCounters_yields first]
          exact recordAccountKeyUse_yields second
      | token tokenId =>
          obtain ⟨_, counted, first, second⟩ := yields.of_bind
          rw [← chargeCounters_yields first]
          exact recordTokenKeyUse_yields second

/-- What becomes of a claimed row. -/
theorem settleClaimed_yields {env : BillingEnv} {logId : Int} {claimed : AuthTokenLog}
    {db db' : BillingDb} {outcome : PendingBillingSettleOutcome}
    (yields : Yields (settleClaimed env logId claimed) db outcome db') :
    outcome = .charged ∧
      ((claimed.credits ≤ 0 ∧ BillingDb.SameLedger db db') ∨
        ∃ subject, 0 < claimed.credits ∧
          claimed.billingSubject = some subject.billingSubject ∧
          BillingDb.SameLedger (db.charge subject claimed.createdAt.secs claimed.credits)
            db') := by
  unfold settleClaimed at yields
  split at yields
  · rename_i free
    obtain ⟨rfl, rfl⟩ := yields.of_pure
    exact ⟨rfl, Or.inl ⟨free, .refl _⟩⟩
  · rename_i costs
    obtain ⟨_, logged, first, yields⟩ := yields.of_bind
    have request := settleRequestLog_yields first
    cases named : claimed.billingSubject with
    | none =>
        rw [named] at yields
        exact yields.of_abandon.elim
    | some text =>
        rw [named] at yields
        obtain ⟨_, charged, second, done⟩ := yields.of_bind
        obtain ⟨rfl, rfl⟩ := done.of_pure
        obtain ⟨subject, rfl, counted⟩ := chargeSubject_yields second
        refine ⟨rfl, Or.inr ⟨subject, by omega, rfl, ?_⟩⟩
        exact (request.charge subject _ _).trans counted

/-! ### The whole call -/

/-- A call fails and changes nothing, finds its row settled and changes nothing,
or charges its row. It never answers `retryLater`: a claim misses only rows that
are not pending. -/
theorem applyPendingBillingLog_cases (env : BillingEnv) (logId : Int)
    (healthy : Option Nat) (db : BillingDb) :
    (∃ e, applyPendingBillingLog env logId healthy db = (.error e, db)) ∨
      (applyPendingBillingLog env logId healthy db = (.ok .alreadySettled, db) ∧
        ∃ row, db.authTokenLogs.find logId = some row ∧
          row.billingState = billingStateCharged) ∨
      ∃ row db', applyPendingBillingLog env logId healthy db = (.ok .charged, db') ∧
        Settles db db' logId row := by
  unfold applyPendingBillingLog
  rcases transaction_cases .database (applyPendingBillingLogTx env logId) healthy db with
    failed | ⟨outcome, db', same, yields⟩
  · exact Or.inl failed
  · right
    rw [same]
    obtain ⟨claimed, mid, first, second⟩ := yields.of_bind
    rcases claimPending_yields first with ⟨rfl, rfl⟩ | ⟨row, rfl, found, pending, rfl⟩
    · obtain ⟨rfl, row, found, settled | missed⟩ := claimMissed_yields second
      · obtain ⟨rfl, charged⟩ := settled
        exact Or.inl ⟨rfl, row, found, charged⟩
      · -- The claim took the row had it been pending.
        obtain ⟨_, pending⟩ := missed
        have claimed := first.of_statement
        simp [found, pending] at claimed
    · obtain ⟨rfl, counted⟩ := settleClaimed_yields second
      exact Or.inr ⟨row, db', rfl, found, pending, counted⟩

/-- A call that returns an error leaves the row and every counter as they were. -/
theorem applyPendingBillingLog_error {env : BillingEnv} {logId : Int}
    {healthy : Option Nat} {db db' : BillingDb} {e : ProxyError}
    (failed : applyPendingBillingLog env logId healthy db = (.error e, db')) : db' = db :=
  transaction_of_error failed

end TavilyHikari.Store
