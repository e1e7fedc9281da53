/-
Module: TavilyHikari.Store.PendingBilling
Purpose: Recording a pending charge, settling it in one transaction, and
  annotating a charge that could not be settled (`store/mod.rs`).
Trusted boundary: human-reviewed spec (the local time zone is a parameter; a
  statement that fails is the parameter `healthy` of the transaction)
Main exports: insertTokenLogPendingBilling, applyPendingBillingLog,
  annotatePendingBillingLog, listPendingBillingLogIds,
  applyPendingBillingLog_cases
-/
import TavilyHikari.Library.Transaction
import TavilyHikari.Store.BillingDb

namespace TavilyHikari.Store

open Library

/-- The arguments of `insert_token_log_pending_billing` that the ledger keeps. -/
structure PendingBillingAttempt where
  tokenId : String
  httpStatus : Option Int
  mcpStatus : Option Int
  countsBusinessQuota : Bool
  resultStatus : String
  errorMessage : Option String
  businessCredits : Int
  billingSubject : String
  apiKeyId : Option String
  requestLogId : Option Int
deriving DecidableEq, Repr

/-- The row that `insert_token_log_pending_billing` inserts. -/
def PendingBillingAttempt.row (attempt : PendingBillingAttempt) (now : UtcTimestamp) :
    AuthTokenLog where
  tokenId := attempt.tokenId
  httpStatus := attempt.httpStatus
  mcpStatus := attempt.mcpStatus
  resultStatus := attempt.resultStatus
  errorMessage := attempt.errorMessage
  countsBusinessQuota := if attempt.countsBusinessQuota then 1 else 0
  businessCredits := some attempt.businessCredits
  billingSubject := some attempt.billingSubject
  billingState := billingStatePending
  apiKeyId := attempt.apiKeyId
  requestLogId := attempt.requestLogId
  createdAt := now

def insertTokenLogPendingBilling (db : BillingDb) (attempt : PendingBillingAttempt)
    (now : UtcTimestamp) : Int × BillingDb :=
  (db.authTokenLogs.last + 1,
    { db with authTokenLogs := db.authTokenLogs.insert (attempt.row now) })

/-- `list_pending_billing_log_ids`. -/
def listPendingBillingLogIds (db : BillingDb) (billingSubject : String) : List Int :=
  db.authTokenLogs.idsWhere fun row =>
    row.billingState = billingStatePending ∧ row.billingSubject = some billingSubject ∧
      row.credits > 0

/-- `list_pending_billing_subjects_for_token`, up to the order of the result,
which the caller sorts again. -/
def listPendingBillingSubjectsForToken (db : BillingDb) (tokenId : String) : List String :=
  (db.authTokenLogs.table.rows.filterMap fun row =>
    if row.2.billingState = billingStatePending ∧ row.2.tokenId = tokenId ∧
        row.2.credits > 0 then
      row.2.billingSubject
    else none).dedup

/-- The `CASE` of `annotate_pending_billing_log`. -/
def annotatedMessage (stored : Option String) (message : String) : String :=
  match stored with
  | none => message
  | some "" => message
  | some text => if text = message then text else text ++ " | " ++ message

def annotatePendingBillingLog (db : BillingDb) (logId : Int) (message : String) : BillingDb :=
  { db with
    authTokenLogs :=
      db.authTokenLogs.modify logId fun row =>
        { row with errorMessage := some (annotatedMessage row.errorMessage message) } }

inductive PendingBillingSettleOutcome where
  | charged
  | alreadySettled
  | retryLater
deriving DecidableEq, Repr

/-! ### `apply_pending_billing_log` -/

abbrev BillingTx := Tx ProxyError BillingDb

/-- `UPDATE ... SET billing_state = 'charged' WHERE id = ? AND billing_state =
'pending' RETURNING ...`. -/
def claimPending (logId : Int) : BillingTx (Option AuthTokenLog) :=
  Tx.statement .database fun db =>
    match db.authTokenLogs.find logId with
    | some row =>
        if row.billingState = billingStatePending then (some row, db.claim logId)
        else (none, db)
    | none => (none, db)

/-- What the call answers when the row could not be claimed. -/
def claimMissed (logId : Int) : BillingTx PendingBillingSettleOutcome := do
  let billingState ←
    Tx.query .database fun db => (db.authTokenLogs.find logId).map AuthTokenLog.billingState
  match billingState with
  | some state =>
      if state = billingStateCharged then pure .alreadySettled
      else if state = billingStatePending then pure .retryLater
      else
        Tx.abandon (.quotaDataMissing
          s!"invalid billing_state for auth_token_logs.id={logId}: {state}")
  | none => Tx.abandon (.other s!"pending billing log not found: {logId}")

def settleRequestLog (requestLogId : Option Int) (credits : Int) : BillingTx PUnit :=
  match requestLogId with
  | some requestLogId =>
      Tx.execute .database fun db => db.setRequestLogCredits requestLogId credits
  | none => pure ⟨⟩

/-- The minute bucket, the hour bucket and the month of a charge. -/
def chargeCounters (subject : QuotaSubject) (chargeTs credits : Int) : BillingTx PUnit := do
  Tx.execute .database fun db => db.addUsage subject (minuteBucket chargeTs) .minute credits
  Tx.execute .database fun db => db.addUsage subject (hourBucket chargeTs) .hour credits
  Tx.execute .database fun db => db.addMonth subject (startOfMonthTs chargeTs) credits

/-- `refresh_user_api_key_binding`, after a success only. -/
def refreshUserApiKeyBinding (userId apiKeyId resultStatus : String) (successAt : Int) :
    BillingTx PUnit :=
  if resultStatus = outcomeSuccess then do
    Tx.execute .database fun db => db.touchUserBinding userId apiKeyId successAt
    Tx.execute .database fun db => db.pruneUserBindings userId
  else pure ⟨⟩

/-- `refresh_token_api_key_binding`, after a success only. -/
def refreshTokenApiKeyBinding (tokenId apiKeyId resultStatus : String) (successAt : Int) :
    BillingTx PUnit :=
  if resultStatus = outcomeSuccess then do
    Tx.execute .database fun db => db.touchTokenBinding tokenId apiKeyId successAt
    Tx.execute .database fun db => db.pruneTokenBindings tokenId
  else pure ⟨⟩

/-- What a call reads from its surroundings: the clock, and where the local day
of a time begins. -/
structure BillingEnv where
  now : UtcTimestamp
  localDayBucketStartUtcTs : Int → Int

def recordAccountKeyUse (env : BillingEnv) (claimed : AuthTokenLog) (userId : String)
    (chargeTs : Int) : BillingTx PUnit :=
  match claimed.apiKeyId with
  | some apiKeyId => do
      Tx.execute .database fun db =>
        db.addApiKeyUserUsage apiKeyId userId (env.localDayBucketStartUtcTs chargeTs)
          claimed.credits claimed.resultStatus env.now.secs
      refreshUserApiKeyBinding userId apiKeyId claimed.resultStatus claimed.createdAt.secs
  | none => pure ⟨⟩

def recordTokenKeyUse (claimed : AuthTokenLog) (tokenId : String) : BillingTx PUnit :=
  match claimed.apiKeyId with
  | some apiKeyId =>
      refreshTokenApiKeyBinding tokenId apiKeyId claimed.resultStatus claimed.createdAt.secs
  | none => pure ⟨⟩

/-- `charge_time`: the time of the row, the clock when `chrono` cannot represent
it. -/
def chargeTime (env : BillingEnv) (createdAt : Int) : UtcTimestamp :=
  (timestampOpt createdAt).getD env.now

/-- The charge of a claimed row to the subject it names. -/
def chargeSubject (env : BillingEnv) (logId : Int) (claimed : AuthTokenLog)
    (billingSubject : String) : BillingTx PUnit :=
  let chargeTs := (chargeTime env claimed.createdAt.secs).secs
  match QuotaSubject.fromBillingSubject billingSubject with
  | some (.account userId) => do
      chargeCounters (.account userId) chargeTs claimed.credits
      recordAccountKeyUse env claimed userId chargeTs
  | some (.token tokenId) => do
      chargeCounters (.token tokenId) chargeTs claimed.credits
      recordTokenKeyUse claimed tokenId
  | none =>
      Tx.abandon (.quotaDataMissing
        s!"invalid billing_subject for auth_token_logs.id={logId}: {billingSubject}")

/-- What the call does with a row it has claimed. -/
def settleClaimed (env : BillingEnv) (logId : Int) (claimed : AuthTokenLog) :
    BillingTx PendingBillingSettleOutcome :=
  if claimed.credits ≤ 0 then pure .charged
  else do
    settleRequestLog claimed.requestLogId claimed.credits
    match claimed.billingSubject with
    | none =>
        Tx.abandon (.quotaDataMissing
          s!"missing billing_subject for auth_token_logs.id={logId}")
    | some billingSubject => do
        chargeSubject env logId claimed billingSubject
        pure .charged

def applyPendingBillingLogTx (env : BillingEnv) (logId : Int) :
    BillingTx PendingBillingSettleOutcome := do
  let claimed ← claimPending logId
  match claimed with
  | none => claimMissed logId
  | some claimed => settleClaimed env logId claimed

/-- `apply_pending_billing_log`. `healthy` says at which statement, if any, the
call breaks: a statement error, or a crash. -/
def applyPendingBillingLog (env : BillingEnv) (logId : Int) (healthy : Option Nat)
    (db : BillingDb) : Except ProxyError PendingBillingSettleOutcome × BillingDb :=
  Tx.transaction .database (applyPendingBillingLogTx env logId) healthy db

end TavilyHikari.Store
