/-
Module: TavilyHikari.Store.BillingDb
Purpose: The tables that charging a request reads and writes (`store/mod.rs`):
  the token log with its billing columns, the usage counters, and the per-key
  usage and bindings of a successful request.
Trusted boundary: human-reviewed spec (the columns that are kept; INTEGER columns
  are unbounded integers)
Main exports: AuthTokenLog, BillingDb, ProxyError, BillingDb.claim,
  BillingDb.charge, BillingDb.recordAccountKeyUse, BillingDb.recordTokenKeyUse
-/
import TavilyHikari.Library.AutoIncrement
import TavilyHikari.Store.MonthlyQuota
import TavilyHikari.Store.UsageBuckets

namespace TavilyHikari.Store

open Library

/-- `BILLING_STATE_PENDING`. -/
def billingStatePending : String := "pending"

/-- `BILLING_STATE_CHARGED`. -/
def billingStateCharged : String := "charged"

/-- `OUTCOME_SUCCESS`. -/
def outcomeSuccess : String := "success"

/-- A row of `auth_token_logs`, without its id. -/
structure AuthTokenLog where
  tokenId : String
  httpStatus : Option Int
  mcpStatus : Option Int
  resultStatus : String
  errorMessage : Option String
  countsBusinessQuota : Int
  businessCredits : Option Int
  billingSubject : Option String
  billingState : String
  apiKeyId : Option String
  requestLogId : Option Int
  /-- Every insert writes `Utc::now().timestamp()`. -/
  createdAt : UtcTimestamp
deriving DecidableEq, Repr

/-- `COALESCE(business_credits, 0)`. -/
def AuthTokenLog.credits (row : AuthTokenLog) : Int := row.businessCredits.getD 0

/-- The row after `SET billing_state = 'charged'`. -/
def AuthTokenLog.charged (row : AuthTokenLog) : AuthTokenLog :=
  { row with billingState := billingStateCharged }

@[simp] theorem AuthTokenLog.charged_billingState (row : AuthTokenLog) :
    row.charged.billingState = billingStateCharged := rfl

@[simp] theorem AuthTokenLog.charged_credits (row : AuthTokenLog) :
    row.charged.credits = row.credits := rfl

@[simp] theorem AuthTokenLog.charged_billingSubject (row : AuthTokenLog) :
    row.charged.billingSubject = row.billingSubject := rfl

@[simp] theorem AuthTokenLog.charged_createdAt (row : AuthTokenLog) :
    row.charged.createdAt = row.createdAt := rfl

/-- Primary key of `api_key_user_usage_buckets`. -/
structure ApiKeyUserBucketKey where
  apiKeyId : String
  userId : String
  bucketStart : Int
  bucketSecs : Int
deriving DecidableEq, Repr

structure ApiKeyUserUsage where
  successCredits : Int
  failureCredits : Int
  updatedAt : Int
deriving DecidableEq, Repr

/-- A row of `user_api_key_bindings` or `token_api_key_bindings`. -/
structure ApiKeyBinding where
  createdAt : Int
  updatedAt : Int
  lastSuccessAt : Int
deriving DecidableEq, Repr

/-- Bindings under their owner and their API key. -/
abbrev ApiKeyBindings := KeyedTable (String × String) ApiKeyBinding

/-- Primary key of `token_usage_stats`. -/
structure TokenUsageStatsKey where
  tokenId : String
  bucketStart : Int
  bucketSecs : Int
deriving DecidableEq, Repr

structure TokenUsageStats where
  successCount : Int
  systemFailureCount : Int
  externalFailureCount : Int
  quotaExhaustedCount : Int
deriving DecidableEq, Repr

structure BillingDb where
  authTokenLogs : AutoIncrement AuthTokenLog
  /-- `request_logs`, cut down to `business_credits`. -/
  requestLogs : KeyedTable Int (Option Int)
  usageBuckets : UsageBuckets
  monthlyQuota : MonthlyQuotaTable
  apiKeyUserUsage : KeyedTable ApiKeyUserBucketKey ApiKeyUserUsage
  userApiKeyBindings : ApiKeyBindings
  tokenApiKeyBindings : ApiKeyBindings
  /-- `meta`: named values of the store itself, as text. -/
  metaValues : KeyedTable String String
  tokenUsageStats : KeyedTable TokenUsageStatsKey TokenUsageStats

def BillingDb.empty : BillingDb where
  authTokenLogs := .empty
  requestLogs := .empty
  usageBuckets := .empty
  monthlyQuota := .empty
  apiKeyUserUsage := .empty
  userApiKeyBindings := .empty
  tokenApiKeyBindings := .empty
  metaValues := .empty
  tokenUsageStats := .empty

/-- The errors billing can end in. `database` stands for any statement that the
database refuses: a busy file, a broken connection, a violated reference. -/
inductive ProxyError where
  | database
  | quotaDataMissing (reason : String)
  | other (message : String)
deriving DecidableEq, Repr

/-! ### API keys that served a charged request -/

/-- `USER_API_KEY_BINDING_RECENT_LIMIT`. -/
def userApiKeyBindingRecentLimit : Nat := 3

/-- `TOKEN_API_KEY_BINDING_RECENT_LIMIT`. -/
def tokenApiKeyBindingRecentLimit : Nat := 3

/-- `ORDER BY last_success_at DESC, updated_at DESC, api_key_id DESC`. -/
def bindingBefore (one two : (String × String) × ApiKeyBinding) : Bool :=
  if one.2.lastSuccessAt ≠ two.2.lastSuccessAt then
    one.2.lastSuccessAt > two.2.lastSuccessAt
  else if one.2.updatedAt ≠ two.2.updatedAt then one.2.updatedAt > two.2.updatedAt
  else one.1.2 ≥ two.1.2

/-- The upsert of `refresh_user_api_key_binding` and
`refresh_token_api_key_binding`. -/
def touchBinding (bindings : ApiKeyBindings) (owner apiKeyId : String)
    (successAt : Int) : ApiKeyBindings :=
  bindings.upsert (owner, apiKeyId)
    { createdAt := successAt, updatedAt := successAt, lastSuccessAt := successAt }
    fun stored =>
      { stored with
        updatedAt :=
          if successAt ≥ stored.lastSuccessAt then successAt else stored.updatedAt
        lastSuccessAt := max stored.lastSuccessAt successAt }

/-- The `DELETE` after it: only the most recent bindings of the owner stay. -/
def pruneBindings (bindings : ApiKeyBindings) (owner : String) (limit : Nat) :
    ApiKeyBindings :=
  let mine := bindings.rows.filter fun row => row.1.1 = owner
  let dropped :=
    ((mine.insertionSort fun one two => bindingBefore one two).drop limit).map fun row => row.1.2
  bindings.deleteWhere fun key _ => key.1 = owner ∧ key.2 ∈ dropped

/-- `increment_api_key_user_usage_bucket`. -/
def incrementApiKeyUserUsageBucket
    (usage : KeyedTable ApiKeyUserBucketKey ApiKeyUserUsage)
    (apiKeyId userId : String) (bucketStart credits : Int) (resultStatus : String)
    (now : Int) : KeyedTable ApiKeyUserBucketKey ApiKeyUserUsage :=
  if credits ≤ 0 then usage
  else
    let successCredits := if resultStatus = outcomeSuccess then credits else 0
    let failureCredits := if resultStatus = outcomeSuccess then 0 else credits
    usage.upsert { apiKeyId, userId, bucketStart, bucketSecs := secsPerDay }
      { successCredits, failureCredits, updatedAt := now }
      fun stored =>
        { successCredits := stored.successCredits + successCredits
          failureCredits := stored.failureCredits + failureCredits
          updatedAt := now }

/-! ### What one statement of a charge does to the database -/

namespace BillingDb

/-- `SET billing_state = 'charged' WHERE id = ?`. -/
def claim (db : BillingDb) (logId : Int) : BillingDb :=
  { db with authTokenLogs := db.authTokenLogs.modify logId AuthTokenLog.charged }

def setRequestLogCredits (db : BillingDb) (requestLogId credits : Int) : BillingDb :=
  { db with requestLogs := db.requestLogs.modify requestLogId fun _ => some credits }

def addUsage (db : BillingDb) (subject : QuotaSubject) (bucketStart : Int)
    (granularity : Granularity) (credits : Int) : BillingDb :=
  { db with
    usageBuckets :=
      incrementUsageBucketBy db.usageBuckets subject bucketStart granularity credits }

def addMonth (db : BillingDb) (subject : QuotaSubject) (monthStart credits : Int) :
    BillingDb :=
  { db with monthlyQuota := chargeMonth db.monthlyQuota subject monthStart credits }

/-- The three counters of a charge at `ts`. -/
def charge (db : BillingDb) (subject : QuotaSubject) (ts credits : Int) : BillingDb :=
  ((db.addUsage subject (minuteBucket ts) .minute credits).addUsage subject (hourBucket ts)
    .hour credits).addMonth subject (startOfMonthTs ts) credits

def addApiKeyUserUsage (db : BillingDb) (apiKeyId userId : String)
    (bucketStart credits : Int) (resultStatus : String) (now : Int) : BillingDb :=
  { db with
    apiKeyUserUsage :=
      incrementApiKeyUserUsageBucket db.apiKeyUserUsage apiKeyId userId bucketStart credits
        resultStatus now }

def touchUserBinding (db : BillingDb) (userId apiKeyId : String) (successAt : Int) :
    BillingDb :=
  { db with
    userApiKeyBindings := touchBinding db.userApiKeyBindings userId apiKeyId successAt }

def pruneUserBindings (db : BillingDb) (userId : String) : BillingDb :=
  { db with
    userApiKeyBindings :=
      pruneBindings db.userApiKeyBindings userId userApiKeyBindingRecentLimit }

def touchTokenBinding (db : BillingDb) (tokenId apiKeyId : String) (successAt : Int) :
    BillingDb :=
  { db with
    tokenApiKeyBindings := touchBinding db.tokenApiKeyBindings tokenId apiKeyId successAt }

def pruneTokenBindings (db : BillingDb) (tokenId : String) : BillingDb :=
  { db with
    tokenApiKeyBindings :=
      pruneBindings db.tokenApiKeyBindings tokenId tokenApiKeyBindingRecentLimit }

/-- `get_meta_i64_executor`, `read_meta_i64`. -/
def getMetaI64 (db : BillingDb) (key : String) : Option Int :=
  (db.metaValues.find key).bind parseI64

/-- `set_meta_i64_executor`, `write_meta_i64`. -/
def setMetaI64 (db : BillingDb) (key : String) (value : Int) : BillingDb :=
  { db with metaValues := db.metaValues.upsert key (toString value) fun _ => toString value }

/-- The part of a database that the ledger is about: the log and the counters. -/
structure SameLedger (db db' : BillingDb) : Prop where
  logs : db'.authTokenLogs = db.authTokenLogs
  buckets : db'.usageBuckets = db.usageBuckets
  month : db'.monthlyQuota = db.monthlyQuota

theorem SameLedger.refl (db : BillingDb) : SameLedger db db := ⟨rfl, rfl, rfl⟩

theorem SameLedger.trans {db db' db'' : BillingDb} (first : SameLedger db db')
    (second : SameLedger db' db'') : SameLedger db db'' :=
  ⟨second.logs.trans first.logs, second.buckets.trans first.buckets,
    second.month.trans first.month⟩

end BillingDb

end TavilyHikari.Store
