/-
Module: TavilyHikari.TavilyProxy.QuotaSnapshots
Purpose: The quota snapshots of tokens, one at a time and many at once, and the reset times
  that the lists of tokens show (`tavily_proxy/mod.rs`).
Trusted boundary: a call runs with nobody else writing; no resolution of an account is cached;
  sums of counters fit an INTEGER
Main exports: QuotaStore, resolveSubject, TokenQuota, snapshotForToken, snapshotMany,
  AuthToken, populateTokenQuota
-/
import TavilyHikari.Store.LedgerMaintenance
import TavilyHikari.Store.QuotaReaders
import TavilyHikari.TavilyProxy.KeyAffinity

namespace TavilyHikari.TavilyProxy

open Library Store

/-! ### Tables -/

/-- The tables that a snapshot reads. A token is bound to a user that there is. -/
structure QuotaStore where
  userTokenBindings : KeyedTable String UserTokenBinding
  accountDefaults : AccountDefaults
  quota : QuotaDb
  billing : BillingDb
  bound : ∀ tokenId row, userTokenBindings.find tokenId = some row → row.userId ∈ quota.users

namespace QuotaStore

/-- `find_user_id_by_token_fresh`. -/
def findUserIdByTokenFresh (store : QuotaStore) (tokenId : String) : Option String :=
  (store.userTokenBindings.find tokenId).map UserTokenBinding.userId

/-- `list_user_bindings_for_tokens`. -/
def listUserBindingsForTokens (store : QuotaStore) (tokenIds : List String) :
    Option (KeyedTable String String) :=
  if tokenIds.isEmpty then some .empty
  else
    withVariables tokenIds.length
      (KeyedTable.empty.upsertAll id (fun userId _ => userId)
        ((store.userTokenBindings.rows.filter fun row => row.1 ∈ tokenIds).map fun row =>
          (row.1, row.2.userId)))

/-- `resolve_subject`. -/
def resolveSubject (store : QuotaStore) (tokenId : String) : QuotaSubject :=
  match store.findUserIdByTokenFresh tokenId with
  | some userId => .account userId
  | none => .token tokenId

def withLimits (store : QuotaStore) (limits : AccountQuotaLimitsTable) : QuotaStore where
  userTokenBindings := store.userTokenBindings
  accountDefaults := store.accountDefaults
  quota := { store.quota with accountQuotaLimits := limits }
  billing := store.billing
  bound := store.bound

def withBilling (store : QuotaStore) (billing : BillingDb) : QuotaStore where
  userTokenBindings := store.userTokenBindings
  accountDefaults := store.accountDefaults
  quota := store.quota
  billing := billing
  bound := store.bound

end QuotaStore

/-! ### Snapshots -/

/-- The limits of an account, as a snapshot uses them. -/
def windowLimits (limits : AccountQuotaLimits) : QuotaLimits where
  hourlyLimit := limits.hourlyLimit
  dailyLimit := limits.dailyLimit
  monthlyLimit := limits.monthlyLimit

/-- The limits of tokens that are bound to nobody. -/
structure TokenQuota where
  limits : QuotaLimits
deriving DecidableEq, Repr

namespace TokenQuota

def snapshotForSubject (quota : TokenQuota) (subject : QuotaSubject) (now : Int)
    (store : QuotaStore) : Option (TokenQuotaVerdict × QuotaStore) :=
  match subject with
  | .account userId =>
      (resolveAccountQuotaResolution store.accountDefaults userId store.quota).map
        fun (resolution, table) =>
          let (verdict, billing) := Store.snapshotForSubject (windowLimits resolution.effective)
            store.billing (.account userId) now
          (verdict, (store.withLimits table).withBilling billing)
  | .token tokenId =>
      let (verdict, billing) :=
        Store.snapshotForSubject quota.limits store.billing (.token tokenId) now
      some (verdict, store.withBilling billing)

def snapshotForToken (quota : TokenQuota) (tokenId : String) (now : Int) (store : QuotaStore) :
    Option (TokenQuotaVerdict × QuotaStore) :=
  quota.snapshotForSubject (store.resolveSubject tokenId) now store

/-- The verdict from what the bulk readers found of a subject. -/
def verdictOf (hourly daily : KeyedTable QuotaSubject Int) (monthly : List (QuotaSubject × Int))
    (limits : QuotaLimits) (subject : QuotaSubject) : TokenQuotaVerdict :=
  .new ((hourly.find subject).getD 0) limits.hourlyLimit ((daily.find subject).getD 0)
    limits.dailyLimit (countOf monthly subject) limits.monthlyLimit

/-- The loop over the accounts: the limits of all of them first, then their counters. -/
def snapshotAccounts (accountSubjects : List (String × String)) (accountUserIds : List String)
    (now : Int) (verdicts : KeyedTable String TokenQuotaVerdict) (store : QuotaStore) :
    Option (KeyedTable String TokenQuotaVerdict) × QuotaStore :=
  let (resolved, table) :=
    resolveAccountQuotaLimitsBulk store.accountDefaults accountUserIds store.quota
  let store := store.withLimits table
  let buckets := store.billing.usageBuckets
  let read := do
    let accountLimits ← resolved
    let hourly ← sumAccountUsageBucketsBulk buckets accountUserIds .minute (hourWindowStart now)
    let daily ← sumAccountUsageBucketsBulk buckets accountUserIds .hour (dayWindowStart now)
    let monthly ←
      fetchAccountMonthlyCounts store.billing.monthlyQuota accountUserIds (startOfMonthTs now)
    some (accountLimits, hourly, daily, monthly)
  match read with
  | none => (none, store)
  | some (accountLimits, hourly, daily, monthly, monthlyQuota) =>
      let accountVerdict (userId : String) : TokenQuotaVerdict :=
        verdictOf hourly daily monthly
          (windowLimits ((accountLimits.find userId).getD .zeroBase)) (.account userId)
      (some (verdicts.upsertAll id (fun verdict _ => verdict)
        (accountSubjects.map fun bound => (bound.1, accountVerdict bound.2))),
        store.withBilling { store.billing with monthlyQuota })

/-- The verdicts, and what the statements leave, also those before one that fails. -/
def snapshotMany (quota : TokenQuota) (tokenIds : List String) (now : Int) (store : QuotaStore) :
    Option (KeyedTable String TokenQuotaVerdict) × QuotaStore :=
  if tokenIds.isEmpty then (some .empty, store)
  else
    match store.listUserBindingsForTokens tokenIds with
    | none => (none, store)
    | some tokenBindings =>
        let tokenSubjects := tokenIds.filter fun tokenId => (tokenBindings.find tokenId).isNone
        let accountSubjects := tokenIds.filterMap fun tokenId =>
          (tokenBindings.find tokenId).map fun userId => (tokenId, userId)
        let accountUserIds := ((accountSubjects.map Prod.snd).insertionSort (· ≤ ·)).dedup
        let buckets := store.billing.usageBuckets
        let read := do
          let hourly ← sumUsageBucketsBulk buckets tokenSubjects .minute (hourWindowStart now)
          let daily ← sumUsageBucketsBulk buckets tokenSubjects .hour (dayWindowStart now)
          let monthly ←
            fetchMonthlyCounts store.billing.monthlyQuota tokenSubjects (startOfMonthTs now)
          some (hourly, daily, monthly)
        match read with
        | none => (none, store)
        | some (hourly, daily, monthly, monthlyQuota) =>
            let tokenVerdict (tokenId : String) : TokenQuotaVerdict :=
              verdictOf hourly daily monthly quota.limits (.token tokenId)
            let verdicts := KeyedTable.empty.upsertAll id (fun verdict _ => verdict)
              (tokenSubjects.map fun tokenId => (tokenId, tokenVerdict tokenId))
            let store := store.withBilling { store.billing with monthlyQuota }
            if accountUserIds.isEmpty then (some verdicts, store)
            else snapshotAccounts accountSubjects accountUserIds now verdicts store

end TokenQuota

/-! ### Reset times -/

/-- `start_of_next_month`. -/
def startOfNextMonthTs (currentMonthStart : Int) : Int :=
  (monthFirst (monthOf (currentMonthStart / Library.secsPerDay + epochDay) + 1) - epochDay) *
    Library.secsPerDay

/-- The quota of a token, as a list of tokens shows it. -/
structure AuthToken where
  id : String
  quota : Option TokenQuotaVerdict
  quotaHourlyResetAt : Option Int
  quotaDailyResetAt : Option Int
  quotaMonthlyResetAt : Option Int
deriving DecidableEq, Repr

/-- `populate_token_quota`, where it returns. The snapshots have read the clock before it does
itself. -/
def populateTokenQuota (quota : TokenQuota) (tokens : List AuthToken) (snapshotNow now : Int)
    (store : QuotaStore) : Option (List AuthToken × QuotaStore) :=
  if tokens.isEmpty then some (tokens, store)
  else do
    let ids := tokens.map AuthToken.id
    let (verdicts, store) := quota.snapshotMany ids snapshotNow store
    let verdicts ← verdicts
    let tokenBindings ← store.listUserBindingsForTokens ids
    let buckets := store.billing.usageBuckets
    let tokenHourlyOldest ←
      earliestUsageBucketSinceBulk buckets ids .minute (hourWindowStart now)
    let tokenDailyOldest ← earliestUsageBucketSinceBulk buckets ids .hour (dayWindowStart now)
    let userIds := ((tokenBindings.rows.map Prod.snd).insertionSort (· ≤ ·)).dedup
    let accountHourlyOldest ←
      earliestAccountUsageBucketSinceBulk buckets userIds .minute (hourWindowStart now)
    let accountDailyOldest ←
      earliestAccountUsageBucketSinceBulk buckets userIds .hour (dayWindowStart now)
    let oldest (token account : KeyedTable QuotaSubject Int) (tokenId : String) : Option Int :=
      match tokenBindings.find tokenId with
      | some userId => account.find (.account userId)
      | none => token.find (.token tokenId)
    some (tokens.map fun token =>
      match verdicts.find token.id with
      | none => token
      | some verdict =>
          { token with
            quotaHourlyResetAt :=
              if verdict.hourlyUsed > 0 then
                (oldest tokenHourlyOldest accountHourlyOldest token.id).map (· + secsPerHour)
              else none
            quotaDailyResetAt :=
              if verdict.dailyUsed > 0 then
                (oldest tokenDailyOldest accountDailyOldest token.id).map (· + Store.secsPerDay)
              else none
            quotaMonthlyResetAt :=
              if verdict.monthlyUsed > 0 then some (startOfNextMonthTs (startOfMonthTs now))
              else none
            quota := some verdict }, store)

end TavilyHikari.TavilyProxy
