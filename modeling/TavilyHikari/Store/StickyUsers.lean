/-
Module: TavilyHikari.Store.StickyUsers
Purpose: The users of a key with their credits of today, yesterday, this month and the last
  seven days (`store/mod.rs`): the writers put credits under the local midnight of their
  day, the page looks seven starts up, 86400 seconds apart from the oldest midnight on.
Trusted boundary: human-reviewed spec (the meaning of the queries). Sums in SQL and in the
  columns are unbounded integers.
Main exports: StickyDb, KeyUserCharge, recordCharges, ApiKeyStickyUser,
  fetchKeyStickyUsersPage
-/
import TavilyHikari.Library.Int64
import TavilyHikari.Models.LocalTime
import TavilyHikari.Store.BillingDb

namespace TavilyHikari.Store

open Library Models

/-! ### What is stored -/

/-- A row of `users`, without the columns that the page does not read. -/
structure UserRow where
  displayName : Option String
  username : Option String
  active : Int
  lastLoginAt : Option Int
deriving DecidableEq, Repr

structure StickyDb where
  billing : BillingDb
  users : KeyedTable String UserRow
  /-- `user_token_bindings`: the user of each token. -/
  userTokenBindings : KeyedTable String String

/-- A charge to an account that names a key, as `apply_pending_billing_log` makes it. -/
structure KeyUserCharge where
  apiKeyId : String
  userId : String
  chargeTs : UtcTimestamp
  credits : Int
  resultStatus : String
  now : Int
deriving DecidableEq, Repr

/-- The charge, in the bucket of the local day of its time. -/
def recordCharge (zone : LocalZone) (usage : KeyedTable ApiKeyUserBucketKey ApiKeyUserUsage)
    (charge : KeyUserCharge) : KeyedTable ApiKeyUserBucketKey ApiKeyUserUsage :=
  incrementApiKeyUserUsageBucket usage charge.apiKeyId charge.userId
    (zone.localDayBucketStartUtcTs charge.chargeTs.secs) charge.credits charge.resultStatus
    charge.now

def recordCharges (zone : LocalZone) (charges : List KeyUserCharge) :
    KeyedTable ApiKeyUserBucketKey ApiKeyUserUsage :=
  charges.foldl (recordCharge zone) .empty

/-! ### The page -/

structure AdminUserIdentity where
  userId : String
  displayName : Option String
  username : Option String
  active : Bool
  lastLoginAt : Option Int
  tokenCount : Int
deriving DecidableEq, Repr

structure StickyCreditsWindow where
  successCredits : Int
  failureCredits : Int
deriving DecidableEq, Repr

/-- `StickyCreditsWindow::default()`. -/
instance : Inhabited StickyCreditsWindow := ⟨{ successCredits := 0, failureCredits := 0 }⟩

structure ApiKeyUserUsageBucket where
  bucketStart : Int
  bucketEnd : Int
  successCredits : Int
  failureCredits : Int
deriving DecidableEq, Repr

structure ApiKeyStickyUser where
  user : AdminUserIdentity
  lastSuccessAt : Int
  yesterday : StickyCreditsWindow
  today : StickyCreditsWindow
  month : StickyCreditsWindow
  dailyBuckets : List ApiKeyUserUsageBucket
deriving DecidableEq, Repr

structure PaginatedApiKeyStickyUsers where
  items : List ApiKeyStickyUser
  total : Int
  page : Int
  perPage : Int
deriving DecidableEq, Repr

/-- `get_admin_user_identities`, as the map that it returns. -/
def getAdminUserIdentities (db : StickyDb) (userIds : List String) (userId : String) :
    Option AdminUserIdentity :=
  if userId ∈ userIds then
    (db.users.find userId).map fun (row : UserRow) =>
      { userId
        displayName := row.displayName
        username := row.username
        active := decide (row.active = 1)
        lastLoginAt := row.lastLoginAt
        tokenCount := (db.userTokenBindings.rows.filter fun token => token.2 = userId).length }
  else none

/-- The buckets that the `LEFT JOIN` adds to a binding, cut down by a `CASE`. -/
def joins (keyId userId : String) (usageSince : Int) (chosen : Int → Bool)
    (key : ApiKeyUserBucketKey) : Bool :=
  key.apiKeyId = keyId ∧ key.userId = userId ∧ key.bucketSecs = secsPerDay ∧
    usageSince ≤ key.bucketStart ∧ chosen key.bucketStart

/-- The two `SUM`s over one `CASE`. -/
def windowOf (db : StickyDb) (keyId userId : String) (usageSince : Int) (chosen : Int → Bool) :
    StickyCreditsWindow where
  successCredits :=
    db.billing.apiKeyUserUsage.total (joins keyId userId usageSince chosen)
      ApiKeyUserUsage.successCredits
  failureCredits :=
    db.billing.apiKeyUserUsage.total (joins keyId userId usageSince chosen)
      ApiKeyUserUsage.failureCredits

/-- The times a page computes from the clock. -/
structure StickyTimes where
  todayStart : Int
  yesterdayStart : Int
  monthStart : Int
  oldestDailyStart : Int
deriving DecidableEq, Repr

def stickyTimes (zone : LocalZone) (now : UtcTimestamp) : StickyTimes :=
  let oldestDailyDate := (checkedSubDays (zone.dateNaive now) 6).getD (zone.dateNaive now)
  { todayStart := zone.startOfLocalDayUtcTs now
    yesterdayStart := zone.previousLocalDayStartUtcTs now
    monthStart := zone.startOfLocalMonthUtcTs now
    oldestDailyStart := zone.localDateStartUtcTs oldestDailyDate now }

def StickyTimes.usageSince (times : StickyTimes) : Int :=
  min times.monthStart times.oldestDailyStart

/-- A row of the first query. -/
structure StickyRow where
  userId : String
  lastSuccessAt : Int
  yesterday : StickyCreditsWindow
  today : StickyCreditsWindow
  month : StickyCreditsWindow
deriving DecidableEq, Repr

def stickyRow (db : StickyDb) (keyId : String) (times : StickyTimes)
    (binding : (String × String) × ApiKeyBinding) : StickyRow :=
  let userId := binding.1.1
  { userId
    lastSuccessAt := binding.2.lastSuccessAt
    yesterday := windowOf db keyId userId times.usageSince fun start => start = times.yesterdayStart
    today := windowOf db keyId userId times.usageSince fun start => start = times.todayStart
    month := windowOf db keyId userId times.usageSince fun start => times.monthStart ≤ start }

/-- The `ORDER BY`: today's credits and the last success descending, then the user. -/
def stickyOrder (a b : StickyRow) : Prop :=
  let aToday := a.today.successCredits + a.today.failureCredits
  let bToday := b.today.successCredits + b.today.failureCredits
  aToday > bToday ∨ aToday = bToday ∧
    (a.lastSuccessAt > b.lastSuccessAt ∨ a.lastSuccessAt = b.lastSuccessAt ∧ a.userId ≤ b.userId)

instance : DecidableRel stickyOrder := fun _ _ => by
  unfold stickyOrder
  infer_instance

def keyBindings (db : StickyDb) (keyId : String) : List ((String × String) × ApiKeyBinding) :=
  db.billing.userApiKeyBindings.rows.filter fun binding => binding.1.2 = keyId

/-- The first query. An offset below 0 is none. -/
def stickyRows (db : StickyDb) (keyId : String) (times : StickyTimes) (perPage offset : Int) :
    List StickyRow :=
  ((((keyBindings db keyId).map (stickyRow db keyId times)).insertionSort stickyOrder).drop
    offset.toNat).take perPage.toNat

/-- The rows of the second query. Their order is lost in the map that they go to. -/
def dailyRows (db : StickyDb) (keyId : String) (oldestDailyStart : Int) (userIds : List String) :
    List ((String × Int) × StickyCreditsWindow) :=
  (db.billing.apiKeyUserUsage.rows.filter fun row =>
    row.1.apiKeyId = keyId ∧ row.1.bucketSecs = secsPerDay ∧
      oldestDailyStart ≤ row.1.bucketStart ∧ row.1.userId ∈ userIds).map fun row =>
    ((row.1.userId, row.1.bucketStart),
      { successCredits := row.2.successCredits, failureCredits := row.2.failureCredits })

/-- `daily_map`: `insert` replaces what is there. -/
def dailyMap (rows : List ((String × Int) × StickyCreditsWindow)) :
    KeyedTable (String × Int) StickyCreditsWindow :=
  KeyedTable.empty.upsertAll id (fun window _ => window) rows

def bucketStarts (oldestDailyStart : Int) : List Int :=
  (List.range 7).map fun (index : Nat) => oldestDailyStart + index * secsPerDay

def dailyBucket (daily : KeyedTable (String × Int) StickyCreditsWindow) (userId : String)
    (bucketStart : Int) : ApiKeyUserUsageBucket :=
  let bucket := (daily.find (userId, bucketStart)).getD default
  { bucketStart
    bucketEnd := saturatingAdd bucketStart secsPerDay
    successCredits := bucket.successCredits
    failureCredits := bucket.failureCredits }

/-- `fetch_key_sticky_users_page`, where no query fails. -/
def fetchKeyStickyUsersPage (zone : LocalZone) (now : UtcTimestamp) (db : StickyDb)
    (keyId : String) (page perPage : Int) : PaginatedApiKeyStickyUsers :=
  let page := max page 1
  let perPage := max 1 (min perPage 100)
  let offset := wrapI64 ((page - 1) * perPage)
  let times := stickyTimes zone now
  let rows := stickyRows db keyId times perPage offset
  let userIds := rows.map StickyRow.userId
  let daily := dailyMap (dailyRows db keyId times.oldestDailyStart userIds)
  let items := rows.filterMap fun row =>
    (getAdminUserIdentities db userIds row.userId).map fun user =>
      { user
        lastSuccessAt := row.lastSuccessAt
        yesterday := row.yesterday
        today := row.today
        month := row.month
        dailyBuckets := (bucketStarts times.oldestDailyStart).map (dailyBucket daily row.userId) }
  { items, total := (keyBindings db keyId).length, page, perPage }

end TavilyHikari.Store
