/-
Module: TavilyHikari.Proofs.StickyUsers
Purpose: The seven days of a user of a key: they hold all credits of the last seven local
  days, and are these days, exactly where each of the days has 24 hours.
Trusted boundary: none
Main exports: storedCredits_recordCharges, mem_items, DayStarts, SevenDayHistory,
  sevenDayHistory_iff
-/
import TavilyHikari.Library.Collect
import TavilyHikari.Proofs.LocalDayBuckets
import TavilyHikari.Store.StickyUsers

namespace TavilyHikari.Store

open Library Models

/-! ### Credits of either kind -/

inductive CreditsKind where
  | success
  | failure
deriving DecidableEq, Repr

def ApiKeyUserUsage.credits (usage : ApiKeyUserUsage) : CreditsKind → Int
  | .success => usage.successCredits
  | .failure => usage.failureCredits

def StickyCreditsWindow.credits (window : StickyCreditsWindow) : CreditsKind → Int
  | .success => window.successCredits
  | .failure => window.failureCredits

def ApiKeyUserUsageBucket.credits (bucket : ApiKeyUserUsageBucket) : CreditsKind → Int
  | .success => bucket.successCredits
  | .failure => bucket.failureCredits

def KeyUserCharge.kind (charge : KeyUserCharge) : CreditsKind :=
  if charge.resultStatus = outcomeSuccess then .success else .failure

/-- What a charge adds to the credits of a kind. -/
def KeyUserCharge.adds (charge : KeyUserCharge) (kind : CreditsKind) : Int :=
  if 0 < charge.credits ∧ charge.kind = kind then charge.credits else 0

/-! ### What the writers leave -/

/-- The bucket that a charge goes to. -/
def chargeKey (zone : LocalZone) (charge : KeyUserCharge) : ApiKeyUserBucketKey where
  apiKeyId := charge.apiKeyId
  userId := charge.userId
  bucketStart := zone.localDayBucketStartUtcTs charge.chargeTs.secs
  bucketSecs := secsPerDay

/-- The credits in a bucket, 0 without it. -/
def storedCredits (usage : KeyedTable ApiKeyUserBucketKey ApiKeyUserUsage)
    (key : ApiKeyUserBucketKey) (kind : CreditsKind) : Int :=
  (usage.find key).elim 0 fun bucket => bucket.credits kind

theorem storedCredits_recordCharge (zone : LocalZone)
    (usage : KeyedTable ApiKeyUserBucketKey ApiKeyUserUsage) (charge : KeyUserCharge)
    (key : ApiKeyUserBucketKey) (kind : CreditsKind) :
    storedCredits (recordCharge zone usage charge) key kind =
      storedCredits usage key kind + if chargeKey zone charge = key then charge.adds kind else 0 := by
  unfold recordCharge incrementApiKeyUserUsageBucket KeyUserCharge.adds
  by_cases free : charge.credits ≤ 0
  · have nothing : ¬ (0 < charge.credits ∧ charge.kind = kind) := fun adds => adds.1.not_ge free
    rw [if_pos free, if_neg nothing]
    simp
  · have positive : 0 < charge.credits := by omega
    rw [if_neg free]
    simp only [positive, true_and]
    unfold storedCredits
    by_cases same : chargeKey zone charge = key
    · subst same
      simp only [chargeKey, KeyedTable.find_upsert_self, if_true, Option.elim_some, KeyUserCharge.kind]
      by_cases success : charge.resultStatus = outcomeSuccess
      · cases usage.find _ <;> cases kind <;> simp [success, ApiKeyUserUsage.credits]
      · cases usage.find _ <;> cases kind <;> simp [success, ApiKeyUserUsage.credits]
    · rw [if_neg same, Int.add_zero]
      exact congrArg
        (fun found : Option ApiKeyUserUsage => found.elim 0 fun bucket => bucket.credits kind)
        (KeyedTable.find_upsert_of_ne _ (Ne.symm same) _ _)

/-- A bucket holds what its charges add. -/
theorem storedCredits_recordCharges (zone : LocalZone) (charges : List KeyUserCharge)
    (key : ApiKeyUserBucketKey) (kind : CreditsKind) :
    storedCredits (recordCharges zone charges) key kind =
      ((charges.filter fun charge => chargeKey zone charge = key).map fun charge =>
        charge.adds kind).sum := by
  induction charges using List.reverseRecOn with
  | nil => rfl
  | append_singleton charges charge ih =>
      rw [recordCharges, List.foldl_append]
      simp only [List.foldl_cons, List.foldl_nil]
      rw [storedCredits_recordCharge, ← recordCharges, ih]
      by_cases same : chargeKey zone charge = key <;> simp [same]

/-! ### What the page reads -/

variable {db : StickyDb} {keyId userId : String}

theorem credits_windowOf (usageSince : Int) (chosen : Int → Bool) (kind : CreditsKind) :
    (windowOf db keyId userId usageSince chosen).credits kind =
      db.billing.apiKeyUserUsage.total (joins keyId userId usageSince chosen)
        fun usage => usage.credits kind := by
  cases kind <;> rfl

/-- The sum over one start is the bucket there. -/
theorem credits_windowOf_start {usageSince start : Int} (since : usageSince ≤ start)
    (kind : CreditsKind) :
    (windowOf db keyId userId usageSince fun other => other = start).credits kind =
      storedCredits db.billing.apiKeyUserUsage
        { apiKeyId := keyId, userId, bucketStart := start, bucketSecs := secsPerDay } kind := by
  rw [credits_windowOf, storedCredits]
  apply KeyedTable.total_eq_elim
  intro key
  obtain ⟨apiKeyId, user, bucketStart, bucketSecs⟩ := key
  simp only [joins, decide_eq_true_eq, ApiKeyUserBucketKey.mk.injEq]
  constructor
  · rintro ⟨sameKey, sameUser, sameSecs, -, sameStart⟩
    exact ⟨sameKey, sameUser, sameStart, sameSecs⟩
  · rintro ⟨sameKey, sameUser, sameStart, sameSecs⟩
    exact ⟨sameKey, sameUser, sameSecs, sameStart ▸ since, sameStart⟩

/-- The map has the buckets from the oldest start on. -/
theorem find_dailyMap {oldestDailyStart start : Int} {userIds : List String}
    (among : userId ∈ userIds) (since : oldestDailyStart ≤ start) :
    (dailyMap (dailyRows db keyId oldestDailyStart userIds)).find (userId, start) =
      (db.billing.apiKeyUserUsage.find
        { apiKeyId := keyId, userId, bucketStart := start, bucketSecs := secsPerDay }).map
          fun usage => { successCredits := usage.successCredits
                         failureCredits := usage.failureCredits } := by
  have values : valuesOf (userId, start) (dailyRows db keyId oldestDailyStart userIds) =
      (valuesOf { apiKeyId := keyId, userId, bucketStart := start, bucketSecs := secsPerDay }
        db.billing.apiKeyUserUsage.rows).map fun usage =>
          { successCredits := usage.successCredits, failureCredits := usage.failureCredits } := by
    unfold valuesOf dailyRows
    rw [List.filter_map, List.filter_filter, List.map_map, List.map_map]
    congr 1
    apply List.filter_congr
    intro row _
    obtain ⟨⟨apiKeyId, user, bucketStart, bucketSecs⟩, usage⟩ := row
    rw [Bool.eq_iff_iff]
    simp only [Function.comp_apply, Bool.and_eq_true, decide_eq_true_eq, Prod.mk.injEq,
      ApiKeyUserBucketKey.mk.injEq]
    constructor
    · rintro ⟨⟨sameUser, sameStart⟩, sameKey, sameSecs, -, -⟩
      exact ⟨sameKey, sameUser, sameStart, sameSecs⟩
    · rintro ⟨sameKey, sameUser, sameStart, sameSecs⟩
      exact ⟨⟨sameUser, sameStart⟩, sameKey, sameSecs, sameStart ▸ since, sameUser ▸ among⟩
  have table : dailyMap (dailyRows db keyId oldestDailyStart userIds) =
      KeyedTable.collect (fun _ window => window) (dailyRows db keyId oldestDailyStart userIds) :=
    rfl
  rw [table, KeyedTable.find_collect, values, KeyedTable.valuesOf_rows]
  cases db.billing.apiKeyUserUsage.find _ <;> rfl

theorem credits_dailyBucket {oldestDailyStart start : Int} {userIds : List String}
    (among : userId ∈ userIds) (since : oldestDailyStart ≤ start) (kind : CreditsKind) :
    (dailyBucket (dailyMap (dailyRows db keyId oldestDailyStart userIds)) userId start).credits
        kind =
      storedCredits db.billing.apiKeyUserUsage
        { apiKeyId := keyId, userId, bucketStart := start, bucketSecs := secsPerDay } kind := by
  have read (daily : KeyedTable (String × Int) StickyCreditsWindow) :
      (dailyBucket daily userId start).credits kind =
        (daily.find (userId, start)).elim 0 fun window => window.credits kind := by
    unfold dailyBucket
    cases daily.find (userId, start) <;> cases kind <;> rfl
  rw [read, find_dailyMap among since, storedCredits]
  cases db.billing.apiKeyUserUsage.find _ with
  | none => rfl
  | some usage => cases kind <;> rfl

/-- What the page says of each user that it lists. -/
theorem mem_items {zone : LocalZone} {now : UtcTimestamp} {page perPage : Int}
    {item : ApiKeyStickyUser}
    (listed : item ∈ (fetchKeyStickyUsersPage zone now db keyId page perPage).items) :
    let times := stickyTimes zone now
    ∃ userIds, item.user.userId ∈ userIds ∧
      item.yesterday =
        windowOf db keyId item.user.userId times.usageSince
          (fun start => start = times.yesterdayStart) ∧
      item.today =
        windowOf db keyId item.user.userId times.usageSince
          (fun start => start = times.todayStart) ∧
      item.dailyBuckets = (bucketStarts times.oldestDailyStart).map
        (dailyBucket (dailyMap (dailyRows db keyId times.oldestDailyStart userIds))
          item.user.userId) := by
  unfold fetchKeyStickyUsersPage at listed
  simp only [List.mem_filterMap, Option.map_eq_some_iff] at listed
  obtain ⟨row, member, user, identified, rfl⟩ := listed
  have placed : row ∈ (keyBindings db keyId).map (stickyRow db keyId (stickyTimes zone now)) := by
    have taken := List.mem_of_mem_drop (List.mem_of_mem_take member)
    rwa [List.mem_insertionSort] at taken
  obtain ⟨binding, _, rfl⟩ := List.mem_map.1 placed
  unfold getAdminUserIdentities at identified
  split_ifs at identified with among
  obtain ⟨stored, _, rfl⟩ := Option.map_eq_some_iff.1 identified
  exact ⟨_, among, rfl, rfl, rfl⟩

/-! ### The seven days -/

/-- The local midnights from that of six days ago on: each is one instant. -/
structure DayStarts (zone : LocalZone) (today : Int) (start : Nat → UtcTimestamp) : Prop where
  opens : ∀ i : Nat, i ≤ 7 → zone.naiveLocal (start i) = midnight (today - 6 + i)
  only : ∀ i : Nat, i ≤ 7 → ∀ other, zone.naiveLocal other = midnight (today - 6 + i) → other = start i

namespace DayStarts

variable {zone : LocalZone} {today : Int} {start : Nat → UtcTimestamp}

theorem localDateStart (starts : DayStarts zone today start) {i : Nat} (day : i ≤ 7)
    (fallbackNow : UtcTimestamp) :
    zone.localDateStartUtcTs (today - 6 + i) fallbackNow = (start i).secs := by
  apply LocalZone.localNaiveDatetimeUtcTs_of_mem (starts.opens i day)
  intro other here
  rw [starts.only i day other here]

/-- A charge is in the bucket of one of these midnights if it is of that day. -/
theorem bucket_eq_iff (starts : DayStarts zone today start) {i : Nat} (day : i ≤ 7)
    (instant : UtcTimestamp) :
    zone.localDayBucketStartUtcTs instant.secs = (start i).secs ↔
      zone.dateNaive instant = today - 6 + i := by
  constructor
  · intro same
    rw [LocalZone.localDayBucketStartUtcTs_secs, secs_injective.eq_iff] at same
    have date : zone.days.date (zone.days.bucket instant) = zone.days.date instant :=
      DayCalendar.date_bucket instant
    have dates : zone.days.date = zone.dateNaive := rfl
    rw [same, dates, LocalZone.dateNaive, starts.opens i day, midnight,
      Int.mul_ediv_cancel _ (by decide)] at date
    exact date.symm
  · intro date
    rw [LocalZone.localDayBucketStartUtcTs, timestampOpt_secs]
    simp only [LocalZone.startOfLocalDayUtcTs, date]
    exact starts.localDateStart day instant

/-- The times that a page computes are such midnights. -/
theorem stickyTimes_eq {now : UtcTimestamp} (starts : DayStarts zone (zone.dateNaive now) start) :
    (stickyTimes zone now).todayStart = (start 6).secs ∧
      (stickyTimes zone now).yesterdayStart = (start 5).secs ∧
      (stickyTimes zone now).oldestDailyStart = (start 0).secs := by
  have opens := starts.opens 0 (by decide)
  have lower := (start 0).in_range.1
  have bound := (zone.offset_bounds (start 0)).1
  unfold LocalZone.naiveLocal midnight at opens
  have oldest : minDate ≤ zone.dateNaive now - 6 := by
    unfold minDate
    omega
  have yesterday : minDate ≤ zone.dateNaive now - 1 := by omega
  have six := starts.localDateStart (i := 6) (by decide) now
  have five := starts.localDateStart (i := 5) (by decide) now
  have zero := starts.localDateStart (i := 0) (by decide) now
  have sixDate : zone.dateNaive now - 6 + ((6 : Nat) : Int) = zone.dateNaive now := by omega
  have fiveDate : zone.dateNaive now - 6 + ((5 : Nat) : Int) = zone.dateNaive now - 1 := by omega
  have zeroDate : zone.dateNaive now - 6 + ((0 : Nat) : Int) = zone.dateNaive now - 6 := by omega
  rw [sixDate] at six
  rw [fiveDate] at five
  rw [zeroDate] at zero
  refine ⟨six, ?_, ?_⟩
  · simp only [stickyTimes, LocalZone.previousLocalDayStartUtcTs, predOpt, checkedSubDays,
      Nat.cast_one, if_pos yesterday, Option.getD_some]
    exact five
  · simp only [stickyTimes, checkedSubDays, Nat.cast_ofNat, if_pos oldest, Option.getD_some]
    exact zero

/-- Midnights a day of 24 hours apart are the starts that the page looks up. -/
theorem start_eq (steady : ∀ i < 7, (start (i + 1)).secs = (start i).secs + 86400) {i : Nat}
    (day : i ≤ 7) : (start i).secs = (start 0).secs + i * secsPerDay := by
  induction i with
  | zero => simp
  | succ i ih =>
      rw [steady i (by omega), ih (by omega), secsPerDay, secsPerHour]
      push_cast
      omega

end DayStarts

/-- What the charges of a user to a key add on the dates in question. -/
def chargedCredits (zone : LocalZone) (charges : List KeyUserCharge) (keyId userId : String)
    (dates : Int → Bool) (kind : CreditsKind) : Int :=
  ((charges.filter fun charge =>
    charge.apiKeyId = keyId ∧ charge.userId = userId ∧ dates (zone.dateNaive charge.chargeTs)).map
      fun charge => charge.adds kind).sum

def lastSevenDays (today date : Int) : Bool := today - 6 ≤ date ∧ date ≤ today

/-- The seven days of a user are complete: they add up to all that was charged on the last
seven local dates, the last two are today and yesterday, and each is from the midnight of
its date to the next midnight. -/
structure SevenDayHistory (zone : LocalZone) (now : UtcTimestamp) (start : Nat → UtcTimestamp)
    (charges : List KeyUserCharge) (keyId : String) (item : ApiKeyStickyUser) : Prop where
  seven : item.dailyBuckets.length = 7
  complete : ∀ kind, (item.dailyBuckets.map fun bucket => bucket.credits kind).sum =
    chargedCredits zone charges keyId item.user.userId (lastSevenDays (zone.dateNaive now)) kind
  today : ∀ kind, item.dailyBuckets[6]?.map (fun bucket => bucket.credits kind) =
    some (item.today.credits kind)
  yesterday : ∀ kind, item.dailyBuckets[5]?.map (fun bucket => bucket.credits kind) =
    some (item.yesterday.credits kind)
  days : ∀ (i : Nat) bucket, item.dailyBuckets[i]? = some bucket →
    bucket.bucketStart = (start i).secs ∧ bucket.bucketEnd = (start (i + 1)).secs

variable {zone : LocalZone} {now : UtcTimestamp} {start : Nat → UtcTimestamp}
  {charges : List KeyUserCharge}

/-- The bucket of a midnight holds what was charged on its date. -/
theorem storedCredits_of_day (starts : DayStarts zone (zone.dateNaive now) start) {i : Nat}
    (day : i ≤ 7) (kind : CreditsKind) :
    storedCredits (recordCharges zone charges)
        { apiKeyId := keyId, userId, bucketStart := (start i).secs, bucketSecs := secsPerDay }
        kind =
      chargedCredits zone charges keyId userId
        (fun date => date = zone.dateNaive now - 6 + i) kind := by
  rw [storedCredits_recordCharges, chargedCredits]
  congr 2
  apply List.filter_congr
  intro charge _
  rw [Bool.eq_iff_iff]
  simp only [chargeKey, ApiKeyUserBucketKey.mk.injEq, decide_eq_true_eq, starts.bucket_eq_iff day,
    and_true]

/-- What was charged on some dates is the sum of what was charged on each. -/
theorem sum_chargedCredits {dates : List Int} (distinct : dates.Nodup) (kind : CreditsKind) :
    (dates.map fun date =>
      chargedCredits zone charges keyId userId (fun other => other = date) kind).sum =
        chargedCredits zone charges keyId userId (fun date => date ∈ dates) kind := by
  have parts (chosen : Int → Bool) : chargedCredits zone charges keyId userId chosen kind =
      (((charges.filter fun charge => charge.apiKeyId = keyId ∧ charge.userId = userId).filter
        fun charge => chosen (zone.dateNaive charge.chargeTs)).map fun charge =>
          charge.adds kind).sum := by
    rw [chargedCredits, List.filter_filter]
    congr 2
    apply List.filter_congr
    intro charge _
    rw [Bool.eq_iff_iff]
    simp only [decide_eq_true_eq, Bool.and_eq_true]
    tauto
  simp only [parts]
  rw [sum_map_groups distinct fun charge : KeyUserCharge => zone.dateNaive charge.chargeTs,
    sum_map_filter _ fun charge : KeyUserCharge => decide (zone.dateNaive charge.chargeTs ∈ dates)]
  simp only [decide_eq_true_eq]

theorem mem_lastSevenDays {today date : Int} :
    date ∈ (List.range 7).map (fun (i : Nat) => today - 6 + i) ↔
      lastSevenDays today date = true := by
  simp only [List.mem_map, List.mem_range, lastSevenDays, decide_eq_true_eq]
  constructor
  · rintro ⟨i, small, rfl⟩
    omega
  · intro bounds
    exact ⟨(date - today + 6).toNat, by omega, by omega⟩

theorem bucketEnd_dailyBucket (daily : KeyedTable (String × Int) StickyCreditsWindow)
    (userId : String) (instant : UtcTimestamp) :
    (dailyBucket daily userId instant.secs).bucketEnd = instant.secs + 86400 := by
  have range := instant.in_range
  have lower : i64Min ≤ instant.secs + 86400 := by
    unfold i64Min
    omega
  have upper : instant.secs + 86400 ≤ i64Max := by
    unfold i64Max
    omega
  exact saturate_of_bounds lower upper

/-- Where each of the days has 24 hours, the page reads the buckets of the writers. -/
theorem sevenDayHistory_of_steady (starts : DayStarts zone (zone.dateNaive now) start)
    (stored : db.billing.apiKeyUserUsage = recordCharges zone charges) {page perPage : Int}
    {item : ApiKeyStickyUser}
    (listed : item ∈ (fetchKeyStickyUsersPage zone now db keyId page perPage).items)
    (steady : ∀ i < 7, (start (i + 1)).secs = (start i).secs + 86400) :
    SevenDayHistory zone now start charges keyId item := by
  obtain ⟨todayStart, yesterdayStart, oldestStart⟩ := starts.stickyTimes_eq
  obtain ⟨userIds, among, yesterday, today, daily⟩ := mem_items listed
  have oldest : ∀ i ≤ 6, (start 0).secs ≤ (start i).secs := by
    intro i day
    rw [DayStarts.start_eq steady (by omega : i ≤ 7), secsPerDay, secsPerHour]
    omega
  have since : ∀ i ≤ 6, (stickyTimes zone now).usageSince ≤ (start i).secs := by
    intro i day
    exact (min_le_right _ _).trans (oldestStart ▸ oldest i day)
  have buckets : item.dailyBuckets = (List.range 7).map fun i =>
      dailyBucket (dailyMap (dailyRows db keyId (start 0).secs userIds)) item.user.userId
        (start i).secs := by
    rw [daily, oldestStart, bucketStarts, List.map_map]
    apply List.map_congr_left
    intro i small
    rw [List.mem_range] at small
    rw [Function.comp_apply, ← DayStarts.start_eq steady (by omega : i ≤ 7)]
  have credits : ∀ i ≤ 6, ∀ kind,
      (dailyBucket (dailyMap (dailyRows db keyId (start 0).secs userIds)) item.user.userId
        (start i).secs).credits kind =
      storedCredits db.billing.apiKeyUserUsage
        { apiKeyId := keyId, userId := item.user.userId, bucketStart := (start i).secs,
          bucketSecs := secsPerDay } kind := by
    intro i day kind
    exact credits_dailyBucket among (oldest i day) kind
  refine { seven := ?_, complete := ?_, today := ?_, yesterday := ?_, days := ?_ }
  · rw [buckets, List.length_map, List.length_range]
  · intro kind
    rw [buckets, List.map_map]
    have each : ((List.range 7).map fun i =>
        (dailyBucket (dailyMap (dailyRows db keyId (start 0).secs userIds)) item.user.userId
          (start i).secs).credits kind) =
        ((List.range 7).map fun (i : Nat) => zone.dateNaive now - 6 + i).map fun date =>
          chargedCredits zone charges keyId item.user.userId (fun other => other = date) kind := by
      rw [List.map_map]
      apply List.map_congr_left
      intro i small
      rw [List.mem_range] at small
      rw [credits i (by omega) kind, stored, storedCredits_of_day starts (by omega : i ≤ 7)]
      rfl
    have distinct : ((List.range 7).map fun (i : Nat) => zone.dateNaive now - 6 + i).Nodup := by
      apply List.nodup_range.map
      intro i j same
      simpa using same
    have dates : (fun date => decide
        (date ∈ (List.range 7).map fun (i : Nat) => zone.dateNaive now - 6 + i)) =
          lastSevenDays (zone.dateNaive now) := by
      funext date
      rw [Bool.eq_iff_iff, decide_eq_true_eq, mem_lastSevenDays]
    rw [← dates, ← sum_chargedCredits distinct, ← each]
    rfl
  · intro kind
    rw [buckets, today, todayStart, credits_windowOf_start (since 6 (by omega))]
    simp only [List.getElem?_map, List.getElem?_range (by decide : 6 < 7), Option.map_some,
      credits 6 (by omega) kind]
  · intro kind
    rw [buckets, yesterday, yesterdayStart, credits_windowOf_start (since 5 (by omega))]
    simp only [List.getElem?_map, List.getElem?_range (by decide : 5 < 7), Option.map_some,
      credits 5 (by omega) kind]
  · intro i bucket found
    rw [buckets, List.getElem?_map, Option.map_eq_some_iff] at found
    obtain ⟨j, placed, rfl⟩ := found
    obtain ⟨small, rfl⟩ := List.getElem?_eq_some_iff.1 placed
    rw [List.length_range] at small
    simp only [List.getElem_range]
    exact ⟨rfl, by rw [bucketEnd_dailyBucket, steady i small]⟩

/-- The seven days of a user are complete exactly where each of the last seven local days has
24 hours. -/
theorem sevenDayHistory_iff (starts : DayStarts zone (zone.dateNaive now) start)
    (stored : db.billing.apiKeyUserUsage = recordCharges zone charges) {page perPage : Int}
    {item : ApiKeyStickyUser}
    (listed : item ∈ (fetchKeyStickyUsersPage zone now db keyId page perPage).items) :
    SevenDayHistory zone now start charges keyId item ↔
      ∀ i < 7, (start (i + 1)).secs = (start i).secs + 86400 := by
  constructor
  · intro history i day
    obtain ⟨-, -, oldestStart⟩ := starts.stickyTimes_eq
    obtain ⟨userIds, -, -, -, daily⟩ := mem_items listed
    have found : item.dailyBuckets[i]? = some (dailyBucket
        (dailyMap (dailyRows db keyId (stickyTimes zone now).oldestDailyStart userIds))
        item.user.userId ((stickyTimes zone now).oldestDailyStart + i * secsPerDay)) := by
      rw [daily, bucketStarts, List.map_map, List.getElem?_map, List.getElem?_range day]
      rfl
    obtain ⟨opens, closes⟩ := history.days i _ found
    have begins : (stickyTimes zone now).oldestDailyStart + i * secsPerDay = (start i).secs := opens
    rw [begins, bucketEnd_dailyBucket] at closes
    exact closes.symm
  · exact sevenDayHistory_of_steady starts stored listed

/-! ### Days that the page misses -/

/-- What is charged on dates whose midnights the page does not come to is in none of the seven
days. -/
theorem sum_dailyBuckets_of_missed (starts : DayStarts zone (zone.dateNaive now) start)
    (stored : db.billing.apiKeyUserUsage = recordCharges zone charges) {page perPage : Int}
    {item : ApiKeyStickyUser}
    (listed : item ∈ (fetchKeyStickyUsersPage zone now db keyId page perPage).items)
    (missed : ∀ charge ∈ charges, ∀ j : Nat, j < 7 →
      zone.localDayBucketStartUtcTs charge.chargeTs.secs ≠ (start 0).secs + j * secsPerDay)
    (kind : CreditsKind) :
    (item.dailyBuckets.map fun bucket => bucket.credits kind).sum = 0 := by
  obtain ⟨-, -, oldestStart⟩ := starts.stickyTimes_eq
  obtain ⟨userIds, among, -, -, daily⟩ := mem_items listed
  rw [daily, oldestStart, bucketStarts, List.map_map, List.map_map]
  apply List.sum_eq_zero
  intro credits member
  obtain ⟨j, small, rfl⟩ := List.mem_map.1 member
  rw [List.mem_range] at small
  simp only [Function.comp_apply]
  have later : (start 0).secs ≤ (start 0).secs + j * secsPerDay := by
    rw [secsPerDay, secsPerHour]
    omega
  rw [credits_dailyBucket among later, stored, storedCredits_recordCharges]
  have none : (charges.filter fun charge => chargeKey zone charge =
      { apiKeyId := keyId, userId := item.user.userId,
        bucketStart := (start 0).secs + j * secsPerDay, bucketSecs := secsPerDay }) = [] := by
    rw [List.filter_eq_nil_iff]
    intro charge made same
    have key := of_decide_eq_true same
    exact missed charge made j small (congrArg ApiKeyUserBucketKey.bucketStart key)
  rw [none]
  rfl

/-- A zone that goes from one hour ahead of UTC to two at 01:00 UTC on 31 March 2024. -/
def springForward : LocalZone where
  offset instant := if instant.secs < 1711846800 then 3600 else 7200
  offset_bounds instant := by split_ifs <;> decide

/-- Its midnights. -/
def springForwardStart (today : Int) (i : Nat) : UtcTimestamp :=
  (timestampOpt ((today - 6 + i) * 86400 - if today - 6 + i ≤ 19813 then 3600 else 7200)).getD
    default

theorem springForward_dayStarts {today : Int} (after : 6 ≤ today) (before : today ≤ 90000) :
    DayStarts springForward today (springForwardStart today) := by
  have secs (i : Nat) (day : i ≤ 7) : (springForwardStart today i).secs =
      (today - 6 + i) * 86400 - if today - 6 + i ≤ 19813 then 3600 else 7200 := by
    unfold springForwardStart timestampOpt
    rw [dif_pos (by split_ifs <;> omega)]
    rfl
  constructor
  · intro i day
    simp only [LocalZone.naiveLocal, springForward, midnight, secs i day]
    split_ifs <;> omega
  · intro i day other here
    apply secs_injective
    simp only [LocalZone.naiveLocal, springForward, midnight] at here
    rw [secs i day]
    split_ifs at here ⊢ <;> omega

/-- Five credits of a user on a date. -/
def oneCharge (chargeTs : UtcTimestamp) : KeyUserCharge where
  apiKeyId := "key"
  userId := "user"
  chargeTs := chargeTs
  credits := 5
  resultStatus := outcomeSuccess
  now := chargeTs.secs

/-- The charge, and the user bound to the key. -/
def oneChargeDb (chargeTs : UtcTimestamp) : StickyDb where
  billing :=
    { BillingDb.empty with
      apiKeyUserUsage := recordCharges springForward [oneCharge chargeTs]
      userApiKeyBindings :=
        KeyedTable.empty.upsert ("user", "key")
          { createdAt := 0, updatedAt := 0, lastSuccessAt := 0 } id }
  users :=
    KeyedTable.empty.upsert "user"
      { displayName := none, username := none, active := 1, lastLoginAt := none } id
  userTokenBindings := .empty

theorem oneChargeDb_listed (now chargeTs : UtcTimestamp) :
    ∃ item, item ∈
        (fetchKeyStickyUsersPage springForward now (oneChargeDb chargeTs) "key" 1 20).items ∧
      item.user.userId = "user" :=
  ⟨_, List.mem_singleton.2 rfl, rfl⟩

/-- A week without a transition. -/
theorem sevenDayHistory_iff_march :
    ∃ item, SevenDayHistory springForward { secs := 1710936000, in_range := by decide }
      (springForwardStart 19802) [oneCharge { secs := 1710763200, in_range := by decide }] "key"
      item := by
  have date : springForward.dateNaive { secs := 1710936000, in_range := by decide } = 19802 := by
    decide
  obtain ⟨item, listed, -⟩ := oneChargeDb_listed { secs := 1710936000, in_range := by decide }
    { secs := 1710763200, in_range := by decide }
  have starts : DayStarts springForward 19802 (springForwardStart 19802) :=
    springForward_dayStarts (by decide) (by decide)
  refine ⟨item, (sevenDayHistory_iff (date ▸ starts) rfl listed).2 ?_⟩
  decide

/-- Two days after the clock went forward, what was charged the day before yesterday is in none
of the seven days. -/
theorem springForward_losesCredits :
    ∃ now item, DayStarts springForward (springForward.dateNaive now) (springForwardStart 19816) ∧
      item ∈ (fetchKeyStickyUsersPage springForward now
        (oneChargeDb { secs := 1711972800, in_range := by decide }) "key" 1 20).items ∧
      ¬ SevenDayHistory springForward now (springForwardStart 19816)
        [oneCharge { secs := 1711972800, in_range := by decide }] "key" item := by
  let now : UtcTimestamp := { secs := 1712145600, in_range := by decide }
  let chargeTs : UtcTimestamp := { secs := 1711972800, in_range := by decide }
  have date : springForward.dateNaive now = 19816 := by decide
  have starts : DayStarts springForward (springForward.dateNaive now) (springForwardStart 19816) := by
    rw [date]
    exact springForward_dayStarts (by decide) (by decide)
  obtain ⟨item, listed, user⟩ := oneChargeDb_listed now chargeTs
  refine ⟨now, item, starts, listed, fun history => ?_⟩
  have bucket : springForward.localDayBucketStartUtcTs chargeTs.secs =
      (springForwardStart 19816 4).secs := (starts.bucket_eq_iff (by decide) chargeTs).2 (by decide)
  have missed : ∀ charge ∈ [oneCharge chargeTs], ∀ j : Nat, j < 7 →
      springForward.localDayBucketStartUtcTs charge.chargeTs.secs ≠
        (springForwardStart 19816 0).secs + j * secsPerDay := by
    intro charge made
    rw [List.mem_singleton.1 made]
    simp only [oneCharge, bucket]
    decide
  have none := sum_dailyBuckets_of_missed starts rfl listed missed .success
  have charged := history.complete .success
  rw [none, user, date] at charged
  revert charged
  decide

end TavilyHikari.Store
