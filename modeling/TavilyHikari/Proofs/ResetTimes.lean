/-
Module: TavilyHikari.Proofs.ResetTimes
Purpose: The reset times that the lists of tokens show: without further charges they are the
  first second at which the window of a snapshot has a smaller sum.
Trusted boundary: `Utc::now` returns no time before 1970
Main exports: SoundBuckets, soundBuckets_run, QuietStep, resetTimes_exact
-/
import TavilyHikari.Library.SlidingWindow
import TavilyHikari.Proofs.QuietAudit
import TavilyHikari.Proofs.QuotaSnapshots

namespace TavilyHikari.Store

open Library

/-! ### Buckets -/

/-- Buckets begin at a minute or at an hour, and count something. -/
structure SoundBuckets (buckets : UsageBuckets) : Prop where
  minutes : ∀ key count, buckets.find key = some count → key.granularity = .minute →
    secsPerMinute ∣ key.bucketStart
  hours : ∀ key count, buckets.find key = some count → key.granularity = .hour →
    secsPerHour ∣ key.bucketStart
  positive : ∀ key count, buckets.find key = some count → 0 < count

theorem minuteBucket_dvd (ts : Int) : secsPerMinute ∣ minuteBucket ts := by
  refine ⟨ts.tdiv secsPerMinute, ?_⟩
  have parts := Int.mul_tdiv_add_tmod ts secsPerMinute
  unfold minuteBucket
  omega

theorem hourBucket_dvd (ts : Int) : secsPerHour ∣ hourBucket ts := by
  refine ⟨ts.tdiv secsPerHour, ?_⟩
  have parts := Int.mul_tdiv_add_tmod ts secsPerHour
  unfold hourBucket
  omega

namespace SoundBuckets

variable {buckets : UsageBuckets}

theorem empty : SoundBuckets .empty where
  minutes _ _ found := by cases found
  hours _ _ found := by cases found
  positive _ _ found := by cases found

theorem increment (sound : SoundBuckets buckets) (subject : QuotaSubject) {bucketStart : Int}
    {granularity : Granularity} {delta : Int}
    (minute : granularity = .minute → secsPerMinute ∣ bucketStart)
    (hour : granularity = .hour → secsPerHour ∣ bucketStart) (positive : 0 < delta) :
    SoundBuckets (incrementUsageBucketBy buckets subject bucketStart granularity delta) := by
  -- A key that is found is the one that was counted, or was there before.
  have known {key : UsageBucketKey} {count : Int}
      (found : (incrementUsageBucketBy buckets subject bucketStart granularity delta).find key =
        some count) :
      (key = { subject, bucketStart, granularity } ∧ 0 < count) ∨
        buckets.find key = some count := by
    unfold incrementUsageBucketBy at found
    by_cases same : key = { subject, bucketStart, granularity }
    · left
      refine ⟨same, ?_⟩
      rw [same, KeyedTable.find_upsert_self, Option.some.injEq] at found
      rw [← found]
      cases before : buckets.find { subject, bucketStart, granularity } with
      | none => exact positive
      | some old =>
          have counted := sound.positive _ old before
          rw [Option.elim_some]
          omega
    · right
      rwa [KeyedTable.find_upsert_of_ne _ same] at found
  constructor
  · intro key count found isMinute
    rcases known found with ⟨rfl, _⟩ | before
    · exact minute isMinute
    · exact sound.minutes key count before isMinute
  · intro key count found isHour
    rcases known found with ⟨rfl, _⟩ | before
    · exact hour isHour
    · exact sound.hours key count before isHour
  · intro key count found
    rcases known found with ⟨_, more⟩ | before
    · exact more
    · exact sound.positive key count before

theorem run (sound : SoundBuckets buckets) (delete : UsageDelete) :
    SoundBuckets (delete.run buckets) := by
  have known {key : UsageBucketKey} {count : Int}
      (found : (delete.run buckets).find key = some count) : buckets.find key = some count := by
    unfold UsageDelete.run at found
    rw [KeyedTable.find_deleteWhere, Option.filter_eq_some_iff] at found
    exact found.1
  exact ⟨fun key count found => sound.minutes key count (known found),
    fun key count found => sound.hours key count (known found),
    fun key count found => sound.positive key count (known found)⟩

/-- A charge of credits keeps the buckets sound. -/
theorem charge {db : BillingDb} (sound : SoundBuckets db.usageBuckets) (subject : QuotaSubject)
    (ts : Int) {credits : Int} (positive : 0 < credits) :
    SoundBuckets (db.charge subject ts credits).usageBuckets := by
  rw [BillingDb.charge_usageBuckets]
  have minute : SoundBuckets (incrementUsageBucketBy db.usageBuckets subject (minuteBucket ts)
      .minute credits) :=
    sound.increment subject (fun _ => minuteBucket_dvd ts) (fun other => by cases other) positive
  exact minute.increment subject (fun other => by cases other)
    (fun _ => hourBucket_dvd ts) positive

end SoundBuckets

theorem soundBuckets_step {localDayBucketStartUtcTs : Int → Int} {s s' : MaintainedLedger}
    {action : MaintenanceAction} (sound : SoundBuckets s.db.usageBuckets)
    (taken : (maintenanceSystem localDayBucketStartUtcTs).step s action = some s') :
    SoundBuckets s'.db.usageBuckets := by
  have clock {s read : MaintainedLedger} {now : UtcTimestamp} (clocked : s.read now = some read) :
      read.db = s.db := by
    unfold MaintainedLedger.read at clocked
    split at clocked
    · cases clocked
      rfl
    · cases clocked
  unfold maintenanceSystem MaintainedLedger.step at taken
  cases action with
  | record now attempt =>
      obtain ⟨_, taken⟩ := Option.ite_none_right_eq_some.1 taken
      obtain ⟨read, clocked, rfl⟩ := Option.map_eq_some_iff.1 taken
      rw [← clock clocked] at sound
      exact sound
  | apply now logId healthy =>
      obtain ⟨read, clocked, rfl⟩ := Option.map_eq_some_iff.1 taken
      rw [← clock clocked] at sound
      simp only
      rcases applyPendingBillingLog_cases { now, localDayBucketStartUtcTs } logId healthy read.db
        with ⟨e, failed⟩ | ⟨settled, _⟩ | ⟨row, db', charged, settles⟩
      · rw [failed]
        exact sound
      · rw [settled]
        exact sound
      · rw [charged]
        rcases settles.counted with ⟨_, same⟩ | ⟨subject, positive, _, counted⟩
        · rw [same.buckets]
          exact sound
        · rw [counted.buckets]
          exact SoundBuckets.charge sound subject row.createdAt.secs positive
  | annotate logId message =>
      cases taken
      exact sound
  | snapshotForSubject now subject limits =>
      obtain ⟨read, clocked, rfl⟩ := Option.map_eq_some_iff.1 taken
      rw [← clock clocked] at sound
      exact sound
  | snapshotMany now tokenIds subjectOf limits =>
      obtain ⟨read, clocked, rfl⟩ := Option.map_eq_some_iff.1 taken
      rw [← clock clocked] at sound
      unfold snapshotMany
      split
      · exact sound
      · exact sound
  | maybeCleanup now =>
      obtain ⟨read, clocked, rfl⟩ := Option.map_eq_some_iff.1 taken
      rw [← clock clocked] at sound
      split
      · exact sound
      · exact sound
  | delete statement =>
      obtain ⟨delete, _, rfl⟩ := Option.map_eq_some_iff.1 taken
      exact sound.run delete

/-- However the ledger is recorded, settled, read and cleaned up, its buckets are sound. -/
theorem soundBuckets_run (localDayBucketStartUtcTs : Int → Int)
    (actions : List MaintenanceAction) :
    (maintenanceSystem localDayBucketStartUtcTs).AlongRun
      (fun s => SoundBuckets s.db.usageBuckets) .initial actions :=
  TransitionSystem.alongRun_of_preserved _
    (fun _ _ _ sound taken => soundBuckets_step sound taken) SoundBuckets.empty actions

/-! ### Windows of a subject -/

/-- The buckets of a subject, by their start. -/
def subjectBuckets (buckets : UsageBuckets) (subject : QuotaSubject) (granularity : Granularity) :
    List (Int × Int) :=
  (buckets.rows.filter fun row =>
    decide (row.1.subject = subject ∧ row.1.granularity = granularity)).map fun row =>
      (row.1.bucketStart, row.2)

theorem sumUsageBuckets_eq_windowSum (buckets : UsageBuckets) (subject : QuotaSubject)
    (granularity : Granularity) (atLeast : Int) :
    sumUsageBuckets buckets subject granularity atLeast =
      windowSum (subjectBuckets buckets subject granularity) atLeast := by
  rw [sumUsageBuckets, KeyedTable.total, windowSum, subjectBuckets, List.filter_map,
    List.map_map, List.filter_filter]
  congr 2
  apply List.filter_congr
  intro row _
  rw [Bool.eq_iff_iff]
  simp only [Function.comp_apply, Bool.and_eq_true, decide_eq_true_eq]
  tauto

theorem mem_subjectBuckets {buckets : UsageBuckets} {subject : QuotaSubject}
    {granularity : Granularity} {start count : Int} :
    (start, count) ∈ subjectBuckets buckets subject granularity ↔
      buckets.find { subject, bucketStart := start, granularity } = some count := by
  simp only [subjectBuckets, List.mem_map, List.mem_filter, decide_eq_true_eq,
    KeyedTable.find_eq_some_iff, Prod.mk.injEq]
  constructor
  · rintro ⟨⟨key, counted⟩, ⟨held, rfl, rfl⟩, rfl, rfl⟩
    exact held
  · intro held
    exact ⟨_, ⟨held, rfl, rfl⟩, rfl, rfl⟩

theorem hourWindowStart_eq (now : Int) : hourWindowStart now = windowStart secsPerMinute 60 now :=
  rfl

theorem dayWindowStart_eq (now : Int) : dayWindowStart now = windowStart secsPerHour 24 now :=
  rfl

/-- The sum of a subject over the window of `n` buckets first drops when the earliest bucket
that the bulk reader finds leaves it. -/
theorem firstDrop_of_earliest {buckets : UsageBuckets} (sound : SoundBuckets buckets)
    {subject : QuotaSubject} {subjects : List QuotaSubject} (member : subject ∈ subjects)
    {granularity : Granularity} {width n now : Int} (wide : 0 < width)
    (aligned : ∀ key count, buckets.find key = some count → key.granularity = granularity →
      width ∣ key.bucketStart)
    (since : 0 ≤ now) {oldest : KeyedTable QuotaSubject Int}
    (read : earliestSubjectUsageBucketSinceBulk buckets subjects granularity
      (windowStart width n now) = some oldest)
    {earliest : Int} (found : oldest.find subject = some earliest) :
    FirstDrop (fun t => sumUsageBuckets buckets subject granularity (windowStart width n t)) now
      (earliest + n * width) := by
  obtain ⟨⟨count, held, counted⟩, least⟩ :=
    (find_earliestSubjectUsageBucketSinceBulk read member).mp found
  have starts : ∀ bucket ∈ subjectBuckets buckets subject granularity, width ∣ bucket.1 :=
    fun bucket among => aligned _ _ (mem_subjectBuckets.mp among) rfl
  have counts : ∀ bucket ∈ subjectBuckets buckets subject granularity, 0 < bucket.2 :=
    fun bucket among => sound.positive _ _ (mem_subjectBuckets.mp among)
  have later : ∀ bucket ∈ subjectBuckets buckets subject granularity,
      windowStart width n now ≤ bucket.1 → earliest ≤ bucket.1 :=
    fun bucket among inside => least _ _ (mem_subjectBuckets.mp among) inside
  simp only [sumUsageBuckets_eq_windowSum]
  exact firstDrop_window wide since starts counts (mem_subjectBuckets.mpr held) counted later

end TavilyHikari.Store

namespace TavilyHikari.TavilyProxy

open Library Store

/-! ### Sums of a snapshot -/

namespace QuotaStore

/-- The sum over the hour window that a snapshot of the token reads. -/
def hourWindowSum (store : QuotaStore) (tokenId : String) (now : Int) : Int :=
  sumUsageBuckets store.billing.usageBuckets (store.resolveSubject tokenId) .minute
    (hourWindowStart now)

/-- The sum over the day window that a snapshot of the token reads. -/
def dayWindowSum (store : QuotaStore) (tokenId : String) (now : Int) : Int :=
  sumUsageBuckets store.billing.usageBuckets (store.resolveSubject tokenId) .hour
    (dayWindowStart now)

end QuotaStore

/-- The verdict of a snapshot is made of these sums. -/
theorem snapshotForToken_windowSums (quota : TokenQuota) (store : QuotaStore) (tokenId : String)
    (now : Int) :
    ∃ (limits : QuotaLimits) (monthlyUsed : Int) (after : QuotaStore),
      quota.snapshotForToken tokenId now store = some
        (.new (store.hourWindowSum tokenId now) limits.hourlyLimit
          (store.dayWindowSum tokenId now) limits.dailyLimit monthlyUsed limits.monthlyLimit,
          after) := by
  obtain ⟨after, shown, _⟩ := @TokenQuota.snapshotForToken_eq store quota tokenId now
  exact ⟨quota.limitsAt store (store.resolveSubject tokenId), _, after, shown⟩

/-- What may happen without a charge, as far as the clock reads `t`: snapshots, also those that
fail, and statements of clean-ups. -/
inductive QuietStep (quota : TokenQuota) (t : Int) : QuotaStore → QuotaStore → Prop
  | snapshotForToken {tokenId : String} {now : Int} {store after : QuotaStore}
      {verdict : TokenQuotaVerdict}
      (shown : quota.snapshotForToken tokenId now store = some (verdict, after)) :
      QuietStep quota t store after
  | snapshotMany (tokenIds : List String) (now : Int) {store : QuotaStore} :
      QuietStep quota t store (quota.snapshotMany tokenIds now store).2
  | cleanup {store : QuotaStore} (delete : UsageDelete)
      (old : delete.threshold ≤ t - bucketRetentionSecs) :
      QuietStep quota t store (store.withBilling
        { store.billing with usageBuckets := delete.run store.billing.usageBuckets })

/-- The windows of a snapshot at `t` have the sums that they had. -/
def SameWindows (t : Int) (store store' : QuotaStore) : Prop :=
  ∀ tokenId, store'.hourWindowSum tokenId t = store.hourWindowSum tokenId t ∧
    store'.dayWindowSum tokenId t = store.dayWindowSum tokenId t

/-- They depend on the bindings and the counters. -/
theorem sameWindows_of_kept {store store' : QuotaStore}
    (bindings : store'.userTokenBindings = store.userTokenBindings)
    (buckets : store'.billing.usageBuckets = store.billing.usageBuckets) (t : Int) :
    SameWindows t store store' := by
  intro tokenId
  have subject : store'.resolveSubject tokenId = store.resolveSubject tokenId := by
    unfold QuotaStore.resolveSubject QuotaStore.findUserIdByTokenFresh
    rw [bindings]
  unfold QuotaStore.hourWindowSum QuotaStore.dayWindowSum
  rw [subject, buckets]
  exact ⟨rfl, rfl⟩

theorem QuietStep.sameWindows {quota : TokenQuota} {t : Int} {store store' : QuotaStore}
    (step : QuietStep quota t store store') : SameWindows t store store' := by
  cases step with
  | @snapshotForToken tokenId now _ _ verdict shown =>
      obtain ⟨after, same, taken⟩ := @TokenQuota.snapshotForToken_eq store quota tokenId now
      rw [same] at shown
      cases shown
      exact sameWindows_of_kept taken.bindings (by rw [taken.billing]) t
  | snapshotMany tokenIds now =>
      obtain ⟨bindings, buckets⟩ := quota.snapshotMany_kept tokenIds now store
      exact sameWindows_of_kept bindings buckets t
  | cleanup delete old =>
      intro tokenId
      obtain ⟨hours, days⟩ := retention_le_windows t
      exact ⟨sumUsageBuckets_run _ _ _ (Int.le_trans old hours),
        sumUsageBuckets_run _ _ _ (Int.le_trans old days)⟩

theorem sameWindows_of_quiet {quota : TokenQuota} {t : Int} {store store' : QuotaStore}
    (quiet : Relation.ReflTransGen (QuietStep quota t) store store') :
    SameWindows t store store' := by
  induction quiet with
  | refl => exact fun tokenId => ⟨rfl, rfl⟩
  | tail _ step ih =>
      intro tokenId
      exact ⟨(step.sameWindows tokenId).1.trans (ih tokenId).1,
        (step.sameWindows tokenId).2.trans (ih tokenId).2⟩

/-! ### Reset times -/

/-- The users whose buckets are read. -/
def usersOf (bindings : KeyedTable String String) : List String :=
  ((bindings.rows.map Prod.snd).insertionSort (· ≤ ·)).dedup

/-- The oldest bucket of a token is the earliest one of its subject. -/
theorem earliest_of_oldest {store : QuotaStore} {ids : List String}
    {bindings : KeyedTable String String}
    (bound : store.listUserBindingsForTokens ids = some bindings) {tokenId : String}
    (member : tokenId ∈ ids) {granularity : Granularity} {atLeast earliest : Int}
    {tokens accounts : KeyedTable QuotaSubject Int}
    (tokensRead : earliestUsageBucketSinceBulk store.billing.usageBuckets ids granularity
      atLeast = some tokens)
    (accountsRead : earliestAccountUsageBucketSinceBulk store.billing.usageBuckets
      (usersOf bindings) granularity atLeast = some accounts)
    (oldest : (match bindings.find tokenId with
      | some userId => accounts.find (.account userId)
      | none => tokens.find (.token tokenId)) = some earliest) :
    ∃ subjects found, store.resolveSubject tokenId ∈ subjects ∧
      earliestSubjectUsageBucketSinceBulk store.billing.usageBuckets subjects granularity
        atLeast = some found ∧
      found.find (store.resolveSubject tokenId) = some earliest := by
  have binding := QuotaStore.find_listUserBindingsForTokens bound member
  unfold QuotaStore.resolveSubject
  cases known : store.findUserIdByTokenFresh tokenId with
  | none =>
      rw [binding, known] at oldest
      exact ⟨ids.map .token, tokens, List.mem_map_of_mem member, tokensRead, oldest⟩
  | some userId =>
      have listed := binding.trans known
      have user : userId ∈ usersOf bindings := by
        rw [usersOf, List.mem_dedup, List.mem_insertionSort]
        exact List.mem_map_of_mem (KeyedTable.find_eq_some_iff.mp listed)
      rw [listed] at oldest
      exact ⟨(usersOf _).map .account, accounts, List.mem_map_of_mem user, accountsRead, oldest⟩

/-- A reset time is a window after the earliest bucket of the window. -/
def ResetFromEarliest (store : QuotaStore) (granularity : Granularity) (atLeast window : Int)
    (tokenId : String) (resetAt : Option Int) : Prop :=
  ∀ r, resetAt = some r → ∃ subjects found earliest, store.resolveSubject tokenId ∈ subjects ∧
    earliestSubjectUsageBucketSinceBulk store.billing.usageBuckets subjects granularity
      atLeast = some found ∧
    found.find (store.resolveSubject tokenId) = some earliest ∧ r = earliest + window

theorem populateTokenQuota_eq {quota : TokenQuota} {tokens shown : List AuthToken}
    {snapshotNow now : Int} {store after : QuotaStore}
    (populated : populateTokenQuota quota tokens snapshotNow now store = some (shown, after)) :
    after.billing.usageBuckets = store.billing.usageBuckets ∧
      ∀ token ∈ shown,
        ResetFromEarliest after .minute (hourWindowStart now) secsPerHour token.id
          token.quotaHourlyResetAt ∧
        ResetFromEarliest after .hour (dayWindowStart now) Store.secsPerDay token.id
          token.quotaDailyResetAt := by
  unfold populateTokenQuota at populated
  by_cases nothing : tokens.isEmpty = true
  · rw [if_pos nothing, List.isEmpty_iff.mp nothing] at populated
    cases populated
    exact ⟨rfl, fun token member => absurd member List.not_mem_nil⟩
  · rw [if_neg nothing] at populated
    simp only [Option.bind_eq_bind, Option.bind_eq_some_iff, Option.some.injEq,
      Prod.mk.injEq] at populated
    obtain ⟨verdicts, bulk, bindings, bound, tokenHourly, tokenHourlyRead, tokenDaily,
      tokenDailyRead, accountHourly, accountHourlyRead, accountDaily, accountDailyRead, rfl,
      rfl⟩ := populated
    obtain ⟨_, buckets⟩ := quota.snapshotMany_kept (tokens.map AuthToken.id) snapshotNow store
    obtain ⟨verdicts', _, returned, found, _⟩ :=
      quota.snapshotMany_eq snapshotNow (TokenQuota.withinVariableLimit_of_snapshotMany bulk)
    have same : verdicts = verdicts' := by
      rw [returned] at bulk
      cases bulk
      rfl
    subst same
    refine ⟨buckets, ?_⟩
    intro token member
    obtain ⟨listed, among, rfl⟩ := List.mem_map.mp member
    have inIds : listed.id ∈ tokens.map AuthToken.id := List.mem_map_of_mem among
    rw [found, if_pos inIds]
    simp only
    constructor
    · intro r reset
      split at reset
      · obtain ⟨earliest, oldest, rfl⟩ := Option.map_eq_some_iff.mp reset
        obtain ⟨subjects, read, own, among, least⟩ :=
          earliest_of_oldest bound inIds tokenHourlyRead accountHourlyRead oldest
        exact ⟨subjects, read, earliest, own, among, least, rfl⟩
      · cases reset
    · intro r reset
      split at reset
      · obtain ⟨earliest, oldest, rfl⟩ := Option.map_eq_some_iff.mp reset
        obtain ⟨subjects, read, own, among, least⟩ :=
          earliest_of_oldest bound inIds tokenDailyRead accountDailyRead oldest
        exact ⟨subjects, read, earliest, own, among, least, rfl⟩
      · cases reset

/-- **Reset times.** The buckets of every run are sound. Over sound buckets, a reset time that
is shown is the first second at which the sum of the window is smaller than now, as long as
nothing happens but snapshots and clean-ups. -/
theorem resetTimes_exact (localDayBucketStartUtcTs : Int → Int) (quota : TokenQuota) :
    (∀ actions, (maintenanceSystem localDayBucketStartUtcTs).AlongRun
      (fun s => SoundBuckets s.db.usageBuckets) .initial actions) ∧
    ∀ (store : QuotaStore) (tokens : List AuthToken) (snapshotNow now : Int)
      (shown : List AuthToken) (after : QuotaStore) (states : Int → QuotaStore),
      SoundBuckets store.billing.usageBuckets → 0 ≤ now →
      populateTokenQuota quota tokens snapshotNow now store = some (shown, after) →
      (∀ t, now ≤ t → Relation.ReflTransGen (QuietStep quota t) after (states t)) →
      ∀ token ∈ shown,
        (∀ r, token.quotaHourlyResetAt = some r →
          FirstDrop (fun t => (states t).hourWindowSum token.id t) now r) ∧
        (∀ r, token.quotaDailyResetAt = some r →
          FirstDrop (fun t => (states t).dayWindowSum token.id t) now r) := by
  refine ⟨soundBuckets_run localDayBucketStartUtcTs, ?_⟩
  intro store tokens snapshotNow now shown after states sound since1970 populated quiet token
    member
  obtain ⟨buckets, resets⟩ := populateTokenQuota_eq populated
  rw [← buckets] at sound
  obtain ⟨hourly, daily⟩ := resets token member
  constructor
  · intro r reset
    obtain ⟨subjects, found, earliest, own, read, least, rfl⟩ := hourly r reset
    rw [hourWindowStart_eq] at read
    have wide : 0 < secsPerMinute := by decide
    have drop := firstDrop_of_earliest sound own wide sound.minutes since1970 read least
    exact drop.congr fun t later => (sameWindows_of_quiet (quiet t later) token.id).1
  · intro r reset
    obtain ⟨subjects, found, earliest, own, read, least, rfl⟩ := daily r reset
    rw [dayWindowStart_eq] at read
    have wide : 0 < secsPerHour := by decide
    have drop := firstDrop_of_earliest sound own wide sound.hours since1970 read least
    exact drop.congr fun t later => (sameWindows_of_quiet (quiet t later) token.id).2

/-- One token that is bound to nobody and was charged 2 credits at second 100. -/
def chargedStore : QuotaStore :=
  unusedStore.withBilling (BillingDb.empty.charge (.token "t1") 100 2)

def chargedQuota : TokenQuota where
  limits := { hourlyLimit := 100, dailyLimit := 500, monthlyLimit := 5000 }

def listedToken : AuthToken where
  id := "t1"
  quota := none
  quotaHourlyResetAt := none
  quotaDailyResetAt := none
  quotaMonthlyResetAt := none

/-- The minute of the charge leaves its window at second 3660, the hour at the end of the day. -/
theorem resetTimes_exact_charged :
    ∃ shown after, populateTokenQuota chargedQuota [listedToken] 130 130 chargedStore =
        some (shown, after) ∧
      ∀ token ∈ shown, token.quotaHourlyResetAt = some 3660 ∧
        token.quotaDailyResetAt = some 86400 ∧
        FirstDrop (fun t => after.hourWindowSum token.id t) 130 3660 ∧
        FirstDrop (fun t => after.dayWindowSum token.id t) 130 86400 := by
  have resets : ((populateTokenQuota chargedQuota [listedToken] 130 130 chargedStore).map
      fun result => result.1.map fun token =>
        (token.quotaHourlyResetAt, token.quotaDailyResetAt)) =
      some [(some 3660, some 86400)] := by decide +kernel
  obtain ⟨⟨shown, after⟩, populated, resets⟩ := Option.map_eq_some_iff.1 resets
  have sound : SoundBuckets chargedStore.billing.usageBuckets :=
    SoundBuckets.charge SoundBuckets.empty (.token "t1") 100 (by decide)
  refine ⟨shown, after, populated, ?_⟩
  intro token member
  have own : (token.quotaHourlyResetAt, token.quotaDailyResetAt) ∈
      [((some 3660 : Option Int), (some 86400 : Option Int))] :=
    resets ▸ List.mem_map_of_mem member
  obtain ⟨hourly, daily⟩ := Prod.mk.injEq _ _ _ _ ▸ List.mem_singleton.mp own
  obtain ⟨hourDrop, dayDrop⟩ := (resetTimes_exact (fun ts => ts) chargedQuota).2 chargedStore
    [listedToken] 130 130 shown after (fun _ => after) sound (by decide) populated
    (fun t later => .refl) token member
  exact ⟨hourly, daily, hourDrop 3660 hourly, dayDrop 86400 daily⟩

end TavilyHikari.TavilyProxy
