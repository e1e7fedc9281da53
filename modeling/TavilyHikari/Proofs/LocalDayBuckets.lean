/-
Module: TavilyHikari.Proofs.LocalDayBuckets
Purpose: The buckets of local days: they follow the order of the instants and tell the local
  dates apart, so that the rebuild never comes to a bucket twice, exactly where the clock
  never returns to a date it has left and skips no midnight of a date it shows twice.
Trusted boundary: none
Main exports: LocalZone.days, LocalWindow, rebuildLoop_isSome, LocalDayBuckets,
  localDayBuckets_iff
-/
import Mathlib.Data.Int.ConditionallyCompleteOrder
import Mathlib.Data.Prod.Lex
import Mathlib.Data.String.Basic
import TavilyHikari.Models.LocalTime
import TavilyHikari.Proofs.KeyUsageRebuild

namespace TavilyHikari.Models

open Library Store

/-! ### The days of a zone -/

theorem secs_injective : Function.Injective UtcTimestamp.secs := by
  intro one two same
  cases one
  cases two
  cases same
  rfl

instance : LinearOrder UtcTimestamp := LinearOrder.lift' UtcTimestamp.secs secs_injective

theorem secs_le_iff {s t : UtcTimestamp} : s ≤ t ↔ s.secs ≤ t.secs := Iff.rfl

namespace LocalZone

variable (zone : LocalZone)

/-- The local dates, opened by their earliest midnight. -/
def days : DayCalendar UtcTimestamp Int where
  date := zone.dateNaive
  start date := (zone.instantsAt (midnight date)).head?
  date_start := by
    intro date first starts
    have found : first ∈ zone.instantsAt (midnight date) := List.mem_of_head? starts
    rw [mem_instantsAt] at found
    rw [dateNaive, found, midnight, Int.mul_ediv_cancel _ (by decide)]

variable {zone}

theorem startOfLocalDayUtcTs_eq (now : UtcTimestamp) :
    zone.startOfLocalDayUtcTs now = (zone.days.bucket now).secs := by
  rw [startOfLocalDayUtcTs, localDateStartUtcTs, localNaiveDatetimeUtcTs_eq, DayCalendar.bucket]
  simp only [days]

theorem localDayBucketStartUtcTs_secs (instant : UtcTimestamp) :
    zone.localDayBucketStartUtcTs instant.secs = (zone.days.bucket instant).secs := by
  rw [localDayBucketStartUtcTs, timestampOpt_secs]
  exact startOfLocalDayUtcTs_eq instant

end LocalZone

/-- Instants that include where each of their local days begins. -/
structure LocalWindow (zone : LocalZone) where
  instants : Set UtcTimestamp
  closed : ∀ s ∈ instants, zone.days.bucket s ∈ instants

/-- All that `chrono` can represent. -/
def LocalWindow.all (zone : LocalZone) : LocalWindow zone where
  instants := Set.univ
  closed _ _ := Set.mem_univ _

end TavilyHikari.Models

namespace TavilyHikari.Store

open Library Models

/-! ### The rebuild over sorted rows -/

theorem flushBucket_of_absent (now : Int) {key : BucketKey} (counts : BucketCounts)
    {buckets : KeyedTable BucketKey ApiKeyUsageBucket} (absent : buckets.find key = none) :
    ∃ buckets', flushBucket now key counts buckets = some buckets' ∧
      ∀ other, buckets'.find other ≠ none → other = key ∨ buckets.find other ≠ none := by
  unfold flushBucket
  split_ifs with empty
  · exact ⟨buckets, rfl, fun other found => .inr found⟩
  · rw [absent]
    refine ⟨_, rfl, fun other found => ?_⟩
    by_cases same : other = key
    · exact .inl same
    · rw [KeyedTable.find_upsert_of_ne _ same] at found
      exact .inr found

theorem absent_of_below {key : BucketKey} {buckets : KeyedTable BucketKey ApiKeyUsageBucket}
    (below : ∀ other, buckets.find other ≠ none → toLex other < toLex key) :
    buckets.find key = none := by
  by_contra found
  exact lt_irrefl _ (below key found)

/-- Where the buckets come in order, each flush is of a bucket after all that are there. -/
theorem rebuildLoop_isSome (now : Int) {key : BucketKey} {counts : BucketCounts}
    {rows : List (BucketKey × AttemptOutcome)} {buckets : KeyedTable BucketKey ApiKeyUsageBucket}
    (sorted : (key :: rows.map Prod.fst).Pairwise fun one two => toLex one ≤ toLex two)
    (below : ∀ other, buckets.find other ≠ none → toLex other < toLex key) :
    (rebuildLoop now (some (key, counts)) rows buckets).isSome := by
  induction rows generalizing key counts buckets with
  | nil =>
      obtain ⟨flushed, written, _⟩ := flushBucket_of_absent now counts (absent_of_below below)
      unfold rebuildLoop
      simp only [written, Option.isSome_some]
  | cons row rows ih =>
      obtain ⟨nextKey, outcome⟩ := row
      obtain ⟨first, rest⟩ := List.pairwise_cons.1 sorted
      unfold rebuildLoop
      simp only
      by_cases same : key = nextKey
      · subst same
        rw [if_pos rfl]
        exact ih rest below
      · obtain ⟨flushed, written, keys⟩ := flushBucket_of_absent now counts (absent_of_below below)
        rw [if_neg same, written, Option.bind_some]
        have after : toLex key < toLex nextKey :=
          lt_of_le_of_ne (first nextKey (by simp)) fun equal => same (toLex.injective equal)
        refine ih rest fun other found => ?_
        rcases keys other found with equal | there
        · rw [equal]
          exact after
        · exact (below other there).trans after

instance : IsTrans (Int × RequestLogEntry) rebuildOrder where
  trans one two three first second := by
    unfold rebuildOrder at first second ⊢
    rcases first with key | ⟨key, time⟩
    · rcases second with key' | ⟨key', _⟩
      · exact .inl (key.trans key')
      · exact .inl (key'.symm ▸ key)
    · rcases second with key' | ⟨key', time'⟩
      · exact .inl (key ▸ key')
      · exact .inr ⟨key.trans key', by omega⟩

instance : Std.Total rebuildOrder where
  total one two := by
    unfold rebuildOrder
    rcases lt_trichotomy (one.2.apiKeyId.getD "") (two.2.apiKeyId.getD "") with
      before | same | after
    · exact .inl (.inl before)
    · by_cases time : one.2.createdAt < two.2.createdAt ∨
          one.2.createdAt = two.2.createdAt ∧ one.1 ≤ two.1
      · exact .inl (.inr ⟨same, time⟩)
      · exact .inr (.inr ⟨same.symm, by omega⟩)
    · exact .inr (.inl after)

/-- Buckets that follow the order of the times come in order. -/
theorem entries_sorted {localDayBucketStartUtcTs : Int → Int}
    {rows : List (Int × RequestLogEntry)}
    (ordered : ∀ one ∈ rows, ∀ two ∈ rows, one.2.createdAt ≤ two.2.createdAt →
      localDayBucketStartUtcTs one.2.createdAt ≤ localDayBucketStartUtcTs two.2.createdAt) :
    (((rows.insertionSort rebuildOrder).filterMap fun row =>
      bucketEntry localDayBucketStartUtcTs row.2).map Prod.fst).Pairwise
        fun one two => toLex one ≤ toLex two := by
  have parts {row : RequestLogEntry} {entry : BucketKey × AttemptOutcome}
      (made : bucketEntry localDayBucketStartUtcTs row = some entry) :
      entry.1 = (row.apiKeyId.getD "", localDayBucketStartUtcTs row.createdAt) := by
    unfold bucketEntry at made
    split at made
    · rename_i keyId named
      split_ifs at made
      cases made
      rw [named, Option.getD_some]
    · cases made
  rw [List.pairwise_map, List.pairwise_filterMap]
  apply (List.pairwise_insertionSort rebuildOrder rows).imp_of_mem
  intro one two first second order entry made entry' made'
  rw [List.mem_insertionSort] at first second
  rw [parts made, parts made', Prod.Lex.toLex_le_toLex]
  rcases order with key | ⟨key, time⟩
  · exact .inl key
  · exact .inr ⟨key, ordered one first two second (by omega)⟩

/-- The rebuild succeeds where the buckets follow the order of the times. -/
theorem rebuildApiKeyUsageBuckets_isSome {localDayBucketStartUtcTs : Int → Int} (now : Int)
    {db : LogDb}
    (ordered : ∀ one ∈ db.requestLogs.table.rows, ∀ two ∈ db.requestLogs.table.rows,
      one.2.createdAt ≤ two.2.createdAt →
        localDayBucketStartUtcTs one.2.createdAt ≤ localDayBucketStartUtcTs two.2.createdAt) :
    (rebuildApiKeyUsageBuckets localDayBucketStartUtcTs now db).isSome := by
  have sorted := entries_sorted ordered
  unfold rebuildApiKeyUsageBuckets
  simp only [Option.isSome_map]
  cases entries : (db.requestLogs.table.rows.insertionSort rebuildOrder).filterMap fun row =>
      bucketEntry localDayBucketStartUtcTs row.2 with
  | nil => rfl
  | cons first rest =>
      rw [entries] at sorted
      exact rebuildLoop_isSome now sorted fun other found => absurd rfl found

/-- The row of an attempt, as it is logged. -/
def attemptRow (now : Int) (keyId : String) (outcome : AttemptOutcome) : RequestLogEntry where
  apiKeyId := some keyId
  resultStatus := outcome
  visibility := .visible
  createdAt := now

/-- An attempt with a bucket of its own between two of another bucket makes it fail. -/
theorem rebuildApiKeyUsageBuckets_eq_none {localDayBucketStartUtcTs : Int → Int} {x y z : Int}
    (before : x ≤ y) (after : y ≤ z)
    (same : localDayBucketStartUtcTs x = localDayBucketStartUtcTs z)
    (other : localDayBucketStartUtcTs y ≠ localDayBucketStartUtcTs x) (now : Int) {db : LogDb}
    (rows : db.requestLogs.table.rows =
      [(1, attemptRow x "key" .success), (2, attemptRow y "key" .success),
        (3, attemptRow z "key" .success)]) :
    rebuildApiKeyUsageBuckets localDayBucketStartUtcTs now db = none := by
  have sorted : db.requestLogs.table.rows.Pairwise rebuildOrder := by
    rw [rows]
    simp only [List.pairwise_cons, List.mem_cons, List.not_mem_nil, or_false, rebuildOrder,
      attemptRow, Option.getD_some, true_and, forall_eq_or_imp, forall_eq, IsEmpty.forall_iff,
      implies_true, List.Pairwise.nil, and_true]
    refine ⟨⟨.inr ?_, .inr ?_⟩, .inr ?_⟩ <;> omega
  unfold rebuildApiKeyUsageBuckets
  rw [sorted.insertionSort_eq, rows]
  have different : ("key", localDayBucketStartUtcTs x) ≠ ("key", localDayBucketStartUtcTs y) :=
    fun equal => other (Prod.mk.inj equal).2.symm
  simp [bucketEntry, attemptRow, rebuildLoop, flushBucket, BucketCounts.zero, BucketCounts.add,
    ← same, different, different.symm, KeyedTable.find_upsert_of_ne]

/-- The requests counted in a bucket. -/
def bucketRequests (db : LogDb) (key : BucketKey) : Int :=
  (db.apiKeyUsageBuckets.find key).elim 0 fun bucket => bucket.counts.totalRequests

/-- An attempt is counted at once in the bucket in which a rebuild counts its row. -/
theorem bucketRequests_logAttempt (localDayBucketStartUtcTs : Int → Int) (now : Int)
    (keyId : String) (outcome : AttemptOutcome) (db : LogDb) :
    ∃ key, bucketEntry localDayBucketStartUtcTs (attemptRow now keyId outcome) =
        some (key, outcome) ∧
      ∀ other, bucketRequests (logAttempt localDayBucketStartUtcTs now (some keyId) outcome db)
          other = bucketRequests db other + if other = key then 1 else 0 := by
  refine ⟨(keyId, localDayBucketStartUtcTs now), rfl, fun other => ?_⟩
  unfold bucketRequests logAttempt
  simp only
  by_cases same : other = (keyId, localDayBucketStartUtcTs now)
  · subst same
    rw [KeyedTable.find_upsert_self, if_pos rfl]
    cases db.apiKeyUsageBuckets.find (keyId, localDayBucketStartUtcTs now) with
    | none => simp [BucketCounts.zero]
    | some bucket => simp
  · rw [KeyedTable.find_upsert_of_ne _ same, if_neg same, Int.add_zero]

end TavilyHikari.Store

namespace TavilyHikari.Models

open Library Store

/-! ### Local days -/

/-- What the buckets of local days are for: they follow the order of the instants, they are
one for each local date, the rebuild of any log never comes to one twice, and an attempt
is counted where the rebuild counts it. -/
structure LocalDayBuckets (zone : LocalZone) (window : LocalWindow zone) : Prop where
  ordered : ∀ s ∈ window.instants, ∀ t ∈ window.instants, s.secs ≤ t.secs →
    zone.localDayBucketStartUtcTs s.secs ≤ zone.localDayBucketStartUtcTs t.secs
  same_iff : ∀ s ∈ window.instants, ∀ t ∈ window.instants, s.secs ≤ t.secs →
    (zone.localDayBucketStartUtcTs s.secs = zone.localDayBucketStartUtcTs t.secs ↔
      zone.dateNaive s = zone.dateNaive t)
  rebuilds : ∀ now (db : LogDb),
    (∀ row ∈ db.requestLogs.table.rows, ∃ t ∈ window.instants, t.secs = row.2.createdAt) →
      (rebuildApiKeyUsageBuckets zone.localDayBucketStartUtcTs now db).isSome
  incremental : ∀ now keyId outcome (db : LogDb), ∃ key,
    bucketEntry zone.localDayBucketStartUtcTs (attemptRow now keyId outcome) =
        some (key, outcome) ∧
      ∀ other, bucketRequests
          (logAttempt zone.localDayBucketStartUtcTs now (some keyId) outcome db) other =
        bucketRequests db other + if other = key then 1 else 0

variable {zone : LocalZone}

theorem bucketed_iff_localDay (window : LocalWindow zone) :
    zone.days.Bucketed window.instants ↔
      ∀ s ∈ window.instants, ∀ t ∈ window.instants, s.secs ≤ t.secs →
        zone.localDayBucketStartUtcTs s.secs ≤ zone.localDayBucketStartUtcTs t.secs ∧
          (zone.localDayBucketStartUtcTs s.secs = zone.localDayBucketStartUtcTs t.secs ↔
            zone.dateNaive s = zone.dateNaive t) := by
  simp only [LocalZone.localDayBucketStartUtcTs_secs, secs_injective.eq_iff]
  exact Iff.rfl

/-- Every log of these instants can be rebuilt exactly where their buckets follow their
order. -/
theorem rebuilds_iff (window : LocalWindow zone) :
    (∀ now (db : LogDb),
      (∀ row ∈ db.requestLogs.table.rows, ∃ t ∈ window.instants, t.secs = row.2.createdAt) →
        (rebuildApiKeyUsageBuckets zone.localDayBucketStartUtcTs now db).isSome) ↔
      ∀ s ∈ window.instants, ∀ t ∈ window.instants, s.secs ≤ t.secs →
        zone.localDayBucketStartUtcTs s.secs ≤ zone.localDayBucketStartUtcTs t.secs := by
  constructor
  · intro rebuilds
    simp only [LocalZone.localDayBucketStartUtcTs_secs]
    refine (DayCalendar.grouped_iff window.closed).1 ?_
    intro s first w middle t last before after same
    by_contra other
    let log (now : UtcTimestamp) :=
      logAttempt zone.localDayBucketStartUtcTs now.secs (some "key") .success
    have rows : (log t (log w (log s .empty))).requestLogs.table.rows =
        [(1, attemptRow s.secs "key" .success), (2, attemptRow w.secs "key" .success),
          (3, attemptRow t.secs "key" .success)] := rfl
    have outer : zone.localDayBucketStartUtcTs s.secs = zone.localDayBucketStartUtcTs t.secs := by
      simp only [LocalZone.localDayBucketStartUtcTs_secs, same]
    have inner : zone.localDayBucketStartUtcTs w.secs ≠ zone.localDayBucketStartUtcTs s.secs := by
      simp only [LocalZone.localDayBucketStartUtcTs_secs, ne_eq, secs_injective.eq_iff]
      exact other
    have fails := rebuildApiKeyUsageBuckets_eq_none before after outer inner 0 rows
    have succeeds := rebuilds 0 (log t (log w (log s .empty))) (by
      rw [rows]
      simp only [List.mem_cons, List.not_mem_nil, or_false, forall_eq_or_imp, forall_eq, attemptRow]
      exact ⟨⟨s, first, rfl⟩, ⟨w, middle, rfl⟩, ⟨t, last, rfl⟩⟩)
    rw [fails] at succeeds
    cases succeeds
  · intro ordered now db logged
    apply rebuildApiKeyUsageBuckets_isSome
    intro one first two second before
    obtain ⟨s, here, sameOne⟩ := logged one first
    obtain ⟨t, there, sameTwo⟩ := logged two second
    rw [← sameOne, ← sameTwo] at before ⊢
    exact ordered s here t there before

/-- The rest follows from the order of the buckets. -/
theorem localDayBuckets_iff_bucketed (window : LocalWindow zone) :
    LocalDayBuckets zone window ↔ zone.days.Bucketed window.instants := by
  rw [bucketed_iff_localDay]
  constructor
  · intro buckets s here t there before
    exact ⟨buckets.ordered s here t there before, buckets.same_iff s here t there before⟩
  · intro both
    exact
      { ordered := fun s here t there before => (both s here t there before).1
        same_iff := fun s here t there before => (both s here t there before).2
        rebuilds := (rebuilds_iff window).2 fun s here t there before =>
          (both s here t there before).1
        incremental := bucketRequests_logAttempt zone.localDayBucketStartUtcTs }

/-- The buckets of local days do what they are for exactly where the clock never returns to
a date it has left, and where each date it shows at two instants has a midnight. -/
theorem localDayBuckets_iff (zone : LocalZone) (window : LocalWindow zone) :
    LocalDayBuckets zone window ↔
      (∀ s ∈ window.instants, ∀ w ∈ window.instants, ∀ t ∈ window.instants,
        s.secs ≤ w.secs → w.secs ≤ t.secs → zone.dateNaive s = zone.dateNaive t →
          zone.dateNaive w = zone.dateNaive s) ∧
      ∀ s ∈ window.instants, ∀ t ∈ window.instants, s.secs < t.secs →
        zone.dateNaive s = zone.dateNaive t →
          ∃ first, zone.naiveLocal first = midnight (zone.dateNaive s) := by
  have starts {date : Int} : zone.days.start date ≠ none ↔
      ∃ first, zone.naiveLocal first = midnight date := by
    simp only [LocalZone.days, ne_eq, List.head?_eq_none_iff, List.eq_nil_iff_forall_not_mem,
      LocalZone.mem_instantsAt, not_forall, not_not]
  rw [localDayBuckets_iff_bucketed, DayCalendar.bucketed_iff window.closed]
  unfold DayCalendar.Contiguous DayCalendar.Started
  simp only [starts]
  exact Iff.rfl

/-! ### A clock that is never set -/

/-- The zone of one offset. -/
def fixedOffset (offset : Int) (bounds : -86400 < offset ∧ offset < 86400) : LocalZone where
  offset _ := offset
  offset_bounds _ := bounds

variable {offset : Int} {bounds : -86400 < offset ∧ offset < 86400} {date : Int}
  {first instant : UtcTimestamp}

/-- From any local midnight on, a day begins at its own. -/
theorem fixedOffset_bucket (opens : (fixedOffset offset bounds).naiveLocal first = midnight date)
    (later : first.secs ≤ instant.secs) :
    ((fixedOffset offset bounds).days.bucket instant).secs =
      midnight ((fixedOffset offset bounds).dateNaive instant) - offset := by
  simp only [LocalZone.naiveLocal, fixedOffset, midnight] at opens
  have range : first.secs ≤ (instant.secs + offset) / 86400 * 86400 - offset ∧
      (instant.secs + offset) / 86400 * 86400 - offset ≤ instant.secs := by omega
  have lower := first.in_range.1
  have upper := instant.in_range.2
  let start : UtcTimestamp :=
    { secs := (instant.secs + offset) / 86400 * 86400 - offset, in_range := by omega }
  have here : (fixedOffset offset bounds).naiveLocal start =
      midnight ((fixedOffset offset bounds).dateNaive instant) := by
    simp only [LocalZone.naiveLocal, LocalZone.dateNaive, fixedOffset, midnight, start]
    omega
  have only : ∀ other, (fixedOffset offset bounds).naiveLocal other =
      midnight ((fixedOffset offset bounds).dateNaive instant) → start.secs ≤ other.secs := by
    intro other there
    simp only [LocalZone.naiveLocal, LocalZone.dateNaive, fixedOffset, midnight] at there
    simp only [start]
    omega
  rw [← LocalZone.startOfLocalDayUtcTs_eq, LocalZone.startOfLocalDayUtcTs,
    LocalZone.localDateStartUtcTs, LocalZone.localNaiveDatetimeUtcTs_of_mem here only]
  rfl

/-- The instants from a local midnight on. -/
def fixedOffsetFrom (opens : (fixedOffset offset bounds).naiveLocal first = midnight date) :
    LocalWindow (fixedOffset offset bounds) where
  instants := fun instant => first.secs ≤ instant.secs
  closed := by
    intro instant later
    have start := fixedOffset_bucket opens later
    have before : first.secs ≤ instant.secs := later
    change first.secs ≤ ((fixedOffset offset bounds).days.bucket instant).secs
    rw [start]
    simp only [LocalZone.naiveLocal, LocalZone.dateNaive, fixedOffset, midnight] at opens ⊢
    omega

/-- On them the buckets do what they are for. -/
theorem localDayBuckets_fixedOffset
    (opens : (fixedOffset offset bounds).naiveLocal first = midnight date) :
    LocalDayBuckets (fixedOffset offset bounds) (fixedOffsetFrom opens) := by
  rw [localDayBuckets_iff_bucketed]
  intro s here t there before
  have earlier : s.secs ≤ t.secs := before
  have day : (fixedOffset offset bounds).days.date = (fixedOffset offset bounds).dateNaive := rfl
  rw [← secs_injective.eq_iff, secs_le_iff, day]
  rw [fixedOffset_bucket opens here, fixedOffset_bucket opens there]
  simp only [LocalZone.dateNaive, LocalZone.naiveLocal, fixedOffset, midnight]
  omega

/-! ### A midnight that is skipped -/

/-- A zone whose clock goes from 23:59:59 to 01:00 on 4 November 2018, and from then on is two
hours behind UTC. -/
def skippedMidnight : LocalZone where
  offset instant := if instant.secs < 1541300400 then -10800 else -7200
  offset_bounds instant := by split_ifs <;> decide

/-- Each instant of that day is the start of a bucket of its own. -/
theorem skippedMidnight_bucket {instant : UtcTimestamp}
    (day : skippedMidnight.dateNaive instant = 17839) :
    skippedMidnight.localDayBucketStartUtcTs instant.secs = instant.secs := by
  have skipped : ∀ other, skippedMidnight.naiveLocal other ≠ midnight 17839 := by
    intro other
    simp only [LocalZone.naiveLocal, skippedMidnight, midnight]
    split_ifs <;> omega
  rw [LocalZone.localDayBucketStartUtcTs, timestampOpt_secs]
  simp only [LocalZone.startOfLocalDayUtcTs, LocalZone.localDateStartUtcTs, day]
  exact LocalZone.localNaiveDatetimeUtcTs_of_skipped skipped instant

/-- So the buckets of two seconds of that day differ. -/
theorem skippedMidnight_splits :
    ¬ LocalDayBuckets skippedMidnight (.all skippedMidnight) := by
  intro buckets
  have same := (buckets.same_iff { secs := 1541300400, in_range := by decide } (Set.mem_univ _)
    { secs := 1541300401, in_range := by decide } (Set.mem_univ _) (by decide)).2 (by decide)
  rw [skippedMidnight_bucket (by decide), skippedMidnight_bucket (by decide)] at same
  revert same
  decide

end TavilyHikari.Models
