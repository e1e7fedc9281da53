/-
Module: TavilyHikari.Proofs.KeyUsageRebuild
Purpose: What a rebuild of the daily buckets leaves in them: the counts of the rows that
  are there, which are the counts of all attempts exactly when the retention has deleted
  none that counts.
Trusted boundary: none
Main exports: find_rebuildApiKeyUsageBuckets, rebuild_keeps_history_iff
-/
import Mathlib.Data.List.Induction
import TavilyHikari.Library.Collect
import TavilyHikari.Proofs.LogRetention

namespace TavilyHikari.Store

open Library

/-! ### Counts -/

/-- The counts of attempts with these outcomes. -/
def countsOf (outcomes : List AttemptOutcome) : BucketCounts :=
  outcomes.foldl BucketCounts.add .zero

@[simp] theorem totalRequests_add (counts : BucketCounts) (outcome : AttemptOutcome) :
    (counts.add outcome).totalRequests = counts.totalRequests + 1 := by
  cases outcome <;> rfl

theorem countsOf_concat (outcomes : List AttemptOutcome) (outcome : AttemptOutcome) :
    countsOf (outcomes ++ [outcome]) = (countsOf outcomes).add outcome := by
  rw [countsOf, List.foldl_append]
  rfl

theorem totalRequests_countsOf (outcomes : List AttemptOutcome) :
    (countsOf outcomes).totalRequests = outcomes.length := by
  induction outcomes using List.reverseRecOn with
  | nil => rfl
  | append_singleton outcomes outcome ih =>
      rw [countsOf_concat, totalRequests_add, ih]
      simp

/-- The counts do not depend on the order of the attempts. -/
theorem countsOf_perm {one two : List AttemptOutcome} (perm : one.Perm two) :
    countsOf one = countsOf two := by
  have commute : RightCommutative BucketCounts.add :=
    ⟨fun counts first second => by cases first <;> cases second <;> rfl⟩
  exact perm.foldl_eq BucketCounts.zero

/-- The counts of a bucket, where it has any attempt. -/
def expectedCounts (entries : List (BucketKey × AttemptOutcome)) (key : BucketKey) :
    Option BucketCounts :=
  if valuesOf key entries = [] then none else some (countsOf (valuesOf key entries))

theorem valuesOf_perm {one two : List (BucketKey × AttemptOutcome)} (perm : one.Perm two)
    (key : BucketKey) : (valuesOf key one).Perm (valuesOf key two) :=
  (perm.filter _).map _

theorem expectedCounts_perm {one two : List (BucketKey × AttemptOutcome)} (perm : one.Perm two)
    (key : BucketKey) : expectedCounts one key = expectedCounts two key := by
  have values := valuesOf_perm perm key
  have none : valuesOf key one = [] ↔ valuesOf key two = [] := by
    constructor
    · intro empty
      rw [empty] at values
      exact values.symm.eq_nil
    · intro empty
      rw [empty] at values
      exact values.eq_nil
  simp only [expectedCounts, countsOf_perm values, none]

/-! ### The loop of the rebuild -/

/-- A bucket that is flushed was not there. -/
theorem flushBucket_eq_some {now : Int} {key : BucketKey} {outcomes : List AttemptOutcome}
    (nonempty : outcomes ≠ []) {buckets buckets' : KeyedTable BucketKey ApiKeyUsageBucket}
    (flushed : flushBucket now key (countsOf outcomes) buckets = some buckets') :
    buckets.find key = none ∧
      buckets' = buckets.upsert key { counts := countsOf outcomes, updatedAt := now } id := by
  have positive : 0 < outcomes.length := List.length_pos_iff.2 nonempty
  unfold flushBucket at flushed
  rw [if_neg (by rw [totalRequests_countsOf]; omega)] at flushed
  split at flushed
  · cases flushed
  · rename_i missing
    exact ⟨missing, (Option.some.inj flushed).symm⟩

/-- A loop that ends has written every bucket it came to once, with all its attempts, and
no other. -/
theorem rebuildLoop_find {now : Int} {key : BucketKey} {outcomes : List AttemptOutcome}
    (nonempty : outcomes ≠ []) {rows : List (BucketKey × AttemptOutcome)}
    {buckets buckets' : KeyedTable BucketKey ApiKeyUsageBucket}
    (ran : rebuildLoop now (some (key, countsOf outcomes)) rows buckets = some buckets')
    (other : BucketKey) :
    let group := (if key = other then outcomes else []) ++ valuesOf other rows
    (group = [] → buckets'.find other = buckets.find other) ∧
      (group ≠ [] → buckets.find other = none ∧
        buckets'.find other = some { counts := countsOf group, updatedAt := now }) := by
  induction rows generalizing key outcomes buckets with
  | nil =>
      obtain ⟨missing, written⟩ := flushBucket_eq_some nonempty ran
      subst written
      by_cases same : key = other
      · subst same
        simp [nonempty, missing]
      · simp [same, KeyedTable.find_upsert_of_ne _ (Ne.symm same)]
  | cons row rows ih =>
      obtain ⟨nextKey, outcome⟩ := row
      unfold rebuildLoop at ran
      simp only at ran
      by_cases sameRow : key = nextKey
      · subst sameRow
        rw [if_pos rfl, ← countsOf_concat] at ran
        have rest := ih (by simp) ran
        by_cases same : key = other
        · simpa [same, valuesOf_cons] using rest
        · simpa [same, valuesOf_cons] using rest
      · rw [if_neg sameRow, Option.bind_eq_some_iff] at ran
        obtain ⟨mid, flushed, ran⟩ := ran
        obtain ⟨missing, written⟩ := flushBucket_eq_some nonempty flushed
        have single : BucketCounts.zero.add outcome = countsOf [outcome] := rfl
        rw [single] at ran
        have rest := ih (by simp) ran
        subst written
        by_cases same : key = other
        · subst same
          -- The bucket is there now, so no later row can belong to it.
          have none : valuesOf key rows = [] := by
            by_contra more
            have found := (rest.2 (by simp [more])).1
            simp [missing] at found
          have kept := rest.1 (by simp [Ne.symm sameRow, none])
          simp only [if_true, valuesOf_cons, Ne.symm sameRow, if_false, none, List.append_nil]
          refine ⟨fun empty => absurd empty nonempty, fun _ => ⟨missing, ?_⟩⟩
          rw [kept]
          simp [missing]
        · simp only [same, if_false, List.nil_append, valuesOf_cons]
          rw [KeyedTable.find_upsert_of_ne _ (Ne.symm same)] at rest
          by_cases next : nextKey = other
          · simpa [next] using rest
          · simpa [next] using rest

/-- The rows that count, in the order of the rebuild or in any other. -/
def rowEntries (localDayBucketStartUtcTs : Int → Int) (db : LogDb) :
    List (BucketKey × AttemptOutcome) :=
  db.requestLogs.table.rows.filterMap fun row => bucketEntry localDayBucketStartUtcTs row.2

/-- After a rebuild each bucket has the counts of the rows that are there. -/
theorem find_rebuildApiKeyUsageBuckets {localDayBucketStartUtcTs : Int → Int} {now : Int}
    {db db' : LogDb}
    (rebuilt : rebuildApiKeyUsageBuckets localDayBucketStartUtcTs now db = some db')
    (key : BucketKey) :
    db'.requestLogs = db.requestLogs ∧
      (db'.apiKeyUsageBuckets.find key).map ApiKeyUsageBucket.counts =
        expectedCounts (rowEntries localDayBucketStartUtcTs db) key := by
  unfold rebuildApiKeyUsageBuckets at rebuilt
  simp only at rebuilt
  obtain ⟨buckets, ran, written⟩ := Option.map_eq_some_iff.1 rebuilt
  subst written
  refine ⟨rfl, ?_⟩
  have perm : ((db.requestLogs.table.rows.insertionSort rebuildOrder).filterMap fun row =>
      bucketEntry localDayBucketStartUtcTs row.2).Perm (rowEntries localDayBucketStartUtcTs db) :=
    (List.perm_insertionSort _ _).filterMap _
  rw [← expectedCounts_perm perm]
  cases entries : (db.requestLogs.table.rows.insertionSort rebuildOrder).filterMap fun row =>
      bucketEntry localDayBucketStartUtcTs row.2 with
  | nil =>
      rw [entries] at ran
      cases ran
      rfl
  | cons first rest =>
      obtain ⟨firstKey, outcome⟩ := first
      rw [entries] at ran
      have single : BucketCounts.zero.add outcome = countsOf [outcome] := rfl
      have loop : rebuildLoop now (some (firstKey, countsOf [outcome])) rest .empty =
          some buckets := by
        rw [← single]
        exact ran
      obtain ⟨absent, present⟩ := rebuildLoop_find (by simp) loop key
      have group : (if firstKey = key then [outcome] else []) ++ valuesOf key rest =
          valuesOf key ((firstKey, outcome) :: rest) := by
        rw [valuesOf_cons]
        split <;> rfl
      rw [group] at absent present
      unfold expectedCounts
      by_cases none : valuesOf key ((firstKey, outcome) :: rest) = []
      · rw [absent none, if_pos none]
        rfl
      · rw [(present none).2, if_neg none]
        rfl

/-! ### Histories -/

/-- The row of an attempt, where it was not deleted. -/
def keptRow (attempt : Int × LoggedAttempt) : Option (Int × RequestLogEntry) :=
  if attempt.2.deleted then none else some (attempt.1, attempt.2.entry)

/-- The table holds the rows of the attempts that were not deleted. -/
def Tracks (s : LogState) : Prop :=
  s.db.requestLogs.table.rows = s.history.filterMap keptRow

/-- The attempts that count, whether their rows are there or not. -/
def historyEntries (localDayBucketStartUtcTs : Int → Int)
    (history : List (Int × LoggedAttempt)) : List (BucketKey × AttemptOutcome) :=
  history.filterMap fun attempt => bucketEntry localDayBucketStartUtcTs attempt.2.entry

theorem rows_deleteOldRequestLogs (threshold total : Int) (db : LogDb) :
    ∃ p, (deleteOldRequestLogs threshold total db).2.requestLogs.table.rows =
      db.requestLogs.table.rows.filter p := by
  have batch {db db' : LogDb} {deleted : Int}
      (ran : deleteRequestLogBatch threshold db = some (deleted, db')) :
      ∃ p, db'.requestLogs.table.rows = db.requestLogs.table.rows.filter p := by
    unfold deleteRequestLogBatch at ran
    simp only at ran
    split_ifs at ran
    obtain ⟨_, same⟩ := Prod.mk.inj (Option.some.inj ran)
    subst same
    exact ⟨_, rfl⟩
  fun_induction deleteOldRequestLogs threshold total db with
  | case1 total db rejected => exact ⟨fun _ => true, by simp⟩
  | case2 total db db' ran => exact batch ran
  | case3 total db deleted db' ran more ih =>
      obtain ⟨p, first⟩ := batch ran
      obtain ⟨q, rest⟩ := ih
      exact ⟨fun row => q row && p row, by rw [rest, first, List.filter_filter]⟩

theorem keptRow_afterDelete (db : LogDb) (attempt : Int × LoggedAttempt) :
    keptRow (attempt.1, attempt.2.afterDelete db attempt.1) =
      (keptRow attempt).filter fun row => (db.requestLogs.table.find row.1).isSome := by
  cases gone : attempt.2.deleted with
  | true => simp [keptRow, LoggedAttempt.afterDelete, gone]
  | false =>
      cases found : db.requestLogs.table.find attempt.1 with
      | none =>
          simp [keptRow, LoggedAttempt.afterDelete, gone, AutoIncrement.find, found,
            Option.filter_some]
      | some entry =>
          simp [keptRow, LoggedAttempt.afterDelete, gone, AutoIncrement.find, found,
            Option.filter_some]

/-- What is deleted is marked in the history. -/
theorem tracks_delete {s : LogState} (tracks : Tracks s) (threshold : Int) :
    Tracks
      { db := (deleteOldRequestLogs threshold 0 s.db).2
        history := s.history.map fun row =>
          (row.1, row.2.afterDelete (deleteOldRequestLogs threshold 0 s.db).2 row.1) } := by
  obtain ⟨p, selected⟩ := rows_deleteOldRequestLogs threshold 0 s.db
  unfold Tracks at tracks ⊢
  simp only
  rw [KeyedTable.rows_eq_filter_find selected, tracks, List.filter_filterMap, List.filterMap_map]
  apply List.filterMap_congr
  intro attempt _
  exact (keptRow_afterDelete _ attempt).symm

theorem tracks_suppress {s : LogState} (tracks : Tracks s) (id : Int) :
    Tracks
      { db := suppressRetryShadow id s.db
        history := s.history.map fun row =>
          if row.1 = id then (row.1, row.2.suppress) else row } := by
  unfold Tracks at tracks ⊢
  simp only [suppressRetryShadow, AutoIncrement.modify, KeyedTable.modify, KeyedTable.mapValues]
  rw [tracks, List.map_filterMap, List.filterMap_map]
  apply List.filterMap_congr
  intro row _
  by_cases here : row.1 = id
  · cases gone : row.2.deleted with
    | true => simp [keptRow, here, gone, LoggedAttempt.suppress]
    | false => simp [keptRow, here, gone, LoggedAttempt.suppress]
  · cases gone : row.2.deleted with
    | true => simp [keptRow, here, gone]
    | false => simp [keptRow, here, gone]

theorem tracks_step {localDayBucketStartUtcTs : Int → Int} {s s' : LogState} {action : LogAction}
    (tracks : Tracks s) (taken : (logSystem localDayBucketStartUtcTs).step s action = some s') :
    Tracks s' := by
  cases action with
  | logAttempt now keyId outcome =>
      cases taken
      unfold Tracks at tracks ⊢
      have missing : s.db.requestLogs.table.find (s.db.requestLogs.last + 1) = none :=
        s.db.requestLogs.find_next
      simp only [logAttempt, AutoIncrement.insert, KeyedTable.rows_upsert_of_absent missing, tracks,
        List.filterMap_append]
      rfl
  | insertTokenLog now requestLogId =>
      cases taken
      unfold insertTokenLog
      split <;> exact tracks
  | insertMaintenanceRecord record =>
      cases taken
      unfold insertApiKeyMaintenanceRecord
      split <;> exact tracks
  | deleteOldAuthTokenLogs threshold =>
      cases taken
      simp only [deleteOldAuthTokenLogs]
      split <;> exact tracks
  | deleteOldRequestLogs threshold =>
      cases taken
      exact tracks_delete tracks threshold
  | suppressRetryShadow id =>
      cases taken
      exact tracks_suppress tracks id
  | rebuild now =>
      cases taken
      cases rebuilt : rebuildApiKeyUsageBuckets localDayBucketStartUtcTs now s.db with
      | none => exact tracks
      | some db =>
          have kept := (find_rebuildApiKeyUsageBuckets rebuilt ("", 0)).1
          unfold Tracks
          simp only [Option.getD_some, kept]
          exact tracks

/-! ### Rebuilds -/

/-- No attempt that counts was deleted: what the retention deleted was suppressed, or had no
key. -/
def NothingLost (s : LogState) : Prop :=
  ∀ attempt ∈ s.history, attempt.2.deleted = true →
    attempt.2.entry.apiKeyId = none ∨ attempt.2.entry.visibility ≠ .visible

theorem bucketEntry_eq_none_iff {localDayBucketStartUtcTs : Int → Int} {entry : RequestLogEntry} :
    bucketEntry localDayBucketStartUtcTs entry = none ↔
      entry.apiKeyId = none ∨ entry.visibility ≠ .visible := by
  unfold bucketEntry
  cases entry.apiKeyId with
  | none => simp
  | some keyId => by_cases visible : entry.visibility = .visible <;> simp [visible]

/-- The entry of an attempt whose row is there. -/
def keptEntry (localDayBucketStartUtcTs : Int → Int) (attempt : Int × LoggedAttempt) :
    Option (BucketKey × AttemptOutcome) :=
  if attempt.2.deleted then none else bucketEntry localDayBucketStartUtcTs attempt.2.entry

theorem rowEntries_of_tracks {localDayBucketStartUtcTs : Int → Int} {s : LogState}
    (tracks : Tracks s) :
    rowEntries localDayBucketStartUtcTs s.db =
      s.history.filterMap (keptEntry localDayBucketStartUtcTs) := by
  rw [rowEntries, tracks, List.filterMap_filterMap]
  apply List.filterMap_congr
  intro attempt _
  cases gone : attempt.2.deleted <;> simp [keptRow, keptEntry, gone]

/-- The number of attempts in a bucket, as a sum over a list they are taken from. -/
theorem length_valuesOf_filterMap {α : Type} (key : BucketKey)
    (entry : α → Option (BucketKey × AttemptOutcome)) (l : List α) :
    ((valuesOf key (l.filterMap entry)).length : Int) =
      (l.map fun a => if (entry a).map Prod.fst = some key then (1 : Int) else 0).sum := by
  induction l with
  | nil => rfl
  | cons a l ih =>
      cases made : entry a with
      | none => simp [made, ih]
      | some pair =>
          by_cases same : pair.1 = key
          · simp [made, valuesOf_cons, same, ih, Int.add_comm]
          · simp [made, valuesOf_cons, same, ih]

/-- The expected counts are those of a number of attempts. -/
theorem totalRequests_expectedCounts (entries : List (BucketKey × AttemptOutcome))
    (key : BucketKey) :
    ((expectedCounts entries key).elim 0 BucketCounts.totalRequests) =
      (valuesOf key entries).length := by
  unfold expectedCounts
  split
  · rename_i none
    rw [none]
    rfl
  · exact totalRequests_countsOf _

/-- The rows that are there give the counts of the whole history exactly when nothing that
counts was deleted. -/
theorem expectedCounts_eq_iff {localDayBucketStartUtcTs : Int → Int} {s : LogState}
    (tracks : Tracks s) :
    (∀ key, expectedCounts (rowEntries localDayBucketStartUtcTs s.db) key =
      expectedCounts (historyEntries localDayBucketStartUtcTs s.history) key) ↔
        NothingLost s := by
  rw [rowEntries_of_tracks tracks]
  constructor
  · intro same attempt member gone
    rw [← @bucketEntry_eq_none_iff localDayBucketStartUtcTs]
    cases made : bucketEntry localDayBucketStartUtcTs attempt.2.entry with
    | none => rfl
    | some pair =>
        -- Each bucket has as many rows as attempts, so no attempt of this one is missing.
        exfalso
        have total := congrArg (fun counts => counts.elim 0 BucketCounts.totalRequests)
          (same pair.1)
        simp only [totalRequests_expectedCounts] at total
        rw [historyEntries, length_valuesOf_filterMap, length_valuesOf_filterMap] at total
        have below : ∀ a ∈ s.history,
            (if (keptEntry localDayBucketStartUtcTs a).map Prod.fst = some pair.1 then (1 : Int)
              else 0) ≤
            if (bucketEntry localDayBucketStartUtcTs a.2.entry).map Prod.fst = some pair.1 then 1
              else 0 := by
          intro a _
          cases deleted : a.2.deleted with
          | true =>
              simp only [keptEntry, deleted, if_true, Option.map_none, reduceCtorEq, if_false]
              split <;> simp
          | false => simp only [keptEntry, deleted, Bool.false_eq_true, if_false, le_refl]
        have here := (sum_map_le_iff below).2.1 total attempt member
        simp [keptEntry, gone, made] at here
  · intro kept key
    have entries : s.history.filterMap (keptEntry localDayBucketStartUtcTs) =
        historyEntries localDayBucketStartUtcTs s.history := by
      apply List.filterMap_congr
      intro attempt member
      cases gone : attempt.2.deleted with
      | true =>
          have none : bucketEntry localDayBucketStartUtcTs attempt.2.entry = none :=
            bucketEntry_eq_none_iff.2 (kept attempt member gone)
          simp only [keptEntry, gone, if_true, none]
      | false => simp [keptEntry, gone]
    rw [entries]

/-- Right after a rebuild, in every state of every run: the buckets have the counts of all
attempts that were logged and not suppressed, if and only if the retention deleted none of
those; and rebuilding again changes no count. -/
theorem rebuild_keeps_history_iff (localDayBucketStartUtcTs : Int → Int)
    {actions : List LogAction} {s : LogState}
    (reached : (logSystem localDayBucketStartUtcTs).run .initial actions = some s) {now : Int}
    {db : LogDb} (rebuilt : rebuildApiKeyUsageBuckets localDayBucketStartUtcTs now s.db = some db) :
    ((∀ key, (db.apiKeyUsageBuckets.find key).map ApiKeyUsageBucket.counts =
        expectedCounts (historyEntries localDayBucketStartUtcTs s.history) key) ↔
      NothingLost s) ∧
    ∀ later again, rebuildApiKeyUsageBuckets localDayBucketStartUtcTs later db = some again →
      ∀ key, (again.apiKeyUsageBuckets.find key).map ApiKeyUsageBucket.counts =
        (db.apiKeyUsageBuckets.find key).map ApiKeyUsageBucket.counts := by
  have along := (logSystem localDayBucketStartUtcTs).alongRun_of_preserved
    (fun _ _ _ invariant taken => tracks_step invariant taken)
    (show Tracks .initial from rfl) actions
  have tracks := along.last _ reached
  constructor
  · rw [← expectedCounts_eq_iff tracks]
    apply forall_congr'
    intro key
    rw [(find_rebuildApiKeyUsageBuckets rebuilt key).2]
  · intro later again repeated key
    obtain ⟨rows, counts⟩ := find_rebuildApiKeyUsageBuckets rebuilt key
    rw [(find_rebuildApiKeyUsageBuckets repeated key).2, counts, rowEntries, rowEntries, rows]

/-- Two attempts of one key on one day, the second of which is suppressed. -/
theorem rebuild_keeps_history_iff_suppressed :
    ∃ s db, (logSystem fun _ => 0).run .initial
        [.logAttempt 10 (some "key") .success, .logAttempt 20 (some "key") .error,
          .suppressRetryShadow 2] = some s ∧
      rebuildApiKeyUsageBuckets (fun _ => 0) 30 s.db = some db ∧
      ((∀ key, (db.apiKeyUsageBuckets.find key).map ApiKeyUsageBucket.counts =
          expectedCounts (historyEntries (fun _ => 0) s.history) key) ↔ NothingLost s) ∧
      ∀ later again, rebuildApiKeyUsageBuckets (fun _ => 0) later db = some again →
        ∀ key, (again.apiKeyUsageBuckets.find key).map ApiKeyUsageBucket.counts =
          (db.apiKeyUsageBuckets.find key).map ApiKeyUsageBucket.counts := by
  have reached : ∃ s, (logSystem fun _ => 0).run .initial
      [.logAttempt 10 (some "key") .success, .logAttempt 20 (some "key") .error,
        .suppressRetryShadow 2] = some s ∧
      ∃ db, rebuildApiKeyUsageBuckets (fun _ => 0) 30 s.db = some db := ⟨_, rfl, _, rfl⟩
  obtain ⟨s, reached, db, rebuilt⟩ := reached
  exact ⟨s, db, reached, rebuilt, rebuild_keeps_history_iff (fun _ => 0) reached rebuilt⟩

/-- One attempt, whose row the retention deletes: the rebuild loses its bucket. -/
theorem rebuild_loses_deleted_day :
    ∃ s db, (logSystem fun _ => 0).run .initial
        [.logAttempt 10 (some "key") .success, .deleteOldRequestLogs 86400] = some s ∧
      rebuildApiKeyUsageBuckets (fun _ => 0) 90000 s.db = some db ∧
      (s.db.apiKeyUsageBuckets.find ("key", 0)).map ApiKeyUsageBucket.counts =
        expectedCounts (historyEntries (fun _ => 0) s.history) ("key", 0) ∧
      (db.apiKeyUsageBuckets.find ("key", 0)).map ApiKeyUsageBucket.counts ≠
        expectedCounts (historyEntries (fun _ => 0) s.history) ("key", 0) := by
  obtain ⟨logged, first, rows, tokens, records, bucket, history⟩ : ∃ logged,
      (logSystem fun _ => 0).run .initial [.logAttempt 10 (some "key") .success] = some logged ∧
      logged.db.requestLogs.table.rows =
        [(1, { apiKeyId := some "key", resultStatus := .success, visibility := .visible,
               createdAt := 10 })] ∧
      logged.db.authTokenLogs = .empty ∧ logged.db.maintenanceRecords = [] ∧
      logged.db.apiKeyUsageBuckets.find ("key", 0) =
        some { counts := countsOf [.success], updatedAt := 10 } ∧
      historyEntries (fun _ => 0) logged.history = [(("key", 0), .success)] :=
    ⟨_, rfl, rfl, rfl, rfl, rfl, rfl⟩
  have free : OldRequestLogsFree 86400 logged.db := by
    intro row _
    rw [LogDb.requestLogReferenced, tokens, records]
    rfl
  have deleted : (deleteOldRequestLogs 86400 0 logged.db).2 =
      withoutOldRequestLogs 86400 logged.db := by
    rw [deleteOldRequestLogs_of_free 0 free]
  have none : (withoutOldRequestLogs 86400 logged.db).requestLogs.table.rows = [] := by
    simp only [withoutOldRequestLogs, AutoIncrement.deleteWhere, KeyedTable.deleteWhere, rows]
    rfl
  have rebuilt : rebuildApiKeyUsageBuckets (fun _ => 0) 90000
      (withoutOldRequestLogs 86400 logged.db) =
        some { withoutOldRequestLogs 86400 logged.db with apiKeyUsageBuckets := .empty } := by
    simp only [rebuildApiKeyUsageBuckets, none]
    rfl
  have kept : historyEntries (fun _ => 0) (logged.history.map fun row =>
      (row.1, row.2.afterDelete (withoutOldRequestLogs 86400 logged.db) row.1)) =
        [(("key", 0), .success)] := by
    rw [← history, historyEntries, List.filterMap_map]
    rfl
  have ran : (logSystem fun _ => 0).run .initial
      [.logAttempt 10 (some "key") .success, .deleteOldRequestLogs 86400] =
        some { db := withoutOldRequestLogs 86400 logged.db
               history := logged.history.map fun row =>
                (row.1, row.2.afterDelete (withoutOldRequestLogs 86400 logged.db) row.1) } := by
    have step : (logSystem fun _ => 0).run logged [.deleteOldRequestLogs 86400] =
        some { db := (deleteOldRequestLogs 86400 0 logged.db).2
               history := logged.history.map fun row =>
                (row.1, row.2.afterDelete (deleteOldRequestLogs 86400 0 logged.db).2 row.1) } :=
      rfl
    rw [deleted] at step
    exact (logSystem fun _ => 0).run_append.2 ⟨logged, first, step⟩
  refine ⟨_, _, ran, rebuilt, ?_, ?_⟩
  · rw [kept]
    exact congrArg (Option.map ApiKeyUsageBucket.counts) bucket
  · rw [kept]
    intro same
    cases same

end TavilyHikari.Store
