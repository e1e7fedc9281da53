/-
Module: TavilyHikari.Store.UsageBuckets
Purpose: The minute and hour usage counters of `store/mod.rs`
  (`token_usage_buckets`, `account_usage_buckets`), and the times they are
  counted under.
Trusted boundary: human-reviewed spec (the range of `chrono` timestamps).
  INTEGER columns are unbounded integers.
Main exports: UtcTimestamp, Granularity, UsageBuckets, minuteBucket, hourBucket,
  incrementUsageBucketBy, sumUsageBuckets, usageIn, subjectUsage
-/
import TavilyHikari.Library.KeyedTable
import TavilyHikari.Store.QuotaSubject

namespace TavilyHikari.Store

open Library

/-- What `Utc::now().timestamp()` can return: the seconds of a `DateTime<Utc>`. -/
structure UtcTimestamp where
  secs : Int
  in_range : -8334601228800 ≤ secs ∧ secs ≤ 8210266876799
deriving DecidableEq, Repr

/-- `Utc.timestamp_opt(secs, 0).single()`. -/
def timestampOpt (secs : Int) : Option UtcTimestamp :=
  if in_range : -8334601228800 ≤ secs ∧ secs ≤ 8210266876799 then some { secs, in_range }
  else none

@[simp] theorem timestampOpt_secs (ts : UtcTimestamp) : timestampOpt ts.secs = some ts := by
  rw [timestampOpt, dif_pos ts.in_range]

instance : Inhabited UtcTimestamp := ⟨{ secs := 0, in_range := by decide }⟩

/-- `GRANULARITY_MINUTE`, `GRANULARITY_HOUR`, and `GRANULARITY_REQUEST_MINUTE`,
which counts raw requests of tokens. -/
inductive Granularity where
  | minute
  | hour
  | requestMinute
deriving DecidableEq, Repr

def secsPerMinute : Int := 60

def secsPerHour : Int := 3600

def secsPerDay : Int := 24 * secsPerHour

/-- `charge_ts - (charge_ts % SECS_PER_MINUTE)`. The remainder has the sign of
the timestamp. -/
def minuteBucket (ts : Int) : Int := ts - ts.tmod secsPerMinute

/-- `charge_ts - (charge_ts % SECS_PER_HOUR)`. -/
def hourBucket (ts : Int) : Int := ts - ts.tmod secsPerHour

/-- `hour_window_start`, the first minute bucket of the hour that ends with the bucket of `now`. -/
def hourWindowStart (now : Int) : Int := minuteBucket now - 59 * secsPerMinute

/-- `day_window_start` of a snapshot. -/
def dayWindowStart (now : Int) : Int := hourBucket now - 23 * secsPerHour

theorem minuteBucket_mono {one two : Int} (later : one ≤ two) :
    minuteBucket one ≤ minuteBucket two := by
  have split : ∀ ts : Int, minuteBucket ts = 60 * ts.tdiv 60 := fun ts => by
    have parts := Int.mul_tdiv_add_tmod ts 60
    simp only [minuteBucket, secsPerMinute]
    omega
  rw [split, split]
  have quotients := Int.tdiv_le_tdiv (c := 60) (by decide) later
  omega

theorem hourBucket_mono {one two : Int} (later : one ≤ two) :
    hourBucket one ≤ hourBucket two := by
  have split : ∀ ts : Int, hourBucket ts = 3600 * ts.tdiv 3600 := fun ts => by
    have parts := Int.mul_tdiv_add_tmod ts 3600
    simp only [hourBucket, secsPerHour]
    omega
  rw [split, split]
  have quotients := Int.tdiv_le_tdiv (c := 3600) (by decide) later
  omega

/-- Primary key of a usage bucket. -/
structure UsageBucketKey where
  subject : QuotaSubject
  bucketStart : Int
  granularity : Granularity
deriving DecidableEq, Repr

/-- `token_usage_buckets` for the token subjects, `account_usage_buckets` for the
accounts. -/
abbrev UsageBuckets := KeyedTable UsageBucketKey Int

/-- `INSERT ... ON CONFLICT DO UPDATE SET count = count + excluded.count`. -/
def incrementUsageBucketBy (buckets : UsageBuckets) (subject : QuotaSubject)
    (bucketStart : Int) (granularity : Granularity) (delta : Int) : UsageBuckets :=
  buckets.upsert { subject, bucketStart, granularity } delta fun count => count + delta

/-- `sum_usage_buckets` and `sum_account_usage_buckets`. -/
def sumUsageBuckets (buckets : UsageBuckets) (subject : QuotaSubject)
    (granularity : Granularity) (bucketStartAtLeast : Int) : Int :=
  buckets.total
    (fun key =>
      key.subject = subject ∧ key.granularity = granularity ∧
        key.bucketStart ≥ bucketStartAtLeast)
    id

/-- `delete_old_usage_buckets` and `delete_old_account_usage_buckets`. -/
def deleteOldUsageBuckets (buckets : UsageBuckets) (granularity : Granularity)
    (threshold : Int) : UsageBuckets :=
  buckets.deleteWhere fun key _ => key.granularity = granularity ∧ key.bucketStart < threshold

/-- The count under a key, 0 without a row. -/
def usageIn (buckets : UsageBuckets) (key : UsageBucketKey) : Int :=
  (buckets.find key).getD 0

/-- All a subject has used, over all buckets of a granularity. -/
def subjectUsage (buckets : UsageBuckets) (subject : QuotaSubject)
    (granularity : Granularity) : Int :=
  buckets.total (fun key => key.subject = subject ∧ key.granularity = granularity) id

theorem usageIn_incrementUsageBucketBy (buckets : UsageBuckets) (subject : QuotaSubject)
    (bucketStart : Int) (granularity : Granularity) (delta : Int) (key : UsageBucketKey) :
    usageIn (incrementUsageBucketBy buckets subject bucketStart granularity delta) key =
      usageIn buckets key +
        if key = { subject, bucketStart, granularity } then delta else 0 := by
  unfold usageIn incrementUsageBucketBy
  by_cases same : key = { subject, bucketStart, granularity }
  · subst same
    rw [KeyedTable.find_upsert_self]
    cases buckets.find { subject, bucketStart, granularity } <;> simp
  · rw [buckets.find_upsert_of_ne same, if_neg same, Int.add_zero]

/-- A sum over buckets grows by what is added to a bucket it ranges over. -/
theorem total_incrementUsageBucketBy (buckets : UsageBuckets) (subject : QuotaSubject)
    (bucketStart : Int) (granularity : Granularity) (delta : Int)
    (p : UsageBucketKey → Bool) :
    (incrementUsageBucketBy buckets subject bucketStart granularity delta).total p id =
      buckets.total p id +
        if p { subject, bucketStart, granularity } then delta else 0 := by
  unfold incrementUsageBucketBy
  rw [KeyedTable.total_upsert]
  cases buckets.find { subject, bucketStart, granularity } with
  | none => rfl
  | some count =>
      have grown : count + delta - count = delta := by omega
      simp only [Option.elim_some, id, grown]

theorem subjectUsage_incrementUsageBucketBy (buckets : UsageBuckets)
    (subject : QuotaSubject) (bucketStart : Int) (granularity : Granularity) (delta : Int)
    (other : QuotaSubject) (g : Granularity) :
    subjectUsage (incrementUsageBucketBy buckets subject bucketStart granularity delta)
        other g =
      subjectUsage buckets other g +
        if subject = other ∧ granularity = g then delta else 0 := by
  unfold subjectUsage
  rw [total_incrementUsageBucketBy]
  simp only [decide_eq_true_eq]

theorem sumUsageBuckets_incrementUsageBucketBy (buckets : UsageBuckets)
    (subject : QuotaSubject) (bucketStart : Int) (granularity : Granularity) (delta : Int)
    (other : QuotaSubject) (g : Granularity) (atLeast : Int) :
    sumUsageBuckets (incrementUsageBucketBy buckets subject bucketStart granularity delta)
        other g atLeast =
      sumUsageBuckets buckets other g atLeast +
        if subject = other ∧ granularity = g ∧ bucketStart ≥ atLeast then delta
        else 0 := by
  unfold sumUsageBuckets
  rw [total_incrementUsageBucketBy]
  simp only [decide_eq_true_eq]

end TavilyHikari.Store
