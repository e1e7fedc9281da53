/-
Module: TavilyHikari.Library.DayBuckets
Purpose: Instants that are put in buckets by the date they fall on: the bucket of an
  instant is the first instant of its date, or the instant itself where the date has no
  such instant. Clocks may be set back past the turn of a date, so the instants of a date
  need not be consecutive. When the buckets follow the order of the instants and tell the
  dates apart is what this module settles.
Trusted boundary: none
Main exports: DayCalendar, bucket, Grouped, Bucketed, Contiguous, Started, grouped_iff,
  bucketed_iff
-/
import Mathlib.Order.Lattice
import Mathlib.Data.Set.Defs

namespace TavilyHikari.Library

variable {τ δ : Type}

/-- The date of each instant, and an instant that opens a date where there is one. -/
structure DayCalendar (τ δ : Type) where
  date : τ → δ
  start : δ → Option τ
  date_start : ∀ {day first}, start day = some first → date first = day

namespace DayCalendar

variable (calendar : DayCalendar τ δ)

/-- The bucket of an instant. -/
def bucket (s : τ) : τ := (calendar.start (calendar.date s)).getD s

variable {calendar}

theorem bucket_of_start {s first : τ} (starts : calendar.start (calendar.date s) = some first) :
    calendar.bucket s = first := by
  rw [bucket, starts, Option.getD_some]

theorem bucket_of_no_start {s : τ} (none : calendar.start (calendar.date s) = none) :
    calendar.bucket s = s := by
  rw [bucket, none, Option.getD_none]

/-- A bucket is an instant of the same date. -/
@[simp] theorem date_bucket (s : τ) : calendar.date (calendar.bucket s) = calendar.date s := by
  cases starts : calendar.start (calendar.date s) with
  | none => rw [bucket_of_no_start starts]
  | some first => rw [bucket_of_start starts, calendar.date_start starts]

/-- Different dates never share a bucket. -/
theorem date_eq_of_bucket_eq {s t : τ} (same : calendar.bucket s = calendar.bucket t) :
    calendar.date s = calendar.date t := by
  rw [← date_bucket s, same, date_bucket t]

@[simp] theorem bucket_bucket (s : τ) :
    calendar.bucket (calendar.bucket s) = calendar.bucket s := by
  cases starts : calendar.start (calendar.date s) with
  | none => rw [bucket_of_no_start starts, bucket_of_no_start starts]
  | some first => rw [bucket, date_bucket, starts, Option.getD_some, bucket_of_start starts]

variable [LinearOrder τ] (calendar) (instants : Set τ)

/-- Of three of these instants one after another, the outer two never share a bucket that the
middle one is not in. -/
def Grouped : Prop :=
  ∀ s ∈ instants, ∀ w ∈ instants, ∀ t ∈ instants, s ≤ w → w ≤ t →
    calendar.bucket s = calendar.bucket t → calendar.bucket w = calendar.bucket s

/-- Among these instants the buckets follow the order and tell the dates apart. -/
def Bucketed : Prop :=
  ∀ s ∈ instants, ∀ t ∈ instants, s ≤ t →
    calendar.bucket s ≤ calendar.bucket t ∧
      (calendar.bucket s = calendar.bucket t ↔ calendar.date s = calendar.date t)

/-- No date is left and come back to. -/
def Contiguous : Prop :=
  ∀ s ∈ instants, ∀ w ∈ instants, ∀ t ∈ instants, s ≤ w → w ≤ t →
    calendar.date s = calendar.date t → calendar.date w = calendar.date s

/-- Every date with more than one instant has one that opens it. -/
def Started : Prop :=
  ∀ s ∈ instants, ∀ t ∈ instants, s < t → calendar.date s = calendar.date t →
    calendar.start (calendar.date s) ≠ none

variable {calendar instants}

theorem Bucketed.started (bucketed : calendar.Bucketed instants) :
    calendar.Started instants := by
  intro s here t there before same none
  have equal := (bucketed s here t there before.le).2.2 same
  rw [bucket_of_no_start none, bucket_of_no_start (same ▸ none)] at equal
  exact before.ne equal

theorem Bucketed.contiguous (bucketed : calendar.Bucketed instants) :
    calendar.Contiguous instants := by
  intro s first w middle t last before after same
  have outer := (bucketed s first t last (before.trans after)).2.2 same
  have lower := (bucketed s first w middle before).1
  have upper := (bucketed w middle t last after).1
  have equal : calendar.bucket w = calendar.bucket s := le_antisymm (outer ▸ upper) lower
  exact date_eq_of_bucket_eq equal

/-- Two instants of one date have one bucket. -/
theorem Started.bucket_eq (started : calendar.Started instants) {s t : τ} (here : s ∈ instants)
    (there : t ∈ instants) (before : s ≤ t) (same : calendar.date s = calendar.date t) :
    calendar.bucket s = calendar.bucket t := by
  rcases before.eq_or_lt with equal | before
  · rw [equal]
  · obtain ⟨first, starts⟩ := Option.ne_none_iff_exists'.1 (started s here t there before same)
    rw [bucket_of_start starts, bucket_of_start (same ▸ starts)]

/-- An earlier instant of another date has an earlier bucket. -/
theorem Contiguous.bucket_lt (contiguous : calendar.Contiguous instants)
    (closed : ∀ s ∈ instants, calendar.bucket s ∈ instants) {s t : τ} (here : s ∈ instants)
    (there : t ∈ instants) (before : s ≤ t) (other : calendar.date s ≠ calendar.date t) :
    calendar.bucket s < calendar.bucket t := by
  by_contra reversed
  rw [not_lt] at reversed
  rcases le_total (calendar.bucket s) t with inside | outside
  · -- The bucket of `s` lies between the bucket of `t` and `t`.
    have date := contiguous _ (closed t there) _ (closed s here) t there reversed inside
      (date_bucket t)
    rw [date_bucket, date_bucket] at date
    exact other date
  · -- `t` lies between `s` and its bucket.
    have date := contiguous s here t there _ (closed s here) before outside (date_bucket s).symm
    exact other date.symm

/-- Buckets that are each one run of instants are in order, and the other way round. -/
theorem grouped_iff (closed : ∀ s ∈ instants, calendar.bucket s ∈ instants) :
    calendar.Grouped instants ↔
      ∀ s ∈ instants, ∀ t ∈ instants, s ≤ t → calendar.bucket s ≤ calendar.bucket t := by
  constructor
  · intro grouped s here t there before
    by_contra reversed
    rw [not_le] at reversed
    rcases le_total (calendar.bucket s) t with inside | outside
    · have same := grouped _ (closed t there) _ (closed s here) t there reversed.le inside
        (bucket_bucket t)
      rw [bucket_bucket, bucket_bucket] at same
      exact reversed.ne same.symm
    · have same := grouped s here t there _ (closed s here) before outside (bucket_bucket s).symm
      exact reversed.ne same
  · intro ordered s first w middle t last before after same
    exact le_antisymm (same ▸ ordered w middle t last after) (ordered s first w middle before)

/-- Among instants that include their buckets: the buckets follow the order and tell the
dates apart exactly when each date is one run of instants, opened by one of them. -/
theorem bucketed_iff (closed : ∀ s ∈ instants, calendar.bucket s ∈ instants) :
    calendar.Bucketed instants ↔
      calendar.Contiguous instants ∧ calendar.Started instants := by
  constructor
  · intro bucketed
    exact ⟨bucketed.contiguous, bucketed.started⟩
  · rintro ⟨contiguous, started⟩ s here t there before
    by_cases same : calendar.date s = calendar.date t
    · have equal := started.bucket_eq here there before same
      exact ⟨equal.le, iff_of_true equal same⟩
    · have less := contiguous.bucket_lt closed here there before same
      exact ⟨less.le, iff_of_false less.ne same⟩

end DayCalendar

end TavilyHikari.Library
