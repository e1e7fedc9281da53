/-
Module: TavilyHikari.Models.LocalTime
Purpose: The local days and months of `models.rs`: where a local date begins as a
  timestamp, for a zone whose offset may change at any instant. A local time that the
  clock skips has no instant, one that it repeats has an earliest and a latest.
Trusted boundary: human-reviewed spec (`chrono`: local times are counted in seconds from
  1970-01-01T00:00, dates in days; the local time of an instant is representable)
Main exports: LocalZone, LocalResult, fromLocalDatetime, localDateStartUtcTs,
  startOfLocalDayUtcTs, previousLocalDayStartUtcTs, startOfLocalMonthUtcTs,
  localDayBucketStartUtcTs, mem_instantsAt
-/
import TavilyHikari.Library.Calendar
import TavilyHikari.Library.DayBuckets
import TavilyHikari.Store.UsageBuckets

namespace TavilyHikari.Models

open Library Store

/-- What `from_local_datetime` finds: no instant, one, or more, of which it gives the
earliest and the latest. -/
inductive LocalResult where
  | none
  | single (instant : UtcTimestamp)
  | ambiguous (earliest latest : UtcTimestamp)
deriving DecidableEq, Repr

/-- `Local`: the offset from UTC at each instant, with the bounds of a `FixedOffset`. -/
structure LocalZone where
  offset : UtcTimestamp → Int
  offset_bounds : ∀ instant, -86400 < offset instant ∧ offset instant < 86400

/-! ### Dates -/

/-- `NaiveDate::MIN`. -/
def minDate : Int := -96465292

/-- `and_hms_opt(0, 0, 0)`. -/
def midnight (date : Int) : Int := date * 86400

/-- `checked_sub_days`. -/
def checkedSubDays (date : Int) (days : Nat) : Option Int :=
  if minDate ≤ date - days then some (date - days) else none

/-- `pred_opt`. -/
def predOpt (date : Int) : Option Int := checkedSubDays date 1

namespace LocalZone

variable (zone : LocalZone)

/-- The local time of an instant. -/
def naiveLocal (instant : UtcTimestamp) : Int := instant.secs + zone.offset instant

/-- `date_naive`. -/
def dateNaive (instant : UtcTimestamp) : Int := zone.naiveLocal instant / 86400

/-- The instants with a local time, in order. None is a day or more away from it. -/
def instantsAt (naive : Int) : List UtcTimestamp :=
  (List.range 172799).filterMap fun (i : Nat) =>
    (timestampOpt (naive - 86399 + i)).filter fun instant => zone.naiveLocal instant = naive

/-- `Local.from_local_datetime`. -/
def fromLocalDatetime (naive : Int) : LocalResult :=
  match zone.instantsAt naive with
  | [] => .none
  | [instant] => .single instant
  | earliest :: later :: rest =>
      .ambiguous earliest ((later :: rest).getLast (List.cons_ne_nil later rest))

/-- `local_naive_datetime_utc_ts`. -/
def localNaiveDatetimeUtcTs (naive : Int) (fallbackNow : UtcTimestamp) : Int :=
  match zone.fromLocalDatetime naive with
  | .single instant => instant.secs
  | .ambiguous earliest _ => earliest.secs
  | .none => fallbackNow.secs

/-- `local_date_start_utc_ts`. -/
def localDateStartUtcTs (date : Int) (fallbackNow : UtcTimestamp) : Int :=
  zone.localNaiveDatetimeUtcTs (midnight date) fallbackNow

/-- `start_of_local_day_utc_ts`. -/
def startOfLocalDayUtcTs (now : UtcTimestamp) : Int :=
  zone.localDateStartUtcTs (zone.dateNaive now) now

/-- `previous_local_day_start_utc_ts`. -/
def previousLocalDayStartUtcTs (now : UtcTimestamp) : Int :=
  let previousDate := (predOpt (zone.dateNaive now)).getD (zone.dateNaive now)
  zone.localDateStartUtcTs previousDate now

/-- `start_of_local_month_utc_ts`: midnight of the first day of the month. -/
def startOfLocalMonthUtcTs (now : UtcTimestamp) : Int :=
  zone.localNaiveDatetimeUtcTs (startOfMonthTs (zone.naiveLocal now)) now

/-- `local_day_bucket_start_utc_ts`. -/
def localDayBucketStartUtcTs (createdAtUtcTs : Int) : Int :=
  match timestampOpt createdAtUtcTs with
  | none => 0
  | some utcDt => zone.startOfLocalDayUtcTs utcDt

/-! ### What the search for a local time finds -/

variable {zone}

/-- It finds the instants that have this local time, and no other. -/
@[simp] theorem mem_instantsAt {instant : UtcTimestamp} {naive : Int} :
    instant ∈ zone.instantsAt naive ↔ zone.naiveLocal instant = naive := by
  unfold instantsAt
  rw [List.mem_filterMap]
  constructor
  · rintro ⟨i, _, found⟩
    rw [Option.filter_eq_some_iff] at found
    exact of_decide_eq_true found.2
  · intro here
    have bounds := zone.offset_bounds instant
    have near : naive - 86399 + ((instant.secs - naive + 86399).toNat : Int) = instant.secs := by
      unfold naiveLocal at here
      omega
    refine ⟨(instant.secs - naive + 86399).toNat, ?_, ?_⟩
    · rw [List.mem_range]
      unfold naiveLocal at here
      omega
    · rw [near, timestampOpt_secs, Option.filter_eq_some_iff]
      exact ⟨rfl, decide_eq_true here⟩

/-- The instants come in order, each once. -/
theorem instantsAt_sorted (naive : Int) :
    (zone.instantsAt naive).Pairwise fun one two => one.secs < two.secs := by
  have secs {i : Nat} {instant : UtcTimestamp}
      (found : instant ∈ (timestampOpt (naive - 86399 + i)).filter fun instant =>
        decide (zone.naiveLocal instant = naive)) : instant.secs = naive - 86399 + i := by
    rw [Option.mem_def, Option.filter_eq_some_iff] at found
    have made := found.1
    unfold timestampOpt at made
    split at made
    · cases made
      rfl
    · cases made
  unfold instantsAt
  rw [List.pairwise_filterMap]
  apply List.pairwise_lt_range.imp
  intro i j before one foundOne two foundTwo
  rw [secs foundOne, secs foundTwo]
  omega

-- A search over two days is not for the elaborator to run.
attribute [irreducible] instantsAt

/-- The earliest instant with the local time, the fallback where there is none. -/
theorem localNaiveDatetimeUtcTs_eq (naive : Int) (fallbackNow : UtcTimestamp) :
    zone.localNaiveDatetimeUtcTs naive fallbackNow =
      ((zone.instantsAt naive).head?.getD fallbackNow).secs := by
  unfold localNaiveDatetimeUtcTs fromLocalDatetime
  match zone.instantsAt naive with
  | [] => rfl
  | [instant] => rfl
  | earliest :: later :: rest => rfl

theorem localNaiveDatetimeUtcTs_of_mem {naive : Int} {instant : UtcTimestamp}
    (here : zone.naiveLocal instant = naive)
    (first : ∀ other, zone.naiveLocal other = naive → instant.secs ≤ other.secs)
    (fallbackNow : UtcTimestamp) :
    zone.localNaiveDatetimeUtcTs naive fallbackNow = instant.secs := by
  have found : instant ∈ zone.instantsAt naive := mem_instantsAt.2 here
  have sorted : (zone.instantsAt naive).Pairwise _ := instantsAt_sorted naive
  rw [localNaiveDatetimeUtcTs_eq]
  cases list : zone.instantsAt naive with
  | nil =>
      rw [list] at found
      cases found
  | cons earliest rest =>
      have lower : instant.secs ≤ earliest.secs :=
        first earliest (mem_instantsAt.1 (list ▸ List.mem_cons_self))
      rw [list] at found sorted
      rcases List.mem_cons.1 found with rfl | later
      · rfl
      · have upper := (List.pairwise_cons.1 sorted).1 instant later
        omega

theorem localNaiveDatetimeUtcTs_of_skipped {naive : Int}
    (skipped : ∀ instant, zone.naiveLocal instant ≠ naive) (fallbackNow : UtcTimestamp) :
    zone.localNaiveDatetimeUtcTs naive fallbackNow = fallbackNow.secs := by
  have none : zone.instantsAt naive = [] := by
    rw [List.eq_nil_iff_forall_not_mem]
    intro instant found
    exact skipped instant (mem_instantsAt.1 found)
  rw [localNaiveDatetimeUtcTs_eq, none]
  rfl

end LocalZone

end TavilyHikari.Models
