/-
Module: TavilyHikari.Library.SlidingWindow
Purpose: Sums over the buckets of a window that slides with the clock, a bucket at a time:
  as long as nothing is added, such a sum first drops when the oldest bucket leaves.
Trusted boundary: none
Main exports: windowStart, lt_windowStart_iff, windowSum, FirstDrop, firstDrop_window
-/
import Mathlib.Algebra.Order.BigOperators.Group.List
import Mathlib.Algebra.Order.Ring.Int
import Mathlib.Data.Int.Order.Basic

namespace TavilyHikari.Library

/-! ### Windows -/

/-- The first bucket of the window of `n` buckets of width `w` that ends with the bucket of
`t`. The remainder has the sign of `t`. -/
def windowStart (w n t : Int) : Int := t - t.tmod w - (n - 1) * w

section

variable {w n t : Int}

theorem windowStart_eq (since : 0 ≤ t) : windowStart w n t = (t / w - (n - 1)) * w := by
  have parts := Int.mul_ediv_add_emod t w
  have bucket : t - t % w = t / w * w := by
    rw [Int.mul_comm]
    omega
  rw [windowStart, Int.tmod_eq_emod_of_nonneg since, bucket, ← Int.sub_mul]

/-- A bucket leaves the window when it began as long ago as the window is wide. -/
theorem lt_windowStart_iff (positive : 0 < w) (since : 0 ≤ t) {start : Int} (aligned : w ∣ start) :
    start < windowStart w n t ↔ start + n * w ≤ t := by
  obtain ⟨k, rfl⟩ := aligned
  have left : w * k < windowStart w n t ↔ k + n ≤ t / w := by
    rw [windowStart_eq since, Int.mul_comm w k, Int.mul_lt_mul_right positive]
    omega
  have right : w * k + n * w ≤ t ↔ k + n ≤ t / w := by
    rw [Int.le_ediv_iff_mul_le positive, Int.add_mul, Int.mul_comm k w]
  rw [left, right]

theorem windowStart_mono (positive : 0 < w) (since : 0 ≤ t) {later : Int} (le : t ≤ later) :
    windowStart w n t ≤ windowStart w n later := by
  rw [windowStart_eq since, windowStart_eq (Int.le_trans since le)]
  have buckets := Int.ediv_le_ediv positive le
  exact Int.mul_le_mul_of_nonneg_right (by omega) (Int.le_of_lt positive)

end

/-! ### Sums -/

/-- The counts of the buckets that begin at `start` or later, added up. -/
def windowSum (buckets : List (Int × Int)) (start : Int) : Int :=
  ((buckets.filter fun bucket => start ≤ bucket.1).map Prod.snd).sum

theorem windowSum_cons (bucket : Int × Int) (buckets : List (Int × Int)) (start : Int) :
    windowSum (bucket :: buckets) start =
      (if start ≤ bucket.1 then bucket.2 else 0) + windowSum buckets start := by
  by_cases inside : start ≤ bucket.1
  · simp [windowSum, inside]
  · simp [windowSum, inside]

variable {buckets : List (Int × Int)} {one two : Int}

theorem windowSum_congr (same : ∀ bucket ∈ buckets, one ≤ bucket.1 ↔ two ≤ bucket.1) :
    windowSum buckets one = windowSum buckets two := by
  unfold windowSum
  congr 2
  apply List.filter_congr
  intro bucket member
  exact decide_eq_decide.mpr (same bucket member)

theorem windowSum_anti (positive : ∀ bucket ∈ buckets, 0 < bucket.2) (le : one ≤ two) :
    windowSum buckets two ≤ windowSum buckets one := by
  induction buckets with
  | nil => exact le_refl _
  | cons bucket buckets ih =>
      have here := positive bucket List.mem_cons_self
      have rest := ih fun later member => positive later (List.mem_cons_of_mem _ member)
      rw [windowSum_cons, windowSum_cons]
      split <;> split <;> omega

/-- A bucket that leaves the window makes the sum smaller. -/
theorem windowSum_lt (positive : ∀ bucket ∈ buckets, 0 < bucket.2) {bucket : Int × Int}
    (member : bucket ∈ buckets) (inside : one ≤ bucket.1) (outside : bucket.1 < two) :
    windowSum buckets two < windowSum buckets one := by
  have le : one ≤ two := by omega
  induction buckets with
  | nil => exact absurd member List.not_mem_nil
  | cons first buckets ih =>
      have rest : ∀ bucket ∈ buckets, 0 < bucket.2 :=
        fun later among => positive later (List.mem_cons_of_mem _ among)
      have here := positive first List.mem_cons_self
      rw [windowSum_cons, windowSum_cons]
      cases List.mem_cons.mp member with
      | inl same =>
          have others := windowSum_anti rest le
          rw [same] at inside outside
          rw [if_pos inside, if_neg (by omega)]
          omega
      | inr among =>
          have others := ih rest among
          split <;> split <;> omega

/-! ### The first drop -/

/-- `r` is the first time after `now` at which `f` is smaller than at `now`. -/
structure FirstDrop (f : Int → Int) (now r : Int) : Prop where
  later : now < r
  drops : f r < f now
  notBefore : ∀ t, now < t → t < r → f now ≤ f t

theorem FirstDrop.congr {f g : Int → Int} {now r : Int} (drop : FirstDrop f now r)
    (same : ∀ t, now ≤ t → g t = f t) : FirstDrop g now r where
  later := drop.later
  drops := by
    rw [same r (Int.le_of_lt drop.later), same now (Int.le_refl now)]
    exact drop.drops
  notBefore := by
    intro t after before
    rw [same t (Int.le_of_lt after), same now (Int.le_refl now)]
    exact drop.notBefore t after before

/-- The sum over the window first drops when its oldest bucket leaves. -/
theorem firstDrop_window {w n now : Int} (width : 0 < w) (since : 0 ≤ now)
    (aligned : ∀ bucket ∈ buckets, w ∣ bucket.1) (positive : ∀ bucket ∈ buckets, 0 < bucket.2)
    {oldest : Int × Int} (member : oldest ∈ buckets) (counted : windowStart w n now ≤ oldest.1)
    (least : ∀ bucket ∈ buckets, windowStart w n now ≤ bucket.1 → oldest.1 ≤ bucket.1) :
    FirstDrop (fun t => windowSum buckets (windowStart w n t)) now (oldest.1 + n * w) := by
  have leaves {t : Int} (after : 0 ≤ t) := @lt_windowStart_iff w n t width after _
    (aligned oldest member)
  have later : now < oldest.1 + n * w := by
    have inside := mt (leaves since).mpr (Int.not_lt.mpr counted)
    omega
  refine ⟨later, ?_, ?_⟩
  · have gone := (leaves (by omega)).mpr (Int.le_refl (oldest.1 + n * w))
    exact windowSum_lt positive member counted gone
  · intro t after before
    apply Int.le_of_eq
    have held := mt (leaves (by omega)).mp (Int.not_le.mpr before)
    have moved := @windowStart_mono w n now width since t (Int.le_of_lt after)
    apply windowSum_congr
    intro bucket among
    constructor
    · intro inside
      have older := least bucket among inside
      omega
    · intro inside
      exact Int.le_trans moved inside

end TavilyHikari.Library
