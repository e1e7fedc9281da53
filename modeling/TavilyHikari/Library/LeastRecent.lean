/-
Module: TavilyHikari.Library.LeastRecent
Purpose: Leasing what was used least recently, where uses are stamped by a clock that may show
  one time twice: such leases take turns exactly where stamps and keys come in their order.
Trusted boundary: none
Main exports: MarkLT, LeastRecent, turnMarks, MarksInOrder, FairLeases,
  fairLeases_of_marksInOrder, marksInOrder_of_fairLeases
-/
import Mathlib.Algebra.BigOperators.Group.Finset.Basic
import Mathlib.Algebra.Order.BigOperators.Group.Finset
import Mathlib.Data.Finset.Card
import Mathlib.Order.Lattice

namespace TavilyHikari.Library

universe u v

variable {σ : Type u} {κ : Type v} [LinearOrder σ] [LinearOrder κ]

/-! ### Marks -/

/-- The order of the leases: the stamp of the last use first, then the key. -/
def MarkLT (one two : σ × κ) : Prop := one.1 < two.1 ∨ one.1 = two.1 ∧ one.2 < two.2

theorem MarkLT.asymm {one two : σ × κ} (first : MarkLT one two) : ¬MarkLT two one := by
  rintro (later | ⟨same, after⟩)
  · rcases first with earlier | ⟨equal, -⟩
    · exact lt_asymm earlier later
    · exact absurd equal later.ne'
  · rcases first with earlier | ⟨-, before⟩
    · exact absurd same earlier.ne'
    · exact lt_asymm before after

/-- The keys that so many uses lease, and their stamps: each leases the key with the least
mark, which is marked anew. -/
inductive LeastRecent : List (σ × κ) → List σ → List κ → Prop where
  | nil (marks : List (σ × κ)) : LeastRecent marks [] []
  | cons {marks others : List (σ × κ)} {first : σ × κ} {time : σ} {times : List σ} {keys : List κ}
      (split : marks.Perm (first :: others)) (least : ∀ mark ∈ others, MarkLT first mark)
      (rest : LeastRecent ((time, first.2) :: others) times keys) :
      LeastRecent marks (time :: times) (first.2 :: keys)

/-- All marks of a number of turns, one after another: those at first, then one for each use
by the key whose turn it is. -/
def turnMarks : List (σ × κ) → List σ → List (σ × κ)
  | marks, [] => marks
  | [], _ :: _ => []
  | mark :: marks, time :: times => mark :: turnMarks (marks ++ [(time, mark.2)]) times

/-- The mark of each turn is below those of the turns after it that are under way. -/
def MarksInOrder (marks : List (σ × κ)) (times : List σ) : Prop :=
  ∀ i j, i < times.length → i < j → j < i + marks.length → ∀ one two,
    (turnMarks marks times)[i]? = some one → (turnMarks marks times)[j]? = some two →
    MarkLT one two

/-- No key is leased twice between two leases of another one that follow each other, and after
any number of leases no key is ahead of another by more than one. -/
structure FairLeases (keys leased : List κ) : Prop where
  between : ∀ a ∈ keys, ∀ b ∈ keys, a ≠ b → ∀ front mid rest,
    leased = front ++ b :: (mid ++ b :: rest) → b ∉ mid → mid.count a ≤ 1
  counts : ∀ a ∈ keys, ∀ b ∈ keys, ∀ n, (leased.take n).count a ≤ (leased.take n).count b + 1

/-- Fairness is about which keys there are. -/
theorem FairLeases.congr {keys keys' leased : List κ} (fair : FairLeases keys leased)
    (same : ∀ key, key ∈ keys' ↔ key ∈ keys) : FairLeases keys' leased where
  between a inA b inB := fair.between a ((same a).1 inA) b ((same b).1 inB)
  counts a inA b inB := fair.counts a ((same a).1 inA) b ((same b).1 inB)

omit [LinearOrder σ] [LinearOrder κ] in
theorem prefix_turnMarks (marks : List (σ × κ)) (times : List σ) :
    marks <+: turnMarks marks times := by
  induction times generalizing marks with
  | nil => exact List.prefix_refl _
  | cons time times ih =>
      cases marks with
      | nil => exact List.nil_prefix
      | cons mark marks =>
          rw [turnMarks, List.prefix_cons_inj]
          exact (List.prefix_append _ _).trans (ih _)

omit [LinearOrder σ] [LinearOrder κ] in
theorem getElem?_turnMarks {marks : List (σ × κ)} {n : Nat} (small : n < marks.length)
    (mark : σ × κ) (time : σ) (times : List σ) :
    (turnMarks (mark :: marks) (time :: times))[n + 1]? = marks[n]? := by
  obtain ⟨more, turns⟩ := prefix_turnMarks (marks ++ [(time, mark.2)]) times
  rw [turnMarks, ← turns, List.getElem?_cons_succ, List.append_assoc,
    List.getElem?_append_left small]

theorem marksInOrder_nil (marks : List (σ × κ)) : MarksInOrder marks ([] : List σ) := by
  intro i j small
  cases small

/-- The order of the marks, one turn after another. -/
theorem marksInOrder_cons {mark : σ × κ} {marks : List (σ × κ)} {time : σ} {times : List σ} :
    MarksInOrder (mark :: marks) (time :: times) ↔
      (∀ other ∈ marks, MarkLT mark other) ∧ MarksInOrder (marks ++ [(time, mark.2)]) times := by
  constructor
  · intro order
    constructor
    · intro other member
      obtain ⟨n, small, rfl⟩ := List.mem_iff_getElem.1 member
      refine order 0 (n + 1) (by simp) (by omega) (by simp; omega) mark marks[n] rfl ?_
      rw [getElem?_turnMarks small, List.getElem?_eq_getElem small]
    · intro i j used before within one two first second
      refine order (i + 1) (j + 1) ?_ (by omega) ?_ one two first second
      · simpa using used
      · simp only [List.length_append, List.length_cons, List.length_nil] at within ⊢
        omega
  · rintro ⟨least, order⟩ i j used before within one two first second
    rw [List.length_cons] at used within
    obtain ⟨j, rfl⟩ := Nat.exists_eq_succ_of_ne_zero (Nat.ne_zero_of_lt before)
    cases i with
    | zero =>
        cases first
        rw [getElem?_turnMarks (by omega)] at second
        exact least two (List.mem_of_getElem? second)
    | succ i =>
        refine order i j (by omega) (by omega) ?_ one two first second
        simp only [List.length_append, List.length_cons, List.length_nil]
        omega

/-! ### Turns -/

/-- So many turns of keys that take turns in the order of a list. -/
def turns : List κ → Nat → List κ
  | _, 0 => []
  | [], _ + 1 => []
  | key :: keys, n + 1 => key :: turns (keys ++ [key]) n

/-- Where the marks are in order, the keys take turns. -/
theorem eq_turns_of_marksInOrder {marks marks' : List (σ × κ)} {times : List σ} {leased : List κ}
    (run : LeastRecent marks' times leased) (same : marks'.Perm marks)
    (order : MarksInOrder marks times) : leased = turns (marks.map Prod.snd) times.length := by
  induction run generalizing marks with
  | nil marks' => rfl
  | @cons marks' others first time times keys split least rest ih =>
      cases marks with
      | nil => exact absurd (split.symm.trans same).length_eq (by simp)
      | cons mark marks =>
          obtain ⟨head, later⟩ := marksInOrder_cons.1 order
          have both := split.symm.trans same
          have picked : first = mark := by
            by_contra other
            have inFirst := (List.mem_cons.1 (both.mem_iff.1 List.mem_cons_self)).resolve_left other
            have inMark := (List.mem_cons.1 (both.mem_iff.2 List.mem_cons_self)).resolve_left
              (Ne.symm other)
            exact (head first inFirst).asymm (least mark inMark)
          subst picked
          have others_perm := (List.perm_cons first).1 both
          have moved : ((time, first.2) :: others).Perm (marks ++ [(time, first.2)]) :=
            (others_perm.cons _).trans (List.perm_append_singleton _ _).symm
          rw [ih moved later]
          simp [turns]

/-- A key that comes before another one is never behind it, and never ahead by more than one. -/
theorem count_turns {front mid back : List κ} {a b : κ}
    (distinct : (front ++ a :: (mid ++ b :: back)).Nodup) (n : Nat) :
    (turns (front ++ a :: (mid ++ b :: back)) n).count b ≤
        (turns (front ++ a :: (mid ++ b :: back)) n).count a ∧
      (turns (front ++ a :: (mid ++ b :: back)) n).count a ≤
        (turns (front ++ a :: (mid ++ b :: back)) n).count b + 1 := by
  induction n generalizing front mid back a b with
  | zero => simp [turns]
  | succ n ih =>
      cases front with
      | nil =>
          -- The first key takes its turn, and the other one comes before it from now on.
          have other : a ≠ b := by
            rintro rfl
            simp at distinct
          have turned : (mid ++ b :: (back ++ [a])).Nodup := by
            have moved : (a :: (mid ++ b :: back)).Perm (mid ++ b :: (back ++ [a])) := by
              simpa using (List.perm_append_singleton a (mid ++ b :: back)).symm
            exact moved.nodup_iff.1 distinct
          have later := ih turned
          have step : turns ([] ++ a :: (mid ++ b :: back)) (n + 1) =
              a :: turns (mid ++ b :: (back ++ [a])) n := by
            simp [turns]
          rw [step, List.count_cons_self, List.count_cons_of_ne other]
          omega
      | cons key front =>
          have turned : (front ++ a :: (mid ++ b :: (back ++ [key]))).Nodup := by
            have moved : (key :: (front ++ a :: (mid ++ b :: back))).Perm
                (front ++ a :: (mid ++ b :: (back ++ [key]))) := by
              simpa using
                (List.perm_append_singleton key (front ++ a :: (mid ++ b :: back))).symm
            exact moved.nodup_iff.1 distinct
          have step : turns (key :: front ++ a :: (mid ++ b :: back)) (n + 1) =
              key :: turns (front ++ a :: (mid ++ b :: (back ++ [key]))) n := by
            simp [turns]
          have apart : key ≠ a ∧ key ≠ b := by
            constructor
            · rintro rfl
              simp at distinct
            · rintro rfl
              simp at distinct
          rw [step, List.count_cons_of_ne apart.1, List.count_cons_of_ne apart.2]
          exact ih turned

omit [LinearOrder κ] in
theorem take_turns (keys : List κ) (m n : Nat) : (turns keys n).take m = turns keys (min m n) := by
  induction n generalizing keys m with
  | zero => simp [turns]
  | succ n ih =>
      cases keys with
      | nil =>
          cases m with
          | zero => simp [turns]
          | succ m => simp [turns, Nat.succ_min_succ]
      | cons key keys =>
          cases m with
          | zero => simp [turns]
          | succ m => simp [turns, Nat.succ_min_succ, ih]

omit [LinearOrder κ] in
/-- Two keys that take turns are one before the other. -/
theorem exists_split_two {keys : List κ} (distinct : keys.Nodup) {a b : κ} (inA : a ∈ keys)
    (inB : b ∈ keys) (other : a ≠ b) :
    (∃ front mid back, keys = front ++ a :: (mid ++ b :: back)) ∨
      ∃ front mid back, keys = front ++ b :: (mid ++ a :: back) := by
  obtain ⟨front, back, rfl⟩ := List.append_of_mem inA
  rcases List.mem_append.1 inB with early | late
  · obtain ⟨first, last, rfl⟩ := List.append_of_mem early
    exact .inr ⟨first, last, back, by simp⟩
  · obtain ⟨first, last, rfl⟩ := List.append_of_mem
      ((List.mem_cons.1 late).resolve_left (Ne.symm other))
    exact .inl ⟨front, first, last, rfl⟩

theorem count_turns_le {keys : List κ} (distinct : keys.Nodup) {a b : κ} (inA : a ∈ keys)
    (inB : b ∈ keys) (n : Nat) : (turns keys n).count a ≤ (turns keys n).count b + 1 := by
  by_cases other : a = b
  · rw [other]
    omega
  · rcases exists_split_two distinct inA inB other with ⟨_, _, _, rfl⟩ | ⟨_, _, _, rfl⟩
    · exact (count_turns distinct n).2
    · exact (count_turns distinct n).1.trans (Nat.le_succ _)

/-- After a turn of a key the others come before it. -/
theorem count_le_one_of_turns {keys front mid rest : List κ} {n : Nat} {a b : κ}
    (distinct : keys.Nodup) (inA : a ∈ keys) (inB : b ∈ keys) (other : a ≠ b)
    (split : turns keys n = front ++ b :: (mid ++ b :: rest)) (skipped : b ∉ mid) :
    mid.count a ≤ 1 := by
  induction front generalizing keys n with
  | nil =>
      cases n with
      | zero => cases split
      | succ n =>
          cases keys with
          | nil => cases split
          | cons key keys =>
              simp only [turns, List.nil_append, List.cons.injEq] at split
              obtain ⟨rfl, split⟩ := split
              obtain ⟨early, late, rfl⟩ :=
                List.append_of_mem ((List.mem_cons.1 inA).resolve_left other)
              have moved := List.perm_append_singleton key (early ++ a :: late)
              have turned := moved.nodup_iff.2 distinct
              rw [List.append_assoc, List.cons_append] at turned split
              have seen : turns (early ++ a :: (late ++ [key])) (min mid.length n) = mid := by
                rw [← take_turns, split, List.take_left]
              have ahead := (count_turns turned (min mid.length n)).2
              rw [seen, List.count_eq_zero.2 skipped] at ahead
              exact ahead
  | cons first front ih =>
      cases n with
      | zero => cases split
      | succ n =>
          cases keys with
          | nil => cases split
          | cons key keys =>
              simp only [turns, List.cons_append, List.cons.injEq] at split
              have moved := List.perm_append_singleton key keys
              exact ih (moved.nodup_iff.2 distinct) (moved.mem_iff.2 inA) (moved.mem_iff.2 inB)
                split.2

theorem fairLeases_turns {keys : List κ} (distinct : keys.Nodup) (n : Nat) :
    FairLeases keys (turns keys n) where
  between _ inA _ inB other _ _ _ split skipped :=
    count_le_one_of_turns distinct inA inB other split skipped
  counts a inA b inB m := by
    rw [take_turns]
    exact count_turns_le distinct inA inB _

/-- Where the marks are in order, the leases are fair. -/
theorem fairLeases_of_marksInOrder {marks marks' : List (σ × κ)} {times : List σ}
    {leased : List κ} (distinct : (marks.map Prod.snd).Nodup)
    (run : LeastRecent marks' times leased) (same : marks'.Perm marks)
    (order : MarksInOrder marks times) : FairLeases (marks.map Prod.snd) leased := by
  rw [eq_turns_of_marksInOrder run same order]
  exact fairLeases_turns distinct times.length

/-! ### Fair leases of whole rounds -/

/-- After whole rounds every key was leased as often as every other. -/
theorem count_eq_of_fair {keys leased : List κ} (distinct : keys.Nodup)
    (among : ∀ key ∈ leased, key ∈ keys) (whole : keys.length ∣ leased.length)
    (fair : FairLeases keys leased) {a b : κ} (inA : a ∈ keys) (inB : b ∈ keys) :
    leased.count a ≤ leased.count b := by
  by_contra behind
  have within : ∀ x ∈ keys, ∀ y ∈ keys, leased.count x ≤ leased.count y + 1 := by
    intro x inX y inY
    simpa using fair.counts x inX y inY leased.length
  have total : ∑ key ∈ keys.toFinset, leased.count key = leased.length := by
    have sum := Multiset.sum_count_eq_card (s := keys.toFinset) (m := (leased : Multiset κ))
      (fun key member => List.mem_toFinset.2 (among key (Multiset.mem_coe.1 member)))
    simpa using sum
  have flat (n : Nat) : ∑ _key ∈ keys.toFinset, n = keys.length * n := by
    rw [Finset.sum_const_nat fun _ _ => rfl, List.toFinset_card_of_nodup distinct]
  have low : keys.length * leased.count b < leased.length := by
    rw [← total, ← flat]
    apply Finset.sum_lt_sum
    · intro key member
      have first := within a inA key (List.mem_toFinset.1 member)
      omega
    · exact ⟨a, List.mem_toFinset.2 inA, by omega⟩
  have high : leased.length < keys.length * (leased.count b + 1) := by
    rw [← total, ← flat]
    apply Finset.sum_lt_sum
    · exact fun key member => within key (List.mem_toFinset.1 member) b inB
    · exact ⟨b, List.mem_toFinset.2 inB, Nat.lt_succ_self _⟩
  obtain ⟨rounds, rounds_eq⟩ := whole
  rw [rounds_eq] at low high
  have above := Nat.lt_of_mul_lt_mul_left low
  have below := Nat.lt_of_mul_lt_mul_left high
  omega

omit [LinearOrder κ] in
theorem exists_last_split {l : List κ} {key : κ} (member : key ∈ l) :
    ∃ early late, l = early ++ key :: late ∧ key ∉ late := by
  classical
  obtain ⟨late, early, split, out⟩ := List.eq_append_cons_of_mem (List.mem_reverse.2 member)
  refine ⟨early.reverse, late.reverse, ?_, by simpa using out⟩
  rw [← List.reverse_reverse l, split]
  simp

/-- No key is leased again before every other one was. -/
theorem window_of_fair {keys front mid rest : List κ} {key : κ} (distinct : keys.Nodup)
    (among : ∀ other ∈ front ++ key :: (mid ++ key :: rest), other ∈ keys)
    (whole : keys.length ∣ (front ++ key :: (mid ++ key :: rest)).length)
    (fair : FairLeases keys (front ++ key :: (mid ++ key :: rest))) :
    keys.length ≤ mid.length + 1 := by
  by_contra small
  have few : (key :: mid).toFinset.card < keys.toFinset.card := by
    rw [List.toFinset_card_of_nodup distinct]
    have bound := List.toFinset_card_le (key :: mid)
    rw [List.length_cons] at bound
    omega
  obtain ⟨missed, inKeys, out⟩ := Finset.exists_mem_notMem_of_card_lt_card few
  rw [List.mem_toFinset] at inKeys out
  obtain ⟨other, outMid⟩ := not_or.1 (fun among => out (List.mem_cons.2 among))
  have inKey : key ∈ keys := among key (by simp)
  by_cases before : missed ∈ front
  · by_cases after : missed ∈ rest
    · -- Between its lease before and its lease after, the key is leased twice.
      obtain ⟨early, late, rfl, outLate⟩ := exists_last_split before
      obtain ⟨first, last, rfl, outFirst⟩ := List.eq_append_cons_of_mem after
      have twice := fair.between key inKey missed inKeys (Ne.symm other) early
        (late ++ key :: (mid ++ key :: first)) last (by simp) (by simp [*])
      simp at twice
      omega
    · -- The missed key has had all its leases, and the key has two to come.
      have equal := count_eq_of_fair distinct among whole fair inKey inKeys
      have prefixed := fair.counts missed inKeys key inKey front.length
      rw [List.take_left] at prefixed
      have gone := List.count_eq_zero.2 after
      have skipped := List.count_eq_zero.2 outMid
      simp [Ne.symm other, gone, skipped] at equal
      omega
  · -- The key is leased twice before the missed key is at all.
    have prefixed := fair.counts key inKey missed inKeys (front ++ key :: (mid ++ [key])).length
    have cut : front ++ key :: (mid ++ key :: rest) =
        (front ++ key :: (mid ++ [key])) ++ rest := by simp
    rw [cut, List.take_left] at prefixed
    have gone := List.count_eq_zero.2 before
    have skipped := List.count_eq_zero.2 outMid
    simp [Ne.symm other, gone, skipped] at prefixed
    omega

/-- The leases do not depend on the order in which the marks are listed. -/
theorem LeastRecent.perm {marks marks' : List (σ × κ)} {times : List σ} {leased : List κ}
    (run : LeastRecent marks times leased) (same : marks'.Perm marks) :
    LeastRecent marks' times leased := by
  cases run with
  | nil => exact .nil _
  | cons split least rest => exact .cons (same.trans split) least rest

theorem LeastRecent.length_eq {marks : List (σ × κ)} {times : List σ} {leased : List κ}
    (run : LeastRecent marks times leased) : leased.length = times.length := by
  induction run with
  | nil marks => rfl
  | cons split least rest ih => rw [List.length_cons, List.length_cons, ih]

theorem LeastRecent.among {marks : List (σ × κ)} {times : List σ} {leased : List κ}
    (run : LeastRecent marks times leased) {key : κ} (member : key ∈ leased) :
    key ∈ marks.map Prod.snd := by
  induction run with
  | nil marks => cases member
  | cons split least rest ih =>
      rw [(split.map Prod.snd).mem_iff]
      rcases List.mem_cons.1 member with rfl | later
      · exact List.mem_cons_self
      · exact ih later

/-- Where no key is leased again before every other one was, the marks are in order: the keys
that wait for their first turn are sorted, and the others wait behind them. -/
theorem marksInOrder_of_windows {fresh used marks' : List (σ × κ)} {times : List σ}
    {leased : List κ} (run : LeastRecent marks' times leased) (same : marks'.Perm (fresh ++ used))
    (sorted : fresh.Pairwise MarkLT)
    (windows : ∀ front key mid rest,
      used.map Prod.snd ++ leased = front ++ key :: (mid ++ key :: rest) →
      (fresh ++ used).length ≤ mid.length + 1) :
    MarksInOrder (fresh ++ used) times := by
  induction run generalizing fresh used with
  | nil marks' => exact marksInOrder_nil _
  | @cons marks' others first time times keys split least rest ih =>
      have both := split.symm.trans same
      cases fresh with
      | cons mark fresh =>
          have notUsed : first ∉ used := by
            intro again
            obtain ⟨early, late, rfl⟩ := List.append_of_mem again
            have window := windows (early.map Prod.snd) first.2 (late.map Prod.snd) keys (by simp)
            simp at window
            omega
          have picked : first = mark := by
            by_contra other
            have waits : first ∈ fresh := by
              have listed := both.mem_iff.1 List.mem_cons_self
              simpa [notUsed, other] using listed
            have later := (List.mem_cons.1 (both.mem_iff.2 List.mem_cons_self)).resolve_left
              (Ne.symm other)
            exact ((List.pairwise_cons.1 sorted).1 first waits).asymm (least mark later)
          subst picked
          have others_perm := (List.perm_cons first).1 both
          rw [List.cons_append, marksInOrder_cons, List.append_assoc]
          refine ⟨fun mark member => least mark (others_perm.mem_iff.2 member), ?_⟩
          apply ih
          · rw [← List.append_assoc]
            exact (others_perm.cons _).trans (List.perm_append_singleton _ _).symm
          · exact (List.pairwise_cons.1 sorted).2
          · intro front key mid rest seen
            have window := windows front key mid rest (by simpa using seen)
            simp at window ⊢
            omega
      | nil =>
          cases used with
          | nil => exact absurd both.length_eq (by simp)
          | cons mark used =>
              rw [List.nil_append] at both windows ⊢
              have picked : first = mark := by
                by_contra other
                have again := (List.mem_cons.1 (both.mem_iff.1 List.mem_cons_self)).resolve_left
                  other
                obtain ⟨early, late, rfl⟩ := List.append_of_mem again
                have window := windows (mark.2 :: early.map Prod.snd) first.2
                  (late.map Prod.snd) keys (by simp)
                simp at window
                omega
              subst picked
              have others_perm := (List.perm_cons first).1 both
              rw [marksInOrder_cons]
              refine ⟨fun mark member => least mark (others_perm.mem_iff.2 member), ?_⟩
              have moved := (others_perm.cons _).trans
                (List.perm_append_singleton (time, first.2) used).symm
              rw [← List.nil_append (used ++ [(time, first.2)])] at moved ⊢
              apply ih moved List.Pairwise.nil
              · intro front key mid rest seen
                have window := windows (first.2 :: front) key mid rest (by simpa using seen)
                simp at window ⊢
                omega

/-- Over whole rounds the leases are fair only where the marks are in order. -/
theorem marksInOrder_of_fairLeases {marks marks' : List (σ × κ)} {times : List σ}
    {leased : List κ} (distinct : (marks.map Prod.snd).Nodup)
    (run : LeastRecent marks' times leased) (same : marks'.Perm marks)
    (sorted : marks.Pairwise MarkLT) (whole : marks.length ∣ times.length)
    (fair : FairLeases (marks.map Prod.snd) leased) : MarksInOrder marks times := by
  have windows : ∀ front key mid rest, leased = front ++ key :: (mid ++ key :: rest) →
      marks.length ≤ mid.length + 1 := by
    rintro front key mid rest rfl
    have size := run.length_eq
    have listed := window_of_fair distinct ?_ ?_ fair
    · rwa [List.length_map] at listed
    · intro other member
      exact (same.map Prod.snd).mem_iff.1 (run.among member)
    · rwa [List.length_map, size]
  have among : marks'.Perm (marks ++ []) := by rwa [List.append_nil]
  have order := marksInOrder_of_windows run among sorted (by simpa using windows)
  rwa [List.append_nil] at order

end TavilyHikari.Library
