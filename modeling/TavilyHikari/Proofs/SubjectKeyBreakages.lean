/-
Module: TavilyHikari.Proofs.SubjectKeyBreakages
Purpose: What a row of `subject_key_breakages` remembers of the breaks written to it. All
  columns but `updated_at` are those of the latest break, in whatever order the breaks come;
  `updated_at` is the time of the break that came last.
Trusted boundary: none
Main exports: find_applyBreakages, leavesLatestBreak_iff
-/
import Mathlib.Data.Finset.Max
import TavilyHikari.Library.Latest
import TavilyHikari.Store.SubjectKeyBreakages

namespace TavilyHikari.Store

open Library

/-- The row after `first`, ..., `last` were written, `latest` being the latest of them. -/
def SubjectKeyBreakage.ofBreaks (first latest last : KeyBreak) : SubjectKeyBreakage :=
  { latest.inserted with
    createdAt := first.breakAt
    updatedAt := last.breakAt }

theorem SubjectKeyBreakage.merge_ofBreaks (event first latest last : KeyBreak) :
    event.inserted.merge (.ofBreaks first latest last) =
      .ofBreaks first (later KeyBreak.breakAt latest event) event := by
  unfold later
  split
  case isTrue reached =>
    simp [SubjectKeyBreakage.merge, SubjectKeyBreakage.ofBreaks, KeyBreak.inserted, reached]
  case isFalse late =>
    have before : event.breakAt ≤ latest.breakAt := by omega
    simp [SubjectKeyBreakage.merge, SubjectKeyBreakage.ofBreaks, KeyBreak.inserted, late, before]

/-- The row of one key and month after calls that all write to it. -/
theorem find_applyBreakages_stored {k : SubjectKeyBreakageKey} {first : KeyBreak}
    {calls : List BreakageCall} (sameRow : ∀ call ∈ calls, call.rowKey = k) :
    ∀ {t : SubjectKeyBreakages} {latest last : KeyBreak},
      t.find k = some (.ofBreaks first latest last) →
      (applyBreakages calls t).find k = some (.ofBreaks first
        ((calls.map BreakageCall.event).foldl (later KeyBreak.breakAt) latest)
        (((calls.map BreakageCall.event).getLast?).getD last)) := by
  induction calls with
  | nil =>
      intro t latest last stored
      exact stored
  | cons call calls ih =>
      intro t latest last stored
      have here : call.event.rowKey call.now = k := sameRow call (by simp)
      have written : (upsertSubjectKeyBreakageTx call.now call.event t).find k =
          some (.ofBreaks first (later KeyBreak.breakAt latest call.event) call.event) := by
        rw [upsertSubjectKeyBreakageTx, here, KeyedTable.find_upsert_self, stored]
        exact congrArg some (SubjectKeyBreakage.merge_ofBreaks ..)
      have rest := ih (fun other member => sameRow other (by simp [member])) written
      rw [List.map_cons, List.foldl_cons, List.getLast?_cons, Option.getD_some]
      exact rest

theorem find_applyBreakages {k : SubjectKeyBreakageKey} {t : SubjectKeyBreakages}
    {call : BreakageCall} {calls : List BreakageCall} (fresh : t.find k = none)
    (sameRow : ∀ other ∈ call :: calls, other.rowKey = k) :
    (applyBreakages (call :: calls) t).find k = some (.ofBreaks call.event
      ((calls.map BreakageCall.event).foldl (later KeyBreak.breakAt) call.event)
      (((calls.map BreakageCall.event).getLast?).getD call.event)) := by
  have here : call.event.rowKey call.now = k := sameRow call (by simp)
  have written : (upsertSubjectKeyBreakageTx call.now call.event t).find k =
      some (.ofBreaks call.event call.event call.event) := by
    rw [upsertSubjectKeyBreakageTx, here, KeyedTable.find_upsert_self, fresh]
    rfl
  exact find_applyBreakages_stored (fun other member => sameRow other (by simp [member])) written

/-- The row in terms of the first, the latest and the last of the calls. -/
theorem find_applyBreakages_latest {k : SubjectKeyBreakageKey} {t : SubjectKeyBreakages}
    {calls : List BreakageCall} (fresh : t.find k = none)
    (sameRow : ∀ call ∈ calls, call.rowKey = k)
    (distinct : (calls.map fun call => call.event.breakAt).Nodup) {latest : BreakageCall}
    (member : latest ∈ calls)
    (isLatest : ∀ call ∈ calls, call.event.breakAt ≤ latest.event.breakAt) :
    ∃ first last, last ∈ calls.getLast? ∧ (applyBreakages calls t).find k =
      some (.ofBreaks first latest.event last.event) := by
  cases calls with
  | nil => cases member
  | cons call calls =>
      have stored := find_applyBreakages fresh sameRow
      have held : (calls.map BreakageCall.event).foldl (later KeyBreak.breakAt) call.event =
          latest.event := by
        apply foldl_later_eq
        · rw [← List.map_cons]
          exact List.mem_map_of_mem member
        · intro event written other
          rw [← List.map_cons] at written
          obtain ⟨writer, writes, same⟩ := List.mem_map.mp written
          subst same
          apply lt_of_le_of_ne (isLatest writer writes)
          intro tie
          exact other (congrArg BreakageCall.event
            (List.inj_on_of_nodup_map distinct writes member tie))
      refine ⟨call.event, (calls.getLast?).getD call, ?_, ?_⟩
      · rw [List.getLast?_cons]
        rfl
      · rw [stored, held, List.getLast?_map]
        cases calls.getLast? with
        | none => rfl
        | some last => rfl

/-! ### The order of the breaks -/

/-- The calls leave the row that the latest of their breaks alone would have left, up to
`created_at`. -/
def LeavesLatestBreak (t : SubjectKeyBreakages) (k : SubjectKeyBreakageKey)
    (calls : List BreakageCall) : Prop :=
  ∀ latest ∈ calls, (∀ call ∈ calls, call.event.breakAt ≤ latest.event.breakAt) →
    ∃ row, (applyBreakages calls t).find k = some row ∧
      { row with createdAt := latest.event.breakAt } = latest.event.inserted

theorem exists_latest {calls : List BreakageCall} {last : BreakageCall}
    (member : last ∈ calls) :
    ∃ latest ∈ calls, ∀ call ∈ calls, call.event.breakAt ≤ latest.event.breakAt := by
  have some : calls.toFinset.Nonempty := ⟨last, List.mem_toFinset.mpr member⟩
  obtain ⟨latest, among, isLatest⟩ :=
    calls.toFinset.exists_max_image (fun call => call.event.breakAt) some
  refine ⟨latest, List.mem_toFinset.mp among, ?_⟩
  intro call isCall
  exact isLatest call (List.mem_toFinset.mpr isCall)

/-- The break that came last is the latest one. -/
def LastIsLatest (calls : List BreakageCall) : Prop :=
  ∀ last ∈ calls.getLast?, ∀ call ∈ calls, call.event.breakAt ≤ last.event.breakAt

/-- `updated_at` is the only column that goes wrong, and it does when the last call is late. -/
theorem leavesLatestBreak_iff_lastIsLatest {t : SubjectKeyBreakages} {k : SubjectKeyBreakageKey}
    {calls : List BreakageCall} (fresh : t.find k = none)
    (sameRow : ∀ call ∈ calls, call.rowKey = k)
    (distinct : (calls.map fun call => call.event.breakAt).Nodup) :
    LeavesLatestBreak t k calls ↔ LastIsLatest calls := by
  constructor
  · intro leaves last isLast call isCall
    obtain ⟨latest, member, isLatest⟩ := exists_latest (List.mem_of_getLast? isLast)
    obtain ⟨row, found, sameUpTo⟩ := leaves latest member isLatest
    obtain ⟨first, last', isLast', stored⟩ :=
      find_applyBreakages_latest fresh sameRow distinct member isLatest
    cases Option.some.inj (isLast.symm.trans isLast')
    cases Option.some.inj (found.symm.trans stored)
    have updated : last.event.breakAt = latest.event.breakAt :=
      congrArg SubjectKeyBreakage.updatedAt sameUpTo
    rw [updated]
    exact isLatest call isCall
  · intro lastIsLatest latest member isLatest
    obtain ⟨first, last, isLast, stored⟩ :=
      find_applyBreakages_latest fresh sameRow distinct member isLatest
    have reached := lastIsLatest last isLast latest member
    have bounded := isLatest last (List.mem_of_getLast? isLast)
    have updated : last.event.breakAt = latest.event.breakAt := by omega
    refine ⟨_, stored, ?_⟩
    rw [SubjectKeyBreakage.ofBreaks, updated]
    rfl

/-- Two breaks can always be put in an order that ends with the earlier one. -/
theorem lastIsLatest_everyOrder_iff {calls : List BreakageCall}
    (distinct : (calls.map fun call => call.event.breakAt).Nodup) :
    (∀ order : List BreakageCall, order.Perm calls → LastIsLatest order) ↔
      calls.length ≤ 1 := by
  constructor
  · intro everyOrder
    match calls with
    | [] => simp
    | [call] => simp
    | one :: two :: rest =>
        have endsWithOne := everyOrder ((two :: rest) ++ [one])
          (List.perm_append_singleton one (two :: rest))
        have endsWithTwo := everyOrder ((one :: rest) ++ [two])
          ((List.perm_append_singleton two (one :: rest)).trans (List.Perm.swap one two rest))
        have before := endsWithOne one List.getLast?_concat two (by simp)
        have after := endsWithTwo two List.getLast?_concat one (by simp)
        have apart : one.event.breakAt ≠ two.event.breakAt := by
          intro same
          simp [same] at distinct
        omega
  · intro short order perm last isLast call isCall
    have single : order.length ≤ 1 := by rw [perm.length_eq]; exact short
    obtain ⟨only, rfl⟩ : ∃ only, order = [only] := by
      apply List.length_eq_one_iff.mp
      have held := List.length_pos_of_mem isCall
      omega
    cases isLast
    cases List.mem_singleton.mp isCall
    exact le_rfl

/-- **Breaks out of order.** Whatever the order of the calls, all columns but `created_at`
and `updated_at` are those of the latest break. The row as a whole, up to `created_at`, is
that of the latest break exactly when that break came last; with two or more breaks there
is an order in which it is not. -/
theorem leavesLatestBreak_iff (t : SubjectKeyBreakages) (k : SubjectKeyBreakageKey)
    (calls : List BreakageCall) (fresh : t.find k = none)
    (sameRow : ∀ call ∈ calls, call.rowKey = k)
    (distinct : (calls.map fun call => call.event.breakAt).Nodup) :
    (∀ latest ∈ calls, (∀ call ∈ calls, call.event.breakAt ≤ latest.event.breakAt) →
      ∃ row, (applyBreakages calls t).find k = some row ∧
        { row with
          createdAt := latest.event.breakAt
          updatedAt := latest.event.breakAt } = latest.event.inserted) ∧
    (LeavesLatestBreak t k calls ↔ LastIsLatest calls) ∧
    ((∀ order : List BreakageCall, order.Perm calls → LeavesLatestBreak t k order) ↔
      calls.length ≤ 1) := by
  refine ⟨?_, leavesLatestBreak_iff_lastIsLatest fresh sameRow distinct, ?_⟩
  · intro latest member isLatest
    obtain ⟨first, last, -, stored⟩ :=
      find_applyBreakages_latest fresh sameRow distinct member isLatest
    exact ⟨_, stored, rfl⟩
  · rw [← lastIsLatest_everyOrder_iff distinct]
    apply forall_congr'
    intro order
    apply imp_congr_right
    intro perm
    apply leavesLatestBreak_iff_lastIsLatest fresh
    · intro call isCall
      exact sameRow call (perm.mem_iff.mp isCall)
    · exact (perm.map _).nodup_iff.mpr distinct

/-- Two breaks of one key by one token. -/
def exhaustedAt (breakAt : Int) : KeyBreak where
  subjectKind := "token"
  subjectId := "t1"
  keyId := "k1"
  breakAt := breakAt
  keyStatus := "exhausted"
  reasonCode := none
  reasonSummary := none
  source := "auto"
  breakerTokenId := some "t1"
  breakerUserId := none
  breakerUserDisplayName := none
  manualActorDisplayName := none

def callAt (breakAt : Int) : BreakageCall where
  now := { secs := 200, in_range := by decide }
  event := exhaustedAt breakAt

theorem leavesLatestBreak_iff_two :
    ((callAt 100).rowKey = (callAt 200).rowKey ∧
      ([callAt 100, callAt 200].map fun call => call.event.breakAt).Nodup) ∧
    (LeavesLatestBreak .empty (callAt 200).rowKey [callAt 100, callAt 200] ↔
      LastIsLatest [callAt 100, callAt 200]) :=
  ⟨by decide +kernel,
    (leavesLatestBreak_iff .empty (callAt 200).rowKey [callAt 100, callAt 200] rfl
      (by decide +kernel) (by decide)).2.1⟩

/-- The break of second 100 settles after that of second 200: the row keeps 200 as
`latest_break_at` and says 100 as `updated_at`. -/
theorem breakage_lateArrival :
    ¬ ∀ (k : SubjectKeyBreakageKey) (calls : List BreakageCall),
      (∀ call ∈ calls, call.rowKey = k) →
      (calls.map fun call => call.event.breakAt).Nodup →
      LeavesLatestBreak .empty k calls := by
  intro claim
  have leaves := claim (callAt 200).rowKey [callAt 200, callAt 100] (by decide +kernel) (by decide)
  obtain ⟨row, found, sameUpTo⟩ := leaves (callAt 200) (by simp) (by decide)
  have stored : ((applyBreakages [callAt 200, callAt 100] .empty).find
      (callAt 200).rowKey).map SubjectKeyBreakage.updatedAt = some 100 := by decide +kernel
  rw [found] at stored
  have late : row.updatedAt = 100 := Option.some.inj stored
  have updated : row.updatedAt = 200 := congrArg SubjectKeyBreakage.updatedAt sameUpTo
  omega

end TavilyHikari.Store
