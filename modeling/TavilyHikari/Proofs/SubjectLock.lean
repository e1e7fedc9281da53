/-
Module: TavilyHikari.Proofs.SubjectLock
Purpose: When the quota subject lease excludes. The invariant is that every live
  guard has the row of its subject and that no two have one subject; the steps
  that can break it are those that delete such a row.
Trusted boundary: none
Main exports: leases_exclusive_while_rows_last, leases_overlap_when_refresh_stalls
-/
import TavilyHikari.Store.SubjectLock

namespace TavilyHikari.Store

open Library

/-! ### The statements -/

/-- A round takes the lease only when no row of the subject is left, and it
touches no other subject. -/
theorem acquireRound_eq_some {locks locks' : QuotaSubjectLocks} {subject owner : String}
    {now : Int} (acquired : acquireRound locks subject owner now = some locks') :
    (∀ row, locks.find subject = some row → row.expiresAt ≤ now) ∧
      (∃ row, locks'.find subject = some row ∧ row.owner = owner) ∧
      ∀ other, other ≠ subject → locks'.find other = locks.find other := by
  simp only [acquireRound] at acquired
  split at acquired
  · cases acquired
  · rename_i absent
    cases acquired
    refine ⟨?_, ?_, ?_⟩
    · intro row found
      rw [KeyedTable.find_deleteWhere, found] at absent
      simpa using absent
    · rw [KeyedTable.find_upsert_self, absent]
      exact ⟨_, rfl, rfl⟩
    · intro other different
      rw [KeyedTable.find_upsert_of_ne _ different, KeyedTable.find_deleteWhere]
      cases locks.find other with
      | none => rfl
      | some row => simp [different]

/-- An expired row does not stop a round. -/
theorem acquireRound_of_expired {locks : QuotaSubjectLocks} {subject : String} {now : Int}
    {row : QuotaSubjectLockRow} (found : locks.find subject = some row)
    (expired : row.expiresAt ≤ now) (owner : String) :
    ∃ locks', acquireRound locks subject owner now = some locks' := by
  have cleared :
      (locks.deleteWhere fun key row => key = subject ∧ row.expiresAt ≤ now).find subject
        = none := by
    rw [KeyedTable.find_deleteWhere, found]
    simp [expired]
  simp only [acquireRound, cleared]
  exact ⟨_, rfl⟩

/-- A refresh leaves every row with its owner. -/
theorem refreshQuotaSubjectLock_keeps_owner (locks : QuotaSubjectLocks)
    (subject owner : String) (now : Int) {key : String} {row : QuotaSubjectLockRow}
    (found : locks.find key = some row) :
    ∃ row', (refreshQuotaSubjectLock locks subject owner now).2.find key = some row' ∧
      row'.owner = row.owner := by
  simp only [refreshQuotaSubjectLock]
  split
  · split
    · by_cases same : key = subject
      · subst same
        rw [KeyedTable.find_modify_self, found]
        exact ⟨_, rfl, rfl⟩
      · rw [KeyedTable.find_modify_of_ne _ same, found]
        exact ⟨row, rfl, rfl⟩
    · exact ⟨row, found, rfl⟩
  · exact ⟨row, found, rfl⟩

/-- A release deletes only the row of its subject with its owner. -/
theorem find_releaseQuotaSubjectLock {locks : QuotaSubjectLocks} {subject owner key : String}
    {row : QuotaSubjectLockRow} (found : locks.find key = some row)
    (foreign : key = subject → row.owner ≠ owner) :
    (releaseQuotaSubjectLock locks subject owner).find key = some row := by
  rw [releaseQuotaSubjectLock, KeyedTable.find_deleteWhere, found]
  by_cases same : key = subject
  · simp [same, foreign same]
  · simp [same]

/-! ### The invariant -/

theorem SubjectGuard.PassesEnsureLive.live {guard : SubjectGuard} {s : SubjectLockState}
    (passes : guard.PassesEnsureLive s) : guard.Live := by
  obtain ⟨held, passed⟩ := passes
  refine ⟨held, ?_⟩
  cases lost : guard.leaseLost with
  | false => rfl
  | true => simp [ensureLive, lost] at passed

theorem SubjectGuard.Live.passesEnsureLive {guard : SubjectGuard} {s : SubjectLockState}
    (live : guard.Live) (unforced : s.forcedLossSubjects = []) : guard.PassesEnsureLive s := by
  obtain ⟨held, kept⟩ := live
  refine ⟨held, ?_⟩
  simp [ensureLive, kept, unforced]

/-- Every guard of `after` that is live was live in `before`, with the same lease. -/
def NoNewGuards (before after : List SubjectGuard) : Prop :=
  ∀ (i : Nat) (guard : SubjectGuard), after[i]? = some guard → guard.Live →
    ∃ old, before[i]? = some old ∧ old.Live ∧ old.subject = guard.subject ∧
      old.owner = guard.owner

theorem NoNewGuards.refl (guards : List SubjectGuard) : NoNewGuards guards guards :=
  fun _ guard found live => ⟨guard, found, live, rfl, rfl⟩

/-- A change of one guard that makes none live adds no live guard. -/
theorem NoNewGuards.modify {f : SubjectGuard → SubjectGuard} (guards : List SubjectGuard)
    (number : Nat)
    (quiets : ∀ guard, (f guard).Live →
      guard.Live ∧ guard.subject = (f guard).subject ∧ guard.owner = (f guard).owner) :
    NoNewGuards guards (guards.modify number f) := by
  intro i guard found live
  rw [List.getElem?_modify, Option.map_eq_map, Option.map_eq_some_iff] at found
  obtain ⟨old, listed, changed⟩ := found
  by_cases here : number = i
  · rw [if_pos here] at changed
    subst changed
    exact ⟨old, listed, quiets old live⟩
  · rw [if_neg here] at changed
    subst changed
    exact ⟨old, listed, live, rfl, rfl⟩

namespace SubjectLockState

/-- Every live guard has the row of its subject, and no two have one subject. -/
structure Exclusive (s : SubjectLockState) : Prop where
  rows : ∀ guard ∈ s.guards, guard.Live →
    ∃ row, s.locks.find guard.subject = some row ∧ row.owner = guard.owner
  single : ∀ (i j : Nat) (one two : SubjectGuard), s.guards[i]? = some one →
    s.guards[j]? = some two → one.Live → two.Live → one.subject = two.subject → i = j
  unforced : s.forcedLossSubjects = []

theorem Exclusive.initial : SubjectLockState.initial.Exclusive where
  rows := by simp [SubjectLockState.initial]
  single := by simp [SubjectLockState.initial]
  unforced := rfl

/-- A step that makes no guard live and leaves the rows of the live ones with
their owner. -/
theorem Exclusive.of_noNewGuards {s s' : SubjectLockState} (exclusive : s.Exclusive)
    (quiet : NoNewGuards s.guards s'.guards)
    (kept : ∀ guard ∈ s.guards, guard.Live → ∀ row, s.locks.find guard.subject = some row →
      row.owner = guard.owner →
        ∃ row', s'.locks.find guard.subject = some row' ∧ row'.owner = guard.owner)
    (unforced : s'.forcedLossSubjects = s.forcedLossSubjects) : s'.Exclusive := by
  refine ⟨?_, ?_, unforced.trans exclusive.unforced⟩
  · intro guard member live
    obtain ⟨i, found⟩ := List.mem_iff_getElem?.1 member
    obtain ⟨old, listed, wasLive, subject, owner⟩ := quiet i guard found live
    have oldMember := List.mem_of_getElem? listed
    obtain ⟨row, stored, owned⟩ := exclusive.rows old oldMember wasLive
    rw [← subject, ← owner]
    exact kept old oldMember wasLive row stored owned
  · intro i j one two foundOne foundTwo liveOne liveTwo same
    obtain ⟨oldOne, listedOne, wasOne, subjectOne, _⟩ := quiet i one foundOne liveOne
    obtain ⟨oldTwo, listedTwo, wasTwo, subjectTwo, _⟩ := quiet j two foundTwo liveTwo
    apply exclusive.single i j oldOne oldTwo listedOne listedTwo wasOne wasTwo
    rw [subjectOne, subjectTwo, same]

/-- A step that leaves the lease rows alone. -/
theorem Exclusive.of_same_locks {s s' : SubjectLockState} (exclusive : s.Exclusive)
    (quiet : NoNewGuards s.guards s'.guards) (locks : s'.locks = s.locks)
    (unforced : s'.forcedLossSubjects = s.forcedLossSubjects) : s'.Exclusive := by
  apply exclusive.of_noNewGuards quiet _ unforced
  intro guard _ _ row stored owned
  rw [locks]
  exact ⟨row, stored, owned⟩

/-- A step that only concerns the clock, the instances or the calls. -/
theorem Exclusive.of_same_guards {s s' : SubjectLockState} (exclusive : s.Exclusive)
    (guards : s'.guards = s.guards) (locks : s'.locks = s.locks)
    (unforced : s'.forcedLossSubjects = s.forcedLossSubjects) : s'.Exclusive := by
  apply exclusive.of_same_locks _ locks unforced
  rw [guards]
  exact .refl _

theorem Exclusive.setRefresh {s : SubjectLockState} (exclusive : s.Exclusive) (number : Nat)
    (refresh : RefreshTask) : (s.setRefresh number refresh).Exclusive := by
  refine exclusive.of_same_locks ?_ rfl rfl
  exact .modify _ _ fun guard live => ⟨live, rfl, rfl⟩

theorem Exclusive.refreshFailed {s : SubjectLockState} (exclusive : s.Exclusive) (number : Nat)
    (guard : SubjectGuard) (deadlineMs : Int) :
    (s.refreshFailed number guard deadlineMs).Exclusive := by
  simp only [SubjectLockState.refreshFailed]
  split
  · exact exclusive.setRefresh number _
  · split
    · refine exclusive.of_same_locks ?_ rfl rfl
      apply NoNewGuards.modify
      intro other live
      cases live.2
    · exact exclusive.setRefresh number _

/-! ### The acquire -/

/-- The guard a round creates is the only live one of its subject. -/
theorem Exclusive.newGuard {s s' : SubjectLockState} (exclusive : s.Exclusive)
    (guard : SubjectGuard) (guards : s'.guards = s.guards ++ [guard])
    (none : ∀ other ∈ s.guards, other.Live → other.subject ≠ guard.subject)
    (taken : ∃ row, s'.locks.find guard.subject = some row ∧ row.owner = guard.owner)
    (others : ∀ subject, subject ≠ guard.subject →
      s'.locks.find subject = s.locks.find subject)
    (unforced : s'.forcedLossSubjects = s.forcedLossSubjects) : s'.Exclusive := by
  have listed : ∀ (i : Nat) (other : SubjectGuard), s'.guards[i]? = some other →
      s.guards[i]? = some other ∨ (i = s.guards.length ∧ other = guard) := by
    intro i other found
    rw [guards] at found
    rcases Nat.lt_trichotomy i s.guards.length with before | here | after
    · rw [List.getElem?_append_left before] at found
      exact .inl found
    · rw [here, List.getElem?_concat_length, Option.some.injEq] at found
      exact .inr ⟨here, found.symm⟩
    · rw [List.getElem?_eq_none (by simp; omega)] at found
      cases found
  refine ⟨?_, ?_, unforced.trans exclusive.unforced⟩
  · intro other member live
    rw [guards, List.mem_append, List.mem_singleton] at member
    rcases member with old | new
    · rw [others _ (none other old live)]
      exact exclusive.rows other old live
    · rw [new]
      exact taken
  · intro i j one two foundOne foundTwo liveOne liveTwo same
    rcases listed i one foundOne with oldOne | ⟨atOne, newOne⟩
    · rcases listed j two foundTwo with oldTwo | ⟨_, newTwo⟩
      · exact exclusive.single i j one two oldOne oldTwo liveOne liveTwo same
      · rw [newTwo] at same
        exact absurd same (none one (List.mem_of_getElem? oldOne) liveOne)
    · rcases listed j two foundTwo with oldTwo | ⟨atTwo, _⟩
      · rw [newOne] at same
        exact absurd same.symm (none two (List.mem_of_getElem? oldTwo) liveTwo)
      · rw [atOne, atTwo]

/-- What a round of the acquire loop does. -/
theorem round_cases {s s' : SubjectLockState} {number : Nat} {fails : Bool}
    (taken : s.round number fails = some s') :
    (∃ call, s' = s.setCall number call) ∨
      ∃ call now locks, fails = false ∧ s.calls[number]? = some (some call) ∧
        call.now = some now ∧ acquireRound s.locks call.subject call.owner now = some locks ∧
        s' = { s.setCall number none with locks, guards := s.guards ++ [s.newGuard call] } := by
  simp only [round] at taken
  split at taken
  · rename_i call listed
    split at taken
    · cases taken
    · rename_i now read
      split at taken
      · cases taken
        exact .inl ⟨_, rfl⟩
      · rename_i succeeds
        split at taken
        · rename_i locks acquired
          cases taken
          exact .inr ⟨call, now, locks, by simpa using succeeds, listed, read, acquired, rfl⟩
        · split at taken
          · cases taken
            exact .inl ⟨_, rfl⟩
          · cases taken
            exact .inl ⟨_, rfl⟩
  · cases taken

theorem Exclusive.round {s s' : SubjectLockState} (exclusive : s.Exclusive) {number : Nat}
    {fails : Bool} (safe : LeavesLiveRows s (.round number fails))
    (taken : s.round number fails = some s') : s'.Exclusive := by
  rcases round_cases taken with ⟨call, rfl⟩ | ⟨call, now, locks, rfl, listed, read, acquired, rfl⟩
  · exact exclusive.of_same_guards rfl rfl rfl
  · obtain ⟨expired, owned, others⟩ := acquireRound_eq_some acquired
    refine exclusive.newGuard (s.newGuard call) rfl ?_ owned others rfl
    intro other member live same
    obtain ⟨row, stored, owner⟩ := exclusive.rows other member live
    rw [show other.subject = call.subject from same] at stored
    exact safe call now row listed read stored (expired row stored) other member live same
      owner.symm

/-! ### The refresh task -/

theorem Exclusive.refreshWake {s s' : SubjectLockState} (exclusive : s.Exclusive) {number : Nat}
    (taken : s.refreshWake number = some s') : s'.Exclusive := by
  simp only [SubjectLockState.refreshWake] at taken
  split at taken
  · split at taken
    · split at taken
      · split at taken
        · cases taken
          exact exclusive.setRefresh number _
        · cases taken
          exact exclusive.setRefresh number _
      · cases taken
    · cases taken
  · cases taken

theorem Exclusive.refreshRead {s s' : SubjectLockState} (exclusive : s.Exclusive) {number : Nat}
    (taken : s.refreshRead number = some s') : s'.Exclusive := by
  simp only [SubjectLockState.refreshRead] at taken
  split at taken
  · split at taken
    · cases taken
      exact exclusive.setRefresh number _
    · cases taken
  · cases taken

theorem Exclusive.refreshRun {s s' : SubjectLockState} (exclusive : s.Exclusive) {number : Nat}
    {fails : Bool} (taken : s.refreshRun number fails = some s') : s'.Exclusive := by
  simp only [SubjectLockState.refreshRun] at taken
  split at taken
  · rename_i guard _
    split at taken
    · rename_i deadlineMs now _
      split at taken
      · cases taken
        exact exclusive.refreshFailed number guard deadlineMs
      · split at taken
        · cases taken
          exact exclusive.refreshFailed number guard deadlineMs
        · cases taken
          refine exclusive.of_noNewGuards ?_ ?_ rfl
          · exact .modify _ _ fun guard live => ⟨live, rfl, rfl⟩
          · intro other _ _ row stored owned
            obtain ⟨row', stored', owner⟩ :=
              refreshQuotaSubjectLock_keeps_owner s.locks guard.subject guard.owner now stored
            exact ⟨row', stored', owner.trans owned⟩
    · cases taken
  · cases taken

theorem Exclusive.refreshRetry {s s' : SubjectLockState} (exclusive : s.Exclusive) {number : Nat}
    (taken : s.refreshRetry number = some s') : s'.Exclusive := by
  simp only [SubjectLockState.refreshRetry] at taken
  split at taken
  · split at taken
    · split at taken
      · cases taken
        exact exclusive.setRefresh number _
      · cases taken
    · cases taken
  · cases taken

/-! ### The end of a guard -/

theorem Exclusive.drop {s s' : SubjectLockState} (exclusive : s.Exclusive) {number : Nat}
    (taken : s.drop number = some s') : s'.Exclusive := by
  simp only [SubjectLockState.drop] at taken
  split at taken
  · split at taken
    · cases taken
      refine exclusive.of_same_locks ?_ rfl rfl
      apply NoNewGuards.modify
      intro other live
      cases live.1
    · cases taken
  · cases taken

theorem Exclusive.release {s s' : SubjectLockState} (exclusive : s.Exclusive) {number : Nat}
    {fails : Bool} (safe : LeavesLiveRows s (.release number fails))
    (taken : s.release number fails = some s') : s'.Exclusive := by
  simp only [SubjectLockState.release] at taken
  split at taken
  · rename_i released listed
    split at taken
    · cases taken
      refine exclusive.of_noNewGuards ?_ ?_ rfl
      · apply NoNewGuards.modify
        intro other live
        cases live.1
      · intro other member live row stored owned
        cases fails with
        | true => exact ⟨row, stored, owned⟩
        | false =>
            refine ⟨row, find_releaseQuotaSubjectLock stored ?_, owned⟩
            intro same
            rw [owned]
            exact safe released listed other member live same
    · cases taken
  · cases taken

theorem Exclusive.crash {s : SubjectLockState} (exclusive : s.Exclusive) (process : Nat) :
    (s.crash process).Exclusive := by
  refine exclusive.of_same_locks ?_ rfl rfl
  intro i guard found live
  simp only [SubjectLockState.crash, List.getElem?_map, Option.map_eq_some_iff] at found
  obtain ⟨old, listed, changed⟩ := found
  split at changed
  · subst changed
    cases live.1
  · subst changed
    exact ⟨old, listed, live, rfl, rfl⟩

/-- One step: every step that leaves the rows of the live guards keeps the leases
exclusive. -/
theorem Exclusive.step {s s' : SubjectLockState} {action : SubjectLockAction}
    (exclusive : s.Exclusive) (safe : LeavesLiveRows s action)
    (taken : subjectLockSystem.step s action = some s') : s'.Exclusive := by
  cases action with
  | tick milliseconds =>
      cases taken
      exact exclusive.of_same_guards rfl rfl rfl
  | spawn pid =>
      cases taken
      exact exclusive.of_same_guards rfl rfl rfl
  | crash process =>
      cases taken
      exact exclusive.crash process
  | start process subject =>
      simp only [subjectLockSystem, SubjectLockState.step, SubjectLockState.start] at taken
      split at taken
      · cases taken
      · split at taken
        · cases taken
          exact exclusive.of_same_guards rfl rfl rfl
        · cases taken
  | readClock call =>
      simp only [subjectLockSystem, SubjectLockState.step, SubjectLockState.readClock] at taken
      split at taken
      · cases taken
        exact exclusive.of_same_guards rfl rfl rfl
      · cases taken
  | round call fails => exact exclusive.round safe taken
  | refreshWake guard => exact exclusive.refreshWake taken
  | refreshRead guard => exact exclusive.refreshRead taken
  | refreshRun guard fails => exact exclusive.refreshRun taken
  | refreshRetry guard => exact exclusive.refreshRetry taken
  | drop guard => exact exclusive.drop taken
  | release guard fails => exact exclusive.release safe taken

theorem Exclusive.leasesExclusive {s : SubjectLockState} (exclusive : s.Exclusive) :
    LeasesExclusive s := by
  intro i j one two foundOne foundTwo different same both
  apply different
  exact exclusive.single i j one two foundOne foundTwo both.1.live both.2.live same

/-- A round that deletes the row of a live guard gives its subject a second one. -/
theorem Exclusive.round_overlaps {s s' : SubjectLockState} {number : Nat}
    (exclusive : s.Exclusive) (steals : ¬ LeavesLiveRows s (.round number false))
    (taken : s.round number false = some s') : ¬ LeasesExclusive s' := by
  intro kept
  apply steals
  intro call now row listed read found expired guard member live same _
  obtain ⟨locks, acquired⟩ := acquireRound_of_expired found expired call.owner
  simp only [SubjectLockState.round, listed, read, acquired, Bool.false_eq_true, if_false,
    Option.some.injEq] at taken
  subst taken
  obtain ⟨i, held⟩ := List.mem_iff_getElem?.1 member
  have bound := (List.getElem?_eq_some_iff.1 held).1
  refine kept i s.guards.length guard (s.newGuard call) ?_ ?_ (Nat.ne_of_lt bound) same ⟨?_, ?_⟩
  · exact (List.getElem?_append_left bound).trans held
  · exact List.getElem?_concat_length
  · exact live.passesEnsureLive exclusive.unforced
  · exact SubjectGuard.Live.passesEnsureLive ⟨rfl, rfl⟩ exclusive.unforced

end SubjectLockState

/-! ### Runs -/

/-- In every run in which no acquire and no release deletes the row of a live
guard, no two guards of one subject would pass `ensure_live` at the same time.
Conversely a round that deletes such a row lets two pass at once. -/
theorem leases_exclusive_while_rows_last {s : SubjectLockState} (exclusive : s.Exclusive)
    (actions : List SubjectLockAction)
    (safe : subjectLockSystem.Guarded LeavesLiveRows s actions) :
    subjectLockSystem.AlongRun LeasesExclusive s actions ∧
      ∀ t t' number, subjectLockSystem.run s actions = some t →
        ¬ LeavesLiveRows t (.round number false) →
        subjectLockSystem.step t (.round number false) = some t' →
        ¬ LeasesExclusive t' := by
  have along :=
    subjectLockSystem.alongRun_of_guarded
      (fun _ _ _ exclusive safe taken => exclusive.step safe taken) exclusive safe
  refine ⟨along.mono _ fun _ exclusive => exclusive.leasesExclusive, ?_⟩
  intro t t' number ran steals taken
  exact (along.last _ ran).round_overlaps steals taken

/-- The first refresh of an instance is held up for longer than the lease lasts,
and a second instance takes the lease meanwhile. -/
def stalledRefreshRun : List SubjectLockAction :=
  [.spawn 1, .spawn 2, .start 0 "token:t", .readClock 0, .round 0 false, .tick 5001,
    .refreshWake 0, .refreshRead 0, .tick 15000, .start 1 "token:t", .readClock 1,
    .round 1 false]

theorem leases_overlap_when_refresh_stalls :
    ¬ subjectLockSystem.AlongRun LeasesExclusive .initial stalledRefreshRun := by
  intro along
  have ran : ∃ s one two, subjectLockSystem.run .initial stalledRefreshRun = some s ∧
      s.guards = [one, two] ∧ one.subject = two.subject ∧ one.Live ∧ two.Live ∧
      s.forcedLossSubjects = [] :=
    ⟨_, _, _, rfl, rfl, rfl, ⟨rfl, rfl⟩, ⟨rfl, rfl⟩, rfl⟩
  obtain ⟨s, one, two, ran, guards, same, liveOne, liveTwo, unforced⟩ := ran
  refine along.last _ ran 0 1 one two ?_ ?_ Nat.zero_ne_one same ⟨?_, ?_⟩
  · rw [guards]
    rfl
  · rw [guards]
    rfl
  · exact liveOne.passesEnsureLive unforced
  · exact liveTwo.passesEnsureLive unforced

/-- The same two instances, with the refresh on time: the second one finds a row
that lasts. -/
def promptRefreshRun : List SubjectLockAction :=
  [.spawn 1, .spawn 2, .start 0 "token:t", .readClock 0, .round 0 false, .tick 5001,
    .refreshWake 0, .refreshRead 0, .refreshRun 0 false, .tick 15000, .start 1 "token:t",
    .readClock 1, .round 1 false]

theorem promptRefreshRun_safe :
    subjectLockSystem.Guarded LeavesLiveRows .initial promptRefreshRun := by
  refine fun s₁ one => ⟨trivial, fun s₂ two => ⟨trivial, fun s₃ started => ⟨trivial, ?_⟩⟩⟩
  cases one
  cases two
  cases started
  refine fun s₄ read => ⟨trivial, fun s₅ acquired => ⟨?_, fun s₆ ticked => ⟨trivial, ?_⟩⟩⟩
  · cases read
    intro call now row listed read found
    cases listed
    cases read
    cases found
  cases read
  cases acquired
  cases ticked
  refine fun s₇ woken => ⟨trivial, fun s₈ read => ⟨trivial, fun s₉ refreshed => ⟨trivial, ?_⟩⟩⟩
  cases woken
  cases read
  cases refreshed
  refine fun s₁₀ ticked => ⟨trivial, fun s₁₁ started => ⟨trivial, fun s₁₂ read => ⟨trivial, ?_⟩⟩⟩
  cases ticked
  cases started
  cases read
  refine fun s₁₃ waited => ⟨?_, trivial⟩
  -- The refresh at second 5 has moved the expiry to second 25.
  intro call now row listed read found expired
  cases listed
  cases read
  cases found
  exact absurd expired (by decide)

theorem leases_exclusive_along_promptRefreshRun :
    subjectLockSystem.AlongRun LeasesExclusive .initial promptRefreshRun :=
  (leases_exclusive_while_rows_last SubjectLockState.Exclusive.initial promptRefreshRun
    promptRefreshRun_safe).1

end TavilyHikari.Store
