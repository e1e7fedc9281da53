/-
Module: TavilyHikari.Proofs.QuotaPrecheck
Purpose: The precheck under the lock never lets a request through without room for
  its reservation. Whoever holds the lease of a subject has replayed its pending
  charges, so the counters that the snapshot sums up are all that is recorded.
Trusted boundary: none
Main exports: RequestsSound, precheck_leaves_room_under_lock,
  precheck_passes_over_largest_limit
-/
import TavilyHikari.Proofs.BillingRequestSteps

namespace TavilyHikari.Store

open Library BillingDb

variable {localDayBucketStartUtcTs : Int → Int} {limits : QuotaSubject → QuotaLimits}

/-! ### All requests together -/

/-- Every request knows what it should, and no subject is leased twice. -/
structure RequestsSound (limits : QuotaSubject → QuotaLimits) (s : BillingRequestState) : Prop where
  current : LedgerCurrent s.db s.clock.secs
  requests : ∀ request ∈ s.requests, RequestSound limits s.db s.clock.secs request
  exclusive : ∀ (i j : Nat) (one two : BillingRequest), s.requests[i]? = some one →
    s.requests[j]? = some two → i ≠ j → ∀ subject ∈ one.leases, subject ∉ two.leases
  bounded : TotalsBounded limits s

/-- The bound on the totals stays while nothing is recorded and no request forgets
what it was charged. -/
theorem TotalsBounded.of_kept {s s' : BillingRequestState} (bounded : TotalsBounded limits s)
    (totals : ∀ subject window, s'.db.recordedInWindow subject window s'.clock.secs ≤
      s.db.recordedInWindow subject window s.clock.secs)
    (requests : ∀ request ∈ s.requests, ∃ request' ∈ s'.requests,
      request'.subject = request.subject ∧ request'.observed = request.observed ∧
        request'.reservedBillableTotal = request.reservedBillableTotal) :
    TotalsBounded limits s' := by
  intro subject window
  have total := totals subject window
  rcases bounded subject window with within | ⟨request, member, credits, own, charged, above⟩
  · exact .inl (total.trans within)
  · obtain ⟨request', member', same, observed, reserved⟩ := requests request member
    refine .inr ⟨request', member', credits, same.trans own, observed.trans charged, ?_⟩
    rw [reserved]
    exact total.trans above

namespace RequestsSound

/-- A step of one request that leaves the subjects of the others. -/
theorem of_set {s : BillingRequestState} {number : Nat} {request request' : BillingRequest}
    {db' : BillingDb} (sound : RequestsSound limits s)
    (listed : s.requests[number]? = some request)
    (current : LedgerCurrent db' s.clock.secs)
    (own : RequestSound limits db' s.clock.secs request')
    (others : ∀ subject, subject ∉ request.leases → LeavesSubject s.db db' subject)
    (leases : ∀ subject ∈ request'.leases, subject ∈ request.leases ∨ s.leaseFree subject = true)
    (bounded : TotalsBounded limits
      { s with db := db', requests := s.requests.set number request' }) :
    RequestsSound limits { s with db := db', requests := s.requests.set number request' } := by
  have bound := (List.getElem?_eq_some_iff.1 listed).1
  have foreign : ∀ (j : Nat) (other : BillingRequest), s.requests[j]? = some other → j ≠ number →
      ∀ subject ∈ other.leases, subject ∉ request'.leases := by
    intro j other found different subject leased taken
    rcases leases subject taken with before | free
    · exact sound.exclusive j number other request found listed different subject leased before
    · have free' := List.all_eq_true.1 free other (List.mem_of_getElem? found)
      exact of_decide_eq_true free' leased
  refine ⟨current, ?_, ?_, bounded⟩
  · intro other member
    obtain ⟨j, found⟩ := List.mem_iff_getElem?.1 member
    by_cases here : j = number
    · subst here
      rw [List.getElem?_set_self bound] at found
      cases found
      exact own
    · rw [List.getElem?_set_ne (Ne.symm here)] at found
      refine (sound.requests other (List.mem_of_getElem? found)).of_leaves fun subject leased => ?_
      exact others subject (sound.exclusive j number other request found listed here subject leased)
  · intro i j one two foundOne foundTwo different subject leased
    by_cases first : i = number
    · subst first
      rw [List.getElem?_set_self bound] at foundOne
      rw [List.getElem?_set_ne different] at foundTwo
      cases foundOne
      intro taken
      exact foreign j two foundTwo (Ne.symm different) subject taken leased
    · rw [List.getElem?_set_ne (Ne.symm first)] at foundOne
      by_cases second : j = number
      · subst second
        rw [List.getElem?_set_self bound] at foundTwo
        cases foundTwo
        exact foreign i one foundOne first subject leased
      · rw [List.getElem?_set_ne (Ne.symm second)] at foundTwo
        exact sound.exclusive i j one two foundOne foundTwo different subject leased

/-- A step that leaves every subject and every request. -/
theorem of_leaves {s : BillingRequestState} {db' : BillingDb} (sound : RequestsSound limits s)
    (current : LedgerCurrent db' s.clock.secs)
    (leaves : ∀ subject, LeavesSubject s.db db' subject) :
    RequestsSound limits { s with db := db' } where
  current := current
  requests := fun request member =>
    (sound.requests request member).of_leaves fun subject _ => leaves subject
  exclusive := sound.exclusive
  bounded := by
    refine sound.bounded.of_kept (fun subject window => ?_) fun request member =>
      ⟨request, member, rfl, rfl, rfl⟩
    exact Int.le_of_eq ((leaves subject.billingSubject).recorded subject rfl _)

theorem tick {s : BillingRequestState} (sound : RequestsSound limits s) {clock : UtcTimestamp}
    (after : s.clock.secs ≤ clock.secs) : RequestsSound limits { s with clock } where
  current := sound.current.tick after
  requests := fun request member => (sound.requests request member).tick sound.current after
  exclusive := sound.exclusive
  bounded := by
    refine sound.bounded.of_kept (fun subject window => ?_) fun request member =>
      ⟨request, member, rfl, rfl, rfl⟩
    exact (sound.current.past subject).recordedInWindow_le after window

/-- A request that has no lease and knows nothing yet. -/
theorem arrive {s : BillingRequestState} (sound : RequestsSound limits s)
    {request : BillingRequest} (fresh : request.leases = [])
    (known : RequestSound limits s.db s.clock.secs request) :
    RequestsSound limits { s with requests := s.requests ++ [request] } where
  current := sound.current
  requests := by
    intro other member
    rcases List.mem_append.1 member with old | new
    · exact sound.requests other old
    · rw [List.mem_singleton.1 new]
      exact known
  exclusive := by
    have split : ∀ (i : Nat) (other : BillingRequest),
        (s.requests ++ [request])[i]? = some other →
          s.requests[i]? = some other ∨ other = request := by
      intro i other found
      rw [List.getElem?_append] at found
      split at found
      · exact .inl found
      · exact .inr (List.mem_singleton.1 (List.mem_of_getElem? found))
    intro i j one two foundOne foundTwo different subject leased
    rcases split i one foundOne with oldOne | newOne
    · rcases split j two foundTwo with oldTwo | newTwo
      · exact sound.exclusive i j one two oldOne oldTwo different subject leased
      · rw [newTwo, fresh]
        exact List.not_mem_nil
    · rw [newOne, fresh] at leased
      cases leased
  bounded := sound.bounded.of_kept (fun _ _ => Int.le_refl _) fun other member =>
    ⟨other, List.mem_append_left _ member, rfl, rfl, rfl⟩

/-- What becomes of the requests when one of them changes, but not in what it was
charged. -/
theorem kept_of_set {s : BillingRequestState} {number : Nat} {request request' : BillingRequest}
    (listed : s.requests[number]? = some request) (subject : request'.subject = request.subject)
    (observed : request'.observed = request.observed)
    (reserved : request'.reservedBillableTotal = request.reservedBillableTotal) :
    ∀ other ∈ s.requests, ∃ other' ∈ s.requests.set number request',
      other'.subject = other.subject ∧ other'.observed = other.observed ∧
        other'.reservedBillableTotal = other.reservedBillableTotal := by
  intro other member
  have bound := (List.getElem?_eq_some_iff.1 listed).1
  obtain ⟨j, found⟩ := List.mem_iff_getElem?.1 member
  by_cases here : j = number
  · subst here
    rw [listed] at found
    cases found
    exact ⟨request', List.mem_set bound request', subject, observed, reserved⟩
  · rw [← List.getElem?_set_ne (Ne.symm here)] at found
    exact ⟨other, List.mem_of_getElem? found, rfl, rfl, rfl⟩

theorem advance {s : BillingRequestState} {number : Nat} {request : BillingRequest}
    {healthy : Option Nat} {next : BillingDb × BillingRequest}
    (below : ∀ subject window, (limits subject).limit window < i64Max)
    (sound : RequestsSound limits s) (listed : s.requests[number]? = some request)
    (taken : s.advance localDayBucketStartUtcTs limits request healthy = some next) :
    RequestsSound limits { s with db := next.1, requests := s.requests.set number next.2 } := by
  have own := AdvanceStep.of_advance below sound.current
    (sound.requests request (List.mem_of_getElem? listed)) taken
  refine sound.of_set listed own.current own.sound own.others own.leases ?_
  refine sound.bounded.of_kept (fun subject window => ?_)
    (kept_of_set listed own.subject own.observed own.reserved)
  exact Int.le_of_eq (own.recorded subject _)

theorem leave {s : BillingRequestState} (sound : RequestsSound limits s) (number : Nat) :
    RequestsSound limits { s with requests := s.requests.modify number BillingRequest.finish } := by
  cases listed : s.requests[number]? with
  | none =>
      rw [List.modify_eq_self (List.getElem?_eq_none_iff.1 listed)]
      exact sound
  | some request =>
      have same : s.requests.modify number BillingRequest.finish =
          s.requests.set number request.finish := by
        rw [List.modify_eq_set_getElem?, listed]
        rfl
      rw [same]
      refine sound.of_set listed sound.current (.finish s.db _ request)
        (fun subject _ => .refl s.db subject) (by simp) ?_
      exact sound.bounded.of_kept (fun _ _ => Int.le_refl _) (kept_of_set listed rfl rfl rfl)

/-- A recorded charge takes the totals at most as far past a limit as it goes past
the reservation. -/
theorem record {s : BillingRequestState} {number : Nat} {request : BillingRequest}
    {attempt : PendingBillingAttempt} (sound : RequestsSound limits s)
    (listed : s.requests[number]? = some request) (passed : request.phase = .passed)
    (costs : 0 < attempt.businessCredits)
    (owner : attempt.billingSubject = request.subject.billingSubject) :
    RequestsSound limits
      { s with
        db := (insertTokenLogPendingBilling s.db attempt s.clock).2
        requests :=
          s.requests.set number
            { request with
              phase := .recorded (insertTokenLogPendingBilling s.db attempt s.clock).1
              observed := some attempt.businessCredits } } := by
  have bound := (List.getElem?_eq_some_iff.1 listed).1
  have known := (sound.requests request (List.mem_of_getElem? listed)).phase
  rw [passed] at known
  obtain ⟨held, room⟩ := known
  have total : ∀ subject counts,
      (insertTokenLogPendingBilling s.db attempt s.clock).2.recordedWhere subject counts =
        s.db.recordedWhere subject counts +
          (attempt.row s.clock).recordedFor subject counts := by
    intro subject counts
    rw [recordedWhere_eq, recordedWhere_eq]
    exact AutoIncrement.total_insert _ _ _
  have foreign : ∀ subject : QuotaSubject, subject ≠ request.subject → ∀ counts,
      (attempt.row s.clock).recordedFor subject counts = 0 := by
    intro subject other counts
    rw [AuthTokenLog.recordedFor, if_neg]
    rintro ⟨⟨_, _, named⟩, _⟩
    rw [PendingBillingAttempt.row, Option.some.injEq, owner] at named
    exact other (QuotaSubject.billingSubject_injective named).symm
  have most : ∀ subject counts,
      (attempt.row s.clock).recordedFor subject counts ≤ attempt.businessCredits := by
    intro subject counts
    rw [AuthTokenLog.recordedFor]
    split
    · exact Int.le_refl _
    · exact Int.le_of_lt costs
  refine sound.of_set listed (sound.current.insert attempt) ⟨?_, trivial⟩ ?_ ?_ ?_
  · intro running
    exact absurd rfl (running _)
  · intro subject notLeased
    have other : subject ≠ request.subject.billingSubject := by
      rintro rfl
      exact notLeased (BillingRequest.held_subset_leases held)
    refine ⟨?_, ?_, fun _ _ _ => rfl⟩
    · intro logId pending
      obtain ⟨row, found, state, named, credits⟩ := mem_listPendingBillingLogIds.1 pending
      refine mem_listPendingBillingLogIds.2 ⟨row, ?_, state, named, credits⟩
      by_cases new : logId = s.db.authTokenLogs.last + 1
      · subst new
        rw [insertTokenLogPendingBilling, AutoIncrement.find_insert_self] at found
        cases found
        rw [PendingBillingAttempt.row, Option.some.injEq, owner] at named
        exact absurd named.symm other
      · rw [insertTokenLogPendingBilling, AutoIncrement.find_insert_of_ne _ new] at found
        exact found
    · intro quotaSubject named counts
      rw [total, foreign quotaSubject (fun same => other (by rw [← named, same])) counts,
        Int.add_zero]
  · intro subject leased
    simp only [BillingRequest.leases, BillingPhase.leased, List.append_nil] at leased
    exact .inl (BillingRequest.held_subset_leases leased)
  · intro subject window
    by_cases own : subject = request.subject
    · subst own
      refine .inr ⟨_, List.mem_set bound _, attempt.businessCredits, rfl, rfl, ?_⟩
      have before := room window
      have added := most request.subject (window.counts s.clock.secs)
      simp only [recordedInWindow] at before ⊢
      rw [total]
      omega
    · have same : (insertTokenLogPendingBilling s.db attempt s.clock).2.recordedInWindow subject
          window s.clock.secs = s.db.recordedInWindow subject window s.clock.secs := by
        rw [recordedInWindow, total, foreign subject own, Int.add_zero]
        rfl
      rw [same]
      rcases sound.bounded subject window with within |
        ⟨other, member, credits, named, charged, above⟩
      · exact .inl within
      · obtain ⟨j, found⟩ := List.mem_iff_getElem?.1 member
        have elsewhere : number ≠ j := by
          rintro rfl
          rw [listed] at found
          cases found
          exact own named.symm
        rw [← List.getElem?_set_ne elsewhere] at found
        exact .inr ⟨other, List.mem_of_getElem? found, credits, named, charged, above⟩

/-- One step of anybody. -/
theorem step {s s' : BillingRequestState} {action : BillingRequestAction}
    (below : ∀ subject window, (limits subject).limit window < i64Max)
    (sound : RequestsSound limits s)
    (taken : (billingRequestSystem localDayBucketStartUtcTs limits).step s action = some s') :
    RequestsSound limits s' := by
  simp only [billingRequestSystem] at taken
  cases action with
  | tick clock =>
      simp only [BillingRequestState.step, Option.ite_none_right_eq_some,
        Option.some.injEq] at taken
      obtain ⟨after, rfl⟩ := taken
      exact sound.tick after
  | arrive tokenId subject reservedBillableTotal =>
      cases taken
      refine sound.arrive rfl ⟨?_, trivial⟩
      simp
  | advance number healthy =>
      simp only [BillingRequestState.step] at taken
      split at taken
      · cases taken
      · rename_i request listed
        obtain ⟨next, advanced, rfl⟩ := Option.map_eq_some_iff.1 taken
        exact sound.advance below listed advanced
  | record number attempt =>
      simp only [BillingRequestState.step] at taken
      split at taken
      · cases taken
      · rename_i request listed
        split at taken
        · rename_i allowed
          cases taken
          exact sound.record listed allowed.1 allowed.2.1 allowed.2.2
        · cases taken
  | leave number =>
      cases taken
      exact sound.leave number
  | replay logId healthy =>
      cases taken
      exact sound.of_leaves (sound.current.apply _ logId healthy)
        (applyPendingBillingLog_leaves _ logId healthy s.db)
  | annotate logId message =>
      cases taken
      exact sound.of_leaves (sound.current.annotate logId message)
        (annotatePendingBillingLog_leaves s.db logId message)

theorem passedWithinLimits {s : BillingRequestState} (sound : RequestsSound limits s) :
    PassedWithinLimits limits s := by
  intro request member passed window
  have known := (sound.requests request member).phase
  rw [passed] at known
  exact known.2 window

/-- A database without requests, with no total past its limit. Charges may be
pending in it. -/
theorem of_no_requests {clock : UtcTimestamp} {db : BillingDb} (current : LedgerCurrent db clock.secs)
    (within : ∀ subject window,
      db.recordedInWindow subject window clock.secs ≤ max ((limits subject).limit window) 0) :
    RequestsSound limits ⟨clock, db, []⟩ where
  current := current
  requests := by simp
  exclusive := by simp
  bounded := fun subject window => .inl (within subject window)

end RequestsSound

/-! ### Runs -/

/-- However requests come, wait, replay, break off and leave charges pending: a
request that has passed the precheck has room for its reservation in every window,
counting all that is recorded, and no total goes further past a limit than one
request was charged over its reservation. No limit is the largest integer. -/
theorem precheck_leaves_room_under_lock
    (below : ∀ subject window, (limits subject).limit window < i64Max)
    {s : BillingRequestState} (sound : RequestsSound limits s)
    (actions : List BillingRequestAction) :
    (billingRequestSystem localDayBucketStartUtcTs limits).AlongRun
      (fun t => PassedWithinLimits limits t ∧ TotalsBounded limits t) s actions := by
  have along :=
    (billingRequestSystem localDayBucketStartUtcTs limits).alongRun_of_preserved
      (fun _ _ _ sound taken => sound.step below taken) sound actions
  exact along.mono _ fun _ sound => ⟨sound.passedWithinLimits, sound.bounded⟩

/-- A request of one token, from its arrival to the decision of the precheck. -/
def requestUpToPrecheck (number : Nat) (reservedBillableTotal : Int) (pending : Nat) :
    List BillingRequestAction :=
  .arrive "t" (.token "t") reservedBillableTotal ::
    List.replicate (9 + pending) (.advance number none)

/-- A charge of the token that the upstream has answered with. -/
def tokenCharge (businessCredits : Int) : PendingBillingAttempt where
  tokenId := "t"
  httpStatus := some 200
  mcpStatus := none
  countsBusinessQuota := true
  resultStatus := "success"
  errorMessage := none
  businessCredits
  billingSubject := "token:t"
  apiKeyId := none
  requestLogId := none

/-- A first request records nearly as much as an integer holds and is settled, then
a second one asks for more than is left. -/
def largestLimitRun : List BillingRequestAction :=
  requestUpToPrecheck 0 1 0 ++ [.record 0 (tokenCharge 9223372036854775806), .advance 0 none] ++
    requestUpToPrecheck 1 4 0

/-- With a limit of `i64::MAX` the sum in `quota_would_exceed` stops at the limit
and never passes it. -/
theorem precheck_passes_over_largest_limit :
    ¬ (billingRequestSystem id fun _ => ⟨i64Max, i64Max, i64Max⟩).AlongRun
      (PassedWithinLimits fun _ => ⟨i64Max, i64Max, i64Max⟩) ⟨default, .empty, []⟩
      largestLimitRun := by
  intro along
  have ran : ∃ s request,
      (billingRequestSystem id fun _ => ⟨i64Max, i64Max, i64Max⟩).run ⟨default, .empty, []⟩
        largestLimitRun = some s ∧
      s.requests[1]? = some request ∧ request.phase = .passed ∧
      request.reservedBillableTotal = 4 ∧
      s.db.recordedInWindow request.subject .month s.clock.secs = 9223372036854775806 := by
    refine ⟨_, _, rfl, rfl, rfl, rfl, ?_⟩
    decide
  obtain ⟨s, request, ran, listed, passed, reserved, total⟩ := ran
  have room := along.last _ ran request (List.mem_of_getElem? listed) passed .month
  rw [total, reserved] at room
  have overrun : ¬ 9223372036854775806 + reservation 4 ≤ i64Max := by decide
  exact overrun room

/-- A first request records its charge and breaks off before it is settled; a
second one replays the charge and is refused. -/
def replayedChargeRun : List BillingRequestAction :=
  requestUpToPrecheck 0 1 0 ++ [.record 0 (tokenCharge 7), .leave 0] ++ requestUpToPrecheck 1 4 1

theorem precheck_leaves_room_along_replayedChargeRun :
    (billingRequestSystem id fun _ => ⟨10, 100, 1000⟩).AlongRun
      (fun t => (PassedWithinLimits fun _ => ⟨10, 100, 1000⟩) t ∧
        (TotalsBounded fun _ => ⟨10, 100, 1000⟩) t) ⟨default, .empty, []⟩ replayedChargeRun := by
  apply precheck_leaves_room_under_lock
  · intro subject window
    cases window with
    | hour => decide
    | day => decide
    | month => decide
  · apply RequestsSound.of_no_requests (.of_empty _)
    intro subject window
    exact Int.le_max_right _ _

end TavilyHikari.Store
