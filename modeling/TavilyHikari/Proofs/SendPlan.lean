/-
Module: TavilyHikari.Proofs.SendPlan
Purpose: Which plans are executed with one attempt for each endpoint: all but those that hold the
  direct connection and fail as a whole while it is there as the last resort. The maintenance
  before the plan records at most one probe, and no attempt of the request.
Trusted boundary: none
Main exports: maintenance_cases, sendToCandidates_spec, DirectTwice, planExecution_iff
-/
import TavilyHikari.ForwardProxy.SendPlan
import TavilyHikari.Library.Collect
import TavilyHikari.Proofs.AttemptPlan

namespace TavilyHikari.ForwardProxy

open Library ForwardProxyManager

variable {Response : Type} {outcomes : SendOutcomes Response} {affinityOwnerKeyId : Option String}

/-! ### Events of attempts -/

/-- The events are those of the attempts, in their order. -/
structure Traced (tried : List (PlannedAttempt Response)) (events : List SendEvent) : Prop where
  sent : sentKeys events = (tried.filter PlannedAttempt.sent).map PlannedAttempt.key
  flags : ∀ key, recordedFlags key events =
    (tried.filter fun attempt => attempt.key = key).map fun attempt => attempt.response.isSome

theorem traced_nil : Traced ([] : List (PlannedAttempt Response)) [] :=
  ⟨rfl, fun _ => rfl⟩

theorem Traced.append {first second : List (PlannedAttempt Response)}
    {events later : List SendEvent} (one : Traced first events) (two : Traced second later) :
    Traced (first ++ second) (events ++ later) where
  sent := by
    have keys : sentKeys (events ++ later) = sentKeys events ++ sentKeys later :=
      List.filterMap_append
    rw [keys, one.sent, two.sent, List.filter_append, List.map_append]
  flags := by
    intro key
    have flags : recordedFlags key (events ++ later) =
        recordedFlags key events ++ recordedFlags key later := List.filterMap_append
    rw [flags, one.flags, two.flags, List.filter_append, List.map_append]

/-- A client that cannot be built. -/
theorem traced_unbuilt {attempt : PlannedAttempt Response} (unsent : attempt.sent = false)
    (failed : attempt.Failed) (failureKind : Option String) :
    Traced [attempt] [.recorded attempt.key false none failureKind false] where
  sent := by
    rw [List.filter_cons_of_neg (by rw [unsent]; exact Bool.false_ne_true)]
    rfl
  flags := by
    intro key
    unfold recordedFlags PlannedAttempt.Failed at *
    by_cases same : attempt.key = key
    · simp [same, failed]
    · simp [same]

/-- A request that is sent and recorded with its outcome; a promotion shows in neither. -/
theorem traced_sent {attempt : PlannedAttempt Response} (sent : attempt.sent = true)
    (latencyMs : Option ℚ) (failureKind : Option String) (promotion : Option SendEvent)
    (promotes : ∀ event, promotion = some event → ∃ apiKeyId key, event = .promoted apiKeyId key) :
    Traced [attempt] (.sent attempt.key ::
      .recorded attempt.key attempt.response.isSome latencyMs failureKind false ::
        promotion.toList) := by
  have silent : sentKeys promotion.toList = [] ∧ ∀ key, recordedFlags key promotion.toList = [] := by
    cases promotion with
    | none => exact ⟨rfl, fun _ => rfl⟩
    | some event =>
        obtain ⟨apiKeyId, key, rfl⟩ := promotes event rfl
        exact ⟨rfl, fun _ => rfl⟩
  constructor
  · rw [List.filter_cons_of_pos sent]
    change attempt.key :: sentKeys promotion.toList = _
    rw [silent.1]
    rfl
  · intro key
    by_cases same : attempt.key = key
    · have flags : recordedFlags key (.sent attempt.key ::
          .recorded attempt.key attempt.response.isSome latencyMs failureKind false ::
            promotion.toList) =
          attempt.response.isSome :: recordedFlags key promotion.toList := by
        simp [recordedFlags, same]
      rw [flags, silent.2]
      simp [same]
    · have flags : recordedFlags key (.sent attempt.key ::
          .recorded attempt.key attempt.response.isSome latencyMs failureKind false ::
            promotion.toList) = recordedFlags key promotion.toList := by
        simp [recordedFlags, same]
      rw [flags, silent.2]
      simp [same]

/-- With keys of their own the attempts that left these events are the ones that were made. -/
theorem Traced.tried {tried : List (PlannedAttempt Response)} {events : List SendEvent}
    (traced : Traced tried events) (distinct : (tried.map PlannedAttempt.key).Nodup) :
    Tried tried events where
  sent := traced.sent
  recorded := by
    intro attempt member
    rw [traced.flags]
    have keyed : (tried.filterMap (some ∘ PlannedAttempt.key)).Nodup := by
      rw [List.filterMap_eq_map]
      exact distinct
    have alone := filter_key_eq_singleton keyed member rfl
    simp only [Function.comp_apply, Option.some.injEq] at alone
    rw [alone]
    rfl
  untried := by
    intro key absent
    rw [traced.flags, List.map_eq_nil_iff, List.filter_eq_nil_iff]
    intro attempt member same
    exact absent (List.mem_map.2 ⟨attempt, member, of_decide_eq_true same⟩)

/-- No endpoint of the attempts that were made has two records. -/
theorem Tried.length_le_one {tried : List (PlannedAttempt Response)} {events : List SendEvent}
    (made : Tried tried events) (key : String) : (recordedFlags key events).length ≤ 1 := by
  by_cases member : key ∈ tried.map PlannedAttempt.key
  · obtain ⟨attempt, there, rfl⟩ := List.mem_map.1 member
    rw [made.recorded attempt there]
    exact Nat.le_refl 1
  · rw [made.untried key member]
    exact Nat.zero_le 1

/-! ### Maintenance -/

/-- The endpoint that is probed is one of the manager's, before and after the start. -/
theorem endpoint_of_markProbeStarted {manager started : ForwardProxyManager} {now : Int}
    {selected : ForwardProxyEndpoint}
    (starts : manager.markProbeStarted now = some (selected, started)) :
    started.endpoint selected.key = some selected := by
  unfold markProbeStarted at starts
  split_ifs at starts
  obtain ⟨endpoint, chosen, same⟩ := Option.map_eq_some_iff.1 starts
  cases same
  obtain ⟨row, _, found⟩ := Option.bind_eq_some_iff.1 chosen
  have key : selected.key = row.1 := (endpoint_of_find found).2
  rw [key]
  exact found

/-- The maintenance leaves nothing behind, or one probe with its record. -/
theorem maintenance_cases (met : MaintenanceOutcomes) :
    (maybeRunForwardProxyMaintenance met).1 = [] ∨
      ∃ proxyKey success latencyMs failureKind, (maybeRunForwardProxyMaintenance met).1 =
        [.probeStarted proxyKey, .recorded proxyKey success latencyMs failureKind true,
          .probeFinished] := by
  unfold maybeRunForwardProxyMaintenance
  simp only
  split
  case h_1 => exact .inl rfl
  case h_2 =>
    split
    case h_1 => exact .inl rfl
    case h_2 selected started starts =>
      rw [endpoint_of_markProbeStarted starts]
      right
      cases outcome : met.probe selected with
      | ok latencyMs => exact ⟨selected.key, true, some latencyMs, none, by simp only [outcome]⟩
      | error err =>
          exact ⟨selected.key, false, none, some (mapForwardProxyValidationErrorCode err),
            by simp only [outcome]⟩

/-- A probe is no attempt of the request. -/
theorem traced_maintenance (met : MaintenanceOutcomes) :
    Traced ([] : List (PlannedAttempt Response))
      (.requestNoted :: (maybeRunForwardProxyMaintenance met).1) := by
  rcases maintenance_cases met with idle | ⟨proxyKey, success, latencyMs, failureKind, probed⟩
  · rw [idle]
    exact ⟨rfl, fun _ => rfl⟩
  · rw [probed]
    exact ⟨rfl, fun _ => rfl⟩

theorem probedKeys_maintenance (met : MaintenanceOutcomes) :
    (probedKeys (.requestNoted :: (maybeRunForwardProxyMaintenance met).1)).length ≤ 1 := by
  rcases maintenance_cases met with idle | ⟨proxyKey, success, latencyMs, failureKind, probed⟩
  · rw [idle]
    exact Nat.zero_le 1
  · rw [probed]
    exact Nat.le_refl 1

/-! ### The loop over the plan -/

theorem planAttempts_cons (index : Nat) (candidate : SelectedForwardProxy)
    (plan : List SelectedForwardProxy) :
    planAttempts outcomes index (candidate :: plan) =
      plannedAttempt outcomes (candidate, index) :: planAttempts outcomes (index + 1) plan := by
  unfold planAttempts
  rw [List.zipIdx_cons, List.map_cons]

theorem keys_planAttempts (index : Nat) (plan : List SelectedForwardProxy) :
    (planAttempts outcomes index plan).map PlannedAttempt.key =
      plan.map SelectedForwardProxy.key := by
  induction plan generalizing index with
  | nil => rfl
  | cons candidate plan ih =>
      rw [planAttempts_cons, List.map_cons, List.map_cons, ih]
      rfl

/-- What the loop has done with the attempts that were due. -/
inductive LoopEnd (due : List (PlannedAttempt Response)) : List SendEvent →
    Except (Option ProxyError) (Response × SelectedForwardProxy) → Prop where
  | answered (before : List (PlannedAttempt Response)) (attempt : PlannedAttempt Response)
      (after : List (PlannedAttempt Response)) (response : Response) {events : List SendEvent}
      (split : due = before ++ attempt :: after) (failed : ∀ earlier ∈ before, earlier.Failed)
      (answer : attempt.response = some response) (traced : Traced (before ++ [attempt]) events) :
      LoopEnd due events (.ok (response, attempt.candidate))
  | exhausted (lastError : Option ProxyError) {events : List SendEvent}
      (failed : ∀ attempt ∈ due, attempt.Failed) (traced : Traced due events) :
      LoopEnd due events (.error lastError)

/-- A failed attempt before everything else. -/
theorem LoopEnd.cons {due : List (PlannedAttempt Response)} {events here : List SendEvent}
    {result : Except (Option ProxyError) (Response × SelectedForwardProxy)}
    {attempt : PlannedAttempt Response} (ended : LoopEnd due events result)
    (failed : attempt.Failed) (traced : Traced [attempt] here) :
    LoopEnd (attempt :: due) (here ++ events) result := by
  have headed {P : PlannedAttempt Response → Prop} {rest : List (PlannedAttempt Response)}
      (head : P attempt) (tail : ∀ other ∈ rest, P other) : ∀ other ∈ attempt :: rest, P other :=
    List.forall_mem_cons.2 ⟨head, tail⟩
  cases ended with
  | answered before answering after response split earlier answer later =>
      refine .answered (attempt :: before) answering after response ?_ (headed failed earlier)
        answer (traced.append later)
      rw [split, List.cons_append]
  | exhausted lastError all later =>
      exact .exhausted lastError (headed failed all) (traced.append later)

/-- What leaves no attempt may have come before. -/
theorem LoopEnd.after {due : List (PlannedAttempt Response)} {events before : List SendEvent}
    {result : Except (Option ProxyError) (Response × SelectedForwardProxy)}
    (ended : LoopEnd due events result)
    (quiet : Traced ([] : List (PlannedAttempt Response)) before) :
    LoopEnd due (before ++ events) result := by
  cases ended with
  | answered earlier attempt later response split failed answer traced =>
      exact .answered earlier attempt later response split failed answer (quiet.append traced)
  | exhausted lastError failed traced => exact .exhausted lastError failed (quiet.append traced)

theorem sendToCandidates_spec (index : Nat) (lastError : Option ProxyError)
    (plan : List SelectedForwardProxy) :
    LoopEnd (planAttempts outcomes index plan)
      (sendToCandidates outcomes affinityOwnerKeyId index lastError plan).1
      (sendToCandidates outcomes affinityOwnerKeyId index lastError plan).2 := by
  induction plan generalizing index lastError with
  | nil => exact .exhausted lastError (fun _ member => absurd member List.not_mem_nil) traced_nil
  | cons candidate plan ih =>
      rw [planAttempts_cons]
      unfold sendToCandidates
      cases built : outcomes.clientFor index candidate.endpointUrl with
      | error err =>
          have unsent : (plannedAttempt outcomes (candidate, index)).sent = false := by
            simp [plannedAttempt, built, Except.toOption]
          have failed : (plannedAttempt outcomes (candidate, index)).Failed := by
            simp [PlannedAttempt.Failed, plannedAttempt, built, Except.toOption]
          exact (ih (index + 1) (some err)).cons failed (traced_unbuilt unsent failed _)
      | ok client =>
          have sent : (plannedAttempt outcomes (candidate, index)).sent = true := by
            simp [plannedAttempt, built, Except.toOption]
          simp only
          cases answer : outcomes.send index client with
          | ok answered =>
              obtain ⟨response, latencyMs⟩ := answered
              have responded : (plannedAttempt outcomes (candidate, index)).response =
                  some response := by
                simp [plannedAttempt, built, answer, Except.toOption]
              have traced := traced_sent sent (some latencyMs) none
                (affinityOwnerKeyId.map fun apiKeyId => .promoted apiKeyId candidate.key) (by
                  intro event promoted
                  obtain ⟨apiKeyId, _, rfl⟩ := Option.map_eq_some_iff.1 promoted
                  exact ⟨apiKeyId, candidate.key, rfl⟩)
              rw [responded] at traced
              exact .answered [] (plannedAttempt outcomes (candidate, index)) _ response rfl
                (fun _ member => absurd member List.not_mem_nil) responded traced
          | error err =>
              have failed : (plannedAttempt outcomes (candidate, index)).Failed := by
                simp [PlannedAttempt.Failed, plannedAttempt, built, answer, Except.toOption]
              have traced := traced_sent sent none (some (failureKindFromHttpError err)) none
                (fun _ none => by cases none)
              rw [failed] at traced
              exact (ih (index + 1) (some (.http err))).cons failed traced

/-- The loop probes nothing. -/
theorem probedKeys_sendToCandidates (index : Nat) (lastError : Option ProxyError)
    (plan : List SelectedForwardProxy) :
    probedKeys (sendToCandidates outcomes affinityOwnerKeyId index lastError plan).1 = [] := by
  induction plan generalizing index lastError with
  | nil => rfl
  | cons candidate plan ih =>
      unfold sendToCandidates
      cases outcomes.clientFor index candidate.endpointUrl with
      | error err => exact ih (index + 1) (some err)
      | ok client =>
          simp only
          cases outcomes.send index client with
          | ok answered => cases affinityOwnerKeyId <;> rfl
          | error err => exact ih (index + 1) (some (.http err))

/-! ### The last resort -/

/-- The direct connection is in the plan, nothing in the plan answers, and the manager still has
the direct connection. -/
def DirectTwice (outcomes : SendOutcomes Response) (later : ForwardProxyManager)
    (plan : List SelectedForwardProxy) : Prop :=
  forwardProxyDirectKey ∈ plan.map SelectedForwardProxy.key ∧
    (∀ attempt ∈ planAttempts outcomes 0 plan, attempt.Failed) ∧
    (directCandidate later).isSome = true

theorem directCandidate_key {later : ForwardProxyManager} {direct : SelectedForwardProxy}
    (there : directCandidate later = some direct) : direct.key = forwardProxyDirectKey := by
  obtain ⟨endpoint, found, rfl⟩ := Option.map_eq_some_iff.1 there
  exact (endpoint_of_find (Option.filter_eq_some_iff.1 found).1).2

/-- Due attempts with keys of their own are enough. -/
theorem planExecution_of_loopEnd {due : List (PlannedAttempt Response)} {events : List SendEvent}
    {result : Except (Option ProxyError) (Response × SelectedForwardProxy)}
    (distinct : (due.map PlannedAttempt.key).Nodup) (ended : LoopEnd due events result)
    (probedOnce : (probedKeys events).length ≤ 1) (noAnswer : Option ProxyError → ProxyError) :
    PlanExecution due events (result.mapError noAnswer) := by
  have keysOnce {tried : List (PlannedAttempt Response)} (traced : Traced tried events)
      (distinct : (tried.map PlannedAttempt.key).Nodup) : (sentKeys events).Nodup := by
    rw [traced.sent]
    exact distinct.sublist (List.filter_sublist.map _)
  cases ended with
  | answered before attempt after response split failed answer traced =>
      have made : ((before ++ [attempt]).map PlannedAttempt.key).Nodup := by
        have front : (before ++ [attempt]).Sublist due := by
          rw [split]
          exact List.Sublist.append_left (List.singleton_sublist.2 List.mem_cons_self) before
        exact distinct.sublist (front.map _)
      refine ⟨keysOnce traced made, probedOnce, ?_, ?_⟩
      · intro response' candidate same
        cases same
        exact ⟨before, attempt, after, split, failed, rfl, answer, traced.tried made⟩
      · intro err same
        cases same
  | exhausted lastError failed traced =>
      refine ⟨keysOnce traced distinct, probedOnce, ?_, ?_⟩
      · intro response candidate same
        cases same
      · intro err _
        exact ⟨failed, traced.tried distinct⟩

theorem dueAttempts_of_none {later : ForwardProxyManager} {plan : List SelectedForwardProxy}
    (gone : directCandidate later = none) :
    dueAttempts outcomes later plan = planAttempts outcomes 0 plan := by
  unfold dueAttempts
  rw [gone]
  exact List.append_nil _

theorem dueAttempts_of_some {later : ForwardProxyManager} {plan : List SelectedForwardProxy}
    {direct : SelectedForwardProxy} (there : directCandidate later = some direct) :
    dueAttempts outcomes later plan =
      planAttempts outcomes 0 plan ++ [directAttempt outcomes plan.length direct] := by
  unfold dueAttempts
  rw [there]
  rfl

/-- A response that the plan has given is not affected by what would be due after it. -/
theorem PlanExecution.append {due more : List (PlannedAttempt Response)} {events : List SendEvent}
    {answer : Response × SelectedForwardProxy} (execution : PlanExecution due events (.ok answer)) :
    PlanExecution (due ++ more) events (.ok answer) where
  sentOnce := execution.sentOnce
  probedOnce := execution.probedOnce
  answered := by
    intro response candidate same
    obtain ⟨before, attempt, after, split, rest⟩ := execution.answered response candidate same
    refine ⟨before, attempt, after ++ more, ?_, rest⟩
    rw [split, List.append_assoc, List.cons_append]
  failed := by
    intro err same
    cases same

/-- The plan answers, or it fails as a whole and the last resort decides. -/
theorem executePlan_spec (outcomes : SendOutcomes Response) (affinityOwnerKeyId : Option String)
    (later : ForwardProxyManager) (plan : List SelectedForwardProxy) :
    let run := executePlan outcomes affinityOwnerKeyId later plan
    (∃ answer, LoopEnd (planAttempts outcomes 0 plan) run.1 (.ok answer) ∧ run.2 = .ok answer) ∨
      (∀ attempt ∈ planAttempts outcomes 0 plan, attempt.Failed) ∧
        Traced (dueAttempts outcomes later plan) run.1 ∧
        ∃ result noAnswer, LoopEnd (dueAttempts outcomes later plan) run.1 result ∧
          run.2 = result.mapError noAnswer := by
  intro run
  have loop := @sendToCandidates_spec _ outcomes affinityOwnerKeyId 0 none plan
  cases ran : sendToCandidates outcomes affinityOwnerKeyId 0 none plan with
  | mk events result =>
  rw [ran] at loop
  have run_eq : run = executePlan outcomes affinityOwnerKeyId later plan := rfl
  unfold executePlan at run_eq
  rw [ran] at run_eq
  cases result with
  | ok answer =>
      left
      rw [run_eq]
      exact ⟨answer, loop, rfl⟩
  | error lastError =>
      right
      cases loop with
      | exhausted _ failed traced =>
      refine ⟨failed, ?_⟩
      cases there : directCandidate later with
      | none =>
          rw [there] at run_eq
          rw [run_eq, dueAttempts_of_none there]
          exact ⟨traced, .error lastError,
            fun lastError =>
              lastError.getD (.other "no selectable forward proxy endpoints available"),
            .exhausted lastError failed traced, rfl⟩
      | some direct =>
          rw [there] at run_eq
          simp only at run_eq
          rw [dueAttempts_of_some there]
          have isSent : (directAttempt outcomes plan.length direct).sent = true := rfl
          cases answer : outcomes.send plan.length none with
          | ok answered =>
              obtain ⟨response, latencyMs⟩ := answered
              rw [answer] at run_eq
              have responded : (directAttempt outcomes plan.length direct).response =
                  some response := by
                simp [directAttempt, answer, Except.toOption]
              have last := traced_sent isSent (some latencyMs) none none
                (fun _ none => by cases none)
              rw [responded] at last
              have whole := traced.append last
              rw [run_eq]
              refine ⟨whole, .ok (response, direct), fun _ => .noAvailableKeys, ?_, rfl⟩
              exact .answered _ (directAttempt outcomes plan.length direct) [] response rfl failed
                responded whole
          | error err =>
              rw [answer] at run_eq
              have unanswered : (directAttempt outcomes plan.length direct).Failed := by
                simp [PlannedAttempt.Failed, directAttempt, answer, Except.toOption]
              have last := traced_sent isSent none (some (failureKindFromHttpError err)) none
                (fun _ none => by cases none)
              rw [unanswered] at last
              have whole := traced.append last
              rw [run_eq]
              refine ⟨whole, .error lastError, fun lastError => lastError.getD (.http err), ?_, rfl⟩
              apply LoopEnd.exhausted lastError _ whole
              intro attempt member
              rcases List.mem_append.1 member with planned | isLast
              · exact failed attempt planned
              · rw [List.mem_singleton.1 isLast]
                exact unanswered

theorem probedKeys_executePlan (outcomes : SendOutcomes Response)
    (affinityOwnerKeyId : Option String) (later : ForwardProxyManager)
    (plan : List SelectedForwardProxy) :
    probedKeys (executePlan outcomes affinityOwnerKeyId later plan).1 = [] := by
  have loop := @probedKeys_sendToCandidates _ outcomes affinityOwnerKeyId 0 none plan
  unfold executePlan
  cases ran : sendToCandidates outcomes affinityOwnerKeyId 0 none plan with
  | mk events result =>
  rw [ran] at loop
  have more (last : List SendEvent) (none : probedKeys last = []) :
      probedKeys (events ++ last) = [] := by
    have both : probedKeys (events ++ last) = probedKeys events ++ probedKeys last :=
      List.filterMap_append
    rw [both, loop, none, List.append_nil]
  cases result with
  | ok answer => exact loop
  | error lastError =>
      cases directCandidate later with
      | none => exact loop
      | some direct =>
          simp only
          cases outcomes.send plan.length none with
          | ok answered => exact more _ rfl
          | error err => exact more _ rfl

/-- The same of the whole call: the maintenance adds no attempt to what the plan leaves. -/
theorem sendWithForwardProxyPlan_spec (outcomes : SendOutcomes Response)
    (affinityOwnerKeyId : Option String) (met : MaintenanceOutcomes) (later : ForwardProxyManager)
    (plan : List SelectedForwardProxy) :
    let run := sendWithForwardProxyPlan outcomes affinityOwnerKeyId met later plan
    (probedKeys run.1).length ≤ 1 ∧
      ((∃ answer, LoopEnd (planAttempts outcomes 0 plan) run.1 (.ok answer) ∧ run.2 = .ok answer) ∨
        (∀ attempt ∈ planAttempts outcomes 0 plan, attempt.Failed) ∧
          Traced (dueAttempts outcomes later plan) run.1 ∧
          ∃ result noAnswer, LoopEnd (dueAttempts outcomes later plan) run.1 result ∧
            run.2 = result.mapError noAnswer) := by
  intro run
  have quiet : Traced ([] : List (PlannedAttempt Response))
      (.requestNoted :: (maybeRunForwardProxyMaintenance met).1) := traced_maintenance met
  constructor
  · have both : probedKeys run.1 =
        probedKeys (.requestNoted :: (maybeRunForwardProxyMaintenance met).1) ++
          probedKeys (executePlan outcomes affinityOwnerKeyId later plan).1 :=
      List.filterMap_append
    rw [both, probedKeys_executePlan, List.append_nil]
    exact probedKeys_maintenance met
  · rcases executePlan_spec outcomes affinityOwnerKeyId later plan with
      ⟨answer, ended, returned⟩ | ⟨failed, traced, result, noAnswer, ended, returned⟩
    · exact .inl ⟨answer, ended.after quiet, returned⟩
    · exact .inr ⟨failed, quiet.append traced, result, noAnswer, ended.after quiet, returned⟩

/-- Two records of the direct connection, where it is in the plan and the last resort too. -/
theorem two_le_directFlags {later : ForwardProxyManager} {plan : List SelectedForwardProxy}
    {events : List SendEvent} (traced : Traced (dueAttempts outcomes later plan) events)
    (planned : forwardProxyDirectKey ∈ plan.map SelectedForwardProxy.key)
    (there : (directCandidate later).isSome = true) :
    2 ≤ (recordedFlags forwardProxyDirectKey events).length := by
  obtain ⟨direct, isDirect⟩ := Option.isSome_iff_exists.1 there
  rw [dueAttempts_of_some isDirect] at traced
  rw [traced.flags, List.length_map, List.filter_append, List.length_append]
  have inPlan : 0 < ((planAttempts outcomes 0 plan).filter fun attempt =>
      attempt.key = forwardProxyDirectKey).length := by
    rw [← @keys_planAttempts _ outcomes 0] at planned
    obtain ⟨attempt, member, key⟩ := List.mem_map.1 planned
    exact List.length_pos_of_mem (List.mem_filter.2 ⟨member, decide_eq_true key⟩)
  have asLast : 0 < ([directAttempt outcomes plan.length direct].filter fun attempt =>
      attempt.key = forwardProxyDirectKey).length := by
    have key : (directAttempt outcomes plan.length direct).key = forwardProxyDirectKey :=
      directCandidate_key isDirect
    exact List.length_pos_of_mem
      (List.mem_filter.2 ⟨List.mem_singleton.2 rfl, decide_eq_true key⟩)
  omega

theorem PlanExecution.length_le_one {due : List (PlannedAttempt Response)}
    {events : List SendEvent} {result : Except ProxyError (Response × SelectedForwardProxy)}
    (execution : PlanExecution due events result) (key : String) :
    (recordedFlags key events).length ≤ 1 := by
  cases result with
  | error err => exact (execution.failed err rfl).2.length_le_one key
  | ok answer =>
      obtain ⟨_, _, _, _, _, _, _, made⟩ := execution.answered answer.1 answer.2 rfl
      exact made.length_le_one key

theorem nodup_dueAttempts {later : ForwardProxyManager} {plan : List SelectedForwardProxy}
    (distinct : (plan.map SelectedForwardProxy.key).Nodup)
    (apart : forwardProxyDirectKey ∈ plan.map SelectedForwardProxy.key →
      directCandidate later = none) :
    ((dueAttempts outcomes later plan).map PlannedAttempt.key).Nodup := by
  cases there : directCandidate later with
  | none =>
      rw [dueAttempts_of_none there, keys_planAttempts]
      exact distinct
  | some direct =>
      rw [dueAttempts_of_some there, List.map_append, keys_planAttempts]
      apply distinct.append (List.nodup_singleton _)
      intro key planned last
      have isDirect : key = forwardProxyDirectKey :=
        (List.mem_singleton.1 last).trans (directCandidate_key there)
      subst isDirect
      rw [apart planned] at there
      cases there

/-- The request is sent and recorded once for each endpoint, unless the direct connection that has
failed in the plan is tried again. -/
theorem planExecution_iff (outcomes : SendOutcomes Response) (affinityOwnerKeyId : Option String)
    (met : MaintenanceOutcomes) (later : ForwardProxyManager) (plan : List SelectedForwardProxy)
    (distinct : (plan.map SelectedForwardProxy.key).Nodup) :
    PlanExecution (dueAttempts outcomes later plan)
        (sendWithForwardProxyPlan outcomes affinityOwnerKeyId met later plan).1
        (sendWithForwardProxyPlan outcomes affinityOwnerKeyId met later plan).2 ↔
      ¬DirectTwice outcomes later plan := by
  obtain ⟨probedOnce, ⟨answer, ended, returned⟩ |
    ⟨failed, traced, result, noAnswer, ended, returned⟩⟩ :=
      sendWithForwardProxyPlan_spec outcomes affinityOwnerKeyId met later plan
  · have planned : ((planAttempts outcomes 0 plan).map PlannedAttempt.key).Nodup := by
      rw [keys_planAttempts]
      exact distinct
    constructor
    · rintro _ ⟨_, none, _⟩
      cases ended with
      | answered before attempt after response split _ answered _ =>
          have member : attempt ∈ planAttempts outcomes 0 plan := by
            rw [split]
            exact List.mem_append_right _ List.mem_cons_self
          have missing : attempt.response = Option.none := none attempt member
          rw [answered] at missing
          cases missing
    · intro _
      rw [returned]
      exact (planExecution_of_loopEnd planned ended probedOnce fun _ => .noAvailableKeys).append
  · constructor
    · rintro execution ⟨planned, _, there⟩
      exact absurd ((two_le_directFlags traced planned there).trans
        (execution.length_le_one forwardProxyDirectKey)) (Nat.not_succ_le_self 1)
    · intro notTwice
      rw [returned]
      apply planExecution_of_loopEnd _ ended probedOnce
      apply nodup_dueAttempts distinct
      intro planned
      rw [← Option.not_isSome_iff_eq_none]
      intro there
      exact notTwice ⟨planned, failed, there⟩

/-- The maintenance over the manager with the penalized proxy, where no probe is answered. -/
def demotedMaintenance (now : Int) : MaintenanceOutcomes where
  atRefresh := demotedManager
  subscriptionUpdateIntervalSecs := 3600
  lastSubscriptionRefreshAt := none
  refreshNow := now
  refresh := .ok ()
  atProbe := demotedManager
  probeNow := now
  probe := fun _ => .error (.other "validation timed out after 5000ms")

/-- A probe of the proxy is due. Then no client can be built for the proxy, and the direct
connection of the plan answers. -/
theorem planExecution_iff_answered :
    let outcomes : SendOutcomes String :=
      ⟨fun _ _ => .error (.other "invalid forward proxy endpoint"), fun _ _ => .ok ("200 OK", 7)⟩
    let plan := [.fromEndpoint lonelyEndpoint, .fromEndpoint .direct]
    let run := sendWithForwardProxyPlan outcomes (some "key") (demotedMaintenance 1800)
      demotedManager plan
    run.1 =
        [.requestNoted, .probeStarted "http://proxy:80",
          .recorded "http://proxy:80" false none (some "validation_failed") true, .probeFinished,
          .recorded "http://proxy:80" false none (some "validation_failed") false,
          .sent forwardProxyDirectKey, .recorded forwardProxyDirectKey true (some 7) none false,
          .promoted "key" forwardProxyDirectKey] ∧
      PlanExecution (dueAttempts outcomes demotedManager plan) run.1 run.2 := by
  intro outcomes plan run
  refine ⟨by decide +kernel, ?_⟩
  apply (planExecution_iff outcomes (some "key") (demotedMaintenance 1800) demotedManager plan
    (by decide)).2
  rintro ⟨_, failed, _⟩
  have answers : ({ candidate := .fromEndpoint .direct, sent := true, response := some "200 OK" } :
      PlannedAttempt String) ∈ planAttempts outcomes 0 plan :=
    List.mem_cons_of_mem _ (List.mem_singleton.2 rfl)
  cases failed _ answers

/-- The plan of a key that is kept off the proxies is the direct connection. A time-out there is
followed by a second send of the same request, and a second record. -/
theorem planExecution_directTwice :
    let outcomes : SendOutcomes String :=
      ⟨fun _ _ => .ok (), fun place _ =>
        if place = 0 then .error ⟨true, false, "operation timed out"⟩ else .ok ("200 OK", 7)⟩
    let plan := [.fromEndpoint .direct]
    let run := sendWithForwardProxyPlan outcomes (some "key") (demotedMaintenance 60)
      demotedManager plan
    run.1 =
        [.requestNoted, .sent forwardProxyDirectKey,
          .recorded forwardProxyDirectKey false none (some "handshake_timeout") false,
          .sent forwardProxyDirectKey,
          .recorded forwardProxyDirectKey true (some 7) none false] ∧
      ¬PlanExecution (dueAttempts outcomes demotedManager plan) run.1 run.2 := by
  intro outcomes plan run
  have events : run.1 =
      [.requestNoted, .sent forwardProxyDirectKey,
        .recorded forwardProxyDirectKey false none (some "handshake_timeout") false,
        .sent forwardProxyDirectKey, .recorded forwardProxyDirectKey true (some 7) none false] := by
    decide +kernel
  refine ⟨events, ?_⟩
  intro execution
  have once := execution.sentOnce
  rw [events] at once
  exact absurd once (by decide)

end TavilyHikari.ForwardProxy
