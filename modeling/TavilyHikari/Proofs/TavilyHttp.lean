/-
Module: TavilyHikari.Proofs.TavilyHttp
Purpose: What the HTTP API may charge: the calls run as billable requests of one database, and
  only a report of the upstream takes a total past a limit, by no more than the report goes past
  the reservation of the call.
Trusted boundary: none
Main exports: charged_cases, CallSound, TavilyHttpSound, TavilyHttpSound.step, tavilyHttp_run
-/
import TavilyHikari.Proofs.QuotaPrecheck
import TavilyHikari.Proofs.ReservedCredits
import TavilyHikari.Server.TavilyHttp

namespace TavilyHikari.Store

open Library

variable {localDayBucketStartUtcTs : Int → Int} {limits : QuotaSubject → QuotaLimits}

/-! ### What a step leaves of the requests -/

/-- Only these steps tell what a request reserves or was charged. -/
def tellsCharges : BillingRequestAction → Bool
  | .arrive _ _ _ | .record _ _ => true
  | _ => false

/-- The requests keep their reservations and what they were charged. -/
structure KeepsCharges (s s' : BillingRequestState) : Prop where
  length : s'.requests.length = s.requests.length
  kept : ∀ (number : Nat) (request' : BillingRequest), s'.requests[number]? = some request' →
    ∃ request : BillingRequest, s.requests[number]? = some request ∧
      request'.reservedBillableTotal = request.reservedBillableTotal ∧
      request'.observed = request.observed

namespace KeepsCharges

variable {s : BillingRequestState} {number : Nat} {request request' : BillingRequest}

theorem refl (s : BillingRequestState) : KeepsCharges s s :=
  ⟨rfl, fun _ request' found => ⟨request', found, rfl, rfl⟩⟩

theorem of_set {db : BillingDb} (listed : s.requests[number]? = some request)
    (reserved : request'.reservedBillableTotal = request.reservedBillableTotal)
    (observed : request'.observed = request.observed) :
    KeepsCharges s { s with db, requests := s.requests.set number request' } where
  length := List.length_set
  kept := by
    intro other found request_found
    by_cases here : number = other
    · subst here
      have bound := (List.getElem?_eq_some_iff.1 listed).1
      rw [List.getElem?_set_self bound] at request_found
      cases request_found
      exact ⟨request, listed, reserved, observed⟩
    · rw [List.getElem?_set_ne here] at request_found
      exact ⟨found, request_found, rfl, rfl⟩

theorem leave (s : BillingRequestState) (number : Nat) :
    KeepsCharges s
      { s with requests := s.requests.modify number BillingRequest.finish } := by
  cases listed : s.requests[number]? with
  | none =>
      rw [List.modify_eq_self (List.getElem?_eq_none_iff.1 listed)]
      exact .refl s
  | some request =>
      rw [List.modify_eq_set_getElem?, listed]
      exact .of_set listed rfl rfl

theorem step {s' : BillingRequestState} {action : BillingRequestAction}
    (below : ∀ subject window, (limits subject).limit window < i64Max)
    (sound : RequestsSound limits s)
    (taken : s.step localDayBucketStartUtcTs limits action = some s')
    (other : tellsCharges action = false) : KeepsCharges s s' := by
  cases action with
  | tick clock =>
      obtain ⟨_, same⟩ := Option.ite_none_right_eq_some.1 taken
      cases same
      exact ⟨rfl, fun _ request' found => ⟨request', found, rfl, rfl⟩⟩
  | arrive tokenId subject reserved => cases other
  | advance number healthy =>
      simp only [BillingRequestState.step] at taken
      split at taken
      case h_1 => cases taken
      case h_2 request listed =>
        obtain ⟨next, advanced, rfl⟩ := Option.map_eq_some_iff.1 taken
        have own := AdvanceStep.of_advance below sound.current
          (sound.requests request (List.mem_of_getElem? listed)) advanced
        exact .of_set listed own.reserved own.observed
  | record number attempt => cases other
  | leave number =>
      cases taken
      exact .leave s number
  | replay logId healthy =>
      cases taken
      exact ⟨rfl, fun _ request' found => ⟨request', found, rfl, rfl⟩⟩
  | annotate logId message =>
      cases taken
      exact ⟨rfl, fun _ request' found => ⟨request', found, rfl, rfl⟩⟩

end KeepsCharges

/-- A record changes the one request that it is for. -/
theorem requests_of_record {s s' : BillingRequestState} {number : Nat} {request : BillingRequest}
    {attempt : PendingBillingAttempt} (listed : s.requests[number]? = some request)
    (taken : s.step localDayBucketStartUtcTs limits (.record number attempt) = some s') :
    ∃ logId, s'.requests = s.requests.set number
      { request with phase := .recorded logId, observed := some attempt.businessCredits } := by
  simp only [BillingRequestState.step, listed] at taken
  split at taken
  case isTrue =>
    cases taken
    exact ⟨_, rfl⟩
  case isFalse => cases taken

end TavilyHikari.Store

namespace TavilyHikari.Server

open Library Analysis Store

variable {json : SerdeJson} {localDayBucketStartUtcTs : Int → Int}
  {limits : QuotaSubject → QuotaLimits}

/-! ### Charges -/

/-- The precheck is on for all calls but those whose pages or URLs overflow when they are rounded
up. -/
theorem reserves_of_inBounds {config : TavilyEndpointConfig} {options : JsonValue}
    (bounded : InBounds (.ofPath config.upstreamPath) options) :
    0 < tavilyHttpReservedCredits config.upstreamPath options := by
  rw [tavilyHttpReservedCredits_eq]
  exact one_le_credits bounded.wrapped

/-- What a call is charged is at most its reservation, or the upstream has reported it; and the
answer is a success. -/
theorem charged_cases {request : TavilyHttpRequest} {answer : TavilyHttpAnswer} {credits : Int}
    (charged : chargedCredits json request answer = some credits) :
    isSuccessStatus answer.status = true ∧ 0 < credits ∧
      (credits ≤ request.reservedCredits ∨
        reportedCredits json request answer = some credits) := by
  unfold chargedCredits at charged
  obtain ⟨⟨success, _⟩, observed⟩ := Option.ite_none_right_eq_some.1 charged
  obtain ⟨same, positive⟩ := Option.filter_eq_some_iff.1 observed
  have costs : 0 < credits := of_decide_eq_true positive
  refine ⟨success, costs, ?_⟩
  unfold httpCredits at same
  cases reported : reportedCredits json request answer with
  | some report =>
      rw [reported, Option.getD_some] at same
      exact .inr same
  | none =>
      rw [reported, Option.getD_none, Option.some.injEq] at same
      refine .inl ?_
      rw [← same]
      split
      case isTrue => exact Int.le_refl _
      case isFalse =>
        split
        case isTrue search =>
          rw [TavilyHttpRequest.reservedCredits, tavilyHttpReservedCredits, if_pos search]
        case isFalse => exact Int.le_of_lt request.reserves

/-! ### Calls and their requests -/

/-- A billable request is the one of the call: it reserves what the call does, and it was charged
only what the answer of the call costs. -/
structure CallSound (json : SerdeJson) (billed : BillingRequest) (call : TavilyHttpCall) :
    Prop where
  reserved : billed.reservedBillableTotal = call.request.reservedCredits
  charged : ∀ credits, billed.observed = some credits →
    ∃ answer, call.answer = some answer ∧ chargedCredits json call.request answer = some credits

structure TavilyHttpSound (json : SerdeJson) (limits : QuotaSubject → QuotaLimits)
    (s : TavilyHttpState) : Prop where
  billing : RequestsSound limits s.billing
  length : s.calls.length = s.billing.requests.length
  call : ∀ (number : Nat) (billed : BillingRequest) (call : TavilyHttpCall),
    s.billing.requests[number]? = some billed →
    s.calls[number]? = some (some call) → CallSound json billed call

namespace TavilyHttpSound

variable {s s' : TavilyHttpState}

theorem billing_step (sound : TavilyHttpSound json limits s) {action : BillingRequestAction}
    {billing : BillingRequestState}
    (below : ∀ subject window, (limits subject).limit window < i64Max)
    (taken : s.billing.step localDayBucketStartUtcTs limits action = some billing) :
    RequestsSound limits billing := by
  have moved : (billingRequestSystem localDayBucketStartUtcTs limits).step s.billing action =
      some billing := taken
  exact sound.billing.step below moved

/-- A request arrives, with its call or without one. -/
theorem arrive (sound : TavilyHttpSound json limits s) {billing : BillingRequestState}
    {tokenId : String} {subject : QuotaSubject} {reserved : Int} {call : Option TavilyHttpCall}
    (below : ∀ subject window, (limits subject).limit window < i64Max)
    (taken : s.billing.step localDayBucketStartUtcTs limits (.arrive tokenId subject reserved) =
      some billing)
    (own : ∀ known, call = some known →
      reserved = known.request.reservedCredits) :
    TavilyHttpSound json limits { billing, calls := s.calls ++ [call] } := by
  have next : RequestsSound limits billing := sound.billing_step below taken
  cases taken
  refine ⟨next, by simp [sound.length], ?_⟩
  intro number billed known listed found
  rcases Nat.lt_or_ge number s.calls.length with old | new
  · rw [List.getElem?_append_left old] at found
    rw [List.getElem?_append_left (sound.length ▸ old)] at listed
    exact sound.call number billed known listed found
  · rw [List.getElem?_append_right new, List.getElem?_singleton] at found
    rw [List.getElem?_append_right (sound.length ▸ new), List.getElem?_singleton] at listed
    obtain ⟨_, same⟩ := Option.ite_none_right_eq_some.1 found
    obtain ⟨_, arrived⟩ := Option.ite_none_right_eq_some.1 listed
    cases arrived
    refine ⟨own known (Option.some.inj same), fun credits none => ?_⟩
    cases none

/-- The requests keep what they were charged, and the calls their answers. -/
theorem keeps (sound : TavilyHttpSound json limits s) {billing : BillingRequestState}
    (next : RequestsSound limits billing) (keeps : KeepsCharges s.billing billing) :
    TavilyHttpSound json limits { s with billing } where
  billing := next
  length := sound.length.trans keeps.length.symm
  call := by
    intro number billed' call listed' found
    obtain ⟨billed, listed, reserved, observed⟩ := keeps.kept number billed' listed'
    have own := sound.call number billed call listed found
    exact ⟨reserved.trans own.reserved, observed ▸ own.charged⟩

/-- The charge of a call is recorded, with the answer that it is for. -/
theorem record (sound : TavilyHttpSound json limits s) {billing : BillingRequestState}
    {number : Nat} {billed : BillingRequest} {call : TavilyHttpCall} {answer : TavilyHttpAnswer}
    {credits : Int} (below : ∀ subject window, (limits subject).limit window < i64Max)
    (listed : s.billing.requests[number]? = some billed)
    (found : s.calls[number]? = some (some call))
    (charged : chargedCredits json call.request answer = some credits)
    (taken : s.billing.step localDayBucketStartUtcTs limits
      (.record number (pendingAttempt json answer billed credits)) = some billing) :
    TavilyHttpSound json limits
      { billing, calls := s.calls.set number (some { call with answer }) } := by
  obtain ⟨logId, requests⟩ := requests_of_record listed taken
  have own := sound.call number billed call listed found
  have listed_lt := (List.getElem?_eq_some_iff.1 listed).1
  have found_lt := (List.getElem?_eq_some_iff.1 found).1
  refine ⟨sound.billing_step below taken, by simp [requests, sound.length], ?_⟩
  intro other billed' call' listed' found'
  rw [requests] at listed'
  by_cases here : number = other
  · subst here
    rw [List.getElem?_set_self listed_lt, Option.some.injEq] at listed'
    rw [List.getElem?_set_self found_lt, Option.some.injEq, Option.some.injEq] at found'
    subst listed' found'
    refine ⟨own.reserved, fun recorded same => ⟨answer, rfl, ?_⟩⟩
    rw [charged]
    exact same
  · rw [List.getElem?_set_ne here] at listed' found'
    exact sound.call other billed' call' listed' found'

/-- A charge of a request over MCP touches no call. -/
theorem record_other (sound : TavilyHttpSound json limits s) {billing : BillingRequestState}
    {number : Nat} {attempt : PendingBillingAttempt}
    (below : ∀ subject window, (limits subject).limit window < i64Max)
    (foreign : s.calls[number]?.any Option.isNone = true)
    (taken : s.billing.step localDayBucketStartUtcTs limits (.record number attempt) =
      some billing) : TavilyHttpSound json limits { s with billing } := by
  obtain ⟨billed, listed⟩ : ∃ billed, s.billing.requests[number]? = some billed := by
    cases listed : s.billing.requests[number]? with
    | some billed => exact ⟨billed, rfl⟩
    | none => simp [BillingRequestState.step, listed] at taken
  obtain ⟨logId, requests⟩ := requests_of_record listed taken
  refine ⟨sound.billing_step below taken, by simp [requests, sound.length], ?_⟩
  intro other billed' call' listed' found'
  have apart : number ≠ other := by
    rintro rfl
    rw [found'] at foreign
    cases foreign
  rw [requests, List.getElem?_set_ne apart] at listed'
  exact sound.call other billed' call' listed' found'

/-- One step of anybody. -/
theorem step (sound : TavilyHttpSound json limits s) {action : TavilyHttpAction}
    (below : ∀ subject window, (limits subject).limit window < i64Max)
    (taken : (tavilyHttpSystem json localDayBucketStartUtcTs limits).step s action = some s') :
    TavilyHttpSound json limits s' := by
  change s.step json localDayBucketStartUtcTs limits action = some s' at taken
  cases action with
  | call tokenId subject request =>
      simp only [TavilyHttpState.step] at taken
      split at taken
      case isTrue =>
        obtain ⟨billing, arrived, rfl⟩ := Option.map_eq_some_iff.1 taken
        refine sound.arrive below arrived fun known own => ?_
        cases own
        rfl
      case isFalse =>
        cases taken
        exact sound
  | answer number answer =>
      simp only [TavilyHttpState.step] at taken
      split at taken
      case h_1 billed call listed found =>
        split at taken
        case isTrue =>
          split at taken
          case h_1 credits charged =>
            obtain ⟨billing, recorded, rfl⟩ := Option.map_eq_some_iff.1 taken
            exact sound.record below listed found charged recorded
          case h_2 =>
            obtain ⟨billing, left, rfl⟩ := Option.map_eq_some_iff.1 taken
            refine sound.keeps (sound.billing_step below left) ?_
            exact .step below sound.billing left rfl
        case isFalse => cases taken
      case h_2 => cases taken
  | other action =>
      simp only [TavilyHttpState.step] at taken
      split at taken
      case isFalse => cases taken
      case isTrue foreign =>
        obtain ⟨billing, moved, rfl⟩ := Option.map_eq_some_iff.1 taken
        cases action with
        | arrive tokenId subject reserved =>
            refine sound.arrive below moved fun known none => ?_
            cases none
        | record number attempt => exact sound.record_other below foreign moved
        | _ =>
            refine sound.keeps (sound.billing_step below moved) ?_
            exact .step below sound.billing moved rfl

theorem run (sound : TavilyHttpSound json limits s) {actions : List TavilyHttpAction}
    (below : ∀ subject window, (limits subject).limit window < i64Max)
    (ran : (tavilyHttpSystem json localDayBucketStartUtcTs limits).run s actions = some s') :
    TavilyHttpSound json limits s' :=
  ((tavilyHttpSystem json localDayBucketStartUtcTs limits).alongRun_of_preserved
    (fun _ _ _ sound taken => sound.step below taken) sound actions).last _ ran

/-- A database without requests, with no total past its limit. -/
theorem of_no_requests {clock : UtcTimestamp} {db : BillingDb}
    (current : LedgerCurrent db clock.secs)
    (within : ∀ subject window,
      db.recordedInWindow subject window clock.secs ≤ max ((limits subject).limit window) 0) :
    TavilyHttpSound json limits ⟨⟨clock, db, []⟩, []⟩ where
  billing := .of_no_requests current within
  length := rfl
  call := by simp

/-- A total past its limit is owed to one request, and if that is a call, to what the upstream has
reported for it. -/
theorem overrun (sound : TavilyHttpSound json limits s) (subject : QuotaSubject)
    (window : QuotaWindow) :
    s.billing.db.recordedInWindow subject window s.billing.clock.secs ≤
        max ((limits subject).limit window) 0 ∨
      ∃ (number : Nat) (billed : BillingRequest) (credits : Int),
        s.billing.requests[number]? = some billed ∧ billed.subject = subject ∧
        billed.observed = some credits ∧
        s.billing.db.recordedInWindow subject window s.billing.clock.secs ≤
          (limits subject).limit window +
            (credits - reservation billed.reservedBillableTotal) ∧
        ∀ call, s.calls[number]? = some (some call) → call.request.reservedCredits < credits ∧
          ∃ answer, call.answer = some answer ∧ isSuccessStatus answer.status = true ∧
            reportedCredits json call.request answer = some credits := by
  rcases sound.billing.bounded subject window with
    within | ⟨billed, member, credits, named, observed, above⟩
  · exact .inl within
  · by_cases reserved : credits ≤ reservation billed.reservedBillableTotal
    · refine .inl (above.trans ?_)
      have limit := Int.le_max_left ((limits subject).limit window) 0
      omega
    · obtain ⟨number, listed⟩ := List.mem_iff_getElem?.1 member
      refine .inr ⟨number, billed, credits, listed, named, observed, above, ?_⟩
      intro call found
      have own := sound.call number billed call listed found
      obtain ⟨answer, answered, charged⟩ := own.charged credits observed
      obtain ⟨success, _, bound⟩ := charged_cases charged
      rw [own.reserved, call.request.reservation_eq] at reserved
      refine ⟨Int.not_le.1 reserved, answer, answered, success, ?_⟩
      exact bound.resolve_left reserved

end TavilyHttpSound

/-! ### Runs -/

/-- Research with the small model, which reserves 4 credits. -/
def smallResearch : TavilyHttpRequest where
  config := .research
  options := .object []
  reserves := by
    apply reserves_of_inBounds
    have call : TavilyCall.ofPath TavilyEndpointConfig.research.upstreamPath = .research := by
      decide
    rw [call]
    trivial

/-- The usage counter of the key has gone up by 7. -/
def researchAnswer : TavilyHttpAnswer where
  status := 200
  body := "".toUTF8
  usageDelta := some 7
  apiKeyId := none
  requestLogId := none

def researchRun : List TavilyHttpAction :=
  .call "t" (.token "t") smallResearch ::
    (List.replicate 9 (.other (.advance 0 none)) ++
      [.answer 0 researchAnswer, .other (.advance 0 none)])

end TavilyHikari.Server
