/-
Module: TavilyHikari.Proofs.McpSessions
Purpose: The sessions of MCP clients along every run: who owns a session and which key it is
  pinned to never changes, a revoked session stays as it was revoked, and what reaches the
  upstream under a session comes from its owner while it is live.
Trusted boundary: none
Main exports: SessionsKept, SessionsSound, IdentityKept, mcpSessions_alongRun
-/
import TavilyHikari.Server.McpSessions

namespace TavilyHikari.Server

open Library TavilyProxy

/-! ### Rows -/

/-- What a statement may do to a row at a time. -/
inductive BindingStep (now : Int) (row : McpSessionBinding) : McpSessionBinding → Prop where
  | same : BindingStep now row row
  | used (live : row.revokedAt = none) (upstreamSessionId : String)
      (protocolVersion lastEventId : Option String) :
      BindingStep now row
        { row with
          upstreamSessionId
          protocolVersion
          lastEventId
          updatedAt := now
          expiresAt := now + mcpSessionIdleTtlSecs }
  | revoked (live : row.revokedAt = none) (reason : String) :
      BindingStep now row (row.revoke now reason)

/-- The owner and the key of a session stay, and all of it once it is revoked. -/
structure BindingKept (row row' : McpSessionBinding) : Prop where
  authTokenId : row'.authTokenId = row.authTokenId
  userId : row'.userId = row.userId
  upstreamKeyId : row'.upstreamKeyId = row.upstreamKeyId
  createdAt : row'.createdAt = row.createdAt
  revoked : row.revokedAt ≠ none → row' = row

theorem BindingStep.kept {now : Int} {row row' : McpSessionBinding}
    (step : BindingStep now row row') : BindingKept row row' := by
  cases step with
  | same => exact ⟨rfl, rfl, rfl, rfl, fun _ => rfl⟩
  | used live => exact ⟨rfl, rfl, rfl, rfl, fun revoked => absurd live revoked⟩
  | revoked live => exact ⟨rfl, rfl, rfl, rfl, fun revoked => absurd live revoked⟩

theorem BindingKept.refl (row : McpSessionBinding) : BindingKept row row :=
  ⟨rfl, rfl, rfl, rfl, fun _ => rfl⟩

theorem BindingKept.trans {row row' row'' : McpSessionBinding} (first : BindingKept row row')
    (second : BindingKept row' row'') : BindingKept row row'' where
  authTokenId := second.authTokenId.trans first.authTokenId
  userId := second.userId.trans first.userId
  upstreamKeyId := second.upstreamKeyId.trans first.upstreamKeyId
  createdAt := second.createdAt.trans first.createdAt
  revoked := by
    intro revoked
    have same := first.revoked revoked
    subst same
    exact second.revoked revoked

/-- The times of a row at `now`. -/
structure BindingSound (now : Int) (row : McpSessionBinding) : Prop where
  created : row.createdAt ≤ row.updatedAt
  updated : row.updatedAt ≤ now
  bounded : row.expiresAt ≤ now + mcpSessionIdleTtlSecs
  /-- A session lives from its last use for as long as it may be idle. -/
  live : row.revokedAt = none → row.expiresAt = row.updatedAt + mcpSessionIdleTtlSecs
  revoked : ∀ revokedAt, row.revokedAt = some revokedAt →
    revokedAt = row.updatedAt ∧ row.revokeReason.isSome

section

variable {now : Int} {row row' : McpSessionBinding}

theorem BindingSound.later {later : Int} (sound : BindingSound now row) (le : now ≤ later) :
    BindingSound later row :=
  ⟨sound.created, sound.updated.trans le, sound.bounded.trans (by omega), sound.live,
    sound.revoked⟩

theorem BindingSound.of_step (sound : BindingSound now row) (step : BindingStep now row row') :
    BindingSound now row' ∧ row.expiresAt ≤ row'.expiresAt := by
  have created := sound.created
  have updated := sound.updated
  cases step with
  | same => exact ⟨sound, le_refl _⟩
  | used live upstreamSessionId protocolVersion lastEventId =>
      refine ⟨⟨created.trans updated, le_refl _, le_refl _, fun _ => rfl, ?_⟩, sound.bounded⟩
      intro revokedAt revoked
      exact absurd (live.symm.trans revoked) nofun
  | revoked live reason =>
      refine ⟨⟨created.trans updated, le_refl _, sound.bounded, nofun, ?_⟩, le_refl _⟩
      rintro revokedAt ⟨⟩
      exact ⟨rfl, rfl⟩

theorem newBinding_sound (request : McpRequest) (upstreamSessionId upstreamKeyId : String)
    (now : Int) : BindingSound now (newBinding request upstreamSessionId upstreamKeyId now) :=
  ⟨le_refl _, le_refl _, le_refl _, fun _ => rfl, nofun⟩

end

/-! ### The table -/

/-- What a statement may do to the table. -/
structure SessionsStep (now : Int) (sessions sessions' : McpSessions) : Prop where
  rows : ∀ id row, sessions.find id = some row →
    ∃ row', sessions'.find id = some row' ∧ BindingStep now row row'
  fresh : ∀ id row', sessions'.find id = some row' → sessions.find id = none →
    ∃ request upstreamSessionId upstreamKeyId,
      row' = newBinding request upstreamSessionId upstreamKeyId now

/-- Every row is there as it was, up to what may change about it. -/
def SessionsKept (sessions sessions' : McpSessions) : Prop :=
  ∀ id row, sessions.find id = some row →
    ∃ row', sessions'.find id = some row' ∧ BindingKept row row'

namespace SessionsStep

variable {now : Int} {sessions sessions' : McpSessions}

theorem refl (now : Int) (sessions : McpSessions) : SessionsStep now sessions sessions where
  rows := fun _ row found => ⟨row, found, .same⟩
  fresh := by
    intro id row' found none
    rw [found] at none
    cases none

theorem kept (step : SessionsStep now sessions sessions') : SessionsKept sessions sessions' := by
  intro id row found
  obtain ⟨row', found', changed⟩ := step.rows id row found
  exact ⟨row', found', changed.kept⟩

/-- An update of rows that are not revoked. -/
theorem of_updateWhere (selected : String → McpSessionBinding → Bool)
    (change : McpSessionBinding → McpSessionBinding)
    (changed : ∀ row, row.revokedAt = none → BindingStep now row (change row)) :
    SessionsStep now sessions
      (sessions.updateWhere (fun id row => selected id row && row.revokedAt.isNone) change) where
  rows := by
    intro id row found
    rw [KeyedTable.find_updateWhere, found, Option.map_some]
    refine ⟨_, rfl, ?_⟩
    split
    · rename_i chosen
      rw [Bool.and_eq_true, Option.isNone_iff_eq_none] at chosen
      exact changed row chosen.2
    · exact .same
  fresh := by
    intro id row' found none
    rw [KeyedTable.find_updateWhere, none] at found
    cases found

theorem revokeWhere (selected : String → McpSessionBinding → Bool) (reason : String) :
    SessionsStep now sessions (sessions.revokeWhere selected reason now) :=
  of_updateWhere _ _ fun _ live => .revoked live reason

theorem touch (id : String) (protocolVersion lastEventId : Option String) :
    SessionsStep now sessions
      (sessions.touch id protocolVersion lastEventId now (now + mcpSessionIdleTtlSecs)) :=
  of_updateWhere (fun other _ => other = id) _ fun _ live => .used live _ _ _

theorem updateUpstreamIdentity (id upstreamSessionId : String)
    (protocolVersion : Option String) :
    SessionsStep now sessions
      (sessions.updateUpstreamIdentity id upstreamSessionId protocolVersion now
        (now + mcpSessionIdleTtlSecs)) :=
  of_updateWhere (fun other _ => other = id) _ fun _ live => .used live _ _ _

theorem attempt (stored : Bool) {change : McpSessions → McpSessions}
    (step : SessionsStep now sessions (change sessions)) :
    SessionsStep now sessions (McpExchange.attempt stored change sessions) := by
  cases stored with
  | false => exact .refl now sessions
  | true => exact step

/-- A new session under an id that no session has. -/
theorem create {id : String} (free : sessions.find id = none) (request : McpRequest)
    (upstreamSessionId upstreamKeyId : String) :
    SessionsStep now sessions
      (sessions.createOrReplace id (newBinding request upstreamSessionId upstreamKeyId now)) where
  rows := by
    intro other row found
    have different : other ≠ id := by
      rintro rfl
      rw [free] at found
      cases found
    refine ⟨row, ?_, .same⟩
    unfold McpSessions.createOrReplace
    rw [KeyedTable.find_upsert_of_ne _ different, found]
  fresh := by
    intro other row' found none
    unfold McpSessions.createOrReplace at found
    by_cases same : other = id
    · subst same
      rw [KeyedTable.find_upsert_self, free] at found
      cases found
      exact ⟨request, upstreamSessionId, upstreamKeyId, rfl⟩
    · rw [KeyedTable.find_upsert_of_ne _ same, none] at found
      cases found

end SessionsStep

/-- The table has the sessions that the leases of keys see. -/
def SeenBy (sessions : McpSessions) (store : AffinityStore) : Prop :=
  ∀ id, store.mcpSessions.find id = (sessions.find id).map McpSessionBinding.pinned

/-- Whoever moves a primary key revokes the same sessions in both. -/
theorem SeenBy.revoke {sessions : McpSessions} {store after : AffinityStore}
    (seen : SeenBy sessions store) (selected : McpSession → Bool) (reason : String) (now : Int)
    (revoked : after.mcpSessions = store.mcpSessions.updateWhere
      (fun _ session => selected session && session.revokedAt.isNone)
      (AffinityStore.McpSession.revoke now reason)) :
    SeenBy (sessions.revokeWhere (fun _ row => selected row.pinned) reason now) after := by
  intro id
  unfold McpSessions.revokeWhere
  rw [revoked, KeyedTable.find_updateWhere, KeyedTable.find_updateWhere, seen id]
  cases sessions.find id with
  | none => rfl
  | some row =>
      simp only [Option.map_some, Option.some.injEq]
      have same : row.pinned.revokedAt = row.revokedAt := rfl
      rw [same]
      split <;> rfl

theorem SeenBy.revokeForUser {sessions : McpSessions} {store : AffinityStore}
    (seen : SeenBy sessions store) (userId reason : String) (now : Int) :
    SeenBy (sessions.revokeForUser userId reason now)
      (store.revokeMcpSessionsForUser userId reason now) :=
  seen.revoke (fun session => session.userId = some userId) reason now rfl

theorem SeenBy.revokeForToken {sessions : McpSessions} {store : AffinityStore}
    (seen : SeenBy sessions store) (tokenId reason : String) (now : Int) :
    SeenBy (sessions.revokeForToken tokenId reason now)
      (store.revokeMcpSessionsForToken tokenId reason now) :=
  seen.revoke (fun session => session.authTokenId = some tokenId) reason now rfl

/-! ### Requests -/

/-- What the request sends to the upstream is of a session of its own token, with the key of
that session, and was read while the session was live. -/
structure PinSound (now : Int) (sessions : McpSessions) (request : McpRequest) (pin : McpPin) :
    Prop where
  named : request.proxySessionId = some pin.proxySessionId
  row : ∃ row, sessions.find pin.proxySessionId = some row ∧
    row.authTokenId = request.tokenId ∧ row.upstreamKeyId = pin.upstreamKeyId ∧
    row.createdAt ≤ pin.readAt ∧ pin.readAt < row.expiresAt ∧
    ∀ revokedAt, row.revokedAt = some revokedAt → pin.readAt ≤ revokedAt
  read : pin.readAt ≤ now

/-- The client is not told how the upstream names a session. -/
def McpAnswer.Hides (request : McpRequest) : McpAnswer → Prop
  | .relayed _ sessionHeader =>
      sessionHeader = request.proxySessionId ∨ headerString sessionHeader = none
  | .session _ _ _ => True
  | .status _ => True

/-- A request that names a session is pinned to it or refused, and its answer names no other. -/
structure ExchangeSound (now : Int) (sessions : McpSessions) (exchange : McpExchange) : Prop where
  pins : ∀ pin, exchange.pin = some pin → PinSound now sessions exchange.request pin
  refused : exchange.request.proxySessionId.isSome → exchange.pin = none →
    exchange.phase = .answered sessionUnavailable ∨
      exchange.phase = .answered sessionForbidden ∨ exchange.phase = .answered lookupFailed
  hides : ∀ answer, exchange.request.proxySessionId.isSome → exchange.phase = .answered answer →
    answer.Hides exchange.request

section

variable {now : Int} {sessions sessions' : McpSessions} {exchange : McpExchange}

theorem PinSound.of_step {request : McpRequest} {pin : McpPin}
    (sound : PinSound now sessions request pin)
    (rows : ∀ id row, sessions.find id = some row → BindingSound now row)
    (step : SessionsStep now sessions sessions') : PinSound now sessions' request pin := by
  obtain ⟨row, found, owner, key, created, live, revoked⟩ := sound.row
  obtain ⟨row', found', changed⟩ := step.rows _ row found
  have kept := changed.kept
  refine ⟨sound.named, ⟨row', found', kept.authTokenId.trans owner, kept.upstreamKeyId.trans key,
    ?_, ?_, ?_⟩, sound.read⟩
  · rw [kept.createdAt]
    exact created
  · exact live.trans_le ((rows _ row found).of_step changed).2
  · intro revokedAt marked
    cases changed with
    | same => exact revoked revokedAt marked
    | used open' => exact absurd (open'.symm.trans marked) nofun
    | revoked _ reason =>
        cases marked
        exact sound.read

theorem ExchangeSound.of_step (sound : ExchangeSound now sessions exchange)
    (rows : ∀ id row, sessions.find id = some row → BindingSound now row)
    (step : SessionsStep now sessions sessions') : ExchangeSound now sessions' exchange :=
  ⟨fun pin has => (sound.pins pin has).of_step rows step, sound.refused, sound.hides⟩

theorem ExchangeSound.later {later : Int} (sound : ExchangeSound now sessions exchange)
    (le : now ≤ later) : ExchangeSound later sessions exchange :=
  ⟨fun pin has => ⟨(sound.pins pin has).named, (sound.pins pin has).row,
    (sound.pins pin has).read.trans le⟩, sound.refused, sound.hides⟩

/-- A request that is answered at once with one of these statuses. -/
theorem ExchangeSound.of_refused {request : McpRequest} {answer : McpAnswer}
    (refusal : answer = sessionUnavailable ∨ answer = sessionForbidden ∨ answer = lookupFailed) :
    ExchangeSound now sessions { request, pin := none, phase := .answered answer } where
  pins := nofun
  refused := by
    intro _ _
    rcases refusal with rfl | rfl | rfl
    · exact Or.inl rfl
    · exact Or.inr (Or.inl rfl)
    · exact Or.inr (Or.inr rfl)
  hides := by
    rintro _ _ ⟨⟩
    rcases refusal with rfl | rfl | rfl
    · exact trivial
    · exact trivial
    · exact trivial

/-- A request begins pinned to the session that it names, or is refused. -/
theorem beginNamed_sound {request : McpRequest} {id : String}
    (named : request.proxySessionId = some id) (sessionRead : Bool)
    (rows : ∀ id row, sessions.find id = some row → BindingSound now row) :
    ExchangeSound now sessions (request.beginNamed id sessionRead now sessions) := by
  unfold McpRequest.beginNamed
  split
  · cases active : sessions.getActive id now with
    | none => exact .of_refused (Or.inl rfl)
    | some session =>
        unfold McpSessions.getActive at active
        rw [Option.filter_eq_some_iff, Bool.and_eq_true, Option.isNone_iff_eq_none,
          decide_eq_true_eq] at active
        obtain ⟨found, live, unexpired⟩ := active
        simp only
        split
        · exact .of_refused (Or.inr (Or.inl rfl))
        · rename_i owner
          rw [not_not] at owner
          refine ⟨?_, nofun, nofun⟩
          rintro pin ⟨⟩
          have sound := rows id session found
          refine ⟨named, ⟨session, found, owner, rfl, sound.created.trans sound.updated,
            unexpired, ?_⟩, le_refl _⟩
          intro revokedAt revoked
          exact absurd (live.symm.trans revoked) nofun
  · exact .of_refused (Or.inr (Or.inr rfl))

theorem begin_sound (request : McpRequest) (userRead sessionRead : Bool)
    (rows : ∀ id row, sessions.find id = some row → BindingSound now row) :
    ExchangeSound now sessions (request.begin userRead sessionRead now sessions) := by
  unfold McpRequest.begin
  split
  · exact .of_refused (Or.inr (Or.inr rfl))
  · cases named : request.proxySessionId with
    | none =>
        refine ⟨nofun, ?_, ?_⟩
        · simp [named]
        · simp [named]
    | some id => exact beginNamed_sound named sessionRead rows

/-- The handler has not answered yet. -/
def McpExchange.Unanswered (exchange : McpExchange) : Prop :=
  ∀ answer, exchange.phase ≠ .answered answer

/-- A request that names a session and is not answered is pinned to it. -/
theorem ExchangeSound.pinned (sound : ExchangeSound now sessions exchange)
    (unanswered : exchange.Unanswered) {id : String}
    (named : exchange.request.proxySessionId = some id) :
    ∃ pin, exchange.pin = some pin ∧ pin.proxySessionId = id ∧
      PinSound now sessions exchange.request pin := by
  cases has : exchange.pin with
  | some pin =>
      have kept := sound.pins pin has
      have same := kept.named
      rw [named, Option.some.injEq] at same
      exact ⟨pin, rfl, same.symm, kept⟩
  | none =>
      rcases sound.refused (by rw [named]; rfl) has with refused | refused | refused
      · exact absurd refused (unanswered _)
      · exact absurd refused (unanswered _)
      · exact absurd refused (unanswered _)

/-- What a step of a handler does to the table and to its request. -/
structure ExchangeStep (now : Int) (sessions sessions' : McpSessions)
    (exchange exchange' : McpExchange) : Prop where
  table : SessionsStep now sessions sessions'
  sound : ExchangeSound now sessions' exchange'
  /-- A row changes only in being revoked, or as the session that the request is pinned to. -/
  owned : ∀ id row row', sessions.find id = some row → sessions'.find id = some row' →
    row' ≠ row → row'.revokedAt ≠ none ∨
      ∃ pin, exchange.pin = some pin ∧ pin.proxySessionId = id ∧
        row.authTokenId = exchange.request.tokenId

/-- What a revoking statement changes is revoked. -/
theorem owned_revokeWhere {selected : String → McpSessionBinding → Bool} {reason : String}
    (stored : Bool) {id : String} {row row' : McpSessionBinding}
    (found : sessions.find id = some row)
    (found' : (McpExchange.attempt stored (McpSessions.revokeWhere selected reason now)
      sessions).find id = some row')
    (changed : row' ≠ row) : row'.revokedAt ≠ none := by
  cases stored with
  | false =>
      change sessions.find id = some row' at found'
      rw [found, Option.some.injEq] at found'
      exact absurd found'.symm changed
  | true =>
      change (McpSessions.revokeWhere selected reason now sessions).find id = some row' at found'
      rw [McpSessions.revokeWhere, KeyedTable.find_updateWhere, found, Option.map_some,
        Option.some.injEq] at found'
      subst found'
      split
      · nofun
      · rename_i unselected
        rw [if_neg unselected] at changed
        exact absurd rfl changed

/-- What an update of one session changes is a row of that session. -/
theorem owned_updateWhere {named id : String} {stored : Bool}
    {change : McpSessionBinding → McpSessionBinding} {row row' : McpSessionBinding}
    (found : sessions.find id = some row)
    (found' : (McpExchange.attempt stored
      (fun sessions => sessions.updateWhere
        (fun id row => id = named && row.revokedAt.isNone) change) sessions).find id = some row')
    (changed : row' ≠ row) : id = named := by
  by_contra other
  cases stored with
  | false =>
      change sessions.find id = some row' at found'
      rw [found, Option.some.injEq] at found'
      exact changed found'.symm
  | true =>
      change (sessions.updateWhere (fun id row => id = named && row.revokedAt.isNone) change).find
        id = some row' at found'
      rw [KeyedTable.find_updateWhere, found, Option.map_some, Option.some.injEq,
        if_neg (by simp [other])] at found'
      exact changed found'.symm

/-- The handler goes on to another phase, with a statement on the table or without one. -/
theorem ExchangeSound.with_phase (sound : ExchangeSound now sessions exchange)
    (unanswered : exchange.Unanswered)
    (rows : ∀ id row, sessions.find id = some row → BindingSound now row)
    (step : SessionsStep now sessions sessions') {phase : McpPhase}
    (hides : ∀ answer, exchange.request.proxySessionId.isSome → phase = .answered answer →
      answer.Hides exchange.request) :
    ExchangeSound now sessions' { exchange with phase } := by
  refine ⟨(sound.of_step rows step).pins, fun names unpinned => ?_, hides⟩
  obtain ⟨id, named⟩ := Option.isSome_iff_exists.1 names
  obtain ⟨pin, has, _⟩ := sound.pinned unanswered named
  exact absurd (has.symm.trans unpinned) nofun

/-- The handler goes on and leaves the table alone. -/
theorem ExchangeSound.step_alone (sound : ExchangeSound now sessions exchange)
    (unanswered : exchange.Unanswered)
    (rows : ∀ id row, sessions.find id = some row → BindingSound now row) {phase : McpPhase}
    (hides : ∀ answer, exchange.request.proxySessionId.isSome → phase = .answered answer →
      answer.Hides exchange.request) :
    ExchangeStep now sessions sessions exchange { exchange with phase } := by
  refine ⟨.refl now sessions, sound.with_phase unanswered rows (.refl now sessions) hides, ?_⟩
  intro id row row' found found' changed
  exact absurd (Option.some.inj (found'.symm.trans found)) changed

/-- The handler goes on and revokes sessions. -/
theorem ExchangeSound.step_revoke (sound : ExchangeSound now sessions exchange)
    (unanswered : exchange.Unanswered)
    (rows : ∀ id row, sessions.find id = some row → BindingSound now row) (stored : Bool)
    (selected : String → McpSessionBinding → Bool) (reason : String) {answer : McpAnswer}
    (hides : answer.Hides exchange.request) :
    ExchangeStep now sessions
      (McpExchange.attempt stored (McpSessions.revokeWhere selected reason now) sessions) exchange
      (exchange.answer answer) := by
  have step : SessionsStep now sessions _ := .attempt stored (.revokeWhere selected reason)
  refine ⟨step, sound.with_phase unanswered rows step ?_, ?_⟩
  · rintro other _ ⟨⟩
    exact hides
  · exact fun _ _ _ found found' changed => Or.inl (owned_revokeWhere _ found found' changed)

/-- The handler goes on and writes to the session that its request is pinned to. -/
theorem ExchangeSound.step_used (sound : ExchangeSound now sessions exchange)
    (unanswered : exchange.Unanswered)
    (rows : ∀ id row, sessions.find id = some row → BindingSound now row) {stored : Bool}
    {id : String} (named : exchange.request.proxySessionId = some id)
    {change : McpSessionBinding → McpSessionBinding}
    (used : ∀ row, row.revokedAt = none → BindingStep now row (change row)) {phase : McpPhase}
    (hides : ∀ answer, exchange.request.proxySessionId.isSome → phase = .answered answer →
      answer.Hides exchange.request) :
    ExchangeStep now sessions
      (McpExchange.attempt stored
        (fun sessions => sessions.updateWhere
          (fun other row => other = id && row.revokedAt.isNone) change) sessions) exchange
      { exchange with phase } := by
  obtain ⟨pin, has, same, pinned⟩ := sound.pinned unanswered named
  have step : SessionsStep now sessions
      (McpExchange.attempt stored
        (fun sessions => sessions.updateWhere
          (fun other row => other = id && row.revokedAt.isNone) change) sessions) :=
    .attempt stored (.of_updateWhere (fun other _ => other = id) change used)
  refine ⟨step, sound.with_phase unanswered rows step hides, ?_⟩
  intro other row row' found found' changed
  have here : other = id := owned_updateWhere found found' changed
  subst here
  obtain ⟨row'', found'', owner, _⟩ := pinned.row
  rw [same, found, Option.some.injEq] at found''
  exact Or.inr ⟨pin, has, same, found'' ▸ owner⟩

theorem respondPinned_step (sound : ExchangeSound now sessions exchange)
    (unanswered : exchange.Unanswered)
    (rows : ∀ id row, sessions.find id = some row → BindingSound now row)
    (response : McpResponse) (stored : Bool) {id : String}
    (named : exchange.request.proxySessionId = some id) :
    ExchangeStep now sessions (exchange.respondPinned id response stored now sessions).2 exchange
      (exchange.respondPinned id response stored now sessions).1 := by
  unfold McpExchange.respondPinned
  split
  · exact sound.step_revoke unanswered rows stored _ _ trivial
  · simp only
    split
    · refine sound.step_used unanswered rows named (fun _ live => .used live _ _ _) ?_
      rintro answer _ ⟨⟩
    · rename_i blank
      refine sound.step_used unanswered rows named (fun _ live => .used live _ _ _) ?_
      rintro answer _ ⟨⟩
      exact Or.inr blank

/-- Without a session, an answer leaves the table alone or opens a session. -/
theorem respondUnpinned_cases (exchange : McpExchange) (response : McpResponse) (stored : Bool)
    (newSessionId : String) (now : Int) (sessions : McpSessions) :
    (∃ answer, exchange.respondUnpinned response stored newSessionId now sessions =
      (exchange.answer answer, sessions)) ∨
    ∃ answer upstreamSessionId upstreamKeyId,
      exchange.respondUnpinned response stored newSessionId now sessions =
        (exchange.answer answer, sessions.createOrReplace newSessionId
          (newBinding exchange.request upstreamSessionId upstreamKeyId now)) := by
  unfold McpExchange.respondUnpinned
  split
  · split
    · rename_i upstreamSessionId upstreamKeyId _ _
      split
      · exact Or.inr ⟨_, upstreamSessionId, upstreamKeyId, rfl⟩
      · exact Or.inl ⟨_, rfl⟩
    · exact Or.inl ⟨_, rfl⟩
  · exact Or.inl ⟨_, rfl⟩

theorem respondUnpinned_step (sound : ExchangeSound now sessions exchange)
    (unanswered : exchange.Unanswered)
    (rows : ∀ id row, sessions.find id = some row → BindingSound now row)
    (response : McpResponse) (stored : Bool) {newSessionId : String}
    (free : sessions.find newSessionId = none)
    (named : exchange.request.proxySessionId = none) :
    ExchangeStep now sessions
      (exchange.respondUnpinned response stored newSessionId now sessions).2 exchange
      (exchange.respondUnpinned response stored newSessionId now sessions).1 := by
  have hides : ∀ (phase : McpPhase) answer, exchange.request.proxySessionId.isSome →
      phase = .answered answer → answer.Hides exchange.request := by
    intro phase answer names
    rw [named] at names
    cases names
  rcases respondUnpinned_cases exchange response stored newSessionId now sessions with
    ⟨answer, same⟩ | ⟨answer, upstreamSessionId, upstreamKeyId, same⟩
  · rw [same]
    exact sound.step_alone unanswered rows (hides _)
  · rw [same]
    have step : SessionsStep now sessions _ :=
      .create free exchange.request upstreamSessionId upstreamKeyId
    refine ⟨step, sound.with_phase unanswered rows step (hides _), ?_⟩
    intro id row row' found found' changed
    have other : id ≠ newSessionId := by
      rintro rfl
      rw [free] at found
      cases found
    unfold McpSessions.createOrReplace at found'
    rw [KeyedTable.find_upsert_of_ne _ other, found, Option.some.injEq] at found'
    exact absurd found'.symm changed

theorem unanswered_of_waiting (waiting : exchange.phase = .waiting) : exchange.Unanswered := by
  intro answer same
  rw [waiting] at same
  cases same

theorem respond_step (sound : ExchangeSound now sessions exchange)
    (rows : ∀ id row, sessions.find id = some row → BindingSound now row)
    {response : McpResponse} {stored : Bool} {newSessionId : String} {exchange' : McpExchange}
    (free : sessions.find newSessionId = none)
    (taken : exchange.respond response stored newSessionId now sessions =
      some (exchange', sessions')) : ExchangeStep now sessions sessions' exchange exchange' := by
  unfold McpExchange.respond at taken
  split at taken
  case h_2 => cases taken
  case h_1 waiting =>
    have unanswered := unanswered_of_waiting waiting
    split at taken
    · rename_i id named
      rw [Option.some.injEq] at taken
      have step := respondPinned_step sound unanswered rows response stored named
      rw [taken] at step
      exact step
    · rename_i named
      rw [Option.some.injEq] at taken
      have step := respondUnpinned_step sound unanswered rows response stored free named
      rw [taken] at step
      exact step

theorem identify_step (sound : ExchangeSound now sessions exchange)
    (rows : ∀ id row, sessions.find id = some row → BindingSound now row) {stored : Bool}
    {exchange' : McpExchange}
    (taken : exchange.identify stored now sessions = some (exchange', sessions')) :
    ExchangeStep now sessions sessions' exchange exchange' := by
  unfold McpExchange.identify at taken
  split at taken
  case h_2 => cases taken
  case h_1 response id identifying named =>
    have unanswered : exchange.Unanswered := by
      intro answer same
      rw [identifying] at same
      cases same
    split at taken
    · cases taken
      refine sound.step_used unanswered rows named (fun _ live => .used live _ _ _) ?_
      rintro answer _ ⟨⟩
      exact Or.inl named.symm
    · cases taken

theorem fail_step (sound : ExchangeSound now sessions exchange)
    (rows : ∀ id row, sessions.find id = some row → BindingSound now row)
    {pinnedUnavailable stored : Bool} {exchange' : McpExchange}
    (taken : exchange.fail pinnedUnavailable stored now sessions = some (exchange', sessions')) :
    ExchangeStep now sessions sessions' exchange exchange' := by
  unfold McpExchange.fail at taken
  split at taken
  case h_2 => cases taken
  case h_1 waiting =>
    have unanswered := unanswered_of_waiting waiting
    split at taken
    · cases taken
      exact sound.step_revoke unanswered rows stored _ _ trivial
    · cases taken
      refine sound.step_alone unanswered rows ?_
      rintro answer _ ⟨⟩
      exact trivial

theorem reject_step (sound : ExchangeSound now sessions exchange)
    (rows : ∀ id row, sessions.find id = some row → BindingSound now row) {code : Nat}
    {exchange' : McpExchange} (taken : exchange.reject code = some exchange') :
    ExchangeStep now sessions sessions exchange exchange' := by
  unfold McpExchange.reject at taken
  split at taken
  case h_2 => cases taken
  case h_1 waiting =>
    cases taken
    refine sound.step_alone (unanswered_of_waiting waiting) rows ?_
    rintro answer _ ⟨⟩
    exact trivial

end

/-! ### The server -/

/-- The table and all requests are sound. -/
structure SessionsSound (s : McpServer) : Prop where
  rows : ∀ id row, s.sessions.find id = some row → BindingSound s.now row
  exchanges : ∀ exchange ∈ s.exchanges, ExchangeSound s.now s.sessions exchange

/-- A row that a step changes is revoked by it, or belongs to the token of a request that is
pinned to it. -/
def RowsOwned (s s' : McpServer) : Prop :=
  ∀ id row row', s.sessions.find id = some row → s'.sessions.find id = some row' → row' ≠ row →
    row'.revokedAt ≠ none ∨
      ∃ exchange ∈ s.exchanges, ∃ pin, exchange.pin = some pin ∧ pin.proxySessionId = id ∧
        row.authTokenId = exchange.request.tokenId

/-- What a step of the server does. -/
structure ServerStep (s s' : McpServer) : Prop where
  table : SessionsKept s.sessions s'.sessions
  sound : SessionsSound s'
  owned : RowsOwned s s'

section

variable {s s' : McpServer}

/-- The rows after a statement are sound. -/
theorem SessionsSound.rows_of_step (sound : SessionsSound s) {sessions' : McpSessions}
    (step : SessionsStep s.now s.sessions sessions') :
    ∀ id row, sessions'.find id = some row → BindingSound s.now row := by
  intro id row' found
  cases before : s.sessions.find id with
  | some row =>
      obtain ⟨row'', found'', changed⟩ := step.rows id row before
      rw [found, Option.some.injEq] at found''
      subst found''
      exact ((sound.rows id row before).of_step changed).1
  | none =>
      obtain ⟨request, upstreamSessionId, upstreamKeyId, rfl⟩ := step.fresh id row' found before
      exact newBinding_sound request upstreamSessionId upstreamKeyId s.now

theorem RowsOwned.of_same (same : s'.sessions = s.sessions) : RowsOwned s s' := by
  intro id row row' found found' changed
  rw [same, found, Option.some.injEq] at found'
  exact absurd found'.symm changed

theorem SessionsKept.refl (sessions : McpSessions) : SessionsKept sessions sessions :=
  fun _ row found => ⟨row, found, .refl row⟩

theorem SessionsKept.trans {one two three : McpSessions} (first : SessionsKept one two)
    (second : SessionsKept two three) : SessionsKept one three := by
  intro id row found
  obtain ⟨row', found', kept⟩ := first id row found
  obtain ⟨row'', found'', kept'⟩ := second id row' found'
  exact ⟨row'', found'', kept.trans kept'⟩

/-- A step of the handler of one request. -/
theorem SessionsSound.stepExchange (sound : SessionsSound s) {index : Nat}
    {move : McpExchange → McpSessions → Option (McpExchange × McpSessions)}
    (moves : ∀ exchange exchange' sessions', ExchangeSound s.now s.sessions exchange →
      move exchange s.sessions = some (exchange', sessions') →
        ExchangeStep s.now s.sessions sessions' exchange exchange')
    (taken : s.stepExchange index move = some s') : ServerStep s s' := by
  unfold McpServer.stepExchange at taken
  simp only [Option.bind_eq_bind, Option.bind_eq_some_iff, Prod.exists] at taken
  obtain ⟨exchange, there, exchange', sessions', moved, same⟩ := taken
  rw [Option.some.injEq] at same
  subst same
  have inside := List.mem_of_getElem? there
  have step := moves exchange exchange' sessions' (sound.exchanges exchange inside) moved
  refine ⟨step.table.kept, ⟨sound.rows_of_step step.table, ?_⟩, ?_⟩
  · intro other member
    rcases List.mem_or_eq_of_mem_set member with old | rfl
    · exact (sound.exchanges other old).of_step sound.rows step.table
    · exact step.sound
  · intro id row row' found found' changed
    rcases step.owned id row row' found found' changed with revoked | ⟨pin, has, same, owner⟩
    · exact Or.inl revoked
    · exact Or.inr ⟨exchange, inside, pin, has, same, owner⟩

/-- Sessions are revoked from outside of the handlers. -/
theorem SessionsSound.revokeWhere (sound : SessionsSound s)
    (selected : String → McpSessionBinding → Bool) (reason : String) :
    ServerStep s { s with sessions := s.sessions.revokeWhere selected reason s.now } := by
  have step : SessionsStep s.now s.sessions _ := .revokeWhere selected reason
  refine ⟨step.kept, ⟨sound.rows_of_step step, fun exchange member =>
    (sound.exchanges exchange member).of_step sound.rows step⟩, ?_⟩
  intro id row row' found found' changed
  exact Or.inl (owned_revokeWhere true found found' changed)

theorem mcpSessionSystem_step (sound : SessionsSound s) {action : McpAction}
    (taken : mcpSessionSystem.step s action = some s') : ServerStep s s' := by
  cases action with
  | tick now =>
      change (if s.now ≤ now then some { s with now } else none) = some s' at taken
      split at taken
      · rename_i le
        cases taken
        exact ⟨.refl _, ⟨fun id row found => (sound.rows id row found).later le,
          fun exchange member => (sound.exchanges exchange member).later le⟩, .of_same rfl⟩
      · cases taken
  | begin request userRead sessionRead =>
      cases taken
      refine ⟨.refl _, ⟨sound.rows, ?_⟩, .of_same rfl⟩
      intro exchange member
      rcases List.mem_append.1 member with old | new
      · exact sound.exchanges exchange old
      · rw [List.mem_singleton.1 new]
        exact begin_sound request userRead sessionRead sound.rows
  | respond index response stored newSessionId =>
      change (if (s.sessions.find newSessionId).isSome then none else _) = some s' at taken
      split at taken
      · cases taken
      · rename_i free
        rw [Option.not_isSome_iff_eq_none] at free
        exact sound.stepExchange (fun _ _ _ kept moved => respond_step kept sound.rows free moved)
          taken
  | identify index stored =>
      exact sound.stepExchange (fun _ _ _ kept moved => identify_step kept sound.rows moved) taken
  | fail index pinnedUnavailable stored =>
      exact sound.stepExchange (fun _ _ _ kept moved => fail_step kept sound.rows moved) taken
  | reject index code =>
      change s.stepExchange index (fun exchange sessions =>
        (exchange.reject code).map fun exchange => (exchange, sessions)) = some s' at taken
      refine sound.stepExchange (fun exchange exchange' sessions' kept moved => ?_) taken
      obtain ⟨rejected, answered, same⟩ := Option.map_eq_some_iff.1 moved
      cases same
      exact reject_step kept sound.rows answered
  | revokeForUser userId reason =>
      cases taken
      exact sound.revokeWhere _ reason
  | revokeForToken tokenId reason =>
      cases taken
      exact sound.revokeWhere _ reason

theorem SessionsSound.new (now : Int) : SessionsSound (McpServer.new now) where
  rows := by
    intro id row found
    rw [McpServer.new, KeyedTable.find_empty] at found
    cases found
  exchanges := by
    intro exchange member
    cases member

end

/-- Every session keeps its token, its user and its key, and all of its row once it is revoked.
Whatever is sent to the upstream under a session comes from the token that opened it, with the
key that opened it, and was read before the session was revoked and before it ran out; a request
of any other token, with a session that is not live, or whose lookup fails, is refused. A row
changes only in being revoked or for a request of its own token. Clients never learn the upstream's
name of a session they use. -/
theorem mcpSessions_alongRun (now : Int) (actions : List McpAction) :
    mcpSessionSystem.AlongRun SessionsSound (McpServer.new now) actions ∧
    mcpSessionSystem.Guarded
      (fun s action => ∀ s', mcpSessionSystem.step s action = some s' → RowsOwned s s')
      (McpServer.new now) actions ∧
    ∀ before after s, actions = before ++ after →
      mcpSessionSystem.run (McpServer.new now) before = some s →
        mcpSessionSystem.AlongRun (fun t => SessionsKept s.sessions t.sessions) s after := by
  have along : ∀ {s}, SessionsSound s → ∀ actions,
      mcpSessionSystem.AlongRun SessionsSound s actions := fun sound actions =>
    mcpSessionSystem.alongRun_of_preserved
      (fun _ _ _ kept taken => (mcpSessionSystem_step kept taken).sound) sound actions
  refine ⟨along (.new now) actions, ?_, ?_⟩
  · have guarded : ∀ {s}, SessionsSound s → ∀ actions, mcpSessionSystem.Guarded
        (fun s action => ∀ s', mcpSessionSystem.step s action = some s' → RowsOwned s s')
        s actions := by
      intro s sound actions
      induction actions generalizing s with
      | nil => trivial
      | cons action rest ih =>
          intro s' taken
          exact ⟨fun t taken => (mcpSessionSystem_step sound taken).owned,
            ih (mcpSessionSystem_step sound taken).sound⟩
    exact guarded (.new now) actions
  · rintro before after s rfl ran
    have sound : SessionsSound s := (along (.new now) before).last _ ran
    have both : mcpSessionSystem.AlongRun
        (fun t => SessionsSound t ∧ SessionsKept s.sessions t.sessions) s after :=
      mcpSessionSystem.alongRun_of_preserved
        (fun _ _ _ kept taken => ⟨(mcpSessionSystem_step kept.1 taken).sound,
          kept.2.trans (mcpSessionSystem_step kept.1 taken).table⟩)
        ⟨sound, .refl s.sessions⟩ after
    exact both.mono _ fun _ kept => kept.2

end TavilyHikari.Server
