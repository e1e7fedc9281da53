/-
Module: TavilyHikari.Proofs.AdminSessions
Purpose: Who is let in as the built-in administrator: whoever has the cookie of a login that was
  made with the password, until the session has expired, was logged out, or was displaced by as
  many newer ones as the map may hold.
Trusted boundary: none
Main exports: AdminSessions.mem_evictOldest, SessionEnd, origin_of_adminStep, kept_of_adminStep,
  adminSessions_run
-/
import TavilyHikari.Server.AdminSessions

namespace TavilyHikari.Library.KeyedTable

universe u v

variable {κ : Type u} {ν : Type v} {t : KeyedTable κ ν} {k k' : κ} {v v' : ν}

theorem mem_rows_deleteWhere {p : κ → ν → Bool} :
    (k, v) ∈ (t.deleteWhere p).rows ↔ (k, v) ∈ t.rows ∧ p k v = false := by
  simp [deleteWhere, List.mem_filter]

/-- An insert that replaces what is under its key. -/
theorem mem_rows_replace [DecidableEq κ] :
    (k', v') ∈ (t.upsert k v fun _ => v).rows ↔
      k' = k ∧ v' = v ∨ k' ≠ k ∧ (k', v') ∈ t.rows := by
  rw [← find_eq_some_iff]
  by_cases same : k' = k
  · subst same
    rw [find_upsert_self]
    cases t.find k' with
    | none => simp [eq_comm]
    | some old => simp [eq_comm]
  · rw [t.find_upsert_of_ne same, find_eq_some_iff]
    simp [same]

end TavilyHikari.Library.KeyedTable

namespace TavilyHikari.Server

open Library KeyedTable

variable {auth : BuiltinAdminAuth} {token : String} {session : BuiltinAdminSession}

/-! ### The map -/

namespace AdminSessions

variable {sessions : AdminSessions}

theorem mem_retainLive {now : Nat} :
    (token, session) ∈ (sessions.retainLive now).rows ↔
      (token, session) ∈ sessions.rows ∧ now < session.expiresAt := by
  rw [retainLive, mem_rows_deleteWhere, decide_eq_false_iff_not, Nat.not_le]

theorem mem_of_mem_evictOldest (member : (token, session) ∈ sessions.evictOldest.rows) :
    (token, session) ∈ sessions.rows := by
  unfold evictOldest at member
  split at member
  · exact (mem_rows_deleteWhere.1 member).1
  · exact member

/-- A full map is cut to its newer sessions. -/
theorem evictOldest_split (many : sessions.rows.length > builtinAdminSessionMaxCount) :
    ∃ evicted kept : List (String × BuiltinAdminSession),
      (evicted ++ kept).Perm sessions.rows ∧ sessions.evictOldest.rows.Perm kept ∧
      kept.length = builtinAdminSessionMaxCount ∧
      ∀ old ∈ evicted, ∀ other ∈ kept, old.2.issuedAt ≤ other.2.issuedAt := by
  set issued := sessions.rows.insertionSort fun lhs rhs => lhs.2.issuedAt ≤ rhs.2.issuedAt
    with issued_eq
  set excess := sessions.rows.length - builtinAdminSessionMaxCount with excess_eq
  have same : (issued.take excess ++ issued.drop excess).Perm sessions.rows := by
    rw [List.take_append_drop]
    exact List.perm_insertionSort _ _
  refine ⟨issued.take excess, issued.drop excess, same, ?_, ?_, ?_⟩
  · have cut := rows_deleteWhere_first same
    have unfolded : sessions.evictOldest =
        sessions.deleteWhere fun token _ => decide (token ∈ (issued.take excess).map Prod.fst) :=
      if_pos many
    rwa [unfolded]
  · have all : issued.length = sessions.rows.length := List.length_insertionSort _ _
    rw [List.length_drop, all]
    omega
  · have : IsTrans (String × BuiltinAdminSession) fun lhs rhs => lhs.2.issuedAt ≤ rhs.2.issuedAt :=
      ⟨fun _ _ _ => le_trans⟩
    have : Std.Total fun lhs rhs : String × BuiltinAdminSession =>
        lhs.2.issuedAt ≤ rhs.2.issuedAt := ⟨fun _ _ => le_total _ _⟩
    have sorted := List.pairwise_insertionSort
      (fun lhs rhs : String × BuiltinAdminSession => lhs.2.issuedAt ≤ rhs.2.issuedAt) sessions.rows
    rw [← issued_eq, ← List.take_append_drop excess issued, List.pairwise_append] at sorted
    exact sorted.2.2

theorem length_evictOldest (sessions : AdminSessions) :
    sessions.evictOldest.rows.length ≤ builtinAdminSessionMaxCount := by
  by_cases many : sessions.rows.length > builtinAdminSessionMaxCount
  · obtain ⟨evicted, kept, _, left, full, _⟩ := evictOldest_split many
    exact (left.length_eq.trans full).le
  · rw [evictOldest, if_neg many]
    exact Nat.not_lt.1 many

/-- A session that is evicted is not newer than any of those that stay, and these fill the map. -/
theorem mem_evictOldest (member : (token, session) ∈ sessions.rows) :
    (token, session) ∈ sessions.evictOldest.rows ∨
      sessions.evictOldest.rows.length = builtinAdminSessionMaxCount ∧
        ∀ other ∈ sessions.evictOldest.rows, session.issuedAt ≤ other.2.issuedAt := by
  by_cases many : sessions.rows.length > builtinAdminSessionMaxCount
  · obtain ⟨evicted, kept, same, left, full, older⟩ := evictOldest_split many
    rcases List.mem_append.1 (same.mem_iff.2 member) with old | stays
    · refine .inr ⟨left.length_eq.trans full, fun other there => ?_⟩
      exact older _ old other (left.mem_iff.1 there)
    · exact .inl (left.mem_iff.2 stays)
  · rw [evictOldest, if_neg many]
    exact .inl member

end AdminSessions

/-! ### Steps -/

/-- How a step ends a session. A login with another password ends none. -/
inductive SessionEnd (auth : BuiltinAdminAuth) (next : AdminState) (token : String)
    (session : BuiltinAdminSession) : AdminAction → Prop
  | loggedOut {cookies : Option String}
      (named : cookieValue cookies builtinAdminCookieName = some token) :
      SessionEnd auth next token session (.logout cookies)
  | seenExpired {cookies : Option String} {now : Nat} (past : session.expiresAt ≤ now) :
      SessionEnd auth next token session (.request cookies now)
  | expired {password drawn : String} {now : Nat} (accepted : auth.accepts password = true)
      (past : session.expiresAt ≤ now) :
      SessionEnd auth next token session (.login password drawn now)
  /-- The same token is drawn again. -/
  | renewed {password : String} {now : Nat} (accepted : auth.accepts password = true) :
      SessionEnd auth next token session (.login password token now)
  /-- The map is full of sessions that are not older. -/
  | displaced {password drawn : String} {now : Nat} (accepted : auth.accepts password = true)
      (full : next.sessions.rows.length = builtinAdminSessionMaxCount)
      (newer : ∀ other ∈ next.sessions.rows, session.issuedAt ≤ other.2.issuedAt) :
      SessionEnd auth next token session (.login password drawn now)

variable {s s' : AdminState} {action : AdminAction}

/-- What a step makes of the map. -/
inductive AdminMapStep (auth : BuiltinAdminAuth) (sessions : AdminSessions) :
    AdminAction → AdminSessions → Prop
  /-- The clock, another order, or a call that comes to nothing. -/
  | still {action : AdminAction} {next : AdminSessions} (same : next.rows.Perm sessions.rows)
      (unnamed : ∀ cookies, action = .logout cookies → auth.enabled = true →
        cookieValue cookies builtinAdminCookieName = none) :
      AdminMapStep auth sessions action next
  | retained {cookies : Option String} {now : Nat} :
      AdminMapStep auth sessions (.request cookies now) (sessions.retainLive now)
  | remembered {password token : String} {now : Nat} (accepted : auth.accepts password = true) :
      AdminMapStep auth sessions (.login password token now) (sessions.rememberSession token now)
  | forgotten {cookies : Option String} {value : String}
      (named : cookieValue cookies builtinAdminCookieName = some value) :
      AdminMapStep auth sessions (.logout cookies)
        (sessions.deleteWhere fun token _ => token = value)

theorem mapStep_of_adminStep (taken : adminStep auth s action = some s') :
    AdminMapStep auth s.sessions action s'.sessions := by
  cases action with
  | tick clock =>
      obtain ⟨_, same⟩ := Option.ite_none_right_eq_some.1 taken
      cases same
      exact .still (.refl _) fun _ other => by cases other
  | request cookies now =>
      obtain ⟨_, same⟩ := Option.ite_none_right_eq_some.1 taken
      cases same
      unfold AdminSessions.isAdmin
      split
      · exact .retained
      · exact .still (.refl _) fun _ other => by cases other
  | login password drawn now =>
      obtain ⟨_, login⟩ := Option.ite_none_right_eq_some.1 taken
      split at login
      case isTrue accepted =>
        cases login
        exact .remembered accepted
      case isFalse =>
        cases login
        exact .still (.refl _) fun _ other => by cases other
  | logout cookies =>
      cases taken
      unfold AdminSessions.forgetSession
      split
      case h_1 value enabled named => exact .forgotten named
      case h_2 off =>
        refine .still (.refl _) fun cookies' same enabled => ?_
        cases same
        exact Option.eq_none_iff_forall_ne_some.2 fun value named => off value enabled named
  | rehash rows =>
      obtain ⟨same, rehashed⟩ := Option.dite_none_right_eq_some.1 taken
      cases rehashed
      exact .still same fun _ other => by cases other

/-- A session comes from a login with the password, or was there, and no logout has named it. -/
theorem origin_of_adminStep (taken : adminStep auth s action = some s')
    (member : (token, session) ∈ s'.sessions.rows) :
    ((token, session) ∈ s.sessions.rows ∧ ∀ cookies, action = .logout cookies →
        auth.enabled = true → cookieValue cookies builtinAdminCookieName ≠ some token) ∨
      ∃ password, action = .login password token session.issuedAt ∧
        auth.accepts password = true ∧
        session.expiresAt =
          session.issuedAt + builtinAdminSessionMaxAgeSecs * nanosPerSec := by
  have stepped := mapStep_of_adminStep taken
  generalize s'.sessions = next at stepped member
  cases stepped with
  | still same unnamed =>
      refine .inl ⟨same.mem_iff.1 member, fun cookies logout enabled names => ?_⟩
      rw [unnamed cookies logout enabled] at names
      cases names
  | retained =>
      exact .inl ⟨(AdminSessions.mem_retainLive.1 member).1, fun _ other => by cases other⟩
  | remembered accepted =>
      rcases mem_rows_replace.1 (AdminSessions.mem_of_mem_evictOldest member) with
        ⟨rfl, rfl⟩ | ⟨_, old⟩
      · exact .inr ⟨_, rfl, accepted, rfl⟩
      · exact .inl ⟨(AdminSessions.mem_retainLive.1 old).1, fun _ other => by cases other⟩
  | forgotten named =>
      obtain ⟨old, other⟩ := mem_rows_deleteWhere.1 member
      refine .inl ⟨old, fun cookies same _ names => ?_⟩
      cases same
      rw [named, Option.some.injEq] at names
      exact of_decide_eq_false other names.symm

/-- A session stays until a step ends it. -/
theorem kept_of_adminStep (taken : adminStep auth s action = some s')
    (member : (token, session) ∈ s.sessions.rows) :
    (token, session) ∈ s'.sessions.rows ∨ SessionEnd auth s' token session action := by
  have stepped := mapStep_of_adminStep taken
  generalize after : s'.sessions = next at stepped ⊢
  cases stepped with
  | still same unnamed => exact .inl (same.mem_iff.2 member)
  | @retained cookies now =>
      by_cases past : session.expiresAt ≤ now
      · exact .inr (.seenExpired past)
      · exact .inl (AdminSessions.mem_retainLive.2 ⟨member, Nat.not_le.1 past⟩)
  | @remembered password drawn now accepted =>
      by_cases past : session.expiresAt ≤ now
      · exact .inr (.expired accepted past)
      · by_cases again : token = drawn
        · subst again
          exact .inr (.renewed accepted)
        · have live := AdminSessions.mem_retainLive.2 ⟨member, Nat.not_le.1 past⟩
          rcases AdminSessions.mem_evictOldest (mem_rows_replace.2 (.inr ⟨again, live⟩)) with
            kept | ⟨full, newer⟩
          · exact .inl kept
          · exact .inr (.displaced accepted (after ▸ full) (after ▸ newer))
  | @forgotten cookies value named =>
      by_cases same : token = value
      · subst same
        exact .inr (.loggedOut named)
      · exact .inl (mem_rows_deleteWhere.2 ⟨member, decide_eq_false same⟩)

theorem length_of_adminStep (taken : adminStep auth s action = some s')
    (few : s.sessions.rows.length ≤ builtinAdminSessionMaxCount) :
    s'.sessions.rows.length ≤ builtinAdminSessionMaxCount := by
  have stepped := mapStep_of_adminStep taken
  generalize s'.sessions = next at stepped ⊢
  cases stepped with
  | still same unnamed => exact same.length_eq.le.trans few
  | retained => exact (List.length_filter_le _ _).trans few
  | remembered accepted => exact AdminSessions.length_evictOldest _
  | forgotten named => exact (List.length_filter_le _ _).trans few

/-! ### Runs -/

/-- Whether a request that has read the clock is let in. -/
def AdminState.admits (auth : BuiltinAdminAuth) (s : AdminState) (cookies : Option String)
    (now : Nat) : Bool :=
  (s.sessions.isAdmin auth cookies now).1

theorem admits_iff {cookies : Option String} {now : Nat} :
    s.admits auth cookies now = true ↔ auth.enabled = true ∧ ∃ token session,
      cookieValue cookies builtinAdminCookieName = some token ∧
      (token, session) ∈ s.sessions.rows ∧ now < session.expiresAt := by
  unfold AdminState.admits AdminSessions.isAdmin
  split
  case h_1 value enabled named =>
    rw [Option.any_eq_true, enabled, named]
    constructor
    · rintro ⟨session, found, live⟩
      have there := AdminSessions.mem_retainLive.1 (find_eq_some_iff.1 found)
      exact ⟨rfl, value, session, rfl, there.1, there.2⟩
    · rintro ⟨_, token, session, same, member, live⟩
      cases same
      exact ⟨session, find_eq_some_iff.2 (AdminSessions.mem_retainLive.2 ⟨member, live⟩),
        decide_eq_true live⟩
  case h_2 off =>
    constructor
    · intro admitted
      cases admitted
    · rintro ⟨enabled, token, session, named, _⟩
      exact (off token enabled named).elim

/-- In a run from no sessions, each session comes from a login with the password, and none of the
logouts after it has named it. -/
theorem origin_run {clock : Nat} {actions : List AdminAction} (enabled : auth.enabled = true)
    (ran : (adminSessionSystem auth).run (.initial clock) actions = some s)
    (member : (token, session) ∈ s.sessions.rows) :
    ∃ before password after,
      actions = before ++ .login password token session.issuedAt :: after ∧
      auth.accepts password = true ∧
      session.expiresAt = session.issuedAt + builtinAdminSessionMaxAgeSecs * nanosPerSec ∧
      ∀ cookies, .logout cookies ∈ after →
        cookieValue cookies builtinAdminCookieName ≠ some token := by
  induction actions using List.reverseRecOn generalizing s with
  | nil =>
      cases ran
      cases member
  | append_singleton actions action ih =>
      obtain ⟨mid, ran, last⟩ := (adminSessionSystem auth).run_append.1 ran
      obtain ⟨next, taken, done⟩ := (adminSessionSystem auth).run_cons.1 last
      cases done
      rcases origin_of_adminStep taken member with ⟨old, kept⟩ | ⟨password, rfl, accepted, expires⟩
      · obtain ⟨before, password, after, rfl, accepted, expires, later⟩ := ih ran old
        refine ⟨before, password, after ++ [action], by simp, accepted, expires, ?_⟩
        intro cookies logout
        rcases List.mem_append.1 logout with earlier | now
        · exact later cookies earlier
        · exact kept cookies (List.mem_singleton.1 now).symm enabled
      · exact ⟨actions, password, [], rfl, accepted, expires, fun _ none => by cases none⟩

/-- A session stays until one of the steps ends it. -/
theorem kept_run {actions : List AdminAction}
    (ran : (adminSessionSystem auth).run s actions = some s')
    (member : (token, session) ∈ s.sessions.rows) :
    (token, session) ∈ s'.sessions.rows ∨
      ∃ before action after mid next, actions = before ++ action :: after ∧
        (adminSessionSystem auth).run s before = some mid ∧
        adminStep auth mid action = some next ∧ SessionEnd auth next token session action := by
  induction actions generalizing s with
  | nil =>
      cases ran
      exact .inl member
  | cons action actions ih =>
      obtain ⟨next, taken, rest⟩ := (adminSessionSystem auth).run_cons.1 ran
      rcases kept_of_adminStep taken member with kept | ends
      · rcases ih rest kept with last | ⟨before, final, after, mid, last, rfl, reached, ended⟩
        · exact .inl last
        · refine .inr ⟨action :: before, final, after, mid, last, rfl, ?_, ended⟩
          exact (adminSessionSystem auth).run_cons.2 ⟨next, taken, reached⟩
      · exact .inr ⟨[], action, actions, s, next, rfl, rfl, taken, ends⟩

theorem length_run {clock : Nat} {actions : List AdminAction}
    (ran : (adminSessionSystem auth).run (.initial clock) actions = some s) :
    s.sessions.rows.length ≤ builtinAdminSessionMaxCount :=
  ((adminSessionSystem auth).alongRun_of_preserved
    (fun _ _ _ few taken => length_of_adminStep taken few) (Nat.zero_le _) actions).last _ ran

/-- However requests, logins and logouts of all clients are interleaved, and however late they
come to the map after they have read the clock: whoever is let in as the administrator has the
cookie of a login that was made with the password less than the age of a session ago, and that no
logout has named since. A session that was there lets its cookie in until it has expired, or one of
the steps since has ended it: by a logout, by seeing it expired, or, with the password, by drawing
its token again or by filling the map with sessions that are not older. -/
theorem adminSessions_run (clock : Nat) (actions : List AdminAction)
    (ran : (adminSessionSystem auth).run (.initial clock) actions = some s) :
    s.sessions.rows.length ≤ builtinAdminSessionMaxCount ∧
    (∀ cookies now, s.admits auth cookies now = true →
      ∃ before password token issuedAt after,
        actions = before ++ .login password token issuedAt :: after ∧
        cookieValue cookies builtinAdminCookieName = some token ∧
        auth.accepts password = true ∧
        now < issuedAt + builtinAdminSessionMaxAgeSecs * nanosPerSec ∧
        ∀ other, .logout other ∈ after →
          cookieValue other builtinAdminCookieName ≠ some token) ∧
    ∀ before after mid token session cookies now, actions = before ++ after →
      (adminSessionSystem auth).run (.initial clock) before = some mid →
      (token, session) ∈ mid.sessions.rows → auth.enabled = true →
      cookieValue cookies builtinAdminCookieName = some token → now < session.expiresAt →
      s.admits auth cookies now = true ∨
        ∃ first action last t t', after = first ++ action :: last ∧
          (adminSessionSystem auth).run mid first = some t ∧
          adminStep auth t action = some t' ∧ SessionEnd auth t' token session action := by
  refine ⟨length_run ran, ?_, ?_⟩
  · intro cookies now admitted
    obtain ⟨enabled, token, session, named, member, live⟩ := admits_iff.1 admitted
    obtain ⟨before, password, after, split, accepted, expires, later⟩ :=
      origin_run enabled ran member
    exact ⟨before, password, token, session.issuedAt, after, split, named, accepted,
      expires ▸ live, later⟩
  · intro before after mid token session cookies now split reached member enabled named live
    subst split
    obtain ⟨mid', again, rest⟩ := (adminSessionSystem auth).run_append.1 ran
    rw [reached, Option.some.injEq] at again
    subst again
    refine (kept_run rest member).imp_left fun kept => ?_
    exact admits_iff.2 ⟨enabled, token, session, named, kept, live⟩

/-! ### A login -/

/-- The password itself is configured. -/
def plainAuth : BuiltinAdminAuth where
  enabled := true
  password := some "secret"
  passwordHash := none
  verifyPassword := fun _ _ => false

/-- Two logins with the password and one without; the second session is logged out. -/
def loginRun : List AdminAction :=
  [.tick 5, .login " secret" "drawn" 3, .login "secret" "other" 4,
    .logout (some "hikari_admin_session=other"), .login "guess" "third" 5]

/-- Who has the first cookie is let in, by the login that has drawn it; who has the second one was
let in before its logout, and is not now. -/
theorem adminSessions_run_loginRun :
    ∃ s mid, (adminSessionSystem plainAuth).run (.initial 0) loginRun = some s ∧
      (adminSessionSystem plainAuth).run (.initial 0) (loginRun.take 3) = some mid ∧
      s.admits plainAuth (some "theme=dark; hikari_admin_session=drawn") 5 = true ∧
      (∃ before password token issuedAt after,
        loginRun = before ++ .login password token issuedAt :: after ∧
        cookieValue (some "theme=dark; hikari_admin_session=drawn") builtinAdminCookieName =
          some token ∧
        plainAuth.accepts password = true ∧
        5 < issuedAt + builtinAdminSessionMaxAgeSecs * nanosPerSec ∧
        ∀ other, .logout other ∈ after →
          cookieValue other builtinAdminCookieName ≠ some token) ∧
      mid.admits plainAuth (some "hikari_admin_session=other") 5 = true ∧
      ∃ session first action last t t', loginRun.drop 3 = first ++ action :: last ∧
        (adminSessionSystem plainAuth).run mid first = some t ∧
        adminStep plainAuth t action = some t' ∧
        SessionEnd plainAuth t' "other" session action := by
  have reached : ((adminSessionSystem plainAuth).run (.initial 0) loginRun).map (fun s =>
      (s.admits plainAuth (some "theme=dark; hikari_admin_session=drawn") 5,
        s.admits plainAuth (some "hikari_admin_session=other") 5)) = some (true, false) := by
    decide +kernel
  have before : ((adminSessionSystem plainAuth).run (.initial 0) (loginRun.take 3)).map (fun s =>
      s.admits plainAuth (some "hikari_admin_session=other") 5) = some true := by
    decide +kernel
  obtain ⟨s, ran, admitted⟩ := Option.map_eq_some_iff.1 reached
  obtain ⟨mid, ranBefore, live⟩ := Option.map_eq_some_iff.1 before
  obtain ⟨_, origin, lasting⟩ := adminSessions_run 0 loginRun ran
  obtain ⟨enabled, token, session, named, member, inTime⟩ := admits_iff.1 live
  have other : cookieValue (some "hikari_admin_session=other") builtinAdminCookieName =
      some "other" := by decide +kernel
  obtain rfl : token = "other" := Option.some.inj (named.symm.trans other)
  have ends := (lasting (loginRun.take 3) (loginRun.drop 3) mid _ session _ 5 rfl ranBefore member
    enabled named inTime).resolve_left fun still => ?_
  · exact ⟨s, mid, ran, ranBefore, congrArg Prod.fst admitted,
      origin _ _ (congrArg Prod.fst admitted), live, session, ends⟩
  · cases still.symm.trans (congrArg Prod.snd admitted)

end TavilyHikari.Server
