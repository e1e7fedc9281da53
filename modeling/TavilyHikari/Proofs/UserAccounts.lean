/-
Module: TavilyHikari.Proofs.UserAccounts
Purpose: What the transactions on the tables of users do to the user of an identity, the owner of
  a token and the rows of the sessions.
Trusted boundary: kernel-checked
Main exports: userOf, ownerOf, UserTables.Grows, upsertOauthAccount_userOf,
  bindPreferredToken_ownerOf, createUserToken_ownerOf, selectUserSession_eq_some
-/
import TavilyHikari.Proofs.AccessTokens
import TavilyHikari.Store.UserAccounts

namespace TavilyHikari.Store.UserAccounts

open Library TavilyProxy

namespace UserTables

/-- The user that an identity logs in as. -/
def userOf (db : UserTables) (identity : String × String) : Option String :=
  (db.oauthAccounts.find identity).map OAuthAccountRow.userId

/-- The user that a token belongs to. -/
def ownerOf (db : UserTables) (tokenId : String) : Option String :=
  (db.userTokenBindings.find tokenId).map UserTokenBinding.userId

def HasUser (db : UserTables) (userId : String) : Prop := (db.users.find userId).isSome = true

def HasToken (db : UserTables) (tokenId : String) : Prop := (db.tokens.find tokenId).isSome = true

/-- What no step takes back: the user of an identity, the owner of a token, a user, a token. -/
structure Grows (db db' : UserTables) : Prop where
  users : ∀ userId, db.HasUser userId → db'.HasUser userId
  accounts : ∀ identity userId, db.userOf identity = some userId →
    db'.userOf identity = some userId
  tokens : ∀ tokenId, db.HasToken tokenId → db'.HasToken tokenId
  owners : ∀ tokenId userId, db.ownerOf tokenId = some userId → db'.ownerOf tokenId = some userId

theorem Grows.refl (db : UserTables) : db.Grows db where
  users := fun _ has => has
  accounts := fun _ _ same => same
  tokens := fun _ has => has
  owners := fun _ _ same => same

theorem Grows.trans {first second third : UserTables} (one : first.Grows second)
    (two : second.Grows third) : first.Grows third where
  users := fun userId has => two.users userId (one.users userId has)
  accounts := fun identity userId same => two.accounts identity userId (one.accounts _ _ same)
  tokens := fun tokenId has => two.tokens tokenId (one.tokens tokenId has)
  owners := fun tokenId userId same => two.owners tokenId userId (one.owners _ _ same)

theorem Grows.userSessions (db : UserTables) (userSessions : KeyedTable String UserSessionRow) :
    db.Grows { db with userSessions } where
  users := fun _ has => has
  accounts := fun _ _ same => same
  tokens := fun _ has => has
  owners := fun _ _ same => same

end UserTables

open UserTables

/-! ### Accounts -/

/-- A new account: its id is of no user before. -/
theorem createUser_spec {profile : OAuthAccountProfile} {draws : List (RandomString 12)}
    {now : Int} {db db' : UserTables} {userId : String}
    (absent : db.oauthAccounts.find profile.identity = none)
    (created : createUser profile draws now db = some (userId, db')) :
    db'.userOf = Function.update db.userOf profile.identity (some userId) ∧
      (∀ other, db'.HasUser other ↔ other = userId ∨ db.HasUser other) ∧
      ¬db.HasUser userId ∧ db'.tokens = db.tokens ∧
      db'.userTokenBindings = db.userTokenBindings ∧ db'.userSessions = db.userSessions := by
  obtain ⟨candidate, free, same⟩ := Option.map_eq_some_iff.1 created
  cases same
  refine ⟨KeyedTable.map_find_upsert db.oauthAccounts absent,
    fun other => KeyedTable.isSome_find_upsert db.users other, ?_, rfl, rfl, rfl⟩
  have none := List.find?_some free
  rw [Option.isNone_iff_eq_none] at none
  rw [HasUser, none]
  exact Bool.false_ne_true

/-- The upsert makes the user of the identity the one it returns: the one it had, or one that is
new. It leaves every other identity alone. -/
theorem upsertOauthAccount_userOf {profile : OAuthAccountProfile} {draws : List (RandomString 12)}
    {now : Int} {db db' : UserTables} {user : UserIdentity}
    (upserted : upsertOauthAccount profile draws now db = some (user, db')) :
    user = profile.user user.userId ∧
      db'.userOf = Function.update db.userOf profile.identity (some user.userId) ∧
      (∀ other, db'.HasUser other ↔
        db.HasUser other ∨ db.userOf profile.identity = none ∧ other = user.userId) ∧
      (db.userOf profile.identity = some user.userId ∨
        db.userOf profile.identity = none ∧ ¬db.HasUser user.userId) ∧
      db'.tokens = db.tokens ∧ db'.userTokenBindings = db.userTokenBindings ∧
      db'.userSessions = db.userSessions := by
  obtain ⟨⟨userId, mid⟩, located, same⟩ := Option.map_eq_some_iff.1 upserted
  cases same
  have accounts (identity : String × String) :
      ((mid.oauthAccounts.modify profile.identity (profile.refreshAccount now)).find identity).map
        OAuthAccountRow.userId = mid.userOf identity := by
    apply KeyedTable.map_find_modify
    exact fun _ => rfl
  refine ⟨rfl, ?_⟩
  split at located
  case h_1 account found =>
    cases located
    have known : db.userOf profile.identity = some account.userId := by rw [userOf, found]; rfl
    refine ⟨?_, ?_, .inl known, rfl, rfl, rfl⟩
    · funext identity
      refine (accounts identity).trans ?_
      by_cases own : identity = profile.identity
      · subst own
        rw [Function.update_self]
        exact known
      · rw [Function.update_of_ne own]
    · intro other
      rw [HasUser, KeyedTable.isSome_find_modify, known]
      simp [HasUser]
  case h_2 absent =>
    obtain ⟨same, users, fresh, tokens, bindings, sessions⟩ := createUser_spec absent located
    have unknown : db.userOf profile.identity = none := by rw [userOf, absent]; rfl
    refine ⟨(funext accounts).trans same, ?_, .inr ⟨unknown, fresh⟩, tokens, bindings, sessions⟩
    intro other
    rw [HasUser, KeyedTable.isSome_find_modify, ← HasUser, users, or_comm]
    simp [unknown, OAuthAccountProfile.user]

/-! ### Tokens of a user -/

theorem bindPreferredToken_ownerOf {userId tokenId : String} {now : Int} {db db' : UserTables}
    (bound : bindPreferredToken userId tokenId now db = some db') :
    db'.ownerOf = Function.update db.ownerOf tokenId (some userId) ∧
      (db.ownerOf tokenId = none ∨ db.ownerOf tokenId = some userId) ∧
      db'.users = db.users ∧ db'.oauthAccounts = db.oauthAccounts ∧ db'.tokens = db.tokens ∧
      db'.userSessions = db.userSessions := by
  unfold bindPreferredToken at bound
  split at bound
  case h_1 binding found =>
    split at bound
    case isTrue => cases bound
    case isFalse own =>
      cases bound
      have known : db.ownerOf tokenId = some userId := by
        rw [ownerOf, found, Option.map_some, not_not.1 own]
      refine ⟨?_, .inr known, rfl, rfl, rfl, rfl⟩
      funext other
      rw [ownerOf, KeyedTable.map_find_modify]
      case keeps => exact fun _ => rfl
      by_cases same : other = tokenId
      · subst same
        rw [Function.update_self]
        exact known
      · rw [Function.update_of_ne same]
        rfl
  case h_2 absent =>
    cases bound
    refine ⟨KeyedTable.map_find_upsert db.userTokenBindings absent, .inl ?_, rfl, rfl, rfl, rfl⟩
    rw [ownerOf, absent]
    rfl

/-- A token that is created for a user has an id that no token had, and no owner. -/
theorem createUserToken_ownerOf {userId note : String} {draws : List TokenDraw} {now : Int}
    {db db' : UserTables} {secret : AuthTokenSecret}
    (made : createUserToken userId note draws now db = .created secret db') :
    ∃ draw : TokenDraw, secret = draw.issued ∧ db.tokens.find draw.id.text = none ∧
      db.ownerOf draw.id.text = none ∧
      db'.ownerOf = Function.update db.ownerOf draw.id.text (some userId) ∧
      db'.tokens = insertToken db.tokens draw note none now ∧ db'.users = db.users ∧
      db'.oauthAccounts = db.oauthAccounts ∧ db'.userSessions = db.userSessions := by
  unfold createUserToken at made
  split at made
  case h_1 => cases made
  case h_2 =>
    split at made
    case h_1 => cases made
    case h_2 draw rest free =>
      split at made
      case h_1 => cases made
      case h_2 absent =>
        cases made
        refine ⟨draw, rfl, find_of_takeFree free, ?_, KeyedTable.map_find_upsert _ absent, rfl, rfl,
          rfl, rfl⟩
        rw [ownerOf, absent]
        rfl

theorem ownerOf_of_fetchUserTokenAnyStatus {db : UserTables} {userId : String}
    {secret : AuthTokenSecret} (fetched : fetchUserTokenAnyStatus db userId = some secret) :
    db.ownerOf secret.id = some userId := by
  obtain ⟨⟨tokenId, binding⟩, first, shown⟩ := Option.bind_eq_some_iff.1 fetched
  obtain ⟨row, -, rfl⟩ := Option.map_eq_some_iff.1 shown
  obtain ⟨found, chosen⟩ := KeyedTable.find_of_firstWhere first
  rw [Bool.and_eq_true, decide_eq_true_eq] at chosen
  rw [ownerOf, found, Option.map_some, chosen.1]

theorem getUserToken_found {db : UserTables} {userId : String} {secret : AuthTokenSecret}
    (found : getUserToken db userId = .found secret) :
    db.ownerOf secret.id = some userId ∧ ∃ row, LiveToken db.tokens secret.id row ∧
      secret.token = composeFullToken secret.id row.secret := by
  unfold getUserToken at found
  split at found
  case h_1 => cases found
  case h_2 tokenId binding first =>
    obtain ⟨bound, chosen⟩ := KeyedTable.find_of_firstWhere first
    split at found
    case h_1 => cases found
    case h_2 row read =>
      split at found
      case isTrue => cases found
      case isFalse live =>
        cases found
        obtain ⟨enabled, kept⟩ := not_or.1 live
        refine ⟨?_, row, ⟨read, not_not.1 enabled, ?_⟩, rfl⟩
        · rw [ownerOf, bound, Option.map_some, of_decide_eq_true chosen]
        · simpa using kept

/-- Who owns a token is shown one, or that it is unavailable. -/
theorem getUserToken_of_ownerOf {db : UserTables} {userId tokenId : String}
    (owned : db.ownerOf tokenId = some userId) : getUserToken db userId ≠ .missingBinding := by
  obtain ⟨binding, found, rfl⟩ := Option.map_eq_some_iff.1 owned
  unfold getUserToken
  split
  case h_1 missing =>
    have other := KeyedTable.firstWhere_eq_none missing found
    simp at other
  case h_2 =>
    split
    case h_1 => simp
    case h_2 => split <;> simp

/-! ### Sessions -/

theorem selectUserSession_eq_some {token : String} {now : Int} {db : UserTables}
    {session : UserSession} (selected : selectUserSession token now db = some session) :
    ∃ row, db.userSessions.find token = some row ∧ row.revokedAt = none ∧ now < row.expiresAt ∧
      session.user.userId = row.userId ∧ session.user.provider = row.provider ∧
      session.expiresAt = row.expiresAt ∧
      session.user.providerUserId =
        ((db.oauthAccounts.rows.find? fun (identity, account) =>
          account.userId = row.userId && identity.1 = row.provider).map
            fun (identity, _) => identity.2).getD "" := by
  obtain ⟨row, kept, rest⟩ := Option.bind_eq_some_iff.1 selected
  obtain ⟨user, -, same⟩ := Option.bind_eq_some_iff.1 rest
  cases same
  obtain ⟨found, live⟩ := Option.filter_eq_some_iff.1 kept
  rw [Bool.and_eq_true, Option.isNone_iff_eq_none, decide_eq_true_eq] at live
  exact ⟨row, found, live.1, live.2, rfl, rfl, rfl, rfl⟩

/-- Where a user has one identity, the join finds it. -/
theorem find_account_of_userOf {db : UserTables} {identity : String × String} {userId : String}
    (injective : ∀ first second, db.userOf first = some userId → db.userOf second = some userId →
      first = second)
    (known : db.userOf identity = some userId) :
    ((db.oauthAccounts.rows.find? fun (other, account) =>
      account.userId = userId && other.1 = identity.1).map fun (other, _) => other.2) =
        some identity.2 := by
  obtain ⟨row, found, rfl⟩ := Option.map_eq_some_iff.1 known
  have member := KeyedTable.find_eq_some_iff.1 found
  cases first : db.oauthAccounts.rows.find? fun (other, account) =>
      account.userId = row.userId && other.1 = identity.1 with
  | none =>
      have missed := List.find?_eq_none.1 first _ member
      simp at missed
  | some hit =>
      have there := KeyedTable.find_eq_some_iff.2 (List.mem_of_find?_eq_some first)
      have chosen := List.find?_some first
      rw [Bool.and_eq_true, decide_eq_true_eq, decide_eq_true_eq] at chosen
      have twin : db.userOf hit.1 = some row.userId := by
        rw [userOf, there, Option.map_some, chosen.1]
      have same := injective hit.1 identity twin known
      obtain ⟨other, account⟩ := hit
      cases same
      rfl

end TavilyHikari.Store.UserAccounts
