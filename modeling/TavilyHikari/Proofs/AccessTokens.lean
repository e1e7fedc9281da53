/-
Module: TavilyHikari.Proofs.AccessTokens
Purpose: The texts that the table of access tokens accepts, along every run: those of its live
  rows, each of them handed out before, each attributed to the id of its row; a deleted id is
  never accepted again.
Trusted boundary: kernel-checked
Main exports: IssuedShape, TokensSound, validateAccessToken_eq_true_iff, accessTokenStep_row,
  accessTokens_alongRun
-/
import Mathlib.Data.List.ReduceOption
import TavilyHikari.Library.Delimiters
import TavilyHikari.Store.AccessTokens

namespace TavilyHikari.Store

open Library

def Alphanumeric (s : String) : Prop := ∀ c ∈ s.toList, c.isAlphanum = true

instance (s : String) : Decidable (Alphanumeric s) :=
  decidable_of_iff (s.toList.all Char.isAlphanum = true) List.all_eq_true

/-- An id and a secret as tokens are made of; the short secrets are of older tokens. -/
structure IssuedShape (id secret : String) : Prop where
  idSize : id.toList.length = 4
  idLetters : Alphanumeric id
  secretSize : secret.toList.length = 12 ∨ secret.toList.length = 24
  secretLetters : Alphanumeric secret

/-- The tokens that are not deleted have the shape of issued ones. -/
def TokensSound (tokens : AuthTokens) : Prop :=
  ∀ id row, tokens.find id = some row → row.deletedAt = none → IssuedShape id row.secret

/-- The row of a token that is accepted. -/
structure LiveToken (tokens : AuthTokens) (id : String) (row : AuthTokenRow) : Prop where
  found : tokens.find id = some row
  enabled : row.enabled = 1
  kept : row.deletedAt = none

/-! ### The format -/

theorem bounds_of_isAlphanum {c : Char} (letter : c.isAlphanum = true) :
    48 ≤ c.toNat ∧ c.toNat ≤ 122 := by
  have cases : ((c.isUpper || c.isLower) || c.isDigit) = true := letter
  rw [Bool.or_eq_true, Bool.or_eq_true] at cases
  rcases cases with (upper | lower) | digit
  · have bounds : 65 ≤ c.toNat ∧ c.toNat ≤ 90 := of_decide_eq_true upper
    omega
  · obtain ⟨least, most⟩ := Bool.and_eq_true_iff.1 lower
    have bounds : 97 ≤ c.toNat ∧ c.toNat ≤ 122 :=
      ⟨of_decide_eq_true least, of_decide_eq_true most⟩
    omega
  · obtain ⟨least, most⟩ := Bool.and_eq_true_iff.1 digit
    have bounds : 48 ≤ c.toNat ∧ c.toNat ≤ 57 :=
      ⟨of_decide_eq_true least, of_decide_eq_true most⟩
    omega

theorem utf8Size_of_isAlphanum {c : Char} (letter : c.isAlphanum = true) : c.utf8Size = 1 := by
  have small : c.val ≤ 127 := (bounds_of_isAlphanum letter).2.trans (by decide)
  simp [Char.utf8Size, small]

theorem utf8ByteSize_of_alphanumeric {s : String} (letters : Alphanumeric s) :
    s.utf8ByteSize = s.toList.length := by
  rw [Alphanumeric] at letters
  obtain ⟨l, rfl⟩ : ∃ l, s = String.ofList l := ⟨s.toList, String.ofList_toList.symm⟩
  rw [String.toList_ofList] at letters ⊢
  induction l with
  | nil => rfl
  | cons c l ih =>
      rw [String.ofList_cons, String.utf8ByteSize_append, String.utf8ByteSize_singleton,
        utf8Size_of_isAlphanum (letters c List.mem_cons_self),
        ih fun d member => letters d (List.mem_cons_of_mem c member), List.length_cons, Nat.add_comm]

theorem dash_notMem_of_alphanumeric {s : String} (letters : Alphanumeric s) : '-' ∉ s.toList := by
  intro member
  exact absurd (letters '-' member) (by decide)

theorem splitToken_composeFullToken {id : String} (letters : Alphanumeric id) (secret : String) :
    (stripPrefix "th-" (composeFullToken id secret)).bind (splitOnce "-") = some (id, secret) := by
  rw [composeFullToken, stripPrefix_append, Option.bind_some]
  exact splitOnce_append rfl (dash_notMem_of_alphanumeric letters) secret

theorem eq_composeFullToken {token id secret : String}
    (split : (stripPrefix "th-" token).bind (splitOnce "-") = some (id, secret)) :
    token = composeFullToken id secret := by
  obtain ⟨rest, stripped, cut⟩ := Option.bind_eq_some_iff.1 split
  rw [stripPrefix_eq_some_iff.1 stripped, eq_of_splitOnce cut, composeFullToken]

theorem authTokenIdFromSecret_eq (token : String) :
    authTokenIdFromSecret token =
      ((stripPrefix "th-" token).bind (splitOnce "-")).map Prod.fst := by
  rw [authTokenIdFromSecret]
  cases stripPrefix "th-" token <;> rfl

theorem authTokenIdFromSecret_composeFullToken {id : String} (letters : Alphanumeric id)
    (secret : String) : authTokenIdFromSecret (composeFullToken id secret) = some id := by
  rw [authTokenIdFromSecret_eq, splitToken_composeFullToken letters]
  rfl

/-! ### Which texts are accepted -/

theorem AuthTokens.active_eq_some_iff {tokens : AuthTokens} {id : String} {row : AuthTokenRow} :
    tokens.active id = some row ↔ tokens.find id = some row ∧ row.deletedAt = none := by
  simp [AuthTokens.active, Option.filter_eq_some_iff]

/-- What is accepted is the token of a live row; the shape of the row is not needed for that. -/
theorem liveToken_of_validateAccessToken {nullReads : Bool} {tokens : AuthTokens} {token : String}
    (valid : validateAccessToken nullReads tokens token = some true) :
    ∃ id row, LiveToken tokens id row ∧ token = composeFullToken id row.secret := by
  unfold validateAccessToken at valid
  split at valid
  case h_1 => cases valid
  case h_2 id secret split =>
    dsimp only at valid
    split at valid
    case isTrue => cases valid
    case isFalse =>
      split at valid
      case h_2 => split at valid <;> cases valid
      case h_1 row read =>
        obtain ⟨active, same⟩ := Option.filter_eq_some_iff.1 read
        obtain ⟨found, kept⟩ := AuthTokens.active_eq_some_iff.1 active
        have enabled := of_decide_eq_true (Option.some.inj valid)
        rw [decide_eq_true_eq] at same
        rw [← same] at split
        exact ⟨id, row, ⟨found, enabled, kept⟩, eq_composeFullToken split⟩

theorem validateAccessToken_composeFullToken {tokens : AuthTokens} {id : String}
    {row : AuthTokenRow} (nullReads : Bool) (sound : TokensSound tokens)
    (live : LiveToken tokens id row) :
    validateAccessToken nullReads tokens (composeFullToken id row.secret) = some true := by
  obtain ⟨idSize, idLetters, secretSize, secretLetters⟩ := sound id row live.found live.kept
  have read : (tokens.active id).filter (fun other => other.secret = row.secret) = some row := by
    rw [AuthTokens.active_eq_some_iff.2 ⟨live.found, live.kept⟩, Option.filter_some]
    simp
  rw [validateAccessToken, splitToken_composeFullToken idLetters]
  simp only [utf8ByteSize_of_alphanumeric idLetters, utf8ByteSize_of_alphanumeric secretLetters,
    idSize, secretSize, read, live.enabled]
  simp

/-- The texts that are accepted are exactly the tokens of the live rows. -/
theorem validateAccessToken_eq_true_iff {nullReads : Bool} {tokens : AuthTokens} {token : String}
    (sound : TokensSound tokens) :
    validateAccessToken nullReads tokens token = some true ↔
      ∃ id row, LiveToken tokens id row ∧ token = composeFullToken id row.secret := by
  constructor
  · exact liveToken_of_validateAccessToken
  · rintro ⟨id, row, live, rfl⟩
    exact validateAccessToken_composeFullToken nullReads sound live

/-- A request that is let in by a token of its own is attributed to the id of the live row whose
token it presents. -/
theorem liveToken_of_authenticateRequestToken {nullReads devOpenAdmin : Bool} {tokens : AuthTokens}
    {candidates : List (Option String)} {tokenId : Option String} (sound : TokensSound tokens)
    (authenticated : authenticateRequestToken nullReads devOpenAdmin tokens candidates =
      .authenticated tokenId false) :
    ∃ id row, tokenId = some id ∧ LiveToken tokens id row ∧
      (candidates.reduceOption.find? fun token => token ≠ "") =
        some (composeFullToken id row.secret) := by
  unfold authenticateRequestToken resolveRequestToken at authenticated
  split at authenticated
  case h_1 => cases authenticated
  case h_2 resolution resolved =>
    split at resolved
    case h_2 =>
      split at resolved
      case isFalse => cases resolved
      case isTrue => cases resolved; cases authenticated
    case h_1 token first =>
      cases resolved
      dsimp only [Bool.false_eq_true, if_false] at authenticated
      split at authenticated
      case h_1 => cases authenticated
      case h_2 => cases authenticated
      case h_3 valid =>
        rw [if_neg Bool.false_ne_true] at valid
        obtain ⟨id, row, live, rfl⟩ := liveToken_of_validateAccessToken valid
        have letters := (sound id row live.found live.kept).idLetters
        rw [authTokenIdFromSecret_composeFullToken letters] at authenticated
        cases authenticated
        exact ⟨id, row, rfl, live, first⟩

/-- The token of a live row lets a request in, whatever token its query names. -/
theorem authenticateRequestToken_of_liveToken {nullReads devOpenAdmin : Bool}
    {tokens : AuthTokens} {id : String} {row : AuthTokenRow} {query : Option String}
    (sound : TokensSound tokens) (live : LiveToken tokens id row) :
    authenticateRequestToken nullReads devOpenAdmin tokens
      [some (composeFullToken id row.secret), query] = .authenticated (some id) false := by
  have nonempty : composeFullToken id row.secret ≠ "" :=
    append_ne_empty (by decide) _
  have resolved : resolveRequestToken devOpenAdmin
      [some (composeFullToken id row.secret), query] =
        some
          { token := composeFullToken id row.secret
            authTokenId := authTokenIdFromSecret (composeFullToken id row.secret)
            usingDevOpenAdminFallback := false } := by
    simp [resolveRequestToken, List.reduceOption_cons_of_some, nonempty]
  rw [authenticateRequestToken, resolved]
  simp only [Bool.false_eq_true, if_false,
    validateAccessToken_composeFullToken nullReads sound live,
    authTokenIdFromSecret_composeFullToken (sound id row live.found live.kept).idLetters]

/-! ### What a step does to a row -/

/-- What a step may do to the row of an id, `issued` being what has been handed out after it. -/
inductive RowChange (issued : List AuthTokenSecret) (id : String) :
    Option AuthTokenRow → Option AuthTokenRow → Prop where
  | same {row} : RowChange issued id row row
  | created {row} (shape : IssuedShape id row.secret) (kept : row.deletedAt = none)
      (handed : { id, token := composeFullToken id row.secret } ∈ issued) :
      RowChange issued id none (some row)
  | buried {row} (deleted : row.deletedAt.isSome = true) : RowChange issued id none (some row)
  | changed {row row'} (before : row.deletedAt = none) (kept : row'.deletedAt = none)
      (secret : row'.secret = row.secret) : RowChange issued id (some row) (some row')
  | rotated {row row'} (before : row.deletedAt = none) (kept : row'.deletedAt = none)
      (shape : IssuedShape id row.secret → IssuedShape id row'.secret)
      (handed : { id, token := composeFullToken id row'.secret } ∈ issued) :
      RowChange issued id (some row) (some row')
  | deleted {row row'} (deleted : row'.deletedAt.isSome = true) :
      RowChange issued id (some row) (some row')

theorem RowChange.mono {issued issued' : List AuthTokenSecret} {id : String}
    {before after : Option AuthTokenRow} (change : RowChange issued id before after)
    (more : issued ⊆ issued') : RowChange issued' id before after := by
  cases change with
  | same => exact .same
  | created shape kept handed => exact .created shape kept (more handed)
  | buried deleted => exact .buried deleted
  | changed before kept secret => exact .changed before kept secret
  | rotated before kept shape handed => exact .rotated before kept shape (more handed)
  | deleted deleted => exact .deleted deleted

theorem TokenDraw.shape (draw : TokenDraw) : IssuedShape draw.id.text draw.secret.text where
  idSize := draw.id.size
  idLetters := draw.id.letters
  secretSize := .inr draw.secret.size
  secretLetters := draw.secret.letters

theorem find_of_takeFree {tokens : AuthTokens} {draws rest : List TokenDraw} {draw : TokenDraw}
    (free : takeFree tokens draws = some (draw, rest)) : tokens.find draw.id.text = none := by
  induction draws with
  | nil => cases free
  | cons first draws ih =>
      rw [takeFree] at free
      split at free
      case isTrue absent =>
        cases free
        exact Option.isNone_iff_eq_none.1 absent
      case isFalse => exact ih free

/-- An insert under a free id. -/
theorem rowChange_insertToken {tokens : AuthTokens} {draw : TokenDraw}
    {issued : List AuthTokenSecret} {note : String} {groupName : Option String} {now : Int}
    (free : tokens.find draw.id.text = none) (handed : draw.issued ∈ issued) (id : String) :
    RowChange issued id (tokens.find id) ((insertToken tokens draw note groupName now).find id) := by
  by_cases same : id = draw.id.text
  · subst same
    rw [insertToken, KeyedTable.find_upsert_self, free]
    exact .created draw.shape rfl handed
  · rw [insertToken, KeyedTable.find_upsert_of_ne _ same]
    exact .same

theorem find_updateActive (tokens : AuthTokens) (id other : String)
    (change : AuthTokenRow → AuthTokenRow) :
    (updateActive tokens id change).find other =
      (tokens.find other).map fun row =>
        if other = id ∧ row.deletedAt = none then change row else row := by
  rw [updateActive, KeyedTable.find_updateWhere]
  congr 1
  funext row
  by_cases chosen : other = id ∧ row.deletedAt = none <;> simp [chosen]

/-- An update that leaves the secret alone. -/
theorem rowChange_updateActive {tokens : AuthTokens} {id : String}
    {issued : List AuthTokenSecret} {change : AuthTokenRow → AuthTokenRow}
    (keeps : ∀ row, (change row).deletedAt = row.deletedAt ∧ (change row).secret = row.secret)
    (other : String) :
    RowChange issued other (tokens.find other) ((updateActive tokens id change).find other) := by
  rw [find_updateActive]
  cases tokens.find other with
  | none => exact .same
  | some row =>
      rw [Option.map_some]
      split
      case isTrue chosen =>
        obtain ⟨deleted, secret⟩ := keeps row
        exact .changed chosen.2 (deleted.trans chosen.2) secret
      case isFalse => exact .same

theorem rowChange_rotateAccessTokenSecret {tokens : AuthTokens} {id : String}
    {issued : List AuthTokenSecret} {secret : RandomString 24}
    (handed : { id, token := composeFullToken id secret.text } ∈ issued) (other : String) :
    RowChange issued other (tokens.find other)
      ((rotateAccessTokenSecret tokens id secret).find other) := by
  rw [rotateAccessTokenSecret, find_updateActive]
  cases tokens.find other with
  | none => exact .same
  | some row =>
      rw [Option.map_some]
      split
      case isFalse => exact .same
      case isTrue chosen =>
        obtain ⟨rfl, kept⟩ := chosen
        refine .rotated kept kept (fun shape => ?_) handed
        exact { shape with secretSize := .inr secret.size, secretLetters := secret.letters }

theorem rowChange_deleteAccessToken {tokens : AuthTokens} {id : String}
    {issued : List AuthTokenSecret} {now : Int} (other : String) :
    RowChange issued other (tokens.find other) ((deleteAccessToken tokens id now).find other) := by
  by_cases same : other = id
  · subst same
    rw [deleteAccessToken, KeyedTable.find_modify_self]
    cases tokens.find other with
    | none => exact .same
    | some row => exact .deleted rfl
  · rw [deleteAccessToken, KeyedTable.find_modify_of_ne _ same]
    exact .same

theorem find_insertDeadToken (tokens : AuthTokens) {id secret note : String}
    {totalRequests createdAt now : Int} {lastUsedAt : Option Int} (other : String) :
    let after := insertDeadToken tokens id secret note totalRequests createdAt lastUsedAt now
    after.find other = tokens.find other ∨
      tokens.find other = none ∧ ∃ row, after.find other = some row ∧
        row.deletedAt.isSome = true := by
  intro after
  by_cases same : other = id
  · subst same
    simp only [after, insertDeadToken, KeyedTable.find_upsert_self]
    cases tokens.find other with
    | none => exact .inr ⟨rfl, _, rfl, rfl⟩
    | some row => exact .inl rfl
  · exact .inl (KeyedTable.find_upsert_of_ne _ same _ _)

/-- Healing leaves every row that is there, and what it adds is deleted. -/
theorem find_healOrphanAuthTokens {groups : List TokenLogGroup} {now : Int} {tokens : AuthTokens}
    (other : String) :
    (healOrphanAuthTokens groups now tokens).find other = tokens.find other ∨
      tokens.find other = none ∧ ∃ row,
        (healOrphanAuthTokens groups now tokens).find other = some row ∧
          row.deletedAt.isSome = true := by
  induction groups generalizing tokens with
  | nil => exact .inl rfl
  | cons group groups ih =>
      rw [healOrphanAuthTokens, List.foldl_cons, ← healOrphanAuthTokens]
      rcases find_insertDeadToken tokens other with kept | ⟨absent, row, added, deleted⟩
      · rw [← kept]
        exact ih
      · refine .inr ⟨absent, row, ?_, deleted⟩
        rcases ih with later | ⟨missing, -⟩
        · exact later.trans added
        · rw [added] at missing
          cases missing

theorem RowChange.of_buried {issued : List AuthTokenSecret} {id : String}
    {before after : Option AuthTokenRow}
    (change : after = before ∨ before = none ∧ ∃ row, after = some row ∧
      row.deletedAt.isSome = true) :
    RowChange issued id before after := by
  rcases change with rfl | ⟨rfl, row, rfl, deleted⟩
  · exact .same
  · exact .buried deleted

/-- A batch leaves every row that is there, and hands out what it adds. -/
theorem find_createAccessTokensBatch {group : String} {note : Option String} {now : Int}
    {count : Nat} {draws : List TokenDraw} {tokens tokens' : AuthTokens}
    {issued : List AuthTokenSecret}
    (created : createAccessTokensBatch group note now count draws tokens = some (issued, tokens'))
    (id : String) :
    tokens'.find id = tokens.find id ∨
      tokens.find id = none ∧ ∃ draw : TokenDraw, id = draw.id.text ∧ draw.issued ∈ issued ∧
        tokens'.find id = some (newTokenRow draw.secret.text (note.getD "") (some group) now) := by
  induction count generalizing draws tokens issued with
  | zero => cases created; exact .inl rfl
  | succ count ih =>
      rw [createAccessTokensBatch] at created
      split at created
      case h_1 => cases created
      case h_2 draw rest free =>
        obtain ⟨⟨others, last⟩, inner, same⟩ := Option.map_eq_some_iff.1 created
        cases same
        have absent := find_of_takeFree free
        rcases ih inner with kept | ⟨missing, later, named, handed, added⟩
        · by_cases own : id = draw.id.text
          · refine .inr ⟨own ▸ absent, draw, own, List.mem_cons_self, ?_⟩
            rw [kept, own, insertToken, KeyedTable.find_upsert_self, absent]
            rfl
          · exact .inl (kept.trans (KeyedTable.find_upsert_of_ne _ own _ _))
        · have other : id ≠ draw.id.text := by
            rintro rfl
            rw [insertToken, KeyedTable.find_upsert_self, absent] at missing
            cases missing
          rw [insertToken, KeyedTable.find_upsert_of_ne _ other] at missing
          exact .inr ⟨missing, later, named, List.mem_cons_of_mem _ handed, added⟩

/-- What is handed out stays on the list. -/
theorem issued_subset_of_step {s s' : AccessTokens} {action : AccessTokenAction}
    (taken : accessTokenSystem.step s action = some s') : s.issued ⊆ s'.issued := by
  cases action with
  | create note draws now =>
      obtain ⟨⟨issued, tokens⟩, -, rfl⟩ := Option.map_eq_some_iff.1 taken
      exact List.subset_cons_self issued s.issued
  | createBatch group note count draws now =>
      obtain ⟨⟨issued, tokens⟩, -, rfl⟩ := Option.map_eq_some_iff.1 taken
      exact List.subset_append_right issued s.issued
  | rotate id secret =>
      cases taken
      exact List.subset_cons_self _ s.issued
  | delete id now => cases taken; exact List.Subset.refl _
  | setEnabled id enabled => cases taken; exact List.Subset.refl _
  | updateNote id note => cases taken; exact List.Subset.refl _
  | countRequest id now => cases taken; exact List.Subset.refl _
  | insertDead id secret note now => cases taken; exact List.Subset.refl _
  | healOrphans groups now => cases taken; exact List.Subset.refl _

/-- The row of every id before and after a step. -/
theorem accessTokenStep_row {s s' : AccessTokens} {action : AccessTokenAction}
    (taken : accessTokenSystem.step s action = some s') (id : String) :
    RowChange s'.issued id (s.tokens.find id) (s'.tokens.find id) := by
  cases action with
  | create note draws now =>
      obtain ⟨⟨issued, tokens⟩, created, rfl⟩ := Option.map_eq_some_iff.1 taken
      obtain ⟨⟨draw, rest⟩, free, same⟩ := Option.map_eq_some_iff.1 created
      cases same
      exact rowChange_insertToken (find_of_takeFree free) List.mem_cons_self id
  | createBatch group note count draws now =>
      obtain ⟨⟨issued, tokens⟩, created, rfl⟩ := Option.map_eq_some_iff.1 taken
      dsimp only
      rcases find_createAccessTokensBatch created id with kept | ⟨absent, draw, rfl, handed, added⟩
      · rw [kept]
        exact .same
      · rw [absent, added]
        exact .created draw.shape rfl (List.mem_append_left s.issued handed)
  | delete deletedId now =>
      cases taken
      exact rowChange_deleteAccessToken id
  | setEnabled changedId enabled =>
      cases taken
      apply rowChange_updateActive
      exact fun _ => ⟨rfl, rfl⟩
  | updateNote changedId note =>
      cases taken
      apply rowChange_updateActive
      exact fun _ => ⟨rfl, rfl⟩
  | rotate rotatedId secret =>
      cases taken
      exact rowChange_rotateAccessTokenSecret List.mem_cons_self id
  | countRequest countedId now =>
      cases taken
      apply rowChange_updateActive
      exact fun _ => ⟨rfl, rfl⟩
  | insertDead deadId secret note now =>
      cases taken
      exact .of_buried (find_insertDeadToken _ id)
  | healOrphans groups now =>
      cases taken
      exact .of_buried (find_healOrphanAuthTokens id)

/-! ### Runs -/

/-- What holds of an id along a run from a table in which its row was `first`. -/
structure TokenHistory (first : Option AuthTokenRow) (issued : List AuthTokenSecret) (id : String)
    (last : Option AuthTokenRow) : Prop where
  shape : ∀ row, last = some row → row.deletedAt = none → IssuedShape id row.secret
  handed : ∀ row, last = some row → row.deletedAt = none →
    { id, token := composeFullToken id row.secret } ∈ issued ∨
      ∃ old, first = some old ∧ old.deletedAt = none ∧ old.secret = row.secret
  buried : ∀ row, first = some row → row.deletedAt.isSome = true →
    ∃ now, last = some now ∧ now.deletedAt.isSome = true

theorem TokenHistory.start {issued : List AuthTokenSecret} {id : String}
    {first : Option AuthTokenRow}
    (shape : ∀ row, first = some row → row.deletedAt = none → IssuedShape id row.secret) :
    TokenHistory first issued id first where
  shape := shape
  handed row same kept := .inr ⟨row, same, kept, rfl⟩
  buried row same deleted := ⟨row, same, deleted⟩

theorem not_deleted {row : AuthTokenRow} (kept : row.deletedAt = none)
    (deleted : row.deletedAt.isSome = true) : False := by
  rw [kept] at deleted
  cases deleted

theorem TokenHistory.step {first before after : Option AuthTokenRow}
    {issued issued' : List AuthTokenSecret} {id : String}
    (history : TokenHistory first issued id before) (more : issued ⊆ issued')
    (change : RowChange issued' id before after) : TokenHistory first issued' id after := by
  obtain ⟨shape, handed, buried⟩ := history
  cases change with
  | same =>
      exact ⟨shape, fun row same kept => (handed row same kept).imp_left (@more _), buried⟩
  | created newShape newKept newHanded =>
      refine ⟨?_, ?_, ?_⟩
      · rintro row ⟨⟩ -
        exact newShape
      · rintro row ⟨⟩ -
        exact .inl newHanded
      · intro row same deleted
        obtain ⟨now, missing, -⟩ := buried row same deleted
        cases missing
  | buried dead =>
      refine ⟨?_, ?_, ?_⟩
      · rintro row ⟨⟩ kept
        exact (not_deleted kept dead).elim
      · rintro row ⟨⟩ kept
        exact (not_deleted kept dead).elim
      · intro row same deleted
        obtain ⟨now, missing, -⟩ := buried row same deleted
        cases missing
  | changed live kept secret =>
      refine ⟨?_, ?_, ?_⟩
      · rintro row ⟨⟩ -
        rw [secret]
        exact shape _ rfl live
      · rintro row ⟨⟩ -
        rw [secret]
        exact (handed _ rfl live).imp_left (@more _)
      · intro row same deleted
        obtain ⟨now, ⟨⟩, dead⟩ := buried row same deleted
        exact (not_deleted live dead).elim
  | rotated live kept newShape newHanded =>
      refine ⟨?_, ?_, ?_⟩
      · rintro row ⟨⟩ -
        exact newShape (shape _ rfl live)
      · rintro row ⟨⟩ -
        exact .inl newHanded
      · intro row same deleted
        obtain ⟨now, ⟨⟩, dead⟩ := buried row same deleted
        exact (not_deleted live dead).elim
  | deleted dead =>
      refine ⟨?_, ?_, ?_⟩
      · rintro row ⟨⟩ kept
        exact (not_deleted kept dead).elim
      · rintro row ⟨⟩ kept
        exact (not_deleted kept dead).elim
      · intro row same deleted
        exact ⟨_, rfl, dead⟩

/-- Every id has a history along every run from a table of well-formed tokens. -/
theorem tokenHistory_alongRun {s₀ : AccessTokens} (sound : TokensSound s₀.tokens)
    (actions : List AccessTokenAction) :
    accessTokenSystem.AlongRun
      (fun s => ∀ id, TokenHistory (s₀.tokens.find id) s.issued id (s.tokens.find id))
      s₀ actions := by
  apply accessTokenSystem.alongRun_of_preserved
  · intro s s' action before taken id
    exact (before id).step (issued_subset_of_step taken) (accessTokenStep_row taken id)
  · intro id
    exact .start (sound id)

/-- Whoever is let in by a token of its own was not deleted at the start of the history. -/
theorem kept_of_authenticateRequestToken {tokens₀ tokens : AuthTokens}
    {issued : List AuthTokenSecret} {nullReads devOpenAdmin : Bool}
    {candidates : List (Option String)} {id : String}
    (history : ∀ id, TokenHistory (tokens₀.find id) issued id (tokens.find id))
    (authenticated : authenticateRequestToken nullReads devOpenAdmin tokens candidates =
      .authenticated (some id) false) {old : AuthTokenRow} (was : tokens₀.find id = some old) :
    old.deletedAt = none := by
  have sound : TokensSound tokens := fun id row found kept => (history id).shape row found kept
  obtain ⟨id', row, named, live, -⟩ := liveToken_of_authenticateRequestToken sound authenticated
  cases named
  by_contra deleted
  obtain ⟨now, found, dead⟩ := (history id).buried old was (Option.isSome_iff_ne_none.2 deleted)
  rw [live.found] at found
  cases found
  exact not_deleted live.kept dead

/-- Along every run from a table of well-formed tokens: the tokens stay well formed; the texts that
are accepted are exactly the tokens of the live rows; a request let in by a token of its own is
attributed to the id of that row; each accepted text has been handed out before, or was live in
the first table; what a user is shown of a live token is accepted; and an id that is deleted is
never let in again in any later state. -/
theorem accessTokens_alongRun {s₀ : AccessTokens} (sound : TokensSound s₀.tokens)
    (actions : List AccessTokenAction) :
    accessTokenSystem.AlongRun
      (fun s =>
        TokensSound s.tokens ∧
        (∀ nullReads token, validateAccessToken nullReads s.tokens token = some true ↔
          ∃ id row, LiveToken s.tokens id row ∧ token = composeFullToken id row.secret) ∧
        (∀ nullReads devOpenAdmin candidates tokenId,
          authenticateRequestToken nullReads devOpenAdmin s.tokens candidates =
            .authenticated tokenId false →
          ∃ id row, tokenId = some id ∧ LiveToken s.tokens id row ∧
            (candidates.reduceOption.find? fun token => token ≠ "") =
              some (composeFullToken id row.secret)) ∧
        (∀ nullReads token, validateAccessToken nullReads s.tokens token = some true →
          (∃ id, { id, token } ∈ s.issued) ∨
            ∃ id old, s₀.tokens.find id = some old ∧ old.deletedAt = none ∧
              token = composeFullToken id old.secret) ∧
        (∀ nullReads id secret, fetchActiveTokenSecretById s.tokens id = some secret →
          secret.id = id ∧ validateAccessToken nullReads s.tokens secret.token = some true) ∧
        ∀ later, accessTokenSystem.AlongRun
          (fun s' => ∀ nullReads devOpenAdmin candidates id old,
            authenticateRequestToken nullReads devOpenAdmin s'.tokens candidates =
              .authenticated (some id) false →
            s.tokens.find id = some old → old.deletedAt = none)
          s later)
      s₀ actions := by
  refine (tokenHistory_alongRun sound actions).mono _ ?_
  intro s history
  have soundNow : TokensSound s.tokens := fun id row found kept => (history id).shape row found kept
  refine ⟨soundNow, fun nullReads token => validateAccessToken_eq_true_iff soundNow, ?_, ?_, ?_, ?_⟩
  · intro nullReads devOpenAdmin candidates tokenId authenticated
    exact liveToken_of_authenticateRequestToken soundNow authenticated
  · intro nullReads token valid
    obtain ⟨id, row, live, rfl⟩ := liveToken_of_validateAccessToken valid
    rcases (history id).handed row live.found live.kept with issued | ⟨old, was, kept, same⟩
    · exact .inl ⟨id, issued⟩
    · exact .inr ⟨id, old, was, kept, by rw [same]⟩
  · intro nullReads id secret shown
    obtain ⟨row, read, rfl⟩ := Option.map_eq_some_iff.1 shown
    obtain ⟨active, enabled⟩ := Option.filter_eq_some_iff.1 read
    obtain ⟨found, kept⟩ := AuthTokens.active_eq_some_iff.1 active
    refine ⟨rfl, validateAccessToken_composeFullToken nullReads soundNow ⟨found, ?_, kept⟩⟩
    exact of_decide_eq_true enabled
  · intro later
    refine (tokenHistory_alongRun soundNow later).mono _ ?_
    intro s' history nullReads devOpenAdmin candidates id old authenticated was
    exact kept_of_authenticateRequestToken history authenticated was

/-- The table with a token of an older release, a disabled one and the deleted one of the
development mode. -/
def olderTokens : AuthTokens where
  rows :=
    [ ("k3Xq", { newTokenRow "a1B2c3D4e5F6" "from the first release" none 100 with
        totalRequests := 40, lastUsedAt := some 900 })
    , ("Zz09", { newTokenRow "abcdefghijklmnopqrstuvwx" "paused" (some "team") 200 with
        enabled := 0 })
    , ("dev", { newTokenRow "local" "dev" none 300 with enabled := 0, deletedAt := some 300 }) ]
  distinct := by decide

theorem tokensSound_olderTokens : TokensSound olderTokens := by
  intro id row found kept
  have member := KeyedTable.find_eq_some_iff.1 found
  simp only [olderTokens, List.mem_cons, Prod.mk.injEq, List.not_mem_nil, or_false] at member
  rcases member with ⟨rfl, rfl⟩ | ⟨rfl, rfl⟩ | ⟨rfl, rfl⟩
  · exact ⟨by decide, by decide, by decide, by decide⟩
  · exact ⟨by decide, by decide, by decide, by decide⟩
  · cases kept

theorem accessTokens_alongRun_olderTokens :
    TokensSound olderTokens ∧
      accessTokenSystem.AlongRun
        (fun s =>
          (∀ nullReads id secret, fetchActiveTokenSecretById s.tokens id = some secret →
            secret.id = id ∧ validateAccessToken nullReads s.tokens secret.token = some true) ∧
          ∀ later, accessTokenSystem.AlongRun
            (fun s' => ∀ nullReads devOpenAdmin candidates id old,
              authenticateRequestToken nullReads devOpenAdmin s'.tokens candidates =
                .authenticated (some id) false →
              s.tokens.find id = some old → old.deletedAt = none)
            s later)
        { tokens := olderTokens, issued := [] }
        [.setEnabled "Zz09" true, .updateNote "k3Xq" "kept", .delete "k3Xq" 1000,
          .setEnabled "k3Xq" true] :=
  ⟨tokensSound_olderTokens,
    (@accessTokens_alongRun { tokens := olderTokens, issued := [] } tokensSound_olderTokens
      _).mono _ fun _ all => all.2.2.2.2⟩

end TavilyHikari.Store
