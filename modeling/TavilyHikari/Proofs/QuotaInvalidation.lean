/-
Module: TavilyHikari.Proofs.QuotaInvalidation
Purpose: Whose quota an update of limits, tags or bindings changes: only users whom it has
  listed for the invalidation, unless somebody got the tag after it had listed them.
Trusted boundary: none
Main exports: ReferencedQuotaDb, QuotaUpdate.Affects, QuotaUpdate.givesTag,
  affects_of_changed, affects_of_commit
-/
import Mathlib.Data.List.Dedup
import TavilyHikari.Store.AccountQuota

namespace TavilyHikari.Store

open Library

/-! ### Tables with their foreign key -/

def HasTag (db : QuotaDb) (userId tagId : String) : Prop :=
  (db.userTagBindings.find (userId, tagId)).isSome = true

/-- Every binding is of a tag that there is. -/
def BindingsReferenceTags (db : QuotaDb) : Prop :=
  ∀ userId tagId, HasTag db userId tagId → (db.userTags.find tagId).isSome = true

/-- The tables as the schema admits them: `FOREIGN KEY (tag_id) REFERENCES user_tags(id)`. -/
structure ReferencedQuotaDb extends QuotaDb where
  tagReference : BindingsReferenceTags toQuotaDb

/-! ### What an update does, by its arguments -/

/-- The tag whose users the update lists before it writes. -/
def QuotaUpdate.listedTag : QuotaUpdate → Option String
  | .updateUserTag tagId _ _ _ _ => some tagId
  | .deleteUserTag tagId => some tagId
  | _ => none

/-- The user whom the update is called for. -/
def QuotaUpdate.user : QuotaUpdate → Option String
  | .updateAccountQuotaLimits userId _ _ _ _ => some userId
  | .bindUserTagToUser userId _ => some userId
  | .unbindUserTagFromUser userId _ => some userId
  | .syncLinuxdoSystemTagBinding userId _ => some userId
  | _ => none

/-- The user who gets a tag by the write of the update, and the tag. -/
def QuotaUpdate.givesTag (db : QuotaDb) : QuotaUpdate → Option (String × String)
  | .bindUserTagToUser userId tagId => some (userId, tagId)
  | .syncLinuxdoSystemTagBinding userId trustLevel =>
      (normalizeLinuxdoTrustLevel trustLevel).bind fun level =>
        (db.userTags.rows.find? fun row =>
          row.2.systemKey = some (linuxdoSystemKeyForLevel level)).map fun row => (userId, row.1)
  | _ => none

/-- The update is for the user, or for a tag that the user has. -/
def QuotaUpdate.Affects (update : QuotaUpdate) (db : QuotaDb) (userId : String) : Prop :=
  update.user = some userId ∨ ∃ tagId, update.listedTag = some tagId ∧ HasTag db userId tagId

/-! ### Bindings of a user -/

section

variable {db db' : QuotaDb} {userId : String}

def userRows (db : QuotaDb) (userId : String) : List ((String × String) × String) :=
  db.userTagBindings.rows.filter fun row => row.1.1 = userId

theorem hasTag_of_mem_userRows {row : (String × String) × String}
    (member : row ∈ userRows db userId) : HasTag db userId row.1.2 := by
  obtain ⟨stored, own⟩ := List.mem_filter.1 member
  have found : db.userTagBindings.find row.1 = some row.2 := KeyedTable.find_eq_some_iff.2 stored
  have key : row.1 = (userId, row.1.2) := by
    rw [← of_decide_eq_true own]
  rw [HasTag, ← key, found]
  rfl

theorem listUserTagBindingsForUser_eq (db : QuotaDb) (userId : String) :
    listUserTagBindingsForUser db userId =
      ((userRows db userId).filterMap fun row =>
        (db.userTags.find row.1.2).map fun tag =>
          ({ source := row.2, tag } : UserTagBindingRecord)).insertionSort bindingOrder := by
  rw [listUserTagBindingsForUser, userRows, List.filterMap_filter]
  congr 1
  apply List.filterMap_congr
  intro row _
  by_cases own : row.1.1 = userId <;> simp [own]

/-- The data of a user are made of the limits, the bindings and the tags of the user. -/
theorem quotaData_congr
    (limits : db'.accountQuotaLimits.find userId = db.accountQuotaLimits.find userId)
    (bindings : userRows db' userId = userRows db userId)
    (tags : ∀ tagId, HasTag db userId tagId → db'.userTags.find tagId = db.userTags.find tagId) :
    quotaData db userId = quotaData db' userId := by
  have listed : listUserTagBindingsForUser db userId = listUserTagBindingsForUser db' userId := by
    rw [listUserTagBindingsForUser_eq, listUserTagBindingsForUser_eq, bindings]
    congr 1
    apply List.filterMap_congr
    intro row member
    rw [tags row.1.2 (hasTag_of_mem_userRows member)]
  rw [quotaData, quotaData, limits, listed]

end

/-! ### The write of an update -/

variable {legacy : AccountQuotaLimits} {reads : PreparedUpdate} {db db' : QuotaDb}
  {update : QuotaUpdate} {userId : String}

/-- What the sync of a user's binding writes, where it writes. -/
theorem syncLinuxdoSystemTagBindingInTx_cases {trustLevel : Option Int}
    (committed : syncLinuxdoSystemTagBindingInTx userId trustLevel db = some db') :
    db' = db ∨ ∃ tagId dropped,
      (QuotaUpdate.syncLinuxdoSystemTagBinding userId trustLevel).givesTag db =
        some (userId, tagId) ∧
      (db.userTags.find tagId).isSome = true ∧
      (∀ key source, dropped key source = true → key.1 = userId) ∧
      db' = { db with
        userTagBindings := (db.userTagBindings.deleteWhere dropped).upsert (userId, tagId)
          userTagSourceSystemLinuxdo fun _ => userTagSourceSystemLinuxdo } := by
  unfold syncLinuxdoSystemTagBindingInTx at committed
  cases known : normalizeLinuxdoTrustLevel trustLevel with
  | none =>
      rw [known] at committed
      cases committed
      exact Or.inl rfl
  | some level =>
      rw [known] at committed
      simp only at committed
      cases found : db.userTags.rows.find? fun row =>
          row.2.systemKey = some (linuxdoSystemKeyForLevel level) with
      | none =>
          rw [found] at committed
          cases committed
          exact Or.inl rfl
      | some row =>
          rw [found] at committed
          obtain ⟨_, same⟩ := Option.ite_none_right_eq_some.1 committed
          have stored : db.userTags.find row.1 = some row.2 :=
            KeyedTable.find_eq_some_iff.2 (List.mem_of_find?_eq_some found)
          refine Or.inr ⟨row.1, _, ?_, by rw [stored]; rfl, ?_, (Option.some.inj same).symm⟩
          · simp only [QuotaUpdate.givesTag, known, Option.bind_some, found, Option.map_some]
          · intro key source dropped
            simp only [Bool.and_eq_true, decide_eq_true_eq] at dropped
            exact dropped.1.1

/-- A write changes the data of users only whom it affects. -/
theorem affects_of_changed (reference : BindingsReferenceTags db)
    (committed : commitQuotaUpdate legacy reads db update = some db')
    (changed : quotaData db userId ≠ quotaData db' userId) : update.Affects db userId := by
  by_contra spared
  simp only [QuotaUpdate.Affects, not_or, not_exists, not_and] at spared
  obtain ⟨otherUser, otherTag⟩ := spared
  apply changed
  cases update with
  | updateAccountQuotaLimits target hourlyAny hourly daily monthly =>
      have other : userId ≠ target := fun same => otherUser (congrArg some same.symm)
      cases committed
      exact quotaData_congr (KeyedTable.find_upsert_of_ne _ other _ _) rfl fun _ _ => rfl
  | createUserTag id name displayName icon effect =>
      obtain ⟨fresh, same⟩ := Option.ite_none_left_eq_some.1 committed
      cases same
      refine quotaData_congr rfl rfl fun tagId has => KeyedTable.find_upsert_of_ne _ ?_ _ _
      rintro rfl
      exact fresh (Or.inl (reference userId tagId has))
  | updateUserTag id name displayName icon effect =>
      obtain ⟨_, same⟩ := Option.ite_none_left_eq_some.1 committed
      cases same
      refine quotaData_congr rfl rfl fun tagId has => KeyedTable.find_modify_of_ne _ ?_ _
      rintro rfl
      exact otherTag tagId rfl has
  | deleteUserTag id =>
      cases committed
      have kept : ∀ row ∈ userRows db userId, row.1.2 ≠ id := by
        rintro row member rfl
        exact otherTag row.1.2 rfl (hasTag_of_mem_userRows member)
      refine quotaData_congr rfl ?_ ?_
      · change ((db.userTagBindings.rows.filter fun row => !decide (row.1.2 = id)).filter
          fun row => decide (row.1.1 = userId)) = _
        rw [List.filter_filter, List.filter_congr fun row _ => Bool.and_comm _ _,
          ← List.filter_filter]
        exact List.filter_eq_self.2 fun row member => by simp [kept row member]
      · intro tagId has
        have other : tagId ≠ id := fun same => otherTag id rfl (same ▸ has)
        rw [KeyedTable.find_deleteWhere]
        cases db.userTags.find tagId with
        | none => rfl
        | some tag => simp [other]
  | bindUserTagToUser target id =>
      have other : target ≠ userId := fun same => otherUser (congrArg some same)
      obtain ⟨_, same⟩ := Option.ite_none_right_eq_some.1 committed
      cases same
      exact quotaData_congr rfl
        (KeyedTable.filter_rows_upsert _ (p := fun key : String × String => decide (key.1 = userId))
          (decide_eq_false other) _ _) fun _ _ => rfl
  | unbindUserTagFromUser target id =>
      have other : target ≠ userId := fun same => otherUser (congrArg some same)
      cases committed
      refine quotaData_congr rfl
        (KeyedTable.filter_rows_deleteWhere _
          (p := fun key : String × String => decide (key.1 = userId)) ?_)
        fun _ _ => rfl
      intro key source own
      simp [of_decide_eq_true own, other.symm]
  | syncLinuxdoSystemTagBinding target trustLevel =>
      have other : target ≠ userId := fun same => otherUser (congrArg some same)
      rcases syncLinuxdoSystemTagBindingInTx_cases committed with
        rfl | ⟨tagId, dropped, _, _, own, rfl⟩
      · rfl
      · refine quotaData_congr rfl ?_ fun _ _ => rfl
        have upserted := KeyedTable.filter_rows_upsert
          (db.userTagBindings.deleteWhere dropped) (k := (target, tagId))
          (p := fun key : String × String => decide (key.1 = userId)) (decide_eq_false other)
          userTagSourceSystemLinuxdo fun _ => userTagSourceSystemLinuxdo
        refine upserted.trans (KeyedTable.filter_rows_deleteWhere _
          (p := fun key : String × String => decide (key.1 = userId)) ?_)
        intro key source selected
        rw [Bool.eq_false_iff]
        intro drops
        exact other ((own key source drops).symm.trans (of_decide_eq_true selected))

/-- Who has a tag after a write had it before, or got it by this write. -/
theorem hasTag_of_commit {tagId : String}
    (committed : commitQuotaUpdate legacy reads db update = some db')
    (has : HasTag db' userId tagId) :
    HasTag db userId tagId ∨ update.givesTag db = some (userId, tagId) := by
  have ofDelete {dropped : String × String → String → Bool}
      (kept : ((db.userTagBindings.deleteWhere dropped).find (userId, tagId)).isSome = true) :
      HasTag db userId tagId := by
    rw [KeyedTable.find_deleteWhere] at kept
    exact Option.isSome_of_isSome_filter _ _ kept
  cases update with
  | updateAccountQuotaLimits target hourlyAny hourly daily monthly =>
      cases committed
      exact Or.inl has
  | createUserTag id name displayName icon effect =>
      obtain ⟨_, same⟩ := Option.ite_none_left_eq_some.1 committed
      cases same
      exact Or.inl has
  | updateUserTag id name displayName icon effect =>
      obtain ⟨_, same⟩ := Option.ite_none_left_eq_some.1 committed
      cases same
      exact Or.inl has
  | deleteUserTag id =>
      cases committed
      exact Or.inl (ofDelete has)
  | bindUserTagToUser target id =>
      obtain ⟨_, same⟩ := Option.ite_none_right_eq_some.1 committed
      cases same
      rcases (KeyedTable.isSome_find_upsert _ _).1 has with new | old
      · exact Or.inr (congrArg some new.symm)
      · exact Or.inl old
  | unbindUserTagFromUser target id =>
      cases committed
      exact Or.inl (ofDelete has)
  | syncLinuxdoSystemTagBinding target trustLevel =>
      rcases syncLinuxdoSystemTagBindingInTx_cases committed with
        rfl | ⟨given, dropped, gives, _, _, rfl⟩
      · exact Or.inl has
      · rcases (KeyedTable.isSome_find_upsert _ _).1 has with new | old
        · exact Or.inr (gives.trans (congrArg some new.symm))
        · exact Or.inl (ofDelete old)

/-- The foreign key stands after every write. -/
theorem bindingsReferenceTags_of_commit (reference : BindingsReferenceTags db)
    (committed : commitQuotaUpdate legacy reads db update = some db') :
    BindingsReferenceTags db' := by
  intro userId tagId has
  cases update with
  | updateAccountQuotaLimits target hourlyAny hourly daily monthly =>
      cases committed
      exact reference userId tagId has
  | createUserTag id name displayName icon effect =>
      obtain ⟨_, same⟩ := Option.ite_none_left_eq_some.1 committed
      cases same
      exact (KeyedTable.isSome_find_upsert _ _).2 (Or.inr (reference userId tagId has))
  | updateUserTag id name displayName icon effect =>
      obtain ⟨_, same⟩ := Option.ite_none_left_eq_some.1 committed
      cases same
      exact (KeyedTable.isSome_find_modify _ _).trans (reference userId tagId has)
  | deleteUserTag id =>
      cases committed
      rw [HasTag, KeyedTable.find_deleteWhere] at has
      obtain ⟨source, kept⟩ := Option.isSome_iff_exists.1 has
      obtain ⟨found, spared⟩ := Option.filter_eq_some_iff.1 kept
      have stored : HasTag db userId tagId := by
        rw [HasTag, found]
        rfl
      obtain ⟨tag, there⟩ := Option.isSome_iff_exists.1 (reference userId tagId stored)
      rw [KeyedTable.find_deleteWhere, there, Option.filter_some, if_pos]
      · rfl
      · simpa using spared
  | bindUserTagToUser target id =>
      obtain ⟨there, same⟩ := Option.ite_none_right_eq_some.1 committed
      cases same
      rcases (KeyedTable.isSome_find_upsert _ _).1 has with new | old
      · cases new
        exact there
      · exact reference userId tagId old
  | unbindUserTagFromUser target id =>
      rcases hasTag_of_commit committed has with old | given
      · cases committed
        exact reference userId tagId old
      · cases given
  | syncLinuxdoSystemTagBinding target trustLevel =>
      rcases syncLinuxdoSystemTagBindingInTx_cases committed with
        rfl | ⟨given, dropped, gives, there, _, rfl⟩
      · exact reference userId tagId has
      · rcases (KeyedTable.isSome_find_upsert _ _).1 has with new | old
        · cases new
          exact there
        · rw [KeyedTable.find_deleteWhere] at old
          exact reference userId tagId (Option.isSome_of_isSome_filter _ _ old)

/-- Whom an update would affect after another one has written it would have affected before,
or the other one has given the user the tag. -/
theorem affects_of_commit {other : QuotaUpdate}
    (committed : commitQuotaUpdate legacy reads db update = some db')
    (affected : other.Affects db' userId) :
    other.Affects db userId ∨
      ∃ tagId, other.listedTag = some tagId ∧ update.givesTag db = some (userId, tagId) := by
  rcases affected with own | ⟨tagId, listed, has⟩
  · exact Or.inl (Or.inl own)
  · rcases hasTag_of_commit committed has with old | given
    · exact Or.inl (Or.inr ⟨tagId, listed, old⟩)
    · exact Or.inr ⟨tagId, listed, given⟩

/-! ### The listing before the write -/

/-- Before its write an update touches only the limits of the user it is called for. -/
theorem tables_of_prepare {defaults : String → AccountQuotaLimits}
    (prepared : prepareQuotaUpdate defaults db update = some (reads, db')) :
    db'.userTagBindings = db.userTagBindings ∧ db'.userTags = db.userTags := by
  unfold prepareQuotaUpdate at prepared
  split at prepared <;> (repeat' split at prepared) <;> cases prepared <;> exact ⟨rfl, rfl⟩

theorem mem_listUserIdsForTag {tagId : String} :
    userId ∈ listUserIdsForTag db tagId ↔ HasTag db userId tagId := by
  simp only [listUserIdsForTag, List.mem_dedup, List.mem_map, List.mem_filter, decide_eq_true_eq,
    HasTag, Option.isSome_iff_exists, KeyedTable.find_eq_some_iff]
  constructor
  · rintro ⟨⟨⟨user, tag⟩, source⟩, ⟨stored, rfl⟩, rfl⟩
    exact ⟨source, stored⟩
  · rintro ⟨source, stored⟩
    exact ⟨_, ⟨stored, rfl⟩, rfl⟩

/-- An update lists all users whom it affects at that time. -/
theorem listed_of_prepare {defaults : String → AccountQuotaLimits}
    (prepared : prepareQuotaUpdate defaults db update = some (reads, db'))
    (affected : update.Affects db' userId) : userId ∈ reads.users := by
  rcases affected with own | ⟨tagId, listed, has⟩
  · unfold prepareQuotaUpdate at prepared
    split at prepared <;> (repeat' split at prepared) <;> cases prepared <;> cases own <;>
      exact List.mem_singleton_self _
  · rw [HasTag, (tables_of_prepare prepared).1, ← HasTag, ← mem_listUserIdsForTag] at has
    unfold prepareQuotaUpdate at prepared
    split at prepared <;> (repeat' split at prepared) <;> cases prepared <;> cases listed <;>
      exact has

end TavilyHikari.Store
