/-
Module: TavilyHikari.Store.AccountQuota
Purpose: The quota of an account, from its limits and its tags (`lib.rs`), and the
  statements that write limits, tags and bindings (`store/mod.rs`).
Trusted boundary: human-reviewed spec (foreign and unique keys reject a statement)
Main exports: buildAccountQuotaResolution, QuotaDb, QuotaUpdate, prepareQuotaUpdate,
  commitQuotaUpdate
-/
import Mathlib.Data.List.Sort
import TavilyHikari.Library.Int64
import TavilyHikari.Library.KeyedTable
import TavilyHikari.Library.Text

namespace TavilyHikari.Store

open Library

/-! ### Limits and tags -/

structure AccountQuotaLimits where
  hourlyAnyLimit : Int
  hourlyLimit : Int
  dailyLimit : Int
  monthlyLimit : Int
  inheritsDefaults : Bool
deriving DecidableEq, Repr

namespace AccountQuotaLimits

def clampedNonNegative (limits : AccountQuotaLimits) : AccountQuotaLimits :=
  { limits with
    hourlyAnyLimit := max limits.hourlyAnyLimit 0
    hourlyLimit := max limits.hourlyLimit 0
    dailyLimit := max limits.dailyLimit 0
    monthlyLimit := max limits.monthlyLimit 0 }

def sameLimitsAs (limits other : AccountQuotaLimits) : Bool :=
  limits.hourlyAnyLimit = other.hourlyAnyLimit && limits.hourlyLimit = other.hourlyLimit &&
    limits.dailyLimit = other.dailyLimit && limits.monthlyLimit = other.monthlyLimit

end AccountQuotaLimits

/-- The deltas and the effect of a tag, which an update sets. -/
structure UserTagEffect where
  effectKind : String
  hourlyAnyDelta : Int
  hourlyDelta : Int
  dailyDelta : Int
  monthlyDelta : Int
deriving DecidableEq, Repr

structure UserTagRecord where
  id : String
  name : String
  displayName : String
  icon : Option String
  systemKey : Option String
  effect : UserTagEffect
deriving DecidableEq, Repr

def userTagEffectQuotaDelta : String := "quota_delta"

def userTagEffectBlockAll : String := "block_all"

def userTagSourceManual : String := "manual"

def userTagSourceSystemLinuxdo : String := "system_linuxdo"

def UserTagRecord.isSystem (tag : UserTagRecord) : Bool := tag.systemKey.isSome

def UserTagRecord.isBlockAll (tag : UserTagRecord) : Bool :=
  tag.effect.effectKind = userTagEffectBlockAll

structure UserTagBindingRecord where
  source : String
  tag : UserTagRecord
deriving DecidableEq, Repr

structure AccountQuotaBreakdownRecord where
  kind : String
  label : String
  tagId : Option String
  tagName : Option String
  source : Option String
  effectKind : String
  hourlyAnyDelta : Int
  hourlyDelta : Int
  dailyDelta : Int
  monthlyDelta : Int
deriving DecidableEq, Repr

structure AccountQuotaResolution where
  base : AccountQuotaLimits
  effective : AccountQuotaLimits
  breakdown : List AccountQuotaBreakdownRecord
  tags : List UserTagBindingRecord
deriving DecidableEq, Repr

/-! ### Resolution -/

def applyQuotaDelta (value delta : Int) : Int := saturatingAdd value delta

/-- One tag on the effective limits. A tag that blocks does not change them. -/
def applyTag (limits : AccountQuotaLimits) (binding : UserTagBindingRecord) :
    AccountQuotaLimits :=
  if binding.tag.isBlockAll then limits
  else
    { limits with
      hourlyAnyLimit := applyQuotaDelta limits.hourlyAnyLimit binding.tag.effect.hourlyAnyDelta
      hourlyLimit := applyQuotaDelta limits.hourlyLimit binding.tag.effect.hourlyDelta
      dailyLimit := applyQuotaDelta limits.dailyLimit binding.tag.effect.dailyDelta
      monthlyLimit := applyQuotaDelta limits.monthlyLimit binding.tag.effect.monthlyDelta }

/-- A line of the breakdown that shows limits. -/
def limitsRecord (kind effectKind : String) (limits : AccountQuotaLimits) :
    AccountQuotaBreakdownRecord where
  kind := kind
  label := kind
  tagId := none
  tagName := none
  source := none
  effectKind := effectKind
  hourlyAnyDelta := limits.hourlyAnyLimit
  hourlyDelta := limits.hourlyLimit
  dailyDelta := limits.dailyLimit
  monthlyDelta := limits.monthlyLimit

def tagRecord (binding : UserTagBindingRecord) : AccountQuotaBreakdownRecord where
  kind := "tag"
  label := binding.tag.displayName
  tagId := some binding.tag.id
  tagName := some binding.tag.name
  source := some binding.source
  effectKind := binding.tag.effect.effectKind
  hourlyAnyDelta := binding.tag.effect.hourlyAnyDelta
  hourlyDelta := binding.tag.effect.hourlyDelta
  dailyDelta := binding.tag.effect.dailyDelta
  monthlyDelta := binding.tag.effect.monthlyDelta

def buildAccountQuotaResolution (base : AccountQuotaLimits) (tags : List UserTagBindingRecord) :
    AccountQuotaResolution :=
  let blockAll := tags.any fun binding => binding.tag.isBlockAll
  let effective : AccountQuotaLimits :=
    if blockAll then
      { hourlyAnyLimit := 0, hourlyLimit := 0, dailyLimit := 0, monthlyLimit := 0,
        inheritsDefaults := base.inheritsDefaults }
    else (tags.foldl applyTag base).clampedNonNegative
  { base
    effective
    breakdown := limitsRecord "base" "base" base :: tags.map tagRecord ++
      [limitsRecord "effective" (if blockAll then userTagEffectBlockAll else "effective") effective]
    tags }

/-! ### Tables -/

/-- The tables of the quota. A binding's key is its user and its tag, its value the source. -/
structure QuotaDb where
  users : List String
  accountQuotaLimits : KeyedTable String AccountQuotaLimits
  userTags : KeyedTable String UserTagRecord
  userTagBindings : KeyedTable (String × String) String

/-- The order of the bindings of a user: system tags first, then by key or name. -/
def bindingOrder (a b : UserTagBindingRecord) : Prop :=
  let key (binding : UserTagBindingRecord) := binding.tag.systemKey.getD binding.tag.name
  (a.tag.systemKey.isSome ∧ b.tag.systemKey.isNone) ∨
    (a.tag.systemKey.isSome = b.tag.systemKey.isSome ∧
      (key a < key b ∨ key a = key b ∧ a.tag.displayName ≤ b.tag.displayName))

instance : DecidableRel bindingOrder := fun _ _ => by
  unfold bindingOrder
  infer_instance

/-- `list_user_tag_bindings_for_user`. -/
def listUserTagBindingsForUser (db : QuotaDb) (userId : String) : List UserTagBindingRecord :=
  (db.userTagBindings.rows.filterMap fun row =>
    if row.1.1 = userId then
      (db.userTags.find row.1.2).map fun tag => { source := row.2, tag }
    else none).insertionSort bindingOrder

/-- `list_user_ids_for_tag`. -/
def listUserIdsForTag (db : QuotaDb) (tagId : String) : List String :=
  ((db.userTagBindings.rows.filter fun row => row.1.2 = tagId).map fun row => row.1.1).dedup

/-- What a resolution is made of. -/
def quotaData (db : QuotaDb) (userId : String) :
    Option AccountQuotaLimits × List UserTagBindingRecord :=
  (db.accountQuotaLimits.find userId, listUserTagBindingsForUser db userId)

/-- The resolution of the state of the database, where the user has limits. -/
def resolutionOf (db : QuotaDb) (userId : String) : Option AccountQuotaResolution :=
  (db.accountQuotaLimits.find userId).map fun base =>
    buildAccountQuotaResolution base (listUserTagBindingsForUser db userId)

/-- `INSERT INTO account_quota_limits ... ON CONFLICT(user_id) DO NOTHING`. -/
def insertDefaultLimits (userId : String) (defaults : AccountQuotaLimits) (db : QuotaDb) : QuotaDb :=
  { db with accountQuotaLimits := db.accountQuotaLimits.upsert userId defaults id }

/-! ### Updates -/

/-- The updates of limits, tags and bindings, by what they are called with. -/
inductive QuotaUpdate where
  | updateAccountQuotaLimits (userId : String)
      (hourlyAnyLimit hourlyLimit dailyLimit monthlyLimit : Int)
  | createUserTag (id name displayName : String) (icon : Option String) (effect : UserTagEffect)
  | updateUserTag (tagId name displayName : String) (icon : Option String) (effect : UserTagEffect)
  | deleteUserTag (tagId : String)
  | bindUserTagToUser (userId tagId : String)
  | unbindUserTagFromUser (userId tagId : String)
  | syncLinuxdoSystemTagBinding (userId : String) (trustLevel : Option Int)
deriving DecidableEq, Repr

/-- What an update has read before it writes: the users it will invalidate, and the present
limits of the user it sets. -/
structure PreparedUpdate where
  users : List String
  current : Option AccountQuotaLimits
deriving DecidableEq, Repr

def validEffectKind (effect : UserTagEffect) : Bool :=
  effect.effectKind = userTagEffectQuotaDelta || effect.effectKind = userTagEffectBlockAll

/-- The checks and reads before the write, `none` where the update ends there. The limits of
the user are inserted if they are missing. -/
def prepareQuotaUpdate (defaults : String → AccountQuotaLimits) (db : QuotaDb) :
    QuotaUpdate → Option (PreparedUpdate × QuotaDb)
  | .updateAccountQuotaLimits userId _ _ _ _ =>
      if userId ∈ db.users then
        let db := insertDefaultLimits userId (defaults userId) db
        some ({ users := [userId], current := db.accountQuotaLimits.find userId }, db)
      else none
  | .createUserTag _ _ _ _ effect =>
      if validEffectKind effect then some ({ users := [], current := none }, db) else none
  | .updateUserTag tagId name displayName icon effect =>
      if validEffectKind effect then
        match db.userTags.find tagId with
        | some existing =>
            if existing.isSystem ∧
                (existing.name ≠ name ∨ existing.displayName ≠ displayName ∨ existing.icon ≠ icon) then
              none
            else some ({ users := listUserIdsForTag db tagId, current := none }, db)
        | none => none
      else none
  | .deleteUserTag tagId =>
      match db.userTags.find tagId with
      | some existing =>
          if existing.isSystem then none
          else some ({ users := listUserIdsForTag db tagId, current := none }, db)
      | none => none
  | .bindUserTagToUser userId tagId =>
      if userId ∈ db.users then
        match db.userTags.find tagId with
        | some tag =>
            if tag.isSystem then none else some ({ users := [userId], current := none }, db)
        | none => none
      else none
  | .unbindUserTagFromUser userId tagId =>
      match db.userTagBindings.find (userId, tagId), db.userTags.find tagId with
      | some source, some tag =>
          if source ≠ userTagSourceManual ∨ tag.isSystem then none
          else some ({ users := [userId], current := none }, db)
      | _, _ => none
  | .syncLinuxdoSystemTagBinding userId _ => some ({ users := [userId], current := none }, db)

/-- A tag of another row has the name. -/
def nameTaken (db : QuotaDb) (tagId name : String) : Bool :=
  db.userTags.rows.any fun row => row.1 ≠ tagId && row.2.name = name

/-- `normalize_linuxdo_trust_level`. -/
def normalizeLinuxdoTrustLevel (trustLevel : Option Int) : Option Int :=
  trustLevel.filter fun level => 0 ≤ level ∧ level ≤ 4

/-- `linuxdo_system_key_for_level`. -/
def linuxdoSystemKeyForLevel (level : Int) : String := "linuxdo_l" ++ toString level

/-- The ids of the tags whose system key is like `linuxdo_l%`. The underscore of the pattern
stands for any character. -/
def linuxdoSystemKey (key : String) : Bool :=
  likePrefix "linuxdo" key && likePrefix "l" (String.ofList (key.toList.drop 8))

/-- `sync_linuxdo_system_tag_binding_in_tx`. -/
def syncLinuxdoSystemTagBindingInTx (userId : String) (trustLevel : Option Int) (db : QuotaDb) :
    Option QuotaDb :=
  match normalizeLinuxdoTrustLevel trustLevel with
  | none => some db
  | some level =>
      match db.userTags.rows.find? fun row =>
        row.2.systemKey = some (linuxdoSystemKeyForLevel level) with
      | none => some db
      | some (tagId, _) =>
          if userId ∈ db.users then
            some { db with
              userTagBindings :=
                (db.userTagBindings.deleteWhere fun key _ =>
                  key.1 = userId && key.2 ≠ tagId &&
                    (db.userTags.find key.2).any fun tag =>
                      tag.systemKey.any linuxdoSystemKey).upsert (userId, tagId)
                  userTagSourceSystemLinuxdo fun _ => userTagSourceSystemLinuxdo }
          else none

/-- The write of an update, `none` where the database rejects it. -/
def commitQuotaUpdate (legacyDefaults : AccountQuotaLimits) (prepared : PreparedUpdate)
    (db : QuotaDb) : QuotaUpdate → Option QuotaDb
  | .updateAccountQuotaLimits userId hourlyAnyLimit hourlyLimit dailyLimit monthlyLimit =>
      let requested : AccountQuotaLimits :=
        { hourlyAnyLimit, hourlyLimit, dailyLimit, monthlyLimit, inheritsDefaults := false }
      let limits := { requested with
        inheritsDefaults := (prepared.current.any AccountQuotaLimits.inheritsDefaults) &&
          requested.sameLimitsAs legacyDefaults }
      some { db with
        accountQuotaLimits := db.accountQuotaLimits.upsert userId limits fun _ => limits }
  | .createUserTag tagId name displayName icon effect =>
      if (db.userTags.find tagId).isSome ∨ nameTaken db tagId name then none
      else
        let tag : UserTagRecord := { id := tagId, name, displayName, icon, systemKey := none, effect }
        some { db with userTags := db.userTags.upsert tagId tag fun _ => tag }
  | .updateUserTag tagId name displayName icon effect =>
      -- Of a system tag only the effect is written.
      if nameTaken db tagId name ∧ ¬ (db.userTags.find tagId).any UserTagRecord.isSystem then none
      else
        some { db with
          userTags := db.userTags.modify tagId fun tag =>
            if tag.isSystem then { tag with effect }
            else { tag with name, displayName, icon, effect } }
  | .deleteUserTag tagId =>
      some { db with
        userTagBindings := db.userTagBindings.deleteWhere fun key _ => key.2 = tagId
        userTags := db.userTags.deleteWhere fun key _ => key = tagId }
  | .bindUserTagToUser userId tagId =>
      if (db.userTags.find tagId).isSome then
        some { db with
          userTagBindings := db.userTagBindings.upsert (userId, tagId) userTagSourceManual
            fun _ => userTagSourceManual }
      else none
  | .unbindUserTagFromUser userId tagId =>
      some { db with
        userTagBindings := db.userTagBindings.deleteWhere fun key _ =>
          key.1 = userId && key.2 = tagId }
  | .syncLinuxdoSystemTagBinding userId trustLevel =>
      syncLinuxdoSystemTagBindingInTx userId trustLevel db

end TavilyHikari.Store
