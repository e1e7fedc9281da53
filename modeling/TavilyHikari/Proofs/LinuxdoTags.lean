/-
Module: TavilyHikari.Proofs.LinuxdoTags
Purpose: Over every run of startups, crashes and updates: when the deltas of the system tags
  follow the environment, and that they leave what an admin has set.
Trusted boundary: none
Main exports: systemEffect, FollowsDefaults, KeepsEdits, DefaultsKnown, systemTags_alongRun,
  crashedSync_not_followed
-/
import TavilyHikari.Store.LinuxdoTags

namespace TavilyHikari.Store

open Library

/-! ### The stored tuple -/

/-- Each delta is a number of 64 bits. -/
structure SystemTagDeltas.Fits (deltas : SystemTagDeltas) : Prop where
  hourlyAny : i64Min ≤ deltas.hourlyAny ∧ deltas.hourlyAny ≤ i64Max
  hourly : i64Min ≤ deltas.hourly ∧ deltas.hourly ≤ i64Max
  daily : i64Min ≤ deltas.daily ∧ deltas.daily ≤ i64Max
  monthly : i64Min ≤ deltas.monthly ∧ deltas.monthly ≤ i64Max

theorem parseI64_fits {raw : String} {value : Int} (parsed : parseI64 raw = some value) :
    i64Min ≤ value ∧ value ≤ i64Max := by
  unfold parseI64 at parsed
  have kept := (Option.filter_eq_some_iff.1 parsed).2
  exact of_decide_eq_true kept

theorem tokenLimitFromEnv_fits (value : Option String) (default : Int)
    (fits : i64Min ≤ default ∧ default ≤ i64Max) :
    i64Min ≤ tokenLimitFromEnv value default ∧ tokenLimitFromEnv value default ≤ i64Max := by
  unfold tokenLimitFromEnv
  cases value with
  | none => exact fits
  | some raw =>
      simp only
      split
      · exact fits
      · split
        · rename_i limit parsed
          split
          · exact parseI64_fits parsed
          · exact fits
        · exact fits

theorem linuxdoSystemTagDefaultDeltas_fits (env : TokenLimitsEnv) :
    (linuxdoSystemTagDefaultDeltas env).Fits where
  hourlyAny := tokenLimitFromEnv_fits env.tokenHourlyRequestLimit 500 (by decide)
  hourly := tokenLimitFromEnv_fits env.tokenHourlyLimit 100 (by decide)
  daily := tokenLimitFromEnv_fits env.tokenDailyLimit 500 (by decide)
  monthly := tokenLimitFromEnv_fits env.tokenMonthlyLimit 5000 (by decide)

/-- What is stored is read back. -/
theorem parse_format {deltas : SystemTagDeltas} (fits : deltas.Fits) :
    parseLinuxdoSystemTagDefaultDeltas (formatLinuxdoSystemTagDefaultDeltas deltas) =
      some deltas := by
  have comma : "," = String.singleton ',' := rfl
  have parts : splitAt ',' (formatLinuxdoSystemTagDefaultDeltas deltas) =
      [toString deltas.hourlyAny, toString deltas.hourly, toString deltas.daily,
        toString deltas.monthly] := by
    unfold formatLinuxdoSystemTagDefaultDeltas
    rw [comma, splitAt_append (comma_notMem_toString _), splitAt_append (comma_notMem_toString _),
      splitAt_append (comma_notMem_toString _), splitAt_of_notMem (comma_notMem_toString _)]
  unfold parseLinuxdoSystemTagDefaultDeltas
  rw [parts]
  simp only [List.map_cons, List.map_nil, trim_toString,
    parseI64_toString_int fits.hourlyAny.1 fits.hourlyAny.2,
    parseI64_toString_int fits.hourly.1 fits.hourly.2,
    parseI64_toString_int fits.daily.1 fits.daily.2,
    parseI64_toString_int fits.monthly.1 fits.monthly.2]
  rfl

theorem effect_eq_iff {effect : UserTagEffect} {deltas : SystemTagDeltas} :
    effect = deltas.effect ↔
      effect.effectKind = userTagEffectQuotaDelta ∧ effect.deltas = deltas := by
  constructor
  · rintro rfl
    exact ⟨rfl, rfl⟩
  · rintro ⟨kind, rfl⟩
    cases effect
    cases kind
    rfl

@[simp] theorem deltas_effect (deltas : SystemTagDeltas) : deltas.effect.deltas = deltas := rfl

/-! ### System tags -/

/-- The effect of a system tag, by its id. -/
def systemEffect (db : QuotaDb) (id : String) : Option UserTagEffect :=
  ((db.userTags.find id).filter UserTagRecord.isSystem).map UserTagRecord.effect

/-- The id of a system tag is its key, and one of the five. -/
def KeyedByLevel (db : QuotaDb) : Prop :=
  ∀ id tag key, db.userTags.find id = some tag → tag.systemKey = some key →
    id = key ∧ ∃ level : Nat, level < 5 ∧ key = linuxdoSystemKeyForLevel level

theorem systemEffect_eq_some_iff {db : QuotaDb} {id : String} {effect : UserTagEffect} :
    systemEffect db id = some effect ↔
      ∃ tag, db.userTags.find id = some tag ∧ tag.isSystem = true ∧ tag.effect = effect := by
  simp only [systemEffect, Option.map_eq_some_iff, Option.filter_eq_some_iff, and_assoc]

theorem linuxdoSystemKey_of_level {level : Nat} (small : level < 5) :
    linuxdoSystemKey (linuxdoSystemKeyForLevel level) = true := by
  revert level
  decide

/-- What an update of the effect leaves of the tags. -/
theorem KeyedByLevel.of_tags {db db' : QuotaDb} (keyed : KeyedByLevel db)
    (tags : ∀ id tag, db'.userTags.find id = some tag → tag.isSystem = true →
      ∃ before, db.userTags.find id = some before ∧ before.systemKey = tag.systemKey) :
    KeyedByLevel db' := by
  intro id tag key found system
  have isSystem : tag.isSystem = true := by
    rw [UserTagRecord.isSystem, system]
    rfl
  obtain ⟨before, there, same⟩ := tags id tag found isSystem
  exact keyed id before key there (same.trans system)

/-! ### The statements, on the system tags -/

/-- A seed adds the tag of its level where it is missing. -/
theorem seed_spec {db db' : QuotaDb} {deltas : SystemTagDeltas} {level : Nat}
    (keyed : KeyedByLevel db) (small : level < 5)
    (seeded : seedLinuxdoSystemTag deltas level db = some db') :
    KeyedByLevel db' ∧ ∀ id, systemEffect db' id =
      if id = linuxdoSystemKeyForLevel level then
        some ((systemEffect db id).getD deltas.effect)
      else systemEffect db id := by
  unfold seedLinuxdoSystemTag at seeded
  simp only at seeded
  split at seeded
  · rename_i row tagId tag there
    split at seeded
    · cases seeded
    · cases seeded
      have member := List.mem_of_find?_eq_some there
      have selected := List.find?_some there
      have key : tag.systemKey = some (linuxdoSystemKeyForLevel level) :=
        of_decide_eq_true selected
      have found : db.userTags.find tagId = some tag := KeyedTable.find_eq_some_iff.2 member
      obtain ⟨same, _⟩ := keyed tagId tag _ found key
      subst same
      constructor
      · apply keyed.of_tags
        intro id later found' _
        by_cases here : id = linuxdoSystemKeyForLevel level
        · subst here
          rw [KeyedTable.find_modify_self, found] at found'
          cases found'
          exact ⟨tag, found, rfl⟩
        · rw [KeyedTable.find_modify_of_ne _ here] at found'
          exact ⟨later, found', rfl⟩
      · intro id
        by_cases here : id = linuxdoSystemKeyForLevel level
        · subst here
          have system : tag.isSystem = true := by
            rw [UserTagRecord.isSystem, key]
            rfl
          have before : systemEffect db (linuxdoSystemKeyForLevel level) = some tag.effect :=
            systemEffect_eq_some_iff.2 ⟨tag, found, system, rfl⟩
          rw [if_pos rfl, before, Option.getD_some, systemEffect_eq_some_iff]
          exact ⟨_, (KeyedTable.find_modify_self _ _ _).trans (congrArg _ found), system, rfl⟩
        · rw [if_neg here]
          unfold systemEffect
          rw [KeyedTable.find_modify_of_ne _ here]
  · rename_i absent
    split at seeded
    · cases seeded
    · rename_i free
      cases seeded
      have missing : db.userTags.find (linuxdoSystemKeyForLevel level) = none := by
        rw [← Option.not_isSome_iff_eq_none]
        exact fun there => free (Or.inl there)
      constructor
      · intro id tag key found system
        by_cases here : id = linuxdoSystemKeyForLevel level
        · subst here
          rw [KeyedTable.find_upsert_self, missing] at found
          cases found
          cases system
          exact ⟨rfl, level, small, rfl⟩
        · rw [KeyedTable.find_upsert_of_ne _ here] at found
          exact keyed id tag key found system
      · intro id
        by_cases here : id = linuxdoSystemKeyForLevel level
        · subst here
          have before : systemEffect db (linuxdoSystemKeyForLevel level) = none := by
            rw [systemEffect, missing]
            rfl
          rw [if_pos rfl, before, Option.getD_none, systemEffect_eq_some_iff]
          exact ⟨_, KeyedTable.find_upsert_self _ _ _ _, by rw [missing]; rfl, by rw [missing]; rfl⟩
        · rw [if_neg here]
          unfold systemEffect
          rw [KeyedTable.find_upsert_of_ne _ here]

/-- The effect of a tag after the old deltas have been replaced. -/
def replaceDeltas (old deltas : SystemTagDeltas) (effect : UserTagEffect) : UserTagEffect :=
  if effect = old.effect then deltas.effect else effect

/-- What the update of the deltas makes of one tag. -/
def replacedTag (old deltas : SystemTagDeltas) (tag : UserTagRecord) : UserTagRecord :=
  if tag.systemKey.any linuxdoSystemKey && tag.effect.effectKind = userTagEffectQuotaDelta &&
      tag.effect.deltas = old then
    { tag with effect := { deltas.effect with effectKind := tag.effect.effectKind } }
  else tag

theorem replacedTag_systemKey (old deltas : SystemTagDeltas) (tag : UserTagRecord) :
    (replacedTag old deltas tag).systemKey = tag.systemKey := by
  unfold replacedTag
  split <;> rfl

theorem replacedTag_effect {old deltas : SystemTagDeltas} {tag : UserTagRecord}
    (like : tag.systemKey.any linuxdoSystemKey = true) :
    (replacedTag old deltas tag).effect = replaceDeltas old deltas tag.effect := by
  unfold replacedTag replaceDeltas
  by_cases same : tag.effect = old.effect
  · obtain ⟨kind, unchanged⟩ := effect_eq_iff.1 same
    rw [if_pos same, if_pos (by simp [like, kind, unchanged])]
    exact effect_eq_iff.2 ⟨kind, rfl⟩
  · rw [if_neg same, if_neg]
    simp only [like, Bool.true_and, Bool.and_eq_true, decide_eq_true_eq, ← effect_eq_iff]
    exact same

theorem like_of_isSystem {db : QuotaDb} (keyed : KeyedByLevel db) {id : String}
    {tag : UserTagRecord} (found : db.userTags.find id = some tag)
    (system : tag.isSystem = true) : tag.systemKey.any linuxdoSystemKey = true := by
  obtain ⟨key, there⟩ := Option.isSome_iff_exists.1 system
  obtain ⟨_, level, small, same⟩ := keyed id tag key found there
  rw [there, Option.any_some, same]
  exact linuxdoSystemKey_of_level small

/-- An update of the deltas replaces the old ones in every system tag. -/
theorem updateSystemTagDeltas_spec {db : QuotaDb} (old deltas : SystemTagDeltas)
    (keyed : KeyedByLevel db) :
    KeyedByLevel (updateSystemTagDeltas old deltas db) ∧ ∀ id,
      systemEffect (updateSystemTagDeltas old deltas db) id =
        (systemEffect db id).map (replaceDeltas old deltas) := by
  have found (id : String) : (updateSystemTagDeltas old deltas db).userTags.find id =
      (db.userTags.find id).map (replacedTag old deltas) := KeyedTable.find_updateWhere _ _ _ _
  constructor
  · apply keyed.of_tags
    intro id tag later _
    rw [found] at later
    obtain ⟨before, there, rfl⟩ := Option.map_eq_some_iff.1 later
    exact ⟨before, there, (replacedTag_systemKey old deltas before).symm⟩
  · intro id
    unfold systemEffect
    rw [found]
    cases there : db.userTags.find id with
    | none => rfl
    | some tag =>
        have same : (replacedTag old deltas tag).isSystem = tag.isSystem := by
          rw [UserTagRecord.isSystem, replacedTag_systemKey]
          rfl
        rw [Option.map_some, Option.filter_some, Option.filter_some, same]
        cases system : tag.isSystem with
        | false => rfl
        | true =>
            simp only [if_true, Option.map_some]
            rw [replacedTag_effect (like_of_isSystem keyed there system)]

/-- Only a change of the limits of an account writes before its commit. -/
theorem prepareQuotaUpdate_db {db mid : QuotaDb} {update : QuotaUpdate}
    {defaults : String → AccountQuotaLimits} {prepared : PreparedUpdate}
    (ready : prepareQuotaUpdate defaults db update = some (prepared, mid))
    (other : ∀ userId hourlyAny hourly daily monthly,
      update ≠ .updateAccountQuotaLimits userId hourlyAny hourly daily monthly) : mid = db := by
  cases update with
  | updateAccountQuotaLimits => exact absurd rfl (other _ _ _ _ _)
  | _ =>
      simp only [prepareQuotaUpdate] at ready
      repeat' split at ready
      all_goals cases ready
      all_goals rfl

/-- An update of the quota sets the effect of the system tag that an admin edits, and of no
other. -/
theorem applyQuotaUpdate_spec {db db' : QuotaDb} {update : QuotaUpdate}
    {defaults : String → AccountQuotaLimits} {legacyDefaults : AccountQuotaLimits}
    (edits : KeyedTable String UserTagEffect) (keyed : KeyedByLevel db)
    (applied : applyQuotaUpdate defaults legacyDefaults update db = some db') :
    KeyedByLevel db' ∧ ∀ id,
      (systemEffect db' id = systemEffect db id ∧
        (recordEdit db edits update).find id = edits.find id) ∨
      ∃ effect, systemEffect db' id = some effect ∧
        (recordEdit db edits update).find id = some effect := by
  obtain ⟨⟨prepared, mid⟩, ready, committed⟩ := Option.bind_eq_some_iff.1 applied
  have unchanged (tags : db'.userTags = db.userTags)
      (unrecorded : recordEdit db edits update = edits) : KeyedByLevel db' ∧ ∀ id,
      (systemEffect db' id = systemEffect db id ∧
        (recordEdit db edits update).find id = edits.find id) ∨
      ∃ effect, systemEffect db' id = some effect ∧
        (recordEdit db edits update).find id = some effect := by
    constructor
    · apply keyed.of_tags
      intro id tag found _
      rw [tags] at found
      exact ⟨tag, found, rfl⟩
    · intro id
      left
      unfold systemEffect
      rw [tags, unrecorded]
      exact ⟨rfl, rfl⟩
  cases update with
  | updateAccountQuotaLimits userId hourlyAnyLimit hourlyLimit dailyLimit monthlyLimit =>
      simp only [prepareQuotaUpdate] at ready
      split at ready
      · cases ready
        cases committed
        exact unchanged rfl rfl
      · cases ready
  | createUserTag tagId name displayName icon effect =>
      simp only [prepareQuotaUpdate] at ready
      split at ready
      · cases ready
        simp only [commitQuotaUpdate] at committed
        split at committed
        · cases committed
        · rename_i free
          cases committed
          have missing : db.userTags.find tagId = none := by
            rw [← Option.not_isSome_iff_eq_none]
            exact fun there => free (Or.inl there)
          constructor
          · apply keyed.of_tags
            intro id tag found system
            by_cases here : id = tagId
            · subst here
              rw [KeyedTable.find_upsert_self, missing] at found
              cases found
              cases system
            · rw [KeyedTable.find_upsert_of_ne _ here] at found
              exact ⟨tag, found, rfl⟩
          · intro id
            left
            refine ⟨?_, rfl⟩
            unfold systemEffect
            by_cases here : id = tagId
            · subst here
              rw [KeyedTable.find_upsert_self, missing]
              rfl
            · rw [KeyedTable.find_upsert_of_ne _ here]
      · cases ready
  | updateUserTag tagId name displayName icon effect =>
      have same : mid = db := prepareQuotaUpdate_db ready nofun
      subst same
      simp only [commitQuotaUpdate] at committed
      split at committed
      · cases committed
      · cases committed
        constructor
        · apply keyed.of_tags
          intro id tag found _
          by_cases here : id = tagId
          · subst here
            rw [KeyedTable.find_modify_self] at found
            obtain ⟨before, there, rfl⟩ := Option.map_eq_some_iff.1 found
            refine ⟨before, there, ?_⟩
            split <;> rfl
          · rw [KeyedTable.find_modify_of_ne _ here] at found
            exact ⟨tag, found, rfl⟩
        · intro id
          unfold systemEffect recordEdit
          simp only
          by_cases here : id = tagId
          · subst here
            rw [KeyedTable.find_modify_self]
            cases there : mid.userTags.find id with
            | none => exact Or.inl ⟨rfl, rfl⟩
            | some tag =>
                cases system : tag.isSystem with
                | true =>
                    right
                    refine ⟨effect, ?_, ?_⟩
                    · have kept : ({ tag with effect } : UserTagRecord).isSystem = true := system
                      simp only [Option.map_some, system, if_true, Option.filter_some, kept]
                    · simp only [Option.any_some, system, if_true]
                      rw [KeyedTable.find_upsert_self]
                      cases edits.find id <;> rfl
                | false =>
                    left
                    have kept : ({ tag with name, displayName, icon, effect } :
                        UserTagRecord).isSystem = false := system
                    constructor
                    · simp only [Option.map_some, system, Bool.false_eq_true, if_false,
                        Option.filter_some, kept]
                    · simp only [Option.any_some, system, Bool.false_eq_true, if_false]
          · left
            rw [KeyedTable.find_modify_of_ne _ here]
            refine ⟨rfl, ?_⟩
            split
            · rw [KeyedTable.find_upsert_of_ne _ here]
            · rfl
  | deleteUserTag tagId =>
      simp only [prepareQuotaUpdate] at ready
      split at ready
      · rename_i existing there
        split at ready
        · cases ready
        · rename_i custom
          cases ready
          cases committed
          have found (id : String) : (db.userTags.deleteWhere fun key _ => key = tagId).find id =
              if id = tagId then none else db.userTags.find id := by
            rw [KeyedTable.find_deleteWhere]
            cases db.userTags.find id with
            | none => simp
            | some tag =>
                by_cases here : id = tagId
                · simp [here]
                · simp [here]
          constructor
          · apply keyed.of_tags
            intro id tag later _
            rw [found] at later
            split at later
            · cases later
            · exact ⟨tag, later, rfl⟩
          · intro id
            left
            refine ⟨?_, rfl⟩
            unfold systemEffect
            rw [found]
            split
            · rename_i here
              subst here
              rw [there, Option.filter_some, if_neg custom]
              rfl
            · rfl
      · cases ready
  | bindUserTagToUser userId tagId =>
      have same : mid = db := prepareQuotaUpdate_db ready nofun
      subst same
      simp only [commitQuotaUpdate] at committed
      split at committed
      · cases committed
        exact unchanged rfl rfl
      · cases committed
  | unbindUserTagFromUser userId tagId =>
      have same : mid = db := prepareQuotaUpdate_db ready nofun
      subst same
      cases committed
      exact unchanged rfl rfl
  | syncLinuxdoSystemTagBinding userId trustLevel =>
      cases ready
      simp only [commitQuotaUpdate, syncLinuxdoSystemTagBindingInTx] at committed
      repeat' split at committed
      all_goals cases committed
      all_goals exact unchanged rfl rfl

/-! ### Inferring the previous defaults -/

theorem inferFromEffects_known {previous found : SystemTagDeltas} {effects : List UserTagEffect} :
    inferFromEffects (some previous) effects = some found ↔
      found = previous ∧ ∀ effect ∈ effects, effect = previous.effect := by
  induction effects with
  | nil => simp [inferFromEffects, eq_comm]
  | cons effect rest ih =>
      unfold inferFromEffects
      rw [List.forall_mem_cons, effect_eq_iff]
      by_cases kind : effect.effectKind = userTagEffectQuotaDelta
      · by_cases same : effect.deltas = previous
        · simp only [kind, same, ne_eq, not_true_eq_false, if_false, ih, true_and]
        · simp [kind, same, Ne.symm same]
      · simp [kind]

theorem inferFromEffects_eq_some_iff {found : SystemTagDeltas} {effects : List UserTagEffect}
    (nonempty : effects ≠ []) :
    inferFromEffects none effects = some found ↔ ∀ effect ∈ effects, effect = found.effect := by
  cases effects with
  | nil => exact absurd rfl nonempty
  | cons effect rest =>
      unfold inferFromEffects
      rw [List.forall_mem_cons]
      by_cases kind : effect.effectKind = userTagEffectQuotaDelta
      · simp only [kind, ne_eq, not_true_eq_false, if_false, inferFromEffects_known]
        constructor
        · rintro ⟨rfl, same⟩
          exact ⟨effect_eq_iff.2 ⟨kind, rfl⟩, same⟩
        · rintro ⟨first, same⟩
          have deltas := (effect_eq_iff.1 first).2
          rw [deltas]
          exact ⟨rfl, same⟩
      · simp [kind, effect_eq_iff]

/-- The five system tags are there. -/
def AllSeeded (db : QuotaDb) : Prop :=
  ∀ level : Nat, level < 5 → (systemEffect db (linuxdoSystemKeyForLevel level)).isSome

theorem mem_linuxdoTags {db : QuotaDb} (keyed : KeyedByLevel db) {effect : UserTagEffect} :
    (∃ tag ∈ (db.userTags.rows.map Prod.snd).filter fun tag =>
        tag.systemKey.any linuxdoSystemKey, tag.effect = effect) ↔
      ∃ id, systemEffect db id = some effect := by
  constructor
  · rintro ⟨tag, member, same⟩
    obtain ⟨listed, like⟩ := List.mem_filter.1 member
    obtain ⟨⟨id, other⟩, row, here⟩ := List.mem_map.1 listed
    have found : db.userTags.find id = some tag := by
      rw [← here]
      exact KeyedTable.find_eq_some_iff.2 row
    obtain ⟨key, there, _⟩ := (Option.any_eq_true _ _).1 like
    have system : tag.isSystem = true := by
      rw [UserTagRecord.isSystem, there]
      rfl
    exact ⟨id, systemEffect_eq_some_iff.2 ⟨tag, found, system, same⟩⟩
  · rintro ⟨id, found⟩
    obtain ⟨tag, there, system, same⟩ := systemEffect_eq_some_iff.1 found
    refine ⟨tag, List.mem_filter.2 ⟨?_, like_of_isSystem keyed there system⟩, same⟩
    exact List.mem_map.2 ⟨(id, tag), KeyedTable.find_eq_some_iff.1 there, rfl⟩

/-- The rows that the inference reads are those of the five tags. -/
theorem length_linuxdoTags {db : QuotaDb} (keyed : KeyedByLevel db) (seeded : AllSeeded db) :
    ((db.userTags.rows.map Prod.snd).filter fun tag =>
      tag.systemKey.any linuxdoSystemKey).length = 5 := by
  rw [List.filter_map, List.length_map]
  have ids : ((db.userTags.rows.filter ((fun tag : UserTagRecord =>
      tag.systemKey.any linuxdoSystemKey) ∘ Prod.snd)).map Prod.fst).Perm
      ((List.range 5).map fun level => linuxdoSystemKeyForLevel (level : Nat)) := by
    apply (List.perm_ext_iff_of_nodup _ (by decide)).2
    · intro id
      constructor
      · intro member
        obtain ⟨⟨other, tag⟩, listed, here⟩ := List.mem_map.1 member
        obtain ⟨row, like⟩ := List.mem_filter.1 listed
        obtain ⟨key, there, _⟩ := (Option.any_eq_true _ _).1 like
        obtain ⟨same, level, small, named⟩ :=
          keyed other tag key (KeyedTable.find_eq_some_iff.2 row) there
        rw [← here, same, named]
        exact List.mem_map.2 ⟨level, List.mem_range.2 small, rfl⟩
      · intro member
        obtain ⟨level, small, rfl⟩ := List.mem_map.1 member
        obtain ⟨effect, found⟩ :=
          Option.isSome_iff_exists.1 (seeded level (List.mem_range.1 small))
        obtain ⟨tag, there, system, _⟩ := systemEffect_eq_some_iff.1 found
        refine List.mem_map.2 ⟨(_, tag), List.mem_filter.2
          ⟨KeyedTable.find_eq_some_iff.1 there, ?_⟩, rfl⟩
        exact like_of_isSystem keyed there system
    · exact db.userTags.distinct.sublist (List.filter_sublist.map Prod.fst)
  have length := ids.length_eq
  rw [List.length_map] at length
  exact length

/-- The inference finds the deltas that all five tags have. -/
theorem infer_eq_some_iff {db : QuotaDb} (keyed : KeyedByLevel db) (seeded : AllSeeded db)
    {found : SystemTagDeltas} :
    inferLinuxdoSystemTagDefaultDeltasFromRows db = some found ↔
      ∀ id effect, systemEffect db id = some effect → effect = found.effect := by
  have length := length_linuxdoTags keyed seeded
  have sorted := List.perm_insertionSort systemKeyOrder
    ((db.userTags.rows.map Prod.snd).filter fun tag => tag.systemKey.any linuxdoSystemKey)
  unfold inferLinuxdoSystemTagDefaultDeltasFromRows
  simp only
  rw [if_neg (by rw [sorted.length_eq, length]; decide), inferFromEffects_eq_some_iff]
  · constructor
    · intro same id effect there
      obtain ⟨tag, member, rfl⟩ := (mem_linuxdoTags keyed).2 ⟨id, there⟩
      exact same tag.effect (List.mem_map_of_mem (sorted.mem_iff.2 member))
    · intro same effect member
      obtain ⟨tag, listed, here⟩ := List.mem_map.1 member
      obtain ⟨id, there⟩ := (mem_linuxdoTags keyed).1 ⟨tag, sorted.mem_iff.1 listed, here⟩
      exact same id effect there
  · intro empty
    have none := congrArg List.length empty
    rw [List.length_map, sorted.length_eq, length] at none
    cases none

/-! ### Properties of a state -/

namespace TagPhase

/-- The defaults of the environment of the process. -/
def current : TagPhase → Option SystemTagDeltas
  | .down => none
  | .seeding current _ | .markingBackfill current | .syncing current | .storingDefaults current
  | .finishing current | .running current => some current

/-- The levels that the startup has seeded. -/
def seededLevels : TagPhase → Nat
  | .down => 0
  | .seeding _ level => level
  | _ => 5

def markedBackfill : TagPhase → Bool
  | .down | .seeding _ _ | .markingBackfill _ => false
  | _ => true

def storedDefaults : TagPhase → Bool
  | .finishing _ | .running _ => true
  | _ => false

/-- The defaults of a startup that has synchronised. -/
def synchronised : TagPhase → Option SystemTagDeltas
  | .storingDefaults current | .finishing current | .running current => some current
  | _ => none

def runsWith : TagPhase → Option SystemTagDeltas
  | .running current => some current
  | _ => none

def synchronises : TagPhase → Option SystemTagDeltas
  | .syncing current => some current
  | _ => none

end TagPhase

namespace TagSystemState

/-- The effects of the system tags that no admin has edited. -/
def unedited (s : TagSystemState) : List UserTagEffect :=
  (s.quota.userTags.rows.filter fun row => row.2.isSystem && (s.edits.find row.1).isNone).map
    fun row => row.2.effect

theorem mem_unedited {s : TagSystemState} {effect : UserTagEffect} :
    effect ∈ s.unedited ↔
      ∃ id, systemEffect s.quota id = some effect ∧ s.edits.find id = none := by
  simp only [unedited, List.mem_map, List.mem_filter, Prod.exists, Bool.and_eq_true,
    Option.isNone_iff_eq_none, systemEffect_eq_some_iff, KeyedTable.find_eq_some_iff]
  constructor
  · rintro ⟨id, tag, ⟨member, system, free⟩, same⟩
    exact ⟨id, ⟨tag, member, system, same⟩, free⟩
  · rintro ⟨id, ⟨tag, member, system, same⟩, free⟩
    exact ⟨id, tag, ⟨member, system, free⟩, same⟩

/-- After a startup, what no admin has edited has the defaults of the environment. -/
def FollowsDefaults (s : TagSystemState) : Prop :=
  ∀ current ∈ s.phase.runsWith, ∀ effect ∈ s.unedited, effect = current.effect

instance : DecidablePred FollowsDefaults := fun s =>
  inferInstanceAs (Decidable (∀ current ∈ s.phase.runsWith, ∀ effect ∈ s.unedited,
    effect = current.effect))

/-- What an admin has set of a system tag is there, where it was never a default. -/
def KeepsEdits (s : TagSystemState) : Prop :=
  ∀ id effect, s.edits.find id = some effect →
    (∀ defaults ∈ s.environments, effect ≠ defaults.effect) →
    systemEffect s.quota id = some effect

/-- The effects are those of one tuple. -/
def OneTuple (effects : List UserTagEffect) : Prop :=
  ∃ deltas : SystemTagDeltas, ∀ effect ∈ effects, effect = deltas.effect

instance : DecidablePred OneTuple := fun effects =>
  decidable_of_iff (∀ effect ∈ effects, ∀ other ∈ effects, effect = other.deltas.effect) <| by
    constructor
    · intro same
      cases effects with
      | nil => exact ⟨{ hourlyAny := 0, hourly := 0, daily := 0, monthly := 0 }, by simp⟩
      | cons first rest => exact ⟨first.deltas, fun effect member =>
          same effect member first List.mem_cons_self⟩
    · rintro ⟨deltas, same⟩ effect member other member'
      rw [same effect member, same other member', deltas_effect]

/-- A startup that comes to the synchronisation finds the tags that no admin has edited with
the defaults that are stored or that are current, and with one tuple if none are stored. -/
def DefaultsKnown (s : TagSystemState) : TagAction → Prop
  | .advance _ =>
      ∀ current ∈ s.phase.synchronises,
        match getLinuxdoSystemTagDefaultDeltasMeta s.metaValues with
        | some stored =>
            ∀ effect ∈ s.unedited, effect = stored.effect ∨ effect = current.effect
        | none => OneTuple s.unedited
  | _ => True

instance (s : TagSystemState) (a : TagAction) : Decidable (s.DefaultsKnown a) :=
  match a with
  | .advance _ =>
      have (current : SystemTagDeltas) : Decidable
          (match getLinuxdoSystemTagDefaultDeltasMeta s.metaValues with
            | some stored =>
                ∀ effect ∈ s.unedited, effect = stored.effect ∨ effect = current.effect
            | none => OneTuple s.unedited) :=
        match getLinuxdoSystemTagDefaultDeltasMeta s.metaValues with
        | some _ => inferInstance
        | none => inferInstance
      inferInstanceAs (Decidable (∀ current ∈ s.phase.synchronises, _))
  | .start _ | .stop | .update _ _ _ => isTrue trivial

/-! ### The invariant -/

/-- What every run keeps. An admin edits a tag only after a startup has marked the backfill and
stored the defaults, and these are the defaults of some startup. -/
structure TagInvariant (s : TagSystemState) : Prop where
  keyed : KeyedByLevel s.quota
  seeded : ∀ level : Nat, level < 5 → level < s.phase.seededLevels →
    (systemEffect s.quota (linuxdoSystemKeyForLevel level)).isSome
  marked : s.phase.markedBackfill = true → (getBackfillMarker s.metaValues).isSome
  stored : s.phase.storedDefaults = true →
    (getLinuxdoSystemTagDefaultDeltasMeta s.metaValues).isSome
  edited : ∀ id effect, s.edits.find id = some effect →
    (getBackfillMarker s.metaValues).isSome ∧
      (getLinuxdoSystemTagDefaultDeltasMeta s.metaValues).isSome
  started : ∀ current ∈ s.phase.current, current ∈ s.environments ∧ current.Fits
  remembered : ∀ value, getLinuxdoSystemTagDefaultDeltasMeta s.metaValues = some value →
    value ∈ s.environments
  kept : s.KeepsEdits

variable {s s' : TagSystemState}

theorem systemEffect_update_of_ne {db : QuotaDb} {old deltas : SystemTagDeltas} {id : String}
    {effect : UserTagEffect} (keyed : KeyedByLevel db) (found : systemEffect db id = some effect)
    (different : effect ≠ old.effect) :
    systemEffect (updateSystemTagDeltas old deltas db) id = some effect := by
  rw [(updateSystemTagDeltas_spec old deltas keyed).2, found, Option.map_some, replaceDeltas,
    if_neg different]

theorem getBackfillMarker_set (now : UtcTimestamp) (values : MetaTable) :
    getBackfillMarker (setMetaString metaKeyLinuxdoSystemTagDefaultsV1 (toString now.secs) values) =
      some now.secs := by
  have range := now.in_range
  unfold getBackfillMarker setMetaString
  rw [KeyedTable.find_upsert_self]
  have parsed : parseI64 (toString now.secs) = some now.secs :=
    parseI64_toString_int (by omega) (by omega)
  cases values.find metaKeyLinuxdoSystemTagDefaultsV1 with
  | none => exact parsed
  | some _ => exact parsed

theorem getDefaultDeltas_setMarker (value : String) (values : MetaTable) :
    getLinuxdoSystemTagDefaultDeltasMeta
        (setMetaString metaKeyLinuxdoSystemTagDefaultsV1 value values) =
      getLinuxdoSystemTagDefaultDeltasMeta values := by
  unfold getLinuxdoSystemTagDefaultDeltasMeta setMetaString
  rw [KeyedTable.find_upsert_of_ne _ (by decide)]

theorem getDefaultDeltas_set {deltas : SystemTagDeltas} (fits : deltas.Fits) (values : MetaTable) :
    getLinuxdoSystemTagDefaultDeltasMeta
        (setMetaString metaKeyLinuxdoSystemTagDefaultsTupleV1
          (formatLinuxdoSystemTagDefaultDeltas deltas) values) = some deltas := by
  unfold getLinuxdoSystemTagDefaultDeltasMeta setMetaString
  rw [KeyedTable.find_upsert_self]
  cases values.find metaKeyLinuxdoSystemTagDefaultsTupleV1 with
  | none => exact parse_format fits
  | some _ => exact parse_format fits

theorem getBackfillMarker_setDefaults (value : String) (values : MetaTable) :
    getBackfillMarker (setMetaString metaKeyLinuxdoSystemTagDefaultsTupleV1 value values) =
      getBackfillMarker values := by
  unfold getBackfillMarker setMetaString
  rw [KeyedTable.find_upsert_of_ne _ (by decide)]

/-- The synchronisation replaces no effect but a default. -/
theorem sync_keeps {current : SystemTagDeltas} {id : String} {effect : UserTagEffect}
    (invariant : s.TagInvariant) (edited : s.edits.find id = some effect)
    (own : ∀ defaults ∈ s.environments, effect ≠ defaults.effect)
    (found : systemEffect s.quota id = some effect) :
    systemEffect (syncSystemTagDeltas current s.metaValues s.quota) id = some effect := by
  obtain ⟨value, stored⟩ := Option.isSome_iff_exists.1 (invariant.edited id effect edited).2
  have previous : previousDeltas current s.metaValues s.quota = value := by
    unfold previousDeltas
    rw [stored]
  unfold syncSystemTagDeltas
  rw [previous]
  simp only
  split
  · exact found
  · exact systemEffect_update_of_ne invariant.keyed found
      (own value (invariant.remembered value stored))

/-- A startup that fails, and a process that stops, leave what is stored. -/
theorem TagInvariant.down (invariant : s.TagInvariant) :
    TagInvariant { s with phase := .down } where
  keyed := invariant.keyed
  seeded := fun _ _ none => absurd none (Nat.not_lt_zero _)
  marked := fun marked => nomatch marked
  stored := fun stored => nomatch stored
  edited := invariant.edited
  started := fun _ none => nomatch none
  remembered := invariant.remembered
  kept := invariant.kept

namespace TagInvariant

variable {current : SystemTagDeltas} {level : Nat}

theorem seed {quota : QuotaDb} (invariant : s.TagInvariant)
    (phase : s.phase = .seeding current level) (small : level < 5)
    (stated : seedLinuxdoSystemTag current level s.quota = some quota) :
    TagInvariant { s with quota, phase := .seeding current (level + 1) } := by
  have begun := invariant.started current (by rw [phase]; rfl)
  have seeded := invariant.seeded
  rw [phase] at seeded
  obtain ⟨keyed, effects⟩ := seed_spec invariant.keyed small stated
  constructor
  · exact keyed
  · intro other small' before
    rw [effects]
    split
    · rfl
    · rename_i different
      have earlier : other < level := by
        rcases Nat.lt_succ_iff_lt_or_eq.1 before with less | same
        · exact less
        · exact absurd (congrArg (fun level : Nat => linuxdoSystemKeyForLevel level) same)
            different
      exact seeded other small' earlier
  · intro marked
    cases marked
  · intro stored
    cases stored
  · exact invariant.edited
  · rintro _ ⟨⟩
    exact begun
  · exact invariant.remembered
  · intro id effect edited own
    rw [effects, invariant.kept id effect edited own]
    split <;> rfl

/-- All tags are there once the levels are through. -/
theorem complete (invariant : s.TagInvariant) (phase : s.phase = .seeding current level)
    (all : ¬ level < 5) (other : Nat) (small : other < 5) :
    (systemEffect s.quota (linuxdoSystemKeyForLevel other)).isSome := by
  have seeded := invariant.seeded
  rw [phase] at seeded
  exact seeded other small (Nat.lt_of_lt_of_le small (Nat.le_of_not_lt all))

theorem backfill (invariant : s.TagInvariant) (phase : s.phase = .seeding current level)
    (all : ¬ level < 5) (unmarked : (getBackfillMarker s.metaValues).isNone = true) :
    TagInvariant { s with
      quota := backfillLinuxdoSystemTagDefaultDeltas current s.quota
      phase := .markingBackfill current } := by
  have begun := invariant.started current (by rw [phase]; rfl)
  obtain ⟨keyed, effects⟩ := updateSystemTagDeltas_spec
    { hourlyAny := 0, hourly := 0, daily := 0, monthly := 0 } current invariant.keyed
  constructor
  · exact keyed
  · intro other small _
    rw [backfillLinuxdoSystemTagDefaultDeltas, effects, Option.isSome_map]
    exact invariant.complete phase all other small
  · intro marked
    cases marked
  · intro stored
    cases stored
  · exact invariant.edited
  · rintro _ ⟨⟩
    exact begun
  · exact invariant.remembered
  · intro id effect edited
    have marked := (invariant.edited id effect edited).1
    rw [Option.isNone_iff_eq_none.1 unmarked] at marked
    cases marked

/-- A startup that finds the marker goes on to the synchronisation. -/
theorem skipBackfill (invariant : s.TagInvariant) (phase : s.phase = .seeding current level)
    (all : ¬ level < 5) (marked : ¬ (getBackfillMarker s.metaValues).isNone = true) :
    TagInvariant { s with phase := .syncing current } where
  keyed := invariant.keyed
  seeded := fun other small _ => invariant.complete phase all other small
  marked := fun _ => Option.isSome_iff_ne_none.2 (by simpa using marked)
  stored := fun stored => nomatch stored
  edited := invariant.edited
  started := by
    have begun := invariant.started current (by rw [phase]; rfl)
    rintro _ ⟨⟩
    exact begun
  remembered := invariant.remembered
  kept := invariant.kept

theorem markBackfill (now : UtcTimestamp) (invariant : s.TagInvariant)
    (phase : s.phase = .markingBackfill current) :
    TagInvariant { s with
      metaValues := setMetaString metaKeyLinuxdoSystemTagDefaultsV1 (toString now.secs) s.metaValues
      phase := .syncing current } := by
  have begun := invariant.started current (by rw [phase]; rfl)
  have seeded := invariant.seeded
  rw [phase] at seeded
  have marker := getBackfillMarker_set now s.metaValues
  have same := getDefaultDeltas_setMarker (toString now.secs) s.metaValues
  constructor
  · exact invariant.keyed
  · exact seeded
  · intro _
    exact Option.isSome_of_eq_some marker
  · intro stored
    cases stored
  · intro id effect edited
    refine ⟨Option.isSome_of_eq_some marker, ?_⟩
    rw [same]
    exact (invariant.edited id effect edited).2
  · rintro _ ⟨⟩
    exact begun
  · intro value found
    rw [same] at found
    exact invariant.remembered value found
  · exact invariant.kept

theorem sync (invariant : s.TagInvariant) (phase : s.phase = .syncing current) :
    TagInvariant { s with
      quota := syncSystemTagDeltas current s.metaValues s.quota
      phase := .storingDefaults current } := by
  have begun := invariant.started current (by rw [phase]; rfl)
  have seeded := invariant.seeded
  have marked := invariant.marked
  rw [phase] at seeded marked
  have updated : KeyedByLevel (syncSystemTagDeltas current s.metaValues s.quota) ∧
      ∀ other : Nat, other < 5 → (systemEffect
        (syncSystemTagDeltas current s.metaValues s.quota)
        (linuxdoSystemKeyForLevel other)).isSome := by
    unfold syncSystemTagDeltas
    simp only
    split
    · exact ⟨invariant.keyed, fun other small => seeded other small small⟩
    · obtain ⟨keyed, effects⟩ := updateSystemTagDeltas_spec
        (previousDeltas current s.metaValues s.quota) current invariant.keyed
      refine ⟨keyed, fun other small => ?_⟩
      rw [effects, Option.isSome_map]
      exact seeded other small small
  constructor
  · exact updated.1
  · exact fun other small _ => updated.2 other small
  · exact marked
  · intro stored
    cases stored
  · exact invariant.edited
  · rintro _ ⟨⟩
    exact begun
  · exact invariant.remembered
  · intro id effect edited own
    exact sync_keeps invariant edited own (invariant.kept id effect edited own)

theorem storeDefaults (invariant : s.TagInvariant) (phase : s.phase = .storingDefaults current) :
    TagInvariant { s with
      metaValues := setMetaString metaKeyLinuxdoSystemTagDefaultsTupleV1
        (formatLinuxdoSystemTagDefaultDeltas current) s.metaValues
      phase := .finishing current } := by
  have begun := invariant.started current (by rw [phase]; rfl)
  have seeded := invariant.seeded
  have marked := invariant.marked
  rw [phase] at seeded marked
  have stored := getDefaultDeltas_set begun.2 s.metaValues
  have same := getBackfillMarker_setDefaults (formatLinuxdoSystemTagDefaultDeltas current)
    s.metaValues
  constructor
  · exact invariant.keyed
  · exact seeded
  · intro _
    rw [same]
    exact marked rfl
  · intro _
    exact Option.isSome_of_eq_some stored
  · intro id effect _
    refine ⟨?_, Option.isSome_of_eq_some stored⟩
    rw [same]
    exact marked rfl
  · rintro _ ⟨⟩
    exact begun
  · intro value found
    cases stored.symm.trans found
    exact begun.1
  · exact invariant.kept

theorem finish (invariant : s.TagInvariant) (phase : s.phase = .finishing current) :
    TagInvariant { s with phase := .running current } := by
  have begun := invariant.started current (by rw [phase]; rfl)
  have seeded := invariant.seeded
  have marked := invariant.marked
  have stored := invariant.stored
  rw [phase] at seeded marked stored
  exact {
    keyed := invariant.keyed
    seeded := seeded
    marked := marked
    stored := stored
    edited := invariant.edited
    started := by
      rintro _ ⟨⟩
      exact begun
    remembered := invariant.remembered
    kept := invariant.kept }

end TagInvariant

theorem tagInvariant_advance {now : UtcTimestamp} (invariant : s.TagInvariant)
    (taken : advanceStartup now s = some s') : s'.TagInvariant := by
  unfold advanceStartup at taken
  cases phase : s.phase with
  | down =>
      rw [phase] at taken
      cases taken
  | running current =>
      rw [phase] at taken
      cases taken
  | seeding current level =>
      rw [phase] at taken
      simp only at taken
      split at taken
      · rename_i small
        split at taken
        · rename_i quota stated
          cases taken
          exact invariant.seed phase small stated
        · cases taken
          exact invariant.down
      · rename_i all
        split at taken
        · rename_i unmarked
          cases taken
          exact invariant.backfill phase all unmarked
        · rename_i marked
          cases taken
          exact invariant.skipBackfill phase all marked
  | markingBackfill current =>
      rw [phase] at taken
      cases taken
      exact invariant.markBackfill now phase
  | syncing current =>
      rw [phase] at taken
      cases taken
      exact invariant.sync phase
  | storingDefaults current =>
      rw [phase] at taken
      cases taken
      exact invariant.storeDefaults phase
  | finishing current =>
      rw [phase] at taken
      cases taken
      exact invariant.finish phase

theorem tagInvariant_step {action : TagAction} (invariant : s.TagInvariant)
    (taken : linuxdoTagSystem.step s action = some s') : s'.TagInvariant := by
  cases action with
  | start env =>
      simp only [linuxdoTagSystem, tagStep] at taken
      split at taken
      · cases taken
        exact {
          keyed := invariant.keyed
          seeded := fun _ _ none => absurd none (Nat.not_lt_zero _)
          marked := fun marked => nomatch marked
          stored := fun stored => nomatch stored
          edited := invariant.edited
          started := by
            rintro _ ⟨⟩
            exact ⟨List.mem_cons_self, linuxdoSystemTagDefaultDeltas_fits env⟩
          remembered := fun value found => List.mem_cons_of_mem _ (invariant.remembered value found)
          kept := fun id effect edited own => invariant.kept id effect edited fun defaults member =>
            own defaults (List.mem_cons_of_mem _ member) }
      · cases taken
  | advance now => exact tagInvariant_advance invariant taken
  | stop =>
      cases taken
      exact invariant.down
  | update update defaults legacyDefaults =>
      simp only [linuxdoTagSystem, tagStep] at taken
      split at taken
      · rename_i current phase
        obtain ⟨quota, applied, rfl⟩ := Option.map_eq_some_iff.1 taken
        obtain ⟨keyed, effects⟩ := applyQuotaUpdate_spec s.edits invariant.keyed applied
        have marked := invariant.marked (by rw [phase]; rfl)
        have stored := invariant.stored (by rw [phase]; rfl)
        constructor
        · exact keyed
        · intro level small before
          obtain ⟨same, _⟩ | ⟨effect, set, _⟩ := effects (linuxdoSystemKeyForLevel level)
          · rw [same]
            exact invariant.seeded level small before
          · exact Option.isSome_of_eq_some set
        · exact fun _ => marked
        · exact fun _ => stored
        · exact fun _ _ _ => ⟨marked, stored⟩
        · exact invariant.started
        · exact invariant.remembered
        · intro id effect edited own
          obtain ⟨same, unrecorded⟩ | ⟨other, set, recorded⟩ := effects id
          · rw [same]
            rw [unrecorded] at edited
            exact invariant.kept id effect edited own
          · cases recorded.symm.trans edited
            exact set
      · cases taken

/-! ### The synchronisation -/

/-- After the synchronisation what no admin has edited has the defaults of the environment
exactly where the state before it is known. -/
theorem syncing_iff {current : SystemTagDeltas} (now : UtcTimestamp) (invariant : s.TagInvariant)
    (phase : s.phase = .syncing current) :
    (∀ id effect, systemEffect (syncSystemTagDeltas current s.metaValues s.quota) id = some effect →
        s.edits.find id = none → effect = current.effect) ↔ s.DefaultsKnown (.advance now) := by
  have known : s.DefaultsKnown (.advance now) ↔
      match getLinuxdoSystemTagDefaultDeltasMeta s.metaValues with
      | some stored => ∀ effect ∈ s.unedited, effect = stored.effect ∨ effect = current.effect
      | none => OneTuple s.unedited := by
    simp only [DefaultsKnown, phase, TagPhase.synchronises, Option.mem_some_iff, forall_eq']
  -- An effect is current after the update exactly where it was the old one or the current one.
  have replaced (old : SystemTagDeltas) :
      (∀ id effect, systemEffect (updateSystemTagDeltas old current s.quota) id = some effect →
          s.edits.find id = none → effect = current.effect) ↔
        ∀ effect ∈ s.unedited, effect = old.effect ∨ effect = current.effect := by
    have effects := (updateSystemTagDeltas_spec old current invariant.keyed).2
    constructor
    · intro follows effect member
      obtain ⟨id, found, free⟩ := mem_unedited.1 member
      have after := follows id (replaceDeltas old current effect)
        (by rw [effects, found, Option.map_some]) free
      unfold replaceDeltas at after
      split at after
      · rename_i same
        exact Or.inl same
      · exact Or.inr after
    · intro covered id effect found free
      rw [effects] at found
      obtain ⟨before, there, rfl⟩ := Option.map_eq_some_iff.1 found
      unfold replaceDeltas
      rcases covered before (mem_unedited.2 ⟨id, there, free⟩) with same | same
      · rw [if_pos same]
      · split
        · rfl
        · exact same
  have unchanged :
      (∀ id effect, systemEffect s.quota id = some effect → s.edits.find id = none →
          effect = current.effect) ↔ ∀ effect ∈ s.unedited, effect = current.effect := by
    constructor
    · intro follows effect member
      obtain ⟨id, found, free⟩ := mem_unedited.1 member
      exact follows id effect found free
    · intro follows id effect found free
      exact follows effect (mem_unedited.2 ⟨id, found, free⟩)
  rw [known]
  unfold syncSystemTagDeltas previousDeltas
  cases stored : getLinuxdoSystemTagDefaultDeltasMeta s.metaValues with
  | some value =>
      simp only
      split
      · rename_i same
        rw [unchanged, same]
        simp only [or_self]
      · exact replaced value
  | none =>
      -- Nothing has been edited yet, and the inference sees all that there is.
      have free : ∀ id, s.edits.find id = none := by
        intro id
        rw [Option.eq_none_iff_forall_ne_some]
        intro effect edited
        have there := (invariant.edited id effect edited).2
        rw [stored] at there
        cases there
      have seeded : AllSeeded s.quota := by
        intro level small
        apply invariant.seeded level small
        rw [phase]
        exact small
      have inferred (found : SystemTagDeltas) :
          inferLinuxdoSystemTagDefaultDeltasFromRows s.quota = some found ↔
            ∀ effect ∈ s.unedited, effect = found.effect := by
        rw [infer_eq_some_iff invariant.keyed seeded]
        constructor
        · intro same effect member
          obtain ⟨id, there, _⟩ := mem_unedited.1 member
          exact same id effect there
        · intro same id effect there
          exact same effect (mem_unedited.2 ⟨id, there, free id⟩)
      simp only
      cases infer : inferLinuxdoSystemTagDefaultDeltasFromRows s.quota with
      | some value =>
          have same := (inferred value).1 infer
          simp only [Option.getD_some]
          apply iff_of_true _ ⟨value, same⟩
          split
          · rename_i equal
            rw [unchanged, ← equal]
            exact same
          · exact (replaced value).2 fun effect member => Or.inl (same effect member)
      | none =>
          simp only [Option.getD_none, if_true]
          rw [unchanged]
          constructor
          · exact fun follows => ⟨current, follows⟩
          · rintro ⟨deltas, same⟩
            rw [(inferred deltas).2 same] at infer
            cases infer

/-- From the synchronisation on, what no admin has edited has the defaults of the environment. -/
structure FollowInvariant (s : TagSystemState) : Prop extends s.TagInvariant where
  follows : ∀ current ∈ s.phase.synchronised, ∀ id effect,
    systemEffect s.quota id = some effect → s.edits.find id = none → effect = current.effect

theorem FollowInvariant.followsDefaults (invariant : s.FollowInvariant) : s.FollowsDefaults := by
  intro current runs effect member
  obtain ⟨id, found, free⟩ := mem_unedited.1 member
  apply invariant.follows current _ id effect found free
  cases phase : s.phase with
  | running other =>
      rw [phase] at runs
      exact runs
  | _ =>
      rw [phase] at runs
      cases runs

theorem followInvariant_step {action : TagAction} (invariant : s.FollowInvariant)
    (known : s.DefaultsKnown action) (taken : linuxdoTagSystem.step s action = some s') :
    s'.FollowInvariant := by
  refine { tagInvariant_step invariant.toTagInvariant taken with follows := ?_ }
  cases action with
  | start env =>
      simp only [linuxdoTagSystem, tagStep] at taken
      split at taken
      · cases taken
        intro _ none
        cases none
      · cases taken
  | stop =>
      cases taken
      intro _ none
      cases none
  | advance now =>
      simp only [linuxdoTagSystem, tagStep, advanceStartup] at taken
      have follows := invariant.follows
      cases phase : s.phase with
      | syncing current =>
          rw [phase] at taken
          cases taken
          rintro _ ⟨⟩
          exact (syncing_iff now invariant.toTagInvariant phase).2 known
      | storingDefaults current =>
          rw [phase] at taken follows
          cases taken
          exact follows
      | finishing current =>
          rw [phase] at taken follows
          cases taken
          exact follows
      | seeding current level =>
          rw [phase] at taken
          simp only at taken
          repeat' split at taken
          all_goals
            cases taken
            intro _ none
            cases none
      | markingBackfill current =>
          rw [phase] at taken
          cases taken
          intro _ none
          cases none
      | down =>
          rw [phase] at taken
          cases taken
      | running current =>
          rw [phase] at taken
          cases taken
  | update update defaults legacyDefaults =>
      simp only [linuxdoTagSystem, tagStep] at taken
      split at taken
      · obtain ⟨quota, applied, rfl⟩ := Option.map_eq_some_iff.1 taken
        obtain ⟨_, effects⟩ := applyQuotaUpdate_spec s.edits invariant.keyed applied
        intro current synchronised id effect found free
        obtain ⟨same, unrecorded⟩ | ⟨other, _, recorded⟩ := effects id
        · rw [same] at found
          exact invariant.follows current synchronised id effect found (unrecorded.symm.trans free)
        · cases recorded.symm.trans free
      · cases taken

/-! ### Runs -/

/-- Before the first startup of this version: the defaults have not been stored, and of the
tags an earlier version may have seeded some. -/
structure Unstarted (s : TagSystemState) : Prop where
  keyed : KeyedByLevel s.quota
  unstored : s.metaValues.find metaKeyLinuxdoSystemTagDefaultsTupleV1 = none
  down : s.phase = .down
  environments : s.environments = []
  edits : s.edits = .empty

theorem Unstarted.invariant (unstarted : s.Unstarted) : s.FollowInvariant where
  keyed := unstarted.keyed
  seeded := by
    intro level _ before
    rw [unstarted.down] at before
    exact absurd before (Nat.not_lt_zero level)
  marked := by
    intro marked
    rw [unstarted.down] at marked
    cases marked
  stored := by
    intro stored
    rw [unstarted.down] at stored
    cases stored
  edited := by
    intro id effect edited
    rw [unstarted.edits] at edited
    cases edited
  started := by
    intro current started
    rw [unstarted.down] at started
    cases started
  remembered := by
    intro value found
    rw [getLinuxdoSystemTagDefaultDeltasMeta, unstarted.unstored] at found
    cases found
  kept := by
    intro id effect edited
    rw [unstarted.edits] at edited
    cases edited
  follows := by
    intro current synchronised
    rw [unstarted.down] at synchronised
    cases synchronised

/-- In every run what an admin has set of a system tag is kept where it was never a default, and
the other system tags follow the environment where each startup knows the previous defaults. -/
theorem systemTags_alongRun (unstarted : s.Unstarted) (actions : List TagAction) :
    linuxdoTagSystem.AlongRun KeepsEdits s actions ∧
      (linuxdoTagSystem.Guarded DefaultsKnown s actions →
        linuxdoTagSystem.AlongRun FollowsDefaults s actions) := by
  constructor
  · have along := linuxdoTagSystem.alongRun_of_preserved
      (fun _ _ _ invariant taken => tagInvariant_step invariant taken)
      unstarted.invariant.toTagInvariant actions
    exact along.mono linuxdoTagSystem fun _ invariant => invariant.kept
  · intro guarded
    have along := linuxdoTagSystem.alongRun_of_guarded
      (fun _ _ _ invariant known taken => followInvariant_step invariant known taken)
      unstarted.invariant guarded
    exact along.mono linuxdoTagSystem fun _ invariant => invariant.followsDefaults

/-! ### A startup that crashes before it stores the defaults -/

/-- A database without tags. -/
def withoutTags : TagSystemState where
  quota :=
    { users := []
      accountQuotaLimits := .empty
      userTags := .empty
      userTagBindings := .empty }
  metaValues := .empty
  phase := .down
  environments := []
  edits := .empty

theorem withoutTags_unstarted : withoutTags.Unstarted where
  keyed := fun _ _ _ found => nomatch found
  unstored := rfl
  down := rfl
  environments := rfl
  edits := rfl

def zeroBase : AccountQuotaLimits where
  hourlyAnyLimit := 0
  hourlyLimit := 0
  dailyLimit := 0
  monthlyLimit := 0
  inheritsDefaults := false

def hourlyLimitEnv (tokenHourlyLimit : Option String) : TokenLimitsEnv where
  tokenHourlyRequestLimit := none
  tokenHourlyLimit := tokenHourlyLimit
  tokenDailyLimit := none
  tokenMonthlyLimit := none

/-- A startup and its first statements. -/
def startup (tokenHourlyLimit : Option String) (statements : Nat) : List TagAction :=
  .start (hourlyLimitEnv tokenHourlyLimit) :: List.replicate statements (.advance default)

/-- Two startups under different environments, and an edit. -/
def changedDefaults : List TagAction :=
  startup none 10 ++
    .update (.updateUserTag "linuxdo_l2" "linuxdo_l2" "L2" (some "linuxdo")
      { effectKind := userTagEffectQuotaDelta, hourlyAnyDelta := 101, hourlyDelta := 102,
        dailyDelta := 103, monthlyDelta := 104 })
      (fun _ => zeroBase) zeroBase :: .stop :: startup (some "200") 9

theorem systemTags_alongRun_changedDefaults :
    linuxdoTagSystem.AlongRun FollowsDefaults withoutTags changedDefaults :=
  (systemTags_alongRun withoutTags_unstarted changedDefaults).2 (by decide +kernel)

/-- A startup with another limit crashes between its update of the tags and the storing of the
defaults, and the next startup has the old limit again. -/
def crashedSync : List TagAction :=
  startup none 10 ++ .stop :: startup (some "200") 7 ++ .stop :: startup none 9

/-- The tags keep the limit of the startup that has crashed. -/
theorem crashedSync_not_followed :
    ¬linuxdoTagSystem.AlongRun FollowsDefaults withoutTags crashedSync := by
  decide +kernel

end TagSystemState

end TavilyHikari.Store
