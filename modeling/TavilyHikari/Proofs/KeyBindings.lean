/-
Module: TavilyHikari.Proofs.KeyBindings
Purpose: The API keys a user or a token is bound to are the ones of its latest successes,
  in whatever order the successes are settled. An eviction forgets a key with everything
  that was known of it, and nothing that is settled later can tell.
Trusted boundary: none
Main exports: SettledSuccess, latestSuccess, BindingsExact, BindingsExact.refresh,
  keyBindings_topRanked
-/
import Mathlib.Data.Int.ConditionallyCompleteOrder
import Mathlib.Data.List.MinMax
import Mathlib.Data.Prod.Lex
import Mathlib.Data.String.Basic
import TavilyHikari.Library.TopRanked
import TavilyHikari.Store.PendingBilling

namespace TavilyHikari.Store

open Library

/-! ### What has been settled -/

/-- A settled success of a user or of a token. -/
structure SettledSuccess where
  owner : String
  apiKeyId : String
  successAt : Int
deriving DecidableEq, Repr

/-- The keys that served the owner. -/
def settledKeys (settled : List SettledSuccess) (owner : String) : Finset String :=
  ((settled.filter fun success => success.owner = owner).map SettledSuccess.apiKeyId).toFinset

/-- The latest of the times. -/
def latestTime {Time : Type} [LinearOrder Time] (times : List Time) : WithBot Time :=
  times.maximum

/-- The time of the owner's latest success with the key. -/
def latestSuccess (settled : List SettledSuccess) (owner apiKeyId : String) : WithBot Int :=
  latestTime ((settled.filter fun success => success.owner = owner ∧
    success.apiKeyId = apiKeyId).map SettledSuccess.successAt)

/-- Keys in the order of their latest success, and of their names where these tie. -/
def successRank (settled : List SettledSuccess) (owner apiKeyId : String) :
    WithBot Int ×ₗ String :=
  toLex (latestSuccess settled owner apiKeyId, apiKeyId)

theorem latestSuccess_concat (settled : List SettledSuccess) (success : SettledSuccess)
    (owner apiKeyId : String) :
    latestSuccess (settled ++ [success]) owner apiKeyId =
      if success.owner = owner ∧ success.apiKeyId = apiKeyId then
        max (latestSuccess settled owner apiKeyId) success.successAt
      else latestSuccess settled owner apiKeyId := by
  unfold latestSuccess latestTime
  rw [List.filter_append, List.map_append]
  split
  case isTrue here =>
    rw [List.filter_cons_of_pos (by simpa using here), List.filter_nil, List.map_cons,
      List.map_nil, List.maximum_concat]
  case isFalse elsewhere =>
    rw [List.filter_cons_of_neg (by simpa using elsewhere), List.filter_nil, List.map_nil,
      List.append_nil]

theorem settledKeys_concat (settled : List SettledSuccess) (success : SettledSuccess)
    (owner : String) :
    settledKeys (settled ++ [success]) owner =
      if success.owner = owner then insert success.apiKeyId (settledKeys settled owner)
      else settledKeys settled owner := by
  ext apiKeyId
  unfold settledKeys
  split
  case isTrue here => simp [here]
  case isFalse elsewhere => simp [elsewhere]

theorem mem_settledKeys_iff {settled : List SettledSuccess} {owner apiKeyId : String} :
    apiKeyId ∈ settledKeys settled owner ↔ latestSuccess settled owner apiKeyId ≠ ⊥ := by
  unfold settledKeys latestSuccess latestTime
  rw [Ne, List.maximum_eq_bot, List.map_eq_nil_iff, List.filter_eq_nil_iff]
  simp [and_assoc]

/-! ### The rows of an owner -/

/-- The keys the owner is bound to. -/
def boundKeys (bindings : ApiKeyBindings) (owner : String) : Finset String :=
  ((bindings.rows.filter fun row => row.1.1 = owner).map fun row => row.1.2).toFinset

/-- `updated_at` follows `last_success_at`. -/
def Uniform (bindings : ApiKeyBindings) (owner : String) : Prop :=
  ∀ apiKeyId row, bindings.find (owner, apiKeyId) = some row → row.updatedAt = row.lastSuccessAt

/-- Bound keys in the order the rows put them in. -/
def bindingRank (bindings : ApiKeyBindings) (owner apiKeyId : String) : WithBot Int ×ₗ String :=
  toLex ((bindings.find (owner, apiKeyId)).map ApiKeyBinding.lastSuccessAt, apiKeyId)

theorem mem_boundKeys_iff {bindings : ApiKeyBindings} {owner apiKeyId : String} :
    apiKeyId ∈ boundKeys bindings owner ↔ ∃ row, bindings.find (owner, apiKeyId) = some row := by
  simp only [boundKeys, List.mem_toFinset, List.mem_map, List.mem_filter, decide_eq_true_eq,
    KeyedTable.find_eq_some_iff]
  constructor
  · rintro ⟨⟨⟨_, _⟩, row⟩, ⟨member, rfl⟩, rfl⟩
    exact ⟨row, member⟩
  · intro ⟨row, member⟩
    exact ⟨((owner, apiKeyId), row), ⟨member, rfl⟩, rfl⟩

/-! ### `ORDER BY` and `OFFSET` -/

theorem bindingBefore_iff {one two : (String × String) × ApiKeyBinding} :
    bindingBefore one two = true ↔
      toLex (two.2.lastSuccessAt, toLex (two.2.updatedAt, two.1.2)) ≤
        toLex (one.2.lastSuccessAt, toLex (one.2.updatedAt, one.1.2)) := by
  unfold bindingBefore
  rw [Prod.Lex.toLex_le_toLex, Prod.Lex.toLex_le_toLex]
  dsimp only
  split
  case isTrue apart => simp [Ne.symm apart]
  case isFalse same =>
    rw [not_not] at same
    split
    case isTrue apart => simp [same, Ne.symm apart]
    case isFalse tie =>
      rw [not_not] at tie
      simp [same, tie]

instance : Std.Total fun one two : (String × String) × ApiKeyBinding => bindingBefore one two where
  total one two := by
    rw [bindingBefore_iff, bindingBefore_iff]
    exact le_total _ _

instance : IsTrans ((String × String) × ApiKeyBinding)
    fun one two => bindingBefore one two where
  trans one two three first second := by
    rw [bindingBefore_iff] at first second ⊢
    exact le_trans second first

/-- The owner's rows in the order of the eviction. -/
def orderedBindings (bindings : ApiKeyBindings) (owner : String) :
    List ((String × String) × ApiKeyBinding) :=
  (bindings.rows.filter fun row => row.1.1 = owner).insertionSort
    fun one two => bindingBefore one two

theorem mem_orderedBindings {bindings : ApiKeyBindings} {owner : String}
    {row : (String × String) × ApiKeyBinding} (member : row ∈ orderedBindings bindings owner) :
    row.1.1 = owner ∧ bindings.find (owner, row.1.2) = some row.2 := by
  rw [orderedBindings, List.mem_insertionSort, List.mem_filter, decide_eq_true_eq] at member
  obtain ⟨stored, mine⟩ := member
  refine ⟨mine, KeyedTable.find_eq_some_iff.mpr ?_⟩
  rw [← mine]
  exact stored

theorem toFinset_orderedBindings (bindings : ApiKeyBindings) (owner : String) :
    ((orderedBindings bindings owner).map fun row => row.1.2).toFinset =
      boundKeys bindings owner :=
  List.toFinset_eq_of_perm _ _ ((List.perm_insertionSort _ _).map _)

theorem nodup_orderedBindings (bindings : ApiKeyBindings) (owner : String) :
    ((orderedBindings bindings owner).map fun row => row.1.2).Nodup := by
  have perm := (List.perm_insertionSort
    (fun one two : (String × String) × ApiKeyBinding => bindingBefore one two)
    (bindings.rows.filter fun row => row.1.1 = owner)).map fun row => row.1.2
  rw [orderedBindings, perm.nodup_iff]
  have keys : ((bindings.rows.filter fun row => row.1.1 = owner).map Prod.fst).Nodup :=
    bindings.distinct.sublist (List.filter_sublist.map Prod.fst)
  have names : (((bindings.rows.filter fun row => row.1.1 = owner).map Prod.fst).map
      Prod.snd).Nodup := by
    apply keys.map_on
    intro key isMine key' isMine' same
    obtain ⟨row, member, rfl⟩ := List.mem_map.mp isMine
    obtain ⟨row', member', rfl⟩ := List.mem_map.mp isMine'
    have mine : row.1.1 = owner := by simpa using (List.mem_filter.mp member).2
    have mine' : row'.1.1 = owner := by simpa using (List.mem_filter.mp member').2
    exact Prod.ext (mine.trans mine'.symm) same
  rw [List.map_map] at names
  exact names

/-- Where `updated_at` follows `last_success_at`, it decides nothing. -/
theorem falling_orderedBindings {bindings : ApiKeyBindings} {owner : String}
    (uniform : Uniform bindings owner) :
    ((orderedBindings bindings owner).map fun row => row.1.2).Pairwise fun one two =>
      bindingRank bindings owner two < bindingRank bindings owner one := by
  have sorted := List.pairwise_insertionSort
    (fun one two : (String × String) × ApiKeyBinding => bindingBefore one two)
    (bindings.rows.filter fun row => row.1.1 = owner)
  have distinct := List.pairwise_map.mp (nodup_orderedBindings bindings owner)
  rw [List.pairwise_map]
  apply (sorted.and distinct).imp_of_mem
  rintro one two member member' ⟨before, apart⟩
  have first := mem_orderedBindings member
  have second := mem_orderedBindings member'
  rw [bindingBefore_iff, uniform _ _ first.2, uniform _ _ second.2] at before
  apply lt_of_le_of_ne
  · rw [bindingRank, bindingRank, first.2, second.2, Option.map_some, Option.map_some,
      Prod.Lex.toLex_le_toLex]
    rw [Prod.Lex.toLex_le_toLex, Prod.Lex.toLex_le_toLex] at before
    simp only at before ⊢
    cases before with
    | inl older => exact Or.inl (WithBot.coe_lt_coe.mpr older)
    | inr tie =>
        refine Or.inr ⟨congrArg some tie.1, ?_⟩
        exact tie.2.elim (fun older => absurd tie.1 (ne_of_lt older)) And.right
  · intro same
    exact apart (congrArg (fun rank => (ofLex rank).2) same).symm

/-! ### The eviction -/

theorem find_pruneBindings (bindings : ApiKeyBindings) (owner : String) (limit : Nat)
    (key : String × String) :
    (pruneBindings bindings owner limit).find key = (bindings.find key).filter fun _ =>
      !decide (key.1 = owner ∧
        key.2 ∈ ((orderedBindings bindings owner).drop limit).map fun row => row.1.2) :=
  KeyedTable.find_deleteWhere ..

theorem boundKeys_pruneBindings (bindings : ApiKeyBindings) (owner : String) (limit : Nat) :
    boundKeys (pruneBindings bindings owner limit) owner =
      (((orderedBindings bindings owner).map fun row => row.1.2).take limit).toFinset := by
  have all := toFinset_orderedBindings bindings owner
  have distinct := nodup_orderedBindings bindings owner
  have split := List.take_append_drop limit
    ((orderedBindings bindings owner).map fun row => row.1.2)
  rw [← split] at distinct
  have apart := List.disjoint_of_nodup_append distinct
  ext apiKeyId
  have bound : apiKeyId ∈ boundKeys bindings owner ↔
      apiKeyId ∈ ((orderedBindings bindings owner).map fun row => row.1.2).take limit ∨
      apiKeyId ∈ ((orderedBindings bindings owner).map fun row => row.1.2).drop limit := by
    rw [← all, List.mem_toFinset, ← List.mem_append, split]
  rw [mem_boundKeys_iff] at bound ⊢
  rw [List.mem_toFinset]
  simp only [find_pruneBindings, Option.filter_eq_some_iff, List.map_drop, true_and,
    Bool.not_eq_true', decide_eq_false_iff_not]
  constructor
  · rintro ⟨row, found, kept⟩
    exact (bound.mp ⟨row, found⟩).resolve_right kept
  · intro early
    obtain ⟨row, found⟩ := bound.mpr (Or.inl early)
    exact ⟨row, found, fun late => apart early late⟩

theorem topRanked_pruneBindings {bindings : ApiKeyBindings} {owner : String} (limit : Nat)
    (uniform : Uniform bindings owner) :
    TopRanked limit (bindingRank bindings owner) (boundKeys bindings owner)
      (boundKeys (pruneBindings bindings owner limit) owner) := by
  rw [boundKeys_pruneBindings, ← toFinset_orderedBindings]
  exact topRanked_take limit (falling_orderedBindings uniform)

/-- The eviction changes no row that stays. -/
theorem find_of_pruneBindings {bindings : ApiKeyBindings} {owner : String} {limit : Nat}
    {key : String × String} {row : ApiKeyBinding}
    (found : (pruneBindings bindings owner limit).find key = some row) :
    bindings.find key = some row := by
  rw [find_pruneBindings] at found
  exact (Option.filter_eq_some_iff.mp found).1

theorem find_pruneBindings_of_ne (bindings : ApiKeyBindings) {owner : String} {limit : Nat}
    {key : String × String} (other : key.1 ≠ owner) :
    (pruneBindings bindings owner limit).find key = bindings.find key := by
  rw [find_pruneBindings]
  cases bindings.find key with
  | none => rfl
  | some row => simp [other]

/-! ### One settled success -/

/-- What the bindings of an owner are, given all that was settled: its keys with the latest
successes, each with the time of its latest success. -/
structure BindingsExact (limit : Nat) (settled : List SettledSuccess) (owner : String)
    (bindings : ApiKeyBindings) : Prop where
  top : TopRanked limit (successRank settled owner) (settledKeys settled owner)
    (boundKeys bindings owner)
  latest : ∀ apiKeyId row, bindings.find (owner, apiKeyId) = some row →
    latestSuccess settled owner apiKeyId = row.lastSuccessAt ∧ row.updatedAt = row.lastSuccessAt

theorem boundKeys_touchBinding (bindings : ApiKeyBindings) (owner apiKeyId : String)
    (successAt : Int) :
    boundKeys (touchBinding bindings owner apiKeyId successAt) owner =
      insert apiKeyId (boundKeys bindings owner) := by
  ext other
  rw [Finset.mem_insert, mem_boundKeys_iff, mem_boundKeys_iff, touchBinding]
  by_cases same : other = apiKeyId
  · subst same
    simp
  · rw [KeyedTable.find_upsert_of_ne _ (by simp [same])]
    simp [same]

/-- The row of the settled key, and what the owner's other rows are. -/
theorem find_touchBinding_self (bindings : ApiKeyBindings) (owner apiKeyId : String)
    (successAt : Int) (uniform : Uniform bindings owner) :
    ∃ row, (touchBinding bindings owner apiKeyId successAt).find (owner, apiKeyId) = some row ∧
      row.updatedAt = row.lastSuccessAt ∧
      row.lastSuccessAt = ((bindings.find (owner, apiKeyId)).elim successAt
        fun stored => max stored.lastSuccessAt successAt) := by
  rw [touchBinding, KeyedTable.find_upsert_self]
  refine ⟨_, rfl, ?_⟩
  cases stored : bindings.find (owner, apiKeyId) with
  | none => exact ⟨rfl, rfl⟩
  | some row =>
      refine ⟨?_, rfl⟩
      have was := uniform _ _ stored
      dsimp only [Option.elim]
      split <;> omega

theorem find_touchBinding_of_ne (bindings : ApiKeyBindings) {owner apiKeyId : String}
    {key : String × String} (successAt : Int) (other : key ≠ (owner, apiKeyId)) :
    (touchBinding bindings owner apiKeyId successAt).find key = bindings.find key :=
  KeyedTable.find_upsert_of_ne _ other _ _

/-- `refresh_user_api_key_binding`, `refresh_token_api_key_binding` on their table. -/
def refreshBinding (limit : Nat) (bindings : ApiKeyBindings) (success : SettledSuccess) :
    ApiKeyBindings :=
  pruneBindings (touchBinding bindings success.owner success.apiKeyId success.successAt)
    success.owner limit

namespace BindingsExact

variable {limit : Nat} {settled : List SettledSuccess} {owner : String}
  {bindings : ApiKeyBindings}

theorem empty (limit : Nat) (owner : String) : BindingsExact limit [] owner .empty where
  top := TopRanked.empty limit _
  latest apiKeyId row found := by simp at found

theorem uniform (sound : BindingsExact limit settled owner bindings) : Uniform bindings owner :=
  fun apiKeyId row found => (sound.latest apiKeyId row found).2

theorem rank_eq (sound : BindingsExact limit settled owner bindings) {apiKeyId : String}
    (bound : apiKeyId ∈ boundKeys bindings owner) :
    bindingRank bindings owner apiKeyId = successRank settled owner apiKeyId := by
  obtain ⟨row, found⟩ := mem_boundKeys_iff.mp bound
  rw [bindingRank, successRank, found, (sound.latest apiKeyId row found).1]
  rfl

/-- A success of another owner. -/
theorem refresh_other (sound : BindingsExact limit settled owner bindings)
    {success : SettledSuccess} (other : success.owner ≠ owner) :
    BindingsExact limit (settled ++ [success]) owner (refreshBinding limit bindings success) := by
  have same : ∀ apiKeyId, (refreshBinding limit bindings success).find (owner, apiKeyId) =
      bindings.find (owner, apiKeyId) := by
    intro apiKeyId
    rw [refreshBinding, find_pruneBindings_of_ne _ (Ne.symm other),
      find_touchBinding_of_ne _ _ fun same => other (congrArg Prod.fst same).symm]
  have latest : ∀ apiKeyId, latestSuccess (settled ++ [success]) owner apiKeyId =
      latestSuccess settled owner apiKeyId := by
    intro apiKeyId
    rw [latestSuccess_concat, if_neg fun here => other here.1]
  have bound : boundKeys (refreshBinding limit bindings success) owner =
      boundKeys bindings owner := by
    ext apiKeyId
    rw [mem_boundKeys_iff, mem_boundKeys_iff, same]
  refine { top := ?_, latest := ?_ }
  · rw [bound, settledKeys_concat, if_neg other]
    apply sound.top.congr
    intro apiKeyId _
    rw [successRank, successRank, latest]
  · intro apiKeyId row found
    rw [same] at found
    rw [latest]
    exact sound.latest apiKeyId row found

/-- The rows after the upsert. Only a key that was forgotten, and comes back with an older
success than it had, has a row that is not that of its latest success. -/
theorem latest_touchBinding (sound : BindingsExact limit settled owner bindings)
    (apiKeyId : String) (successAt : Int)
    (fresh : apiKeyId ∉ boundKeys bindings owner →
      latestSuccess settled owner apiKeyId ≤ successAt) :
    ∀ other row,
      (touchBinding bindings owner apiKeyId successAt).find (owner, other) = some row →
      latestSuccess (settled ++ [⟨owner, apiKeyId, successAt⟩]) owner other =
        row.lastSuccessAt ∧ row.updatedAt = row.lastSuccessAt := by
  intro other row found
  rw [latestSuccess_concat]
  by_cases same : apiKeyId = other
  · subst same
    obtain ⟨written, isWritten, updated, last⟩ :=
      find_touchBinding_self bindings owner apiKeyId successAt sound.uniform
    cases Option.some.inj (isWritten.symm.trans found)
    refine ⟨?_, updated⟩
    rw [if_pos ⟨rfl, rfl⟩, last]
    cases stored : bindings.find (owner, apiKeyId) with
    | none =>
        apply max_eq_right
        apply fresh
        rw [mem_boundKeys_iff, stored]
        simp
    | some before =>
        rw [(sound.latest apiKeyId before stored).1]
        exact (WithBot.coe_max ..).symm
  · rw [if_neg fun here => same here.2]
    rw [find_touchBinding_of_ne _ _ fun here => same (congrArg Prod.snd here).symm] at found
    exact sound.latest other row found

/-- A success of the owner: the eviction puts its key where it belongs, also one that was
evicted before. -/
theorem refresh_mine (sound : BindingsExact limit settled owner bindings) (apiKeyId : String)
    (successAt : Int) :
    BindingsExact limit (settled ++ [⟨owner, apiKeyId, successAt⟩]) owner
      (refreshBinding limit bindings ⟨owner, apiKeyId, successAt⟩) := by
  have uniform : Uniform (touchBinding bindings owner apiKeyId successAt) owner := by
    intro other row found
    by_cases same : other = apiKeyId
    · subst same
      obtain ⟨written, isWritten, updated, -⟩ :=
        find_touchBinding_self bindings owner other successAt sound.uniform
      cases Option.some.inj (isWritten.symm.trans found)
      exact updated
    · rw [find_touchBinding_of_ne _ _ fun here => same (congrArg Prod.snd here)] at found
      exact sound.uniform other row found
  have evicted := topRanked_pruneBindings limit uniform
  rw [boundKeys_touchBinding] at evicted
  by_cases stale : apiKeyId ∉ boundKeys bindings owner ∧
      successAt < latestSuccess settled owner apiKeyId
  case neg =>
    -- every row is now that of the latest success of its key
    have latest := sound.latest_touchBinding apiKeyId successAt
      fun unbound => not_lt.mp fun older => stale ⟨unbound, older⟩
    refine { top := ?_, latest := ?_ }
    · rw [settledKeys_concat, if_pos rfl]
      apply sound.top.insert
      · intro other _ apart
        rw [successRank, successRank, latestSuccess_concat, if_neg fun here => apart here.2.symm]
      · intro _
        rw [successRank, successRank, latestSuccess_concat, if_pos ⟨rfl, rfl⟩,
          Prod.Lex.toLex_le_toLex']
        exact ⟨le_max_left _ _, fun _ => le_refl apiKeyId⟩
      · apply evicted.congr
        intro other bound
        rw [← boundKeys_touchBinding _ _ _ successAt, mem_boundKeys_iff] at bound
        obtain ⟨row, found⟩ := bound
        rw [successRank, bindingRank, found, (latest other row found).1]
        rfl
    · intro other row found
      exact latest other row (find_of_pruneBindings found)
  case pos =>
    -- the key was forgotten, and is forgotten again
    obtain ⟨unbound, older⟩ := stale
    have known : apiKeyId ∈ settledKeys settled owner :=
      mem_settledKeys_iff.mpr fun never => not_lt_bot (never ▸ older)
    have unchanged : ∀ other, latestSuccess (settled ++ [⟨owner, apiKeyId, successAt⟩]) owner
        other = latestSuccess settled owner other := by
      intro other
      rw [latestSuccess_concat]
      split
      case isTrue here => rw [← here.2, max_eq_left (le_of_lt older)]
      case isFalse => rfl
    have kept : boundKeys (refreshBinding limit bindings ⟨owner, apiKeyId, successAt⟩) owner =
        boundKeys bindings owner := by
      apply sound.top.insert_stale known unbound _ _ evicted
      · intro other bound
        have apart : other ≠ apiKeyId := fun same => unbound (same ▸ bound)
        rw [← sound.rank_eq bound, bindingRank, bindingRank,
          find_touchBinding_of_ne _ _ fun here => apart (congrArg Prod.snd here)]
      · obtain ⟨row, found, -, last⟩ :=
          find_touchBinding_self bindings owner apiKeyId successAt sound.uniform
        have absent : bindings.find (owner, apiKeyId) = none := by
          rw [mem_boundKeys_iff] at unbound
          exact Option.eq_none_iff_forall_ne_some.mpr fun row found => unbound ⟨row, found⟩
        rw [absent] at last
        rw [bindingRank, found, successRank, Prod.Lex.toLex_le_toLex']
        refine ⟨?_, fun _ => le_refl apiKeyId⟩
        rw [Option.map_some, last]
        exact le_of_lt older
    refine { top := ?_, latest := ?_ }
    · rw [kept, settledKeys_concat, if_pos rfl, Finset.insert_eq_of_mem known]
      apply sound.top.congr
      intro other _
      rw [successRank, successRank, unchanged]
    · intro other row found
      have bound : other ∈ boundKeys bindings owner :=
        kept ▸ mem_boundKeys_iff.mpr ⟨row, found⟩
      have before := find_of_pruneBindings found
      have apart : other ≠ apiKeyId := fun same => unbound (same ▸ bound)
      rw [find_touchBinding_of_ne _ _ fun here => apart (congrArg Prod.snd here)] at before
      rw [unchanged]
      exact sound.latest other row before

theorem refresh (sound : BindingsExact limit settled owner bindings) (success : SettledSuccess) :
    BindingsExact limit (settled ++ [success]) owner (refreshBinding limit bindings success) := by
  by_cases mine : success.owner = owner
  · subst mine
    exact sound.refresh_mine success.apiKeyId success.successAt
  · exact sound.refresh_other mine

/-- All that is settled, in any order. -/
theorem refreshAll (limit : Nat) (settled : List SettledSuccess) (owner : String) :
    BindingsExact limit settled owner (settled.foldl (refreshBinding limit) .empty) := by
  induction settled using List.reverseRecOn with
  | nil => exact empty limit owner
  | append_singleton settled success ih =>
      rw [List.foldl_append, List.foldl_cons, List.foldl_nil]
      exact ih.refresh success

/-- Two orders of the same successes leave the same keys. -/
theorem boundKeys_perm {settled' : List SettledSuccess} (perm : settled.Perm settled')
    (limit : Nat) (owner : String) :
    boundKeys (settled.foldl (refreshBinding limit) .empty) owner =
      boundKeys (settled'.foldl (refreshBinding limit) .empty) owner := by
  have keys : settledKeys settled owner = settledKeys settled' owner :=
    List.toFinset_eq_of_perm _ _ ((perm.filter _).map _)
  have latest (apiKeyId : String) :
      latestSuccess settled owner apiKeyId = latestSuccess settled' owner apiKeyId :=
    ((perm.filter _).map _).maximum_eq
  have top := (refreshAll limit settled' owner).top
  rw [← keys] at top
  apply (refreshAll limit settled owner).top.unique
  apply top.congr
  intro apiKeyId _
  rw [successRank, successRank, latest]

end BindingsExact

/-! ### The two tables -/

/-- `refresh_user_api_key_binding` for one success after the other. -/
def settleUserSuccesses (settled : List SettledSuccess) (db : BillingDb) : BillingDb :=
  settled.foldl (fun db success => (Tx.transaction .database
    (refreshUserApiKeyBinding success.owner success.apiKeyId outcomeSuccess success.successAt)
    none db).2) db

/-- `refresh_token_api_key_binding` for one success after the other. -/
def settleTokenSuccesses (settled : List SettledSuccess) (db : BillingDb) : BillingDb :=
  settled.foldl (fun db success => (Tx.transaction .database
    (refreshTokenApiKeyBinding success.owner success.apiKeyId outcomeSuccess success.successAt)
    none db).2) db

theorem settleUserSuccesses_bindings (settled : List SettledSuccess) (db : BillingDb) :
    (settleUserSuccesses settled db).userApiKeyBindings =
      settled.foldl (refreshBinding userApiKeyBindingRecentLimit) db.userApiKeyBindings := by
  unfold settleUserSuccesses
  induction settled generalizing db with
  | nil => rfl
  | cons success settled ih =>
      rw [List.foldl_cons, List.foldl_cons, ih]
      rfl

theorem settleTokenSuccesses_bindings (settled : List SettledSuccess) (db : BillingDb) :
    (settleTokenSuccesses settled db).tokenApiKeyBindings =
      settled.foldl (refreshBinding tokenApiKeyBindingRecentLimit) db.tokenApiKeyBindings := by
  unfold settleTokenSuccesses
  induction settled generalizing db with
  | nil => rfl
  | cons success settled ih =>
      rw [List.foldl_cons, List.foldl_cons, ih]
      rfl

/-- **The true top.** However the successes of users and of tokens are ordered, what stays
of an owner are its keys with the latest successes, ties by the larger key, each under the
time of its latest success. -/
theorem keyBindings_topRanked (db : BillingDb) (settled : List SettledSuccess) (owner : String) :
    BindingsExact 3 settled owner
      (settleUserSuccesses settled { db with userApiKeyBindings := .empty }).userApiKeyBindings ∧
    BindingsExact 3 settled owner
      (settleTokenSuccesses settled
        { db with tokenApiKeyBindings := .empty }).tokenApiKeyBindings := by
  rw [settleUserSuccesses_bindings, settleTokenSuccesses_bindings]
  exact ⟨BindingsExact.refreshAll userApiKeyBindingRecentLimit settled owner,
    BindingsExact.refreshAll tokenApiKeyBindingRecentLimit settled owner⟩

end TavilyHikari.Store
