/-
Module: TavilyHikari.Proofs.KeyRotation
Purpose: The keys that calls of `acquire_key` lease one after another: they take turns exactly
  where what is stamped in one second comes in the order of the ids.
Trusted boundary: none
Main exports: FixedPool, acquireKeys, leastRecent_acquireKeys, keyRotation_fair
-/
import Mathlib.Data.Int.ConditionallyCompleteOrder
import Mathlib.Data.String.Basic
import TavilyHikari.Library.LeastRecent
import TavilyHikari.TavilyProxy.KeyAffinity

namespace TavilyHikari.TavilyProxy

open Library Store

/-! ### The pool -/

/-- The rows that the first SELECT of `acquire_key` chooses from. -/
def activePool (db : KeyDb) : List (String × ApiKeyRow) :=
  db.apiKeys.rows.filter fun row => db.eligible .acquireKey .active row.1 row.2

/-- When a key was last used, and its id. -/
def keyMark (row : String × ApiKeyRow) : Int × String := (row.2.lastUsedAt, row.1)

/-- The marks of the pool, in the order of the SELECT. -/
def rotation (db : KeyDb) : List (Int × String) :=
  ((activePool db).insertionSort leastRecentlyUsed).map keyMark

/-- No two rows have one secret, and no call at one of the times finds an exhausted key to
activate. -/
structure FixedPool (db : KeyDb) (times : List Int) : Prop where
  unique : ∀ id row id' row', db.apiKeys.find id = some row → db.apiKeys.find id' = some row' →
    row.apiKey = row'.apiKey → id = id'
  steady : ∀ now ∈ times, ∀ id row, db.apiKeys.find id = some row →
    db.eligible .acquireKey .exhausted id row = true → ∀ changed, row.statusChangedAt = some changed →
    startOfMonthTs now ≤ changed

/-- The ids that calls at these times lease, one after another. -/
def acquireKeys : List Int → AffinityStore → List String
  | [], _ => []
  | now :: times, store =>
      let acquired := store.leaseKey .acquireKey now
      (acquired.1.map ApiKeyLease.id).toList ++ acquireKeys times acquired.2

instance : IsTrans (String × ApiKeyRow) leastRecentlyUsed where
  trans one two three first second := by
    unfold leastRecentlyUsed at first second ⊢
    rcases first with earlier | ⟨same, before⟩
    · exact .inl (by omega)
    · rcases second with later | ⟨equal, after⟩
      · exact .inl (by omega)
      · exact .inr ⟨same.trans equal, before.trans after⟩

instance : Std.Total leastRecentlyUsed where
  total one two := by
    unfold leastRecentlyUsed
    rcases lt_trichotomy one.2.lastUsedAt two.2.lastUsedAt with earlier | same | later
    · exact .inl (.inl earlier)
    · rcases le_total one.1 two.1 with before | after
      · exact .inl (.inr ⟨same, before⟩)
      · exact .inr (.inr ⟨same.symm, after⟩)
    · exact .inr (.inl later)

variable {db : KeyDb} {now : Int} {times : List Int}

theorem activePool_distinct (db : KeyDb) : ((activePool db).map Prod.fst).Nodup :=
  db.apiKeys.distinct.sublist (List.filter_sublist.map Prod.fst)

theorem mem_activePool {row : String × ApiKeyRow} :
    row ∈ activePool db ↔
      db.apiKeys.find row.1 = some row.2 ∧ db.eligible .acquireKey .active row.1 row.2 = true := by
  rw [activePool, List.mem_filter, KeyedTable.find_eq_some_iff]

/-! ### One call -/

/-- An update that keeps its rows in the pool, or out of it, changes what they hold. -/
theorem activePool_updateKeys {p : String → ApiKeyRow → Bool} {f : ApiKeyRow → ApiKeyRow}
    (same : ∀ id row, db.apiKeys.find id = some row → p id row = true →
      db.eligible .acquireKey .active id (f row) = db.eligible .acquireKey .active id row) :
    activePool (db.updateKeys p f).2 =
      (activePool db).map fun row => (row.1, if p row.1 row.2 then f row.2 else row.2) := by
  change ((db.apiKeys.rows.map fun row =>
    (row.1, if p row.1 row.2 then f row.2 else row.2)).filter fun row =>
      db.eligible .acquireKey .active row.1 row.2) = _
  rw [List.filter_map]
  congr 1
  apply List.filter_congr
  intro row member
  simp only [Function.comp_apply]
  split
  · rename_i updated
    exact same row.1 row.2 (KeyedTable.find_eq_some_iff.2 member) updated
  · rfl

theorem activePool_resetMonthly (fixed : FixedPool db (now :: times)) :
    activePool (resetMonthly now db) = activePool db := by
  unfold resetMonthly
  rw [activePool_updateKeys]
  · -- No row of the pool is exhausted.
    conv_rhs => rw [← List.map_id (activePool db)]
    apply List.map_congr_left
    intro row member
    have active := (mem_activePool.1 member).2
    simp only [KeyDb.eligible, Bool.and_eq_true, decide_eq_true_eq] at active
    simp [active.1.1.2]
  · intro id row found updated
    simp only [Bool.and_eq_true, decide_eq_true_eq] at updated
    obtain ⟨exhausted, old⟩ := updated
    obtain ⟨changed, stored, before⟩ := Option.any_eq_true _ _ |>.1 old
    have outside : db.eligible .acquireKey .exhausted id row = false := by
      rw [Bool.eq_false_iff]
      intro able
      have recent := fixed.steady now List.mem_cons_self id row found able changed stored
      rw [decide_eq_true_eq] at before
      omega
    simp only [KeyDb.eligible, exhausted, decide_true, Bool.and_true] at outside
    simp [KeyDb.eligible, exhausted, outside]

theorem activePool_touchKey (secret : String) (now : Int) (db : KeyDb) :
    activePool (touchKey secret now db) =
      (activePool db).map fun row =>
        (row.1, if row.2.apiKey = secret then { row.2 with lastUsedAt := now } else row.2) := by
  unfold touchKey
  rw [activePool_updateKeys]
  · simp only [decide_eq_true_eq]
  · exact fun _ _ _ _ => rfl

/-- Every row keeps its secret, and one that is exhausted was so before, since the same time. -/
theorem FixedPool.updateKeys (fixed : FixedPool db times) {p : String → ApiKeyRow → Bool}
    {f : ApiKeyRow → ApiKeyRow} (secret : ∀ row, (f row).apiKey = row.apiKey)
    (exhausted : ∀ row, (f row).status = .exhausted →
      row.status = .exhausted ∧ (f row).statusChangedAt = row.statusChangedAt ∧
        (f row).deletedAt = row.deletedAt) :
    FixedPool (db.updateKeys p f).2 times := by
  have stored : ∀ id row, (db.updateKeys p f).2.apiKeys.find id = some row →
      ∃ old, db.apiKeys.find id = some old ∧ row.apiKey = old.apiKey ∧
        (row.status = .exhausted → old.status = .exhausted ∧
          row.statusChangedAt = old.statusChangedAt ∧ row.deletedAt = old.deletedAt) := by
    intro id row found
    simp only [KeyDb.updateKeys, KeyedTable.find_updateWhere, Option.map_eq_some_iff] at found
    obtain ⟨old, found, rfl⟩ := found
    refine ⟨old, found, ?_⟩
    split
    · exact ⟨secret old, exhausted old⟩
    · exact ⟨rfl, fun same => ⟨same, rfl, rfl⟩⟩
  constructor
  · intro id row id' row' found found' same
    obtain ⟨old, before, key, -⟩ := stored id row found
    obtain ⟨old', before', key', -⟩ := stored id' row' found'
    exact fixed.unique id old id' old' before before' (key.symm.trans (same.trans key'))
  · intro now called id row found able changed at_changed
    obtain ⟨old, before, -, kept⟩ := stored id row found
    simp only [KeyDb.eligible, Bool.and_eq_true, decide_eq_true_eq] at able
    obtain ⟨⟨⟨allowed, status⟩, deleted⟩, free⟩ := able
    obtain ⟨wasExhausted, since, sameDeleted⟩ := kept status
    refine fixed.steady now called id old before ?_ changed (since ▸ at_changed)
    simp only [KeyDb.eligible, Bool.and_eq_true, decide_eq_true_eq]
    exact ⟨⟨⟨allowed, wasExhausted⟩, sameDeleted ▸ deleted⟩, free⟩

/-- The first SELECT finds the row of the pool with the least mark. -/
theorem exists_leastRecent {pool : List (String × ApiKeyRow)} (distinct : (pool.map Prod.fst).Nodup)
    (nonempty : pool ≠ []) :
    ∃ first others, (pool.insertionSort leastRecentlyUsed).head? = some first ∧
      pool.Perm (first :: others) ∧
      ∀ row ∈ others, MarkLT (keyMark first) (keyMark row) := by
  have perm := List.perm_insertionSort leastRecentlyUsed pool
  have sorted := List.pairwise_insertionSort leastRecentlyUsed pool
  cases listed : pool.insertionSort leastRecentlyUsed with
  | nil =>
      rw [listed] at perm
      exact absurd perm.symm.eq_nil nonempty
  | cons first others =>
      rw [listed] at perm sorted
      refine ⟨first, others, rfl, perm.symm, ?_⟩
      intro row member
      have keys := (perm.map Prod.fst).nodup_iff.2 distinct
      have other : first.1 ≠ row.1 := by
        intro same
        rw [List.map_cons, List.nodup_cons] at keys
        exact keys.1 (same ▸ List.mem_map_of_mem member)
      rcases (List.pairwise_cons.1 sorted).1 row member with earlier | ⟨same, before⟩
      · exact .inl earlier
      · exact .inr ⟨same, lt_of_le_of_ne before other⟩

/-- A call leases the key with the least mark and marks it with the time of the call. -/
theorem leaseKey_pool {store : AffinityStore} (fixed : FixedPool store.keys (now :: times))
    (nonempty : activePool store.keys ≠ []) :
    ∃ first others lease, ((activePool store.keys).map keyMark).Perm (first :: others) ∧
      (∀ mark ∈ others, MarkLT first mark) ∧
      (store.leaseKey .acquireKey now).1 = some lease ∧ lease.id = first.2 ∧
      ((activePool (store.leaseKey .acquireKey now).2.keys).map keyMark).Perm
        ((now, first.2) :: others) ∧
      FixedPool (store.leaseKey .acquireKey now).2.keys times := by
  have reset := activePool_resetMonthly fixed
  obtain ⟨first, others, found, perm, least⟩ :=
    exists_leastRecent (activePool_distinct store.keys) nonempty
  have selected : selectActiveKey .acquireKey (resetMonthly now store.keys) =
      some { id := first.1, secret := first.2.apiKey } := by
    have head : (resetMonthly now store.keys).apiKeys.firstWhere
        ((resetMonthly now store.keys).eligible .acquireKey .active) leastRecentlyUsed =
        some first := by
      rw [← found, ← reset]
      rfl
    rw [selectActiveKey, head]
    rfl
  have leased : store.leaseKey .acquireKey now =
      (some { id := first.1, secret := first.2.apiKey },
        { store with keys := touchKey first.2.apiKey now (resetMonthly now store.keys) }) := by
    simp only [AffinityStore.leaseKey, selected]
  refine ⟨keyMark first, others.map keyMark, { id := first.1, secret := first.2.apiKey },
    perm.map keyMark, ?_, ?_, rfl, ?_, ?_⟩
  · intro mark member
    obtain ⟨row, listed, rfl⟩ := List.mem_map.1 member
    exact least row listed
  · rw [leased]
  · rw [leased]
    simp only
    rw [activePool_touchKey, reset]
    refine ((perm.map _).map keyMark).trans (List.Perm.of_eq ?_)
    rw [List.map_cons, List.map_cons, List.map_map]
    congr 1
    · simp [keyMark]
    · apply List.map_congr_left
      intro row member
      have others_ne : row.2.apiKey ≠ first.2.apiKey := by
        intro same
        have stored : ∀ entry ∈ first :: others, store.keys.apiKeys.find entry.1 = some entry.2 :=
          fun entry listed => (mem_activePool.1 (perm.mem_iff.2 listed)).1
        have id := fixed.unique row.1 row.2 first.1 first.2
          (stored row (List.mem_cons_of_mem _ member)) (stored first List.mem_cons_self) same
        have keys := (perm.map Prod.fst).nodup_iff.1 (activePool_distinct store.keys)
        rw [List.map_cons, List.nodup_cons] at keys
        exact keys.1 (id ▸ List.mem_map_of_mem member)
      simp [keyMark, others_ne]
  · rw [leased]
    have later : FixedPool store.keys times :=
      ⟨fixed.unique, fun time called => fixed.steady time (List.mem_cons_of_mem _ called)⟩
    have afterReset : FixedPool (resetMonthly now store.keys) times := by
      apply later.updateKeys
      · exact fun _ => rfl
      · exact fun row active => KeyStatus.noConfusion active
    apply afterReset.updateKeys
    · exact fun _ => rfl
    · exact fun row same => ⟨same, rfl, rfl⟩

/-! ### Every call of a run -/

theorem leastRecent_acquireKeys {store : AffinityStore} (fixed : FixedPool store.keys times)
    (nonempty : activePool store.keys ≠ []) :
    LeastRecent ((activePool store.keys).map keyMark) times (acquireKeys times store) := by
  induction times generalizing store with
  | nil => exact .nil _
  | cons now times ih =>
      obtain ⟨first, others, lease, split, least, leased, id, next, later⟩ :=
        leaseKey_pool fixed nonempty
      have rest : activePool (store.leaseKey .acquireKey now).2.keys ≠ [] := by
        intro empty
        rw [empty] at next
        exact absurd next.length_eq (by simp)
      have run := ih later rest
      rw [acquireKeys, leased, Option.map_some, Option.toList_some, List.singleton_append, id]
      exact .cons split least (run.perm next.symm)

theorem rotation_perm (db : KeyDb) : (rotation db).Perm ((activePool db).map keyMark) :=
  (List.perm_insertionSort leastRecentlyUsed (activePool db)).map keyMark

theorem rotation_keys (db : KeyDb) :
    ((rotation db).map Prod.snd).Perm ((activePool db).map Prod.fst) := by
  have keys := (rotation_perm db).map Prod.snd
  rwa [List.map_map] at keys

theorem rotation_sorted (db : KeyDb) : (rotation db).Pairwise MarkLT := by
  have sorted := List.pairwise_insertionSort leastRecentlyUsed (activePool db)
  have distinct : (rotation db).Pairwise fun one two => one.2 ≠ two.2 := by
    rw [← List.pairwise_map]
    exact (rotation_keys db).nodup_iff.2 (activePool_distinct db)
  unfold rotation at distinct ⊢
  rw [List.pairwise_map] at distinct ⊢
  apply (sorted.and distinct).imp
  rintro one two ⟨earlier | ⟨same, before⟩, other⟩
  · exact .inl earlier
  · exact .inr ⟨same, lt_of_le_of_ne before other⟩

/-- As long as the pool stays as it is, the leases are fair where the marks of the turns are in
order; over whole rounds they are fair only there. -/
theorem keyRotation_fair {store : AffinityStore} (fixed : FixedPool store.keys times) :
    (MarksInOrder (rotation store.keys) times →
      FairLeases ((activePool store.keys).map Prod.fst) (acquireKeys times store)) ∧
    ((activePool store.keys).length ∣ times.length →
      FairLeases ((activePool store.keys).map Prod.fst) (acquireKeys times store) →
      MarksInOrder (rotation store.keys) times) := by
  have keys := rotation_keys store.keys
  have size : (rotation store.keys).length = (activePool store.keys).length := by
    rw [(rotation_perm store.keys).length_eq, List.length_map]
  by_cases empty : activePool store.keys = []
  · rw [empty, List.length_nil] at size
    rw [empty]
    refine ⟨fun _ => ⟨fun a member => ?_, fun a member => ?_⟩, fun _ _ i j _ before within => ?_⟩
    · cases member
    · cases member
    · omega
  · have run := leastRecent_acquireKeys fixed empty
    have distinct := keys.nodup_iff.2 (activePool_distinct store.keys)
    have same := (rotation_perm store.keys).symm
    constructor
    · intro order
      exact (fairLeases_of_marksInOrder distinct run same order).congr
        fun key => keys.symm.mem_iff
    · intro whole fair
      exact marksInOrder_of_fairLeases distinct run same (rotation_sorted store.keys)
        (size ▸ whole) (fair.congr fun key => keys.mem_iff)

/-! ### Two keys -/

def unusedKey (secret : String) : ApiKeyRow where
  apiKey := secret
  groupName := none
  registrationIp := none
  registrationRegion := none
  status := .active
  createdAt := 0
  statusChangedAt := none
  lastUsedAt := 0
  deletedAt := none

def twoKeys : AffinityStore where
  keys :=
    { apiKeys :=
        { rows := [("a", unusedKey "secret a"), ("b", unusedKey "secret b")]
          distinct := by decide }
      apiKeyQuarantines := .empty
      maintenanceRecords := []
      authTokens := [] }
  userPrimaryApiKeyAffinity := .empty
  tokenPrimaryApiKeyAffinity := .empty
  userTokenBindings := .empty
  userApiKeyBindings := .empty
  mcpSessions := .empty
  tokenBindingCache := .empty
  pendingCacheWrites := []

theorem twoKeys_fixed (times : List Int) : FixedPool twoKeys.keys times := by
  have rows : ∀ id row, twoKeys.keys.apiKeys.find id = some row →
      (id, row) = ("a", unusedKey "secret a") ∨ (id, row) = ("b", unusedKey "secret b") := by
    intro id row found
    simpa [twoKeys] using KeyedTable.find_eq_some_iff.1 found
  constructor
  · intro id row id' row' found found' same
    rcases rows id row found with one | one <;> rcases rows id' row' found' with two | two <;>
      cases one <;> cases two
    · rfl
    · exact absurd same (by decide)
    · exact absurd same (by decide)
    · rfl
  · intro now _ id row found able
    rcases rows id row found with one | one <;> cases one <;> exact absurd able (by decide +kernel)

/-- A call a second keeps the marks in order. -/
theorem twoKeys_marksInOrder : MarksInOrder (rotation twoKeys.keys) [100, 101, 102] := by
  have marks : rotation twoKeys.keys = [(0, "a"), (0, "b")] := by decide +kernel
  have ids : "a" < "b" := by decide
  rw [marks]
  simp [-String.lt_iff_ltb, marksInOrder_cons, marksInOrder_nil, MarkLT, ids]

theorem keyRotation_fair_twoKeys :
    FairLeases ((activePool twoKeys.keys).map Prod.fst) (acquireKeys [100, 101, 102] twoKeys) :=
  (keyRotation_fair (twoKeys_fixed _)).1 twoKeys_marksInOrder

/-- Four calls in one second: the second round ends with the key it began with. -/
theorem burst_unfair :
    FixedPool twoKeys.keys [100, 100, 100, 100] ∧
      ¬FairLeases ((activePool twoKeys.keys).map Prod.fst)
        (acquireKeys [100, 100, 100, 100] twoKeys) := by
  refine ⟨twoKeys_fixed _, fun fair => ?_⟩
  have counts := fair.counts "a" (by decide +kernel) "b" (by decide +kernel) 4
  revert counts
  decide +kernel

end TavilyHikari.TavilyProxy
