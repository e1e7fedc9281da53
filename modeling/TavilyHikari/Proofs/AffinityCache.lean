/-
Module: TavilyHikari.Proofs.AffinityCache
Purpose: One affinity cache over runs of its calls: it answers with the last mapping of a
  token only, it evicts what expires first, and it keeps its bound exactly when no new token
  comes to a cache that is full of live mappings.
Trusted boundary: none
Main exports: AffinityRun, affinityCacheSystem, CacheBounds, HasRoom, cacheBounds_alongRun_iff
-/
import TavilyHikari.Proofs.ResearchAffinity

namespace TavilyHikari.TavilyProxy

open Library

/-! ### Runs of one cache -/

/-- A cache, the latest time of its calls, and the key and the time that the last call for each
token recorded. -/
structure AffinityRun where
  cache : TokenAffinityState
  clock : Int
  latest : String → Option (String × Int)

/-- A call of the cache, or a new order of the hash map. -/
inductive AffinityCall where
  | record (tokenId keyId : String) (now : Int)
  | get (tokenId : String) (now : Int)
  | rehash (rows : List (String × TokenAffinity))

namespace AffinityRun

def start (ttlSecs clock : Int) : AffinityRun where
  cache := .new ttlSecs
  clock := clock
  latest _ := none

def record (tokenId keyId : String) (now : Int) (run : AffinityRun) : AffinityRun where
  cache := run.cache.recordMapping tokenId keyId now
  clock := now
  latest token := if token = tokenId then some (keyId, now) else run.latest token

@[simp] theorem record_cache (tokenId keyId : String) (now : Int) (run : AffinityRun) :
    (run.record tokenId keyId now).cache = run.cache.recordMapping tokenId keyId now := rfl

@[simp] theorem record_clock (tokenId keyId : String) (now : Int) (run : AffinityRun) :
    (run.record tokenId keyId now).clock = now := rfl

/-- Time does not run backwards. -/
def step (run : AffinityRun) : AffinityCall → Option AffinityRun
  | .record tokenId keyId now =>
      if run.clock ≤ now then some (run.record tokenId keyId now) else none
  | .get tokenId now =>
      if run.clock ≤ now then
        some { run with cache := (run.cache.getCandidate tokenId now).2, clock := now }
      else none
  | .rehash rows =>
      if same : rows.Perm run.cache.mappings.rows then
        some { run with cache := run.cache.rehash rows same }
      else none

end AffinityRun

def affinityCacheSystem : TransitionSystem AffinityRun AffinityCall where
  step := AffinityRun.step

/-- The mappings that have not expired. -/
def TokenAffinityState.liveMappings (state : TokenAffinityState) (now : Int) :
    KeyedTable String TokenAffinity :=
  state.mappings.deleteWhere fun _ entry => !decide (entry.expiresAt > now)

namespace AffinityRun

/-- From now on the cache answers with the last mapping of a token, within its time, and no
call evicts a live mapping that would outlast one that stays. -/
structure CacheHonest (run : AffinityRun) : Prop where
  answers : ∀ tokenId now keyId, run.clock ≤ now →
    (run.cache.getCandidate tokenId now).1 = some keyId →
    ∃ recorded, run.latest tokenId = some (keyId, recorded) ∧
      now < recorded + run.cache.ttlSecs
  evictions : ∀ call run', run.step call = some run' → ∀ tokenId entry,
    run.cache.mappings.find tokenId = some entry → run'.clock < entry.expiresAt →
    run'.cache.mappings.find tokenId = none → ∀ token kept,
    run'.cache.mappings.find token = some kept → entry.expiresAt ≤ kept.expiresAt

structure CacheBounds (run : AffinityRun) : Prop extends CacheHonest run where
  size : run.cache.mappings.rows.length ≤ tokenAffinityMaxEntries

/-- A token is recorded that has a mapping, or while fewer mappings are live than may be
kept. -/
def HasRoom (run : AffinityRun) : AffinityCall → Prop
  | .record tokenId _ now =>
      run.cache.mappings.find tokenId ≠ none ∨
        (run.cache.liveMappings now).rows.length < tokenAffinityMaxEntries
  | _ => True

end AffinityRun

/-! ### Pruning -/

namespace TokenAffinityState

variable {state : TokenAffinityState} {now : Int} {tokenId keyId : String} {entry : TokenAffinity}

theorem find_liveMappings :
    (state.liveMappings now).find tokenId = some entry ↔
      state.mappings.find tokenId = some entry ∧ now < entry.expiresAt := by
  simp [liveMappings, KeyedTable.find_deleteWhere, Option.filter_eq_some_iff]

theorem length_liveMappings_le (state : TokenAffinityState) (now : Int) :
    (state.liveMappings now).rows.length ≤ state.mappings.rows.length :=
  List.length_filter_le _ _

/-- An expired mapping is not among the live ones. -/
theorem length_liveMappings_lt (stored : state.mappings.find tokenId = some entry)
    (expired : entry.expiresAt ≤ now) :
    (state.liveMappings now).rows.length < state.mappings.rows.length := by
  apply List.length_filter_lt_length_iff_exists.2
  refine ⟨(tokenId, entry), KeyedTable.find_eq_some_iff.1 stored, ?_⟩
  simp [not_lt.2 expired]

theorem prune_of_le
    (fits : (state.liveMappings now).rows.length ≤ tokenAffinityMaxEntries) :
    state.prune now = { state with mappings := state.liveMappings now } :=
  if_pos fits

/-- Too many live mappings are cut at a place of their order by expiry. -/
theorem prune_of_gt
    (full : tokenAffinityMaxEntries < (state.liveMappings now).rows.length) :
    ∃ first last : List (String × TokenAffinity),
      (first ++ last).Perm (state.liveMappings now).rows ∧
      (∀ early ∈ first, ∀ late ∈ last, early.2.expiresAt ≤ late.2.expiresAt) ∧
      (state.prune now).mappings.rows.Perm last ∧
      last.length = tokenAffinityMaxEntries / 2 := by
  set entries := (state.liveMappings now).rows.insertionSort
    fun lhs rhs => lhs.2.expiresAt ≤ rhs.2.expiresAt with entries_eq
  set excess := (state.liveMappings now).rows.length - max (tokenAffinityMaxEntries / 2) 1
    with excess_eq
  have same : (entries.take excess ++ entries.drop excess).Perm (state.liveMappings now).rows := by
    rw [List.take_append_drop]
    exact List.perm_insertionSort _ _
  refine ⟨entries.take excess, entries.drop excess, same, ?_, ?_, ?_⟩
  · have : IsTrans (String × TokenAffinity) fun lhs rhs => lhs.2.expiresAt ≤ rhs.2.expiresAt :=
      ⟨fun _ _ _ => le_trans⟩
    have : Std.Total fun lhs rhs : String × TokenAffinity => lhs.2.expiresAt ≤ rhs.2.expiresAt :=
      ⟨fun _ _ => le_total _ _⟩
    have sorted := List.pairwise_insertionSort
      (fun lhs rhs : String × TokenAffinity => lhs.2.expiresAt ≤ rhs.2.expiresAt)
      (state.liveMappings now).rows
    rw [← entries_eq, ← List.take_append_drop excess entries, List.pairwise_append] at sorted
    exact sorted.2.2
  · have cut := KeyedTable.rows_deleteWhere_first same
    have unfolded : (state.prune now).mappings =
        (state.liveMappings now).deleteWhere
          fun key _ => decide (key ∈ (entries.take excess).map Prod.fst) :=
      congrArg mappings (if_neg full.not_ge)
    rwa [unfolded]
  · have all : entries.length = (state.liveMappings now).rows.length :=
      List.length_insertionSort _ _
    unfold tokenAffinityMaxEntries at full excess_eq ⊢
    rw [List.length_drop, all]
    omega

/-- What pruning drops of the live mappings expires no later than what it keeps. -/
theorem prune_evicts {token : String} {kept : TokenAffinity}
    (stored : state.mappings.find tokenId = some entry) (live : now < entry.expiresAt)
    (evicted : (state.prune now).mappings.find tokenId = none)
    (stays : (state.prune now).mappings.find token = some kept) :
    entry.expiresAt ≤ kept.expiresAt := by
  have among := find_liveMappings.2 ⟨stored, live⟩
  rcases Nat.lt_or_ge tokenAffinityMaxEntries (state.liveMappings now).rows.length with full | fits
  · obtain ⟨first, last, same, ordered, left, -⟩ := prune_of_gt full
    have late := left.mem_iff.1 (KeyedTable.find_eq_some_iff.1 stays)
    rcases List.mem_append.1 (same.mem_iff.2 (KeyedTable.find_eq_some_iff.1 among)) with
      early | remains
    · exact ordered _ early _ late
    · rw [KeyedTable.find_eq_some_iff.2 (left.mem_iff.2 remains)] at evicted
      cases evicted
  · rw [prune_of_le fits, among] at evicted
    cases evicted

/-! ### One call -/

theorem length_recordMapping (state : TokenAffinityState) (tokenId keyId : String) (now : Int) :
    let before := if state.mappings.rows.length ≥ tokenAffinityMaxEntries then state.prune now
      else state
    (state.recordMapping tokenId keyId now).mappings.rows.length =
      if (before.mappings.find tokenId).isSome then before.mappings.rows.length
      else before.mappings.rows.length + 1 :=
  KeyedTable.length_rows_upsert _ _ _ _

/-- A record overfills a cache within its bound exactly where the token is new and the cache
full of live mappings. -/
theorem length_recordMapping_le_iff
    (fits : state.mappings.rows.length ≤ tokenAffinityMaxEntries) :
    (state.recordMapping tokenId keyId now).mappings.rows.length ≤ tokenAffinityMaxEntries ↔
      state.mappings.find tokenId ≠ none ∨
        (state.liveMappings now).rows.length < tokenAffinityMaxEntries := by
  have live := state.length_liveMappings_le now
  rw [length_recordMapping]
  by_cases full : state.mappings.rows.length ≥ tokenAffinityMaxEntries
  · rw [if_pos full, prune_of_le (live.trans fits)]
    simp only
    cases found : (state.liveMappings now).find tokenId with
    | some entry =>
        have stored := (find_liveMappings.1 found).1
        simp [stored, live.trans fits]
    | none =>
        cases stored : state.mappings.find tokenId with
        | none =>
            simp only [Option.isSome_none, Bool.false_eq_true, if_false, Nat.succ_le_iff, ne_eq,
              not_true_eq_false, false_or]
        | some entry =>
            have expired : entry.expiresAt ≤ now := by
              by_contra later
              rw [find_liveMappings.2 ⟨stored, not_le.1 later⟩] at found
              cases found
            have fewer := length_liveMappings_lt stored expired
            simp only [Option.isSome_none, Bool.false_eq_true, if_false, ne_eq, reduceCtorEq,
              not_false_eq_true, true_or, iff_true]
            omega
  · rw [if_neg full]
    have room : (state.liveMappings now).rows.length < tokenAffinityMaxEntries := by omega
    simp only [room, or_true, iff_true]
    split <;> omega

/-- No record leaves more than one mapping over the bound. -/
theorem length_recordMapping_le
    (fits : state.mappings.rows.length ≤ tokenAffinityMaxEntries + 1) :
    (state.recordMapping tokenId keyId now).mappings.rows.length ≤ tokenAffinityMaxEntries + 1 := by
  have pruned : (state.prune now).mappings.rows.length ≤ tokenAffinityMaxEntries := by
    rcases Nat.lt_or_ge tokenAffinityMaxEntries (state.liveMappings now).rows.length with
      full | within
    · obtain ⟨first, last, -, -, left, half⟩ := prune_of_gt full
      rw [left.length_eq, half]
      exact Nat.div_le_self _ _
    · rwa [prune_of_le within]
  rw [length_recordMapping]
  by_cases full : state.mappings.rows.length ≥ tokenAffinityMaxEntries
  · rw [if_pos full]
    split <;> omega
  · rw [if_neg full]
    split <;> omega

/-- A lookup drops nothing that is live. -/
theorem getCandidate_keeps {token : String}
    (stored : state.mappings.find token = some entry) (live : now < entry.expiresAt) :
    (state.getCandidate tokenId now).2.mappings.find token = some entry := by
  unfold getCandidate
  split
  · rename_i held found
    split
    · exact stored
    · rename_i expired
      rw [KeyedTable.find_deleteWhere, stored, Option.filter_eq_some_iff]
      refine ⟨rfl, ?_⟩
      simp only [Bool.not_eq_true', decide_eq_false_iff_not]
      rintro rfl
      rw [stored] at found
      cases found
      exact expired live
  · exact stored

theorem length_getCandidate_le (tokenId : String) (now : Int) (state : TokenAffinityState) :
    (state.getCandidate tokenId now).2.mappings.rows.length ≤ state.mappings.rows.length := by
  unfold getCandidate
  split
  · split
    · exact le_refl _
    · exact List.length_filter_le _ _
  · exact le_refl _

end TokenAffinityState

/-! ### Every call of a run -/

namespace AffinityRun

variable {run run' : AffinityRun} {call : AffinityCall}

/-- Every mapping is the last one recorded for its token. -/
def Tracked (run : AffinityRun) : Prop :=
  ∀ tokenId entry, run.cache.mappings.find tokenId = some entry →
    ∃ recorded, run.latest tokenId = some (entry.keyId, recorded) ∧ recorded ≤ run.clock ∧
      entry.expiresAt = recorded + run.cache.ttlSecs

/-- What a call does: the clock goes on, and the cache does what the call says. -/
theorem step_cases (taken : run.step call = some run') :
    (∃ tokenId keyId now, call = .record tokenId keyId now ∧ run.clock ≤ now ∧
      run' = run.record tokenId keyId now) ∨
    (∃ tokenId now, call = .get tokenId now ∧ run.clock ≤ now ∧
      run' = { run with cache := (run.cache.getCandidate tokenId now).2, clock := now }) ∨
    ∃ (rows : List (String × TokenAffinity)) (same : rows.Perm run.cache.mappings.rows),
      call = .rehash rows ∧ run' = { run with cache := run.cache.rehash rows same } := by
  cases call with
  | record tokenId keyId now =>
      simp only [step] at taken
      split at taken
      · rename_i later
        exact .inl ⟨tokenId, keyId, now, rfl, later, (Option.some.inj taken).symm⟩
      · cases taken
  | get tokenId now =>
      simp only [step] at taken
      split at taken
      · rename_i later
        exact .inr (.inl ⟨tokenId, now, rfl, later, (Option.some.inj taken).symm⟩)
      · cases taken
  | rehash rows =>
      simp only [step] at taken
      split at taken
      · rename_i same
        exact .inr (.inr ⟨rows, same, rfl, (Option.some.inj taken).symm⟩)
      · cases taken

theorem Tracked.step (tracked : run.Tracked) (taken : run.step call = some run') :
    run'.Tracked := by
  intro token entry stored
  obtain ⟨tokenId, keyId, now, -, later, rfl⟩ | ⟨tokenId, now, -, later, rfl⟩ | ⟨rows, same, -, rfl⟩ :=
    step_cases taken
  · rw [record_cache] at stored
    rw [record_cache, recordMapping_ttlSecs]
    by_cases self : token = tokenId
    · subst self
      rw [find_recordMapping_self] at stored
      cases stored
      exact ⟨now, if_pos rfl, le_refl now, rfl⟩
    · obtain ⟨recorded, last, before, expires⟩ :=
        tracked token entry (find_recordMapping_of_ne self stored)
      exact ⟨recorded, (if_neg self).trans last, before.trans later, expires⟩
  · obtain ⟨recorded, last, before, expires⟩ :=
      tracked token entry (within_getCandidate tokenId now run.cache token entry stored)
    exact ⟨recorded, last, before.trans later, by rwa [getCandidate_ttlSecs]⟩
  · exact tracked token entry (ResearchAffinities.within_rehash same token entry stored)

theorem tracked_start (ttlSecs clock : Int) : (start ttlSecs clock).Tracked := by
  intro tokenId entry stored
  cases stored

/-- A mapping that a call evicts while it is live would outlast none that stays. -/
theorem Tracked.evicts (tracked : run.Tracked) (taken : run.step call = some run')
    {tokenId token : String} {entry kept : TokenAffinity}
    (stored : run.cache.mappings.find tokenId = some entry) (live : run'.clock < entry.expiresAt)
    (evicted : run'.cache.mappings.find tokenId = none)
    (stays : run'.cache.mappings.find token = some kept) : entry.expiresAt ≤ kept.expiresAt := by
  obtain ⟨fresh, keyId, now, -, later, rfl⟩ | ⟨fresh, now, -, later, rfl⟩ | ⟨rows, same, -, rfl⟩ :=
    step_cases taken
  · rw [record_cache] at evicted stays
    rw [record_clock] at live
    have other : tokenId ≠ fresh := by
      rintro rfl
      rw [find_recordMapping_self] at evicted
      cases evicted
    by_cases self : token = fresh
    · -- The new mapping is given the time that every older one was given earlier.
      subst self
      rw [find_recordMapping_self] at stays
      cases stays
      obtain ⟨recorded, -, before, expires⟩ := tracked tokenId entry stored
      simp only
      omega
    · unfold TokenAffinityState.recordMapping at evicted stays
      simp only [KeyedTable.find_upsert_of_ne _ other] at evicted
      simp only [KeyedTable.find_upsert_of_ne _ self] at stays
      split at evicted
      · rename_i full
        rw [if_pos full] at stays
        exact TokenAffinityState.prune_evicts stored live evicted stays
      · rw [stored] at evicted
        cases evicted
  · rw [TokenAffinityState.getCandidate_keeps stored live] at evicted
    cases evicted
  · have kept := same.mem_iff.2 (KeyedTable.find_eq_some_iff.1 stored)
    rw [KeyedTable.find_eq_some_iff.2 kept] at evicted
    cases evicted

theorem Tracked.honest (tracked : run.Tracked) : run.CacheHonest := by
  refine ⟨?_, fun call run' taken tokenId entry stored live evicted token kept stays =>
    tracked.evicts taken stored live evicted stays⟩
  intro tokenId now keyId _ answered
  rw [getCandidate_fst, TokenAffinityState.answer_eq_some_iff] at answered
  obtain ⟨entry, stored, live, rfl⟩ := answered
  obtain ⟨recorded, last, -, expires⟩ := tracked tokenId entry stored
  exact ⟨recorded, last, expires ▸ live⟩

/-- A call keeps a cache within its bound exactly where it has room. -/
theorem size_step (fits : run.cache.mappings.rows.length ≤ tokenAffinityMaxEntries)
    (taken : run.step call = some run') :
    run'.cache.mappings.rows.length ≤ tokenAffinityMaxEntries ↔ run.HasRoom call := by
  obtain ⟨tokenId, keyId, now, rfl, -, rfl⟩ | ⟨tokenId, now, rfl, -, rfl⟩ | ⟨rows, same, rfl, rfl⟩ :=
    step_cases taken
  · exact TokenAffinityState.length_recordMapping_le_iff fits
  · exact iff_of_true ((TokenAffinityState.length_getCandidate_le tokenId now run.cache).trans fits)
      trivial
  · exact iff_of_true (same.length_eq.trans_le fits) trivial

theorem size_step_le (fits : run.cache.mappings.rows.length ≤ tokenAffinityMaxEntries + 1)
    (taken : run.step call = some run') :
    run'.cache.mappings.rows.length ≤ tokenAffinityMaxEntries + 1 := by
  obtain ⟨tokenId, keyId, now, -, -, rfl⟩ | ⟨tokenId, now, -, -, rfl⟩ | ⟨rows, same, -, rfl⟩ :=
    step_cases taken
  · exact TokenAffinityState.length_recordMapping_le fits
  · exact (TokenAffinityState.length_getCandidate_le tokenId now run.cache).trans fits
  · exact same.length_eq.trans_le fits

/-- Over every run of calls a cache keeps its bound exactly when every call has room. In any
case its answers and evictions are right, and it never holds more than one mapping too many. -/
theorem cacheBounds_alongRun_iff (ttlSecs clock : Int) (calls : List AffinityCall) :
    (affinityCacheSystem.AlongRun CacheBounds (start ttlSecs clock) calls ↔
      affinityCacheSystem.Guarded HasRoom (start ttlSecs clock) calls) ∧
    affinityCacheSystem.AlongRun
      (fun run => run.CacheHonest ∧
        run.cache.mappings.rows.length ≤ tokenAffinityMaxEntries + 1)
      (start ttlSecs clock) calls := by
  constructor
  · apply TransitionSystem.alongRun_iff_guarded affinityCacheSystem
    · exact fun run call run'
        (inv : run.Tracked ∧ run.cache.mappings.rows.length ≤ tokenAffinityMaxEntries) room taken =>
          ⟨inv.1.step taken, (size_step inv.2 taken).2 room⟩
    · exact fun run inv => ⟨inv.1.honest, inv.2⟩
    · exact fun run call run' inv taken bounds => (size_step inv.2 taken).1 bounds.size
    · exact ⟨tracked_start ttlSecs clock, Nat.zero_le _⟩
  · have along := affinityCacheSystem.alongRun_of_preserved
      (fun run call run' (inv : run.Tracked ∧
          run.cache.mappings.rows.length ≤ tokenAffinityMaxEntries + 1) taken =>
        ⟨inv.1.step taken, size_step_le inv.2 taken⟩)
      ⟨tracked_start ttlSecs clock, Nat.zero_le _⟩ calls
    exact along.mono _ fun run inv => ⟨inv.1.honest, inv.2⟩

/-! ### A cache that is full of live mappings -/

def tokenName (i : Nat) : String := String.ofList (List.replicate i 'a')

/-- Every token is recorded once, in the same second. -/
def fillCache (n : Nat) : List AffinityCall :=
  (List.range n).map fun i => .record (tokenName i) "key" 0

theorem fillCache_succ (n : Nat) :
    fillCache (n + 1) = fillCache n ++ [.record (tokenName n) "key" 0] := by
  simp [fillCache, List.range_succ]

theorem tokenName_injective {i j : Nat} (same : tokenName i = tokenName j) : i = j := by
  have lengths := congrArg List.length (String.ofList_injective same)
  rwa [List.length_replicate, List.length_replicate] at lengths

/-- The records find nothing to drop, until one mapping is over the bound. -/
theorem run_fillCache {n : Nat} (few : n ≤ tokenAffinityMaxEntries + 1) :
    ∃ final, affinityCacheSystem.run (start 1 0) (fillCache n) = some final ∧ final.clock = 0 ∧
      final.cache.ttlSecs = 1 ∧
      final.cache.mappings.rows = (List.range n).map fun i =>
        (tokenName i, { keyId := "key", expiresAt := 1 }) := by
  induction n with
  | zero => exact ⟨_, rfl, rfl, rfl, rfl⟩
  | succ n ih =>
      obtain ⟨mid, ran, clock, ttl, rows⟩ := ih (by omega)
      have live : mid.cache.liveMappings 0 = mid.cache.mappings := by
        apply KeyedTable.ext
        apply List.filter_eq_self.2
        intro row member
        rw [rows] at member
        obtain ⟨i, -, rfl⟩ := List.mem_map.1 member
        rfl
      have pruned : mid.cache.prune 0 = mid.cache := by
        rw [TokenAffinityState.prune_of_le, live]
        rw [live, rows, List.length_map, List.length_range]
        omega
      have absent : mid.cache.mappings.find (tokenName n) = none := by
        rw [KeyedTable.find_eq_none_iff, rows]
        intro member
        simp only [List.map_map, List.mem_map, List.mem_range, Function.comp_apply] at member
        obtain ⟨i, before, same⟩ := member
        exact before.ne (tokenName_injective same)
      have taken : affinityCacheSystem.step mid (.record (tokenName n) "key" 0) =
          some (mid.record (tokenName n) "key" 0) := if_pos clock.le
      refine ⟨mid.record (tokenName n) "key" 0, ?_, rfl, ?_, ?_⟩
      · rw [fillCache_succ, TransitionSystem.run_append]
        exact ⟨mid, ran, (TransitionSystem.run_cons _).2 ⟨_, taken, rfl⟩⟩
      · exact (recordMapping_ttlSecs (tokenName n) "key" 0 mid.cache).trans ttl
      · rw [record_cache]
        unfold TokenAffinityState.recordMapping
        simp only [pruned, ite_self]
        rw [KeyedTable.rows_upsert_of_absent absent, rows, ttl, List.range_succ, List.map_append]
        rfl

theorem le_of_fillCache_bounded {n : Nat} (few : n ≤ tokenAffinityMaxEntries + 1)
    (along : affinityCacheSystem.AlongRun CacheBounds (start 1 0) (fillCache n)) :
    n ≤ tokenAffinityMaxEntries := by
  obtain ⟨final, ran, -, -, rows⟩ := run_fillCache few
  have size := (along.last affinityCacheSystem ran).size
  rwa [rows, List.length_map, List.length_range] at size

/-- A cache that is full of live mappings takes one more. -/
theorem fillCache_overfills :
    ¬affinityCacheSystem.AlongRun CacheBounds (start 1 0)
      (fillCache (tokenAffinityMaxEntries + 1)) :=
  mt (le_of_fillCache_bounded (Nat.le_refl (tokenAffinityMaxEntries + 1)))
    (Nat.not_succ_le_self tokenAffinityMaxEntries)

end AffinityRun

end TavilyHikari.TavilyProxy
