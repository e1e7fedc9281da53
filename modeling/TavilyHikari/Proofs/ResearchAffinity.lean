/-
Module: TavilyHikari.Proofs.ResearchAffinity
Purpose: The caches of research requests against the table behind them: over every run they
  answer as the rows do exactly when what is written into them is covered by a row.
Trusted boundary: none
Main exports: CachesAgree, Covered, cachesAgree_alongRun
-/
import TavilyHikari.TavilyProxy.ResearchAffinity

namespace TavilyHikari.TavilyProxy

open Library

/-! ### What the caches and the rows answer -/

/-- What a cache answers at a time. -/
def TokenAffinityState.answer (cache : TokenAffinityState) (requestId : String) (t : Int) :
    Option String :=
  ((cache.mappings.find requestId).filter fun entry => entry.expiresAt > t).map
    TokenAffinity.keyId

theorem TokenAffinityState.answer_eq_some_iff {cache : TokenAffinityState}
    {requestId text : String} {t : Int} :
    cache.answer requestId t = some text ↔
      ∃ entry, cache.mappings.find requestId = some entry ∧ t < entry.expiresAt ∧
        entry.keyId = text := by
  simp [answer, Option.filter_eq_some_iff, and_assoc]

theorem getCandidate_fst (requestId : String) (now : Int) (state : TokenAffinityState) :
    (state.getCandidate requestId now).1 = state.answer requestId now := by
  unfold TokenAffinityState.getCandidate TokenAffinityState.answer
  cases found : state.mappings.find requestId with
  | none => rfl
  | some entry =>
      simp only [Option.filter_some, decide_eq_true_eq]
      split <;> rfl

theorem selectResearchRequest_eq_some_iff {requestId : String} {t : Int} {rows : ResearchRequests}
    {answer : String × String} :
    selectResearchRequest requestId t rows = some answer ↔
      ∃ row, rows.find requestId = some row ∧ t < row.expiresAt ∧
        (row.keyId, row.tokenId) = answer := by
  simp [selectResearchRequest, Option.filter_eq_some_iff, and_assoc]

namespace ResearchAffinities

/-- The key that a request resolves to: the one in the cache, else the one in the table. -/
def resolvedKey (state : ResearchAffinities) (requestId : String) (t : Int) : Option String :=
  (state.keyCache.answer requestId t).or
    ((selectResearchRequest requestId t state.rows).map Prod.fst)

def resolvedOwner (state : ResearchAffinities) (requestId : String) (t : Int) : Option String :=
  (state.ownerCache.answer requestId t).or
    ((selectResearchRequest requestId t state.rows).map Prod.snd)

/-- From now on every request resolves to the key and the owner of its row, where that has
not expired. -/
structure CachesAgree (state : ResearchAffinities) : Prop where
  key : ∀ requestId t, state.clock ≤ t →
    state.resolvedKey requestId t = (selectResearchRequest requestId t state.rows).map Prod.fst
  owner : ∀ requestId t, state.clock ≤ t →
    state.resolvedOwner requestId t = (selectResearchRequest requestId t state.rows).map Prod.snd

/-- A lookup whose statements succeed answers with the key that the request resolves to. -/
theorem acquireKeyForResearchRequest_fst (state : ResearchAffinities) (requestId : String)
    (now : Int) (healthy : Nat) :
    (state.acquireKeyForResearchRequest (some requestId) now (healthy + 2)).1 =
      some ((state.resolvedKey requestId now).elim .scheduled .pinned) := by
  unfold acquireKeyForResearchRequest resolvedKey readThrough getResearchRequestAffinity
  simp only [getCandidate_fst]
  cases state.keyCache.answer requestId now with
  | some keyId => rfl
  | none => cases selectResearchRequest requestId now state.rows <;> rfl

theorem isResearchRequestOwnedBy_fst (state : ResearchAffinities) (requestId tokenId : String)
    (now : Int) (healthy : Nat) :
    (state.isResearchRequestOwnedBy requestId (some tokenId) now (healthy + 2)).1 =
      some (decide (state.resolvedOwner requestId now = some tokenId)) := by
  unfold isResearchRequestOwnedBy resolvedOwner readThrough getResearchRequestAffinity
  simp only [getCandidate_fst]
  cases state.ownerCache.answer requestId now with
  | some owner => simp
  | none => cases selectResearchRequest requestId now state.rows <;> simp

/-- A row says what is written into the caches, and for as long. -/
def RowCovers (state : ResearchAffinities) (requestId keyId tokenId : String) (now : Int) : Prop :=
  ∃ row, state.rows.find requestId = some row ∧ row.keyId = keyId ∧ row.tokenId = tokenId ∧
    now + researchRequestAffinityTtlSecs ≤ row.expiresAt

/-- A miss that finds a row finds one that lasts as long as what it caches. -/
def ReadCovered (state : ResearchAffinities) (cached : Option String) (requestId : String)
    (now : Int) (healthy : Nat) : Prop :=
  cached = none → 1 ≤ healthy → ∀ row, state.rows.find requestId = some row →
    now < row.expiresAt → now + researchRequestAffinityTtlSecs ≤ row.expiresAt

/-- What a call writes into the caches is covered by a row. -/
def Covered (state : ResearchAffinities) : ResearchAction → Prop
  | .record requestId keyId tokenId now saveNow healthy =>
      1 ≤ healthy ∨ now + researchRequestAffinityTtlSecs ≤ saveNow ∨
        state.RowCovers requestId keyId tokenId now
  | .acquire (some requestId) now healthy =>
      state.ReadCovered (state.keyCache.answer requestId now) requestId now healthy
  | .ownedBy requestId (some _) now healthy =>
      state.ReadCovered (state.ownerCache.answer requestId now) requestId now healthy
  | _ => True

end ResearchAffinities

/-! ### One cache -/

/-- A cache that answers as `row` does where it answers at all. -/
def Follows (cache : TokenAffinityState) (row : String → Int → Option String) (clock : Int) : Prop :=
  ∀ requestId t text, clock ≤ t → cache.answer requestId t = some text →
    row requestId t = some text

theorem follows_iff {cache : TokenAffinityState} {row : String → Int → Option String}
    {clock : Int} :
    Follows cache row clock ↔
      ∀ requestId t, clock ≤ t → (cache.answer requestId t).or (row requestId t) =
        row requestId t := by
  constructor
  · intro follows requestId t later
    cases answered : cache.answer requestId t with
    | none => rfl
    | some text => rw [follows requestId t text later answered, Option.some_or]
  · intro resolves requestId t text later answered
    rw [← resolves requestId t later, answered, Option.some_or]

/-- Every mapping of `smaller` is one of `cache`. -/
def Within (smaller cache : TokenAffinityState) : Prop :=
  ∀ requestId entry, smaller.mappings.find requestId = some entry →
    cache.mappings.find requestId = some entry

theorem Within.answer {smaller cache : TokenAffinityState} (within : Within smaller cache)
    {requestId text : String} {t : Int} (answered : smaller.answer requestId t = some text) :
    cache.answer requestId t = some text := by
  rw [TokenAffinityState.answer_eq_some_iff] at answered ⊢
  obtain ⟨entry, found, live⟩ := answered
  exact ⟨entry, within requestId entry found, live⟩

theorem Follows.within {smaller cache : TokenAffinityState} {row : String → Int → Option String}
    {clock : Int} (follows : Follows cache row clock) (within : Within smaller cache) :
    Follows smaller row clock :=
  fun requestId t text later answered =>
    follows requestId t text later (within.answer answered)

theorem Follows.later {cache : TokenAffinityState} {row : String → Int → Option String}
    {clock clock' : Int} (follows : Follows cache row clock) (later : clock ≤ clock') :
    Follows cache row clock' :=
  fun requestId t text after => follows requestId t text (later.trans after)

theorem within_deleteWhere (state : TokenAffinityState) (p : String → TokenAffinity → Bool) :
    Within { state with mappings := state.mappings.deleteWhere p } state := by
  intro requestId entry found
  rw [KeyedTable.find_deleteWhere, Option.filter_eq_some_iff] at found
  exact found.1

theorem within_getCandidate (requestId : String) (now : Int) (state : TokenAffinityState) :
    Within (state.getCandidate requestId now).2 state := by
  unfold TokenAffinityState.getCandidate
  split
  · split
    · exact fun _ _ found => found
    · exact within_deleteWhere state _
  · exact fun _ _ found => found

theorem getCandidate_ttlSecs (requestId : String) (now : Int) (state : TokenAffinityState) :
    (state.getCandidate requestId now).2.ttlSecs = state.ttlSecs := by
  unfold TokenAffinityState.getCandidate
  split
  · split <;> rfl
  · rfl

theorem within_prune (now : Int) (state : TokenAffinityState) :
    Within (state.prune now) state := by
  have live := within_deleteWhere state fun _ entry => !decide (entry.expiresAt > now)
  unfold TokenAffinityState.prune
  simp only
  split
  · exact live
  · intro requestId entry found
    apply live requestId entry
    exact within_deleteWhere
      { state with
        mappings := state.mappings.deleteWhere fun _ entry => !decide (entry.expiresAt > now) }
      _ requestId entry found

theorem prune_ttlSecs (now : Int) (state : TokenAffinityState) :
    (state.prune now).ttlSecs = state.ttlSecs := by
  unfold TokenAffinityState.prune
  simp only
  split <;> rfl

theorem recordMapping_ttlSecs (requestId text : String) (now : Int) (state : TokenAffinityState) :
    (state.recordMapping requestId text now).ttlSecs = state.ttlSecs := by
  unfold TokenAffinityState.recordMapping
  simp only
  split
  · exact prune_ttlSecs now state
  · rfl

theorem find_recordMapping_self (requestId text : String) (now : Int)
    (state : TokenAffinityState) :
    (state.recordMapping requestId text now).mappings.find requestId =
      some { keyId := text, expiresAt := now + state.ttlSecs } := by
  unfold TokenAffinityState.recordMapping
  simp only [KeyedTable.find_upsert_self]
  split
  · rw [prune_ttlSecs]
    cases (state.prune now).mappings.find requestId <;> rfl
  · cases state.mappings.find requestId <;> rfl

theorem find_recordMapping_of_ne {requestId other text : String} {now : Int}
    {state : TokenAffinityState} {entry : TokenAffinity} (different : other ≠ requestId)
    (found : (state.recordMapping requestId text now).mappings.find other = some entry) :
    state.mappings.find other = some entry := by
  unfold TokenAffinityState.recordMapping at found
  simp only [KeyedTable.find_upsert_of_ne _ different] at found
  split at found
  · exact within_prune now state other entry found
  · exact found

/-- What a record leaves in a cache follows rows that may have changed for its own request,
exactly when the new mapping does. -/
theorem follows_recordMapping {cache : TokenAffinityState} {row row' : String → Int → Option String}
    {clock : Int} (follows : Follows cache row clock) (requestId text : String) (now : Int)
    (others : ∀ other t, clock ≤ t → other ≠ requestId → row' other t = row other t) :
    Follows (cache.recordMapping requestId text now) row' clock ↔
      ∀ t, clock ≤ t → t < now + cache.ttlSecs → row' requestId t = some text := by
  have recorded := find_recordMapping_self requestId text now cache
  constructor
  · intro follows' t later live
    exact follows' requestId t text later
      (TokenAffinityState.answer_eq_some_iff.2 ⟨_, recorded, live, rfl⟩)
  · intro covered other t answer later answered
    obtain ⟨entry, found, live, same⟩ := TokenAffinityState.answer_eq_some_iff.1 answered
    by_cases self : other = requestId
    · subst self
      rw [recorded] at found
      cases found
      rw [← same]
      exact covered t later live
    · rw [others other t later self]
      apply follows other t answer later
      exact TokenAffinityState.answer_eq_some_iff.2
        ⟨entry, find_recordMapping_of_ne self found, live, same⟩

/-! ### The rows -/

theorem selectResearchRequest_upsert_self (requestId keyId tokenId : String) (expiresAt now t : Int)
    (rows : ResearchRequests) :
    selectResearchRequest requestId t
        (upsertResearchRequest requestId keyId tokenId expiresAt now rows) =
      if t < expiresAt then some (keyId, tokenId) else none := by
  unfold selectResearchRequest upsertResearchRequest
  rw [KeyedTable.find_upsert_self]
  cases rows.find requestId with
  | none => by_cases live : t < expiresAt <;> simp [live, Option.filter_some]
  | some row => by_cases live : t < expiresAt <;> simp [live, Option.filter_some]

theorem selectResearchRequest_upsert_of_ne {requestId other : String} (different : other ≠ requestId)
    (keyId tokenId : String) (expiresAt now t : Int) (rows : ResearchRequests) :
    selectResearchRequest other t
        (upsertResearchRequest requestId keyId tokenId expiresAt now rows) =
      selectResearchRequest other t rows := by
  unfold selectResearchRequest upsertResearchRequest
  rw [KeyedTable.find_upsert_of_ne _ different]

/-- A delete of rows that have expired changes no later answer. -/
theorem selectResearchRequest_deleteWhere {p : String → ResearchRequestRow → Bool} {now t : Int}
    (expired : ∀ requestId row, p requestId row = true → row.expiresAt ≤ now) (later : now ≤ t)
    (requestId : String) (rows : ResearchRequests) :
    selectResearchRequest requestId t (rows.deleteWhere p) =
      selectResearchRequest requestId t rows := by
  unfold selectResearchRequest
  rw [KeyedTable.find_deleteWhere, Option.filter_filter]
  congr 1
  cases found : rows.find requestId with
  | none => rfl
  | some row =>
      simp only [Option.filter_some]
      by_cases live : t < row.expiresAt
      · have kept : p requestId row = false := by
          rw [Bool.eq_false_iff]
          intro deleted
          have dead := expired requestId row deleted
          omega
        simp [kept]
      · simp [live]

/-- What a save leaves in the table answers later as the rows it found, but for its own row. -/
theorem selectResearchRequest_save {expiresAt saveNow t : Int} (later : saveNow ≤ t)
    {healthy : Nat} (written : 1 ≤ healthy) (requestId keyId tokenId other : String)
    (rows : ResearchRequests) :
    selectResearchRequest other t
        (saveResearchRequestAffinity requestId keyId tokenId expiresAt saveNow healthy rows).2 =
      selectResearchRequest other t
        (upsertResearchRequest requestId keyId tokenId expiresAt saveNow rows) := by
  cases healthy with
  | zero => cases written
  | succ healthy =>
      cases healthy with
      | zero => rfl
      | succ healthy =>
          exact selectResearchRequest_deleteWhere
            (fun _ _ expired => of_decide_eq_true expired) later other _

theorem selectResearchRequest_get {requestId other : String} {now t : Int} (later : now ≤ t)
    (healthy : Nat) (rows : ResearchRequests) :
    selectResearchRequest other t (getResearchRequestAffinity requestId now healthy rows).2 =
      selectResearchRequest other t rows := by
  unfold getResearchRequestAffinity
  split
  · rfl
  · rfl
  · rfl
  · apply selectResearchRequest_deleteWhere _ later
    intro key row expired
    simp only [Bool.and_eq_true, decide_eq_true_eq] at expired
    exact expired.2

theorem getResearchRequestAffinity_fst {requestId : String} {now : Int} {healthy : Nat}
    {rows : ResearchRequests} {answer : String × String} :
    (getResearchRequestAffinity requestId now healthy rows).1 = some (some answer) ↔
      1 ≤ healthy ∧ selectResearchRequest requestId now rows = some answer := by
  unfold getResearchRequestAffinity
  cases healthy with
  | zero => simp
  | succ healthy =>
      cases found : selectResearchRequest requestId now rows with
      | none => cases healthy <;> simp
      | some row => simp

/-- The rows answer for a whole span exactly when one of them says so and lasts. -/
theorem selected_throughout_iff {requestId keyId tokenId : String} {start finish : Int}
    {rows : ResearchRequests} :
    (∀ t, start ≤ t → t < finish → selectResearchRequest requestId t rows = some (keyId, tokenId)) ↔
      finish ≤ start ∨ ∃ row, rows.find requestId = some row ∧ row.keyId = keyId ∧
        row.tokenId = tokenId ∧ finish ≤ row.expiresAt := by
  constructor
  · intro throughout
    by_cases empty : finish ≤ start
    · exact Or.inl empty
    · have last := throughout (finish - 1) (by omega) (by omega)
      obtain ⟨row, found, live, same⟩ := selectResearchRequest_eq_some_iff.1 last
      cases same
      exact Or.inr ⟨row, found, rfl, rfl, by omega⟩
  · intro covered t later before
    rcases covered with empty | ⟨row, found, rfl, rfl, lasts⟩
    · omega
    · exact selectResearchRequest_eq_some_iff.2 ⟨row, found, by omega, rfl⟩

/-! ### Both caches -/

namespace ResearchAffinities

variable {state state' : ResearchAffinities}

/-- Both caches follow the rows from a time on. -/
structure FollowsFrom (state : ResearchAffinities) (clock : Int) : Prop where
  keys : Follows state.keyCache
    (fun requestId t => (selectResearchRequest requestId t state.rows).map Prod.fst) clock
  owners : Follows state.ownerCache
    (fun requestId t => (selectResearchRequest requestId t state.rows).map Prod.snd) clock

theorem cachesAgree_iff : state.CachesAgree ↔ state.FollowsFrom state.clock :=
  ⟨fun agree => ⟨follows_iff.2 agree.key, follows_iff.2 agree.owner⟩,
    fun follows => ⟨follows_iff.1 follows.keys, follows_iff.1 follows.owners⟩⟩

/-- Both caches keep a mapping for the same time. -/
structure SameTtl (state : ResearchAffinities) : Prop where
  keys : state.keyCache.ttlSecs = researchRequestAffinityTtlSecs
  owners : state.ownerCache.ttlSecs = researchRequestAffinityTtlSecs

theorem FollowsFrom.later {clock clock' : Int} (follows : state.FollowsFrom clock)
    (later : clock ≤ clock') : state.FollowsFrom clock' :=
  ⟨follows.keys.later later, follows.owners.later later⟩

/-- Caches with less in them follow rows that answer the same. -/
theorem FollowsFrom.within {clock : Int} (follows : state.FollowsFrom clock)
    (keys : Within state'.keyCache state.keyCache)
    (owners : Within state'.ownerCache state.ownerCache)
    (rows : ∀ requestId t, clock ≤ t → selectResearchRequest requestId t state'.rows =
      selectResearchRequest requestId t state.rows) :
    state'.FollowsFrom clock := by
  constructor
  · intro requestId t text later answered
    have followed := follows.keys.within keys requestId t text later answered
    exact (congrArg (Option.map Prod.fst) (rows requestId t later)).trans followed
  · intro requestId t text later answered
    have followed := follows.owners.within owners requestId t text later answered
    exact (congrArg (Option.map Prod.snd) (rows requestId t later)).trans followed

/-- What is written into both caches follows the rows exactly when they say so as long as it
lasts. -/
theorem followsFrom_populate {clock : Int} (ttl : state.SameTtl)
    (follows : state.FollowsFrom clock) (requestId keyId tokenId : String) (now : Int)
    {rows : ResearchRequests}
    (others : ∀ other t, clock ≤ t → other ≠ requestId → selectResearchRequest other t rows =
      selectResearchRequest other t state.rows) :
    { state.populateResearchRequestAffinityCaches requestId keyId tokenId now with
        rows := rows }.FollowsFrom clock ↔
      ∀ t, clock ≤ t → t < now + researchRequestAffinityTtlSecs →
        selectResearchRequest requestId t rows = some (keyId, tokenId) := by
  have keys := follows_recordMapping follows.keys requestId keyId now fun other t later different =>
    congrArg (Option.map Prod.fst) (others other t later different)
  have owners := follows_recordMapping follows.owners requestId tokenId now
    fun other t later different => congrArg (Option.map Prod.snd) (others other t later different)
  rw [ttl.keys] at keys
  rw [ttl.owners] at owners
  constructor
  · intro populated t later before
    have key := keys.1 populated.keys t later before
    have owner := owners.1 populated.owners t later before
    obtain ⟨row, selected, same⟩ := Option.map_eq_some_iff.1 key
    rw [selected, Option.map_some, Option.some.injEq] at owner
    rw [selected, ← same, ← owner]
  · intro covered
    constructor
    · apply keys.2
      intro t later before
      exact congrArg (Option.map Prod.fst) (covered t later before)
    · apply owners.2
      intro t later before
      exact congrArg (Option.map Prod.snd) (covered t later before)

theorem sameTtl_populate (ttl : state.SameTtl) (requestId keyId tokenId : String) (now : Int)
    (rows : ResearchRequests) :
    { state.populateResearchRequestAffinityCaches requestId keyId tokenId now with
      rows := rows }.SameTtl :=
  ⟨(recordMapping_ttlSecs _ _ _ _).trans ttl.keys, (recordMapping_ttlSecs _ _ _ _).trans ttl.owners⟩

/-- A read after a miss. -/
theorem followsFrom_readThrough (ttl : state.SameTtl) {now : Int} (follows : state.FollowsFrom now)
    (requestId : String) (healthy : Nat) :
    ((state.readThrough requestId now healthy).2.FollowsFrom now ↔
      (1 ≤ healthy → ∀ row, state.rows.find requestId = some row → now < row.expiresAt →
        now + researchRequestAffinityTtlSecs ≤ row.expiresAt)) ∧
    (state.readThrough requestId now healthy).2.SameTtl := by
  have same : ∀ other t, now ≤ t →
      selectResearchRequest other t (getResearchRequestAffinity requestId now healthy state.rows).2 =
        selectResearchRequest other t state.rows :=
    fun other t later => selectResearchRequest_get later healthy state.rows
  unfold readThrough
  simp only
  split
  case h_1 keyId tokenId found =>
    obtain ⟨answered, selected⟩ := getResearchRequestAffinity_fst.1 found
    obtain ⟨row, stored, live, texts⟩ := selectResearchRequest_eq_some_iff.1 selected
    cases texts
    refine ⟨?_, sameTtl_populate ttl _ _ _ _ _⟩
    apply (followsFrom_populate ttl follows requestId row.keyId row.tokenId now
      fun other t later _ => same other t later).trans
    have span : (∀ t, now ≤ t → t < now + researchRequestAffinityTtlSecs →
        selectResearchRequest requestId t state.rows = some (row.keyId, row.tokenId)) ↔
          now + researchRequestAffinityTtlSecs ≤ row.expiresAt := by
      rw [selected_throughout_iff]
      constructor
      · rintro (empty | ⟨other, found, _, _, lasts⟩)
        · exact absurd empty (by unfold researchRequestAffinityTtlSecs; omega)
        · rw [stored] at found
          cases found
          exact lasts
      · exact fun lasts => Or.inr ⟨row, stored, rfl, rfl, lasts⟩
    constructor
    · intro throughout _ other found _
      rw [stored] at found
      cases found
      apply span.1
      intro t later before
      rw [← same requestId t later]
      exact throughout t later before
    · intro lasts t later before
      rw [same requestId t later]
      exact span.2 (lasts answered row stored live) t later before
  case h_2 missed =>
    have read : { state with
        rows := (getResearchRequestAffinity requestId now healthy state.rows).2 }.FollowsFrom now :=
      follows.within (fun _ _ found => found) (fun _ _ found => found) same
    refine ⟨⟨fun _ answered row stored live => ?_, fun _ => read⟩, ⟨ttl.keys, ttl.owners⟩⟩
    have found := getResearchRequestAffinity_fst.2
      ⟨answered, selectResearchRequest_eq_some_iff.2 ⟨row, stored, live, rfl⟩⟩
    exact absurd found (missed row.keyId row.tokenId)

/-! ### Calls -/

/-- A lookup that leaves the caches within what they were and then, on a miss, reads the
table. -/
theorem followsFrom_lookup {now : Int} (follows : state.FollowsFrom now)
    (looked : ResearchAffinities) (keys : Within looked.keyCache state.keyCache)
    (owners : Within looked.ownerCache state.ownerCache) (rows : looked.rows = state.rows)
    (lookedTtl : looked.SameTtl) {cached : Option String} {requestId : String} {healthy : Nat}
    {final : ResearchAffinities}
    (reached : final = cached.elim (looked.readThrough requestId now healthy).2 fun _ => looked) :
    (final.FollowsFrom now ↔ state.ReadCovered cached requestId now healthy) ∧ final.SameTtl := by
  have within : looked.FollowsFrom now :=
    follows.within keys owners fun _ _ _ => by rw [rows]
  cases cached with
  | some text =>
      rw [Option.elim_some] at reached
      rw [reached]
      refine ⟨⟨fun _ missed => ?_, fun _ => within⟩, lookedTtl⟩
      cases missed
  | none =>
      rw [Option.elim_none] at reached
      rw [reached]
      have read := followsFrom_readThrough lookedTtl within requestId healthy
      rw [rows] at read
      exact ⟨read.1.trans ⟨fun lasts _ => lasts, fun lasts => lasts rfl⟩, read.2⟩

theorem followsFrom_acquire (ttl : state.SameTtl) {now : Int} (follows : state.FollowsFrom now)
    (requestId : String) (healthy : Nat) :
    ((state.acquireKeyForResearchRequest (some requestId) now healthy).2.FollowsFrom now ↔
      state.ReadCovered (state.keyCache.answer requestId now) requestId now healthy) ∧
    (state.acquireKeyForResearchRequest (some requestId) now healthy).2.SameTtl := by
  rw [← getCandidate_fst]
  apply followsFrom_lookup follows
    { state with keyCache := (state.keyCache.getCandidate requestId now).2 }
    (within_getCandidate requestId now state.keyCache) (fun _ _ found => found) rfl
    ⟨(getCandidate_ttlSecs requestId now state.keyCache).trans ttl.keys, ttl.owners⟩
  unfold acquireKeyForResearchRequest
  simp only
  cases (state.keyCache.getCandidate requestId now).1 <;> rfl

theorem followsFrom_ownedBy (ttl : state.SameTtl) {now : Int} (follows : state.FollowsFrom now)
    (requestId tokenId : String) (healthy : Nat) :
    ((state.isResearchRequestOwnedBy requestId (some tokenId) now healthy).2.FollowsFrom now ↔
      state.ReadCovered (state.ownerCache.answer requestId now) requestId now healthy) ∧
    (state.isResearchRequestOwnedBy requestId (some tokenId) now healthy).2.SameTtl := by
  rw [← getCandidate_fst]
  apply followsFrom_lookup follows
    { state with ownerCache := (state.ownerCache.getCandidate requestId now).2 }
    (fun _ _ found => found) (within_getCandidate requestId now state.ownerCache) rfl
    ⟨ttl.keys, (getCandidate_ttlSecs requestId now state.ownerCache).trans ttl.owners⟩
  unfold isResearchRequestOwnedBy
  simp only
  cases (state.ownerCache.getCandidate requestId now).1 <;> rfl

/-- A record: the caches are written first, and the save follows. -/
theorem followsFrom_record (ttl : state.SameTtl) {saveNow : Int}
    (follows : state.FollowsFrom saveNow) (requestId keyId tokenId : String) (now : Int)
    (healthy : Nat) :
    ((state.recordResearchRequestAffinity requestId keyId tokenId now saveNow
        healthy).2.FollowsFrom saveNow ↔
      1 ≤ healthy ∨ now + researchRequestAffinityTtlSecs ≤ saveNow ∨
        state.RowCovers requestId keyId tokenId now) ∧
    (state.recordResearchRequestAffinity requestId keyId tokenId now saveNow
      healthy).2.SameTtl := by
  refine ⟨?_, sameTtl_populate ttl requestId keyId tokenId now _⟩
  by_cases written : 1 ≤ healthy
  · refine ⟨fun _ => Or.inl written, fun _ => ?_⟩
    apply (followsFrom_populate ttl follows requestId keyId tokenId now _).2
    · intro t later before
      apply (selectResearchRequest_save later written requestId keyId tokenId requestId
        state.rows).trans
      rw [selectResearchRequest_upsert_self, if_pos before]
    · intro other t later different
      apply (selectResearchRequest_save later written requestId keyId tokenId other
        state.rows).trans
      rw [selectResearchRequest_upsert_of_ne different]
  · have failed : healthy = 0 := by omega
    subst failed
    have populated := followsFrom_populate ttl follows requestId keyId tokenId now
      fun _ _ _ _ => rfl
    rw [selected_throughout_iff] at populated
    exact populated.trans ⟨Or.inr, fun covered => covered.resolve_left written⟩

/-! ### Runs -/

theorem within_rehash {cache : TokenAffinityState} {rows : List (String × TokenAffinity)}
    (same : rows.Perm cache.mappings.rows) : Within (cache.rehash rows same) cache := by
  intro requestId entry found
  rw [KeyedTable.find_eq_some_iff] at found ⊢
  exact same.mem_iff.1 found

theorem followsFrom_start (clock : Int) (rows : ResearchRequests) :
    (startResearchAffinities clock rows).FollowsFrom clock := by
  constructor
  · intro requestId t text later answered
    cases answered
  · intro requestId t text later answered
    cases answered

theorem step_spec (ttl : state.SameTtl) (agree : state.CachesAgree) {action : ResearchAction}
    (taken : researchStep state action = some state') :
    (state'.CachesAgree ↔ state.Covered action) ∧ state'.SameTtl := by
  have follows := cachesAgree_iff.1 agree
  rw [cachesAgree_iff]
  cases action with
  | record requestId keyId tokenId now saveNow healthy =>
      simp only [researchStep, Option.ite_none_right_eq_some, Option.some.injEq] at taken
      obtain ⟨⟨later, order⟩, rfl⟩ := taken
      have recorded := followsFrom_record ttl (follows.later (later.trans order)) requestId keyId
        tokenId now healthy
      exact ⟨⟨fun after => recorded.1.1 ⟨after.keys, after.owners⟩, fun covered =>
        ⟨(recorded.1.2 covered).keys, (recorded.1.2 covered).owners⟩⟩,
        ⟨recorded.2.keys, recorded.2.owners⟩⟩
  | acquire requestId now healthy =>
      simp only [researchStep, Option.ite_none_right_eq_some, Option.some.injEq] at taken
      obtain ⟨later, rfl⟩ := taken
      cases requestId with
      | none =>
          have after := follows.later later
          exact ⟨⟨fun _ => trivial, fun _ => ⟨after.keys, after.owners⟩⟩, ⟨ttl.keys, ttl.owners⟩⟩
      | some requestId =>
          have acquired := followsFrom_acquire ttl (follows.later later) requestId healthy
          exact ⟨⟨fun after => acquired.1.1 ⟨after.keys, after.owners⟩, fun covered =>
            ⟨(acquired.1.2 covered).keys, (acquired.1.2 covered).owners⟩⟩,
            ⟨acquired.2.keys, acquired.2.owners⟩⟩
  | ownedBy requestId tokenId now healthy =>
      simp only [researchStep, Option.ite_none_right_eq_some, Option.some.injEq] at taken
      obtain ⟨later, rfl⟩ := taken
      cases tokenId with
      | none =>
          have after := follows.later later
          exact ⟨⟨fun _ => trivial, fun _ => ⟨after.keys, after.owners⟩⟩, ⟨ttl.keys, ttl.owners⟩⟩
      | some tokenId =>
          have owned := followsFrom_ownedBy ttl (follows.later later) requestId tokenId healthy
          exact ⟨⟨fun after => owned.1.1 ⟨after.keys, after.owners⟩, fun covered =>
            ⟨(owned.1.2 covered).keys, (owned.1.2 covered).owners⟩⟩,
            ⟨owned.2.keys, owned.2.owners⟩⟩
  | restart =>
      cases taken
      exact ⟨⟨fun _ => trivial, fun _ => followsFrom_start _ _⟩, ⟨rfl, rfl⟩⟩
  | rehash keys owners =>
      simp only [researchStep] at taken
      split at taken
      · rename_i same
        cases taken
        exact ⟨⟨fun _ => trivial, fun _ => follows.within (within_rehash same.1)
          (within_rehash same.2) fun _ _ _ => rfl⟩, ⟨ttl.keys, ttl.owners⟩⟩
      · cases taken

/-- Over every run of calls and restarts the caches and the table resolve every request as
its row does exactly when every call writes into the caches only what a row covers. -/
theorem cachesAgree_alongRun (clock : Int) (rows : ResearchRequests)
    (actions : List ResearchAction) :
    researchAffinitySystem.AlongRun CachesAgree (startResearchAffinities clock rows) actions ↔
      researchAffinitySystem.Guarded Covered (startResearchAffinities clock rows) actions := by
  apply TransitionSystem.alongRun_iff_guarded researchAffinitySystem
  · exact fun state action state' (inv : state.SameTtl ∧ state.CachesAgree) covered taken =>
      ⟨(step_spec inv.1 inv.2 taken).2, (step_spec inv.1 inv.2 taken).1.2 covered⟩
  · exact fun state inv => inv.2
  · exact fun state action state' inv taken agree => (step_spec inv.1 inv.2 taken).1.1 agree
  · exact ⟨⟨rfl, rfl⟩, cachesAgree_iff.2 (followsFrom_start clock rows)⟩

/-- A request is recorded, the process restarts, and a second before the row expires a call
reads it back into the caches. -/
def readBackLate : List ResearchAction :=
  [.record "request" "key" "owner" 0 0 2, .restart, .acquire (some "request") 86399 2]

/-- The second of two saves fails. -/
def saveFails : List ResearchAction :=
  [.record "request" "key" "owner" 0 0 2, .record "request" "other key" "other owner" 1 1 0]

/-- The caches answer for a row that has expired, and for one that was never written. -/
theorem caches_disagree :
    ¬researchAffinitySystem.AlongRun CachesAgree (startResearchAffinities 0 .empty) readBackLate ∧
    ¬researchAffinitySystem.AlongRun CachesAgree (startResearchAffinities 0 .empty) saveFails := by
  constructor
  · intro along
    have facts : (researchAffinitySystem.run (startResearchAffinities 0 .empty) readBackLate).map
        (fun final => (final.clock, final.resolvedOwner "request" 86400,
          selectResearchRequest "request" 86400 final.rows)) =
        some (86399, some "owner", none) := by decide +kernel
    obtain ⟨final, ran, values⟩ := Option.map_eq_some_iff.1 facts
    simp only [Prod.mk.injEq] at values
    obtain ⟨clock, resolved, expired⟩ := values
    have agree := TransitionSystem.AlongRun.last _ along ran
    have owner := agree.owner "request" 86400 (by omega)
    rw [resolved, expired] at owner
    cases owner
  · intro along
    have facts : (researchAffinitySystem.run (startResearchAffinities 0 .empty) saveFails).map
        (fun final => (final.clock, final.resolvedOwner "request" 1,
          selectResearchRequest "request" 1 final.rows)) =
        some (1, some "other owner", some ("key", "owner")) := by decide +kernel
    obtain ⟨final, ran, values⟩ := Option.map_eq_some_iff.1 facts
    simp only [Prod.mk.injEq] at values
    obtain ⟨clock, resolved, stored⟩ := values
    have agree := TransitionSystem.AlongRun.last _ along ran
    have owner := agree.owner "request" 1 (by omega)
    rw [resolved, stored] at owner
    simp at owner

end ResearchAffinities

end TavilyHikari.TavilyProxy
