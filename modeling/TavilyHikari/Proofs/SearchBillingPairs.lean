/-
Module: TavilyHikari.Proofs.SearchBillingPairs
Purpose: How the repair of MCP searches finds what to bill. The searches of a token in the two
  logs are paired by their rank, and a token that does not pair up is left alone as a whole.
Trusted boundary: none
Main exports: Pairing, buildCandidates_pairing, listed_of_loadCandidates, loadCandidates_pairs
-/
import Mathlib.Data.List.ReduceOption
import TavilyHikari.Bin.SearchBillingRepair
import TavilyHikari.Library.Ranks

namespace TavilyHikari.Bin.SearchBilling

open Library Store

/-! ### The order of the entries -/

/-- The first entry is the older one; of two of a second, the one of the lower id. -/
def Earlier {α : Type} (createdAt id : α → Int) (one two : α) : Prop :=
  createdAt one < createdAt two ∨ createdAt one = createdAt two ∧ id one < id two

instance {α : Type} (createdAt id : α → Int) : DecidableRel (Earlier createdAt id) :=
  fun _ _ => by
    unfold Earlier
    infer_instance

theorem Earlier.asymm {α : Type} {createdAt id : α → Int} (one two : α)
    (earlier : Earlier createdAt id one two) : ¬ Earlier createdAt id two one := by
  unfold Earlier at earlier ⊢
  omega

section

variable {α : Type} (createdAt id : α → Int)

instance : Std.Total (entryOrder createdAt id) where
  total one two := by
    unfold entryOrder
    omega

instance : IsTrans α (entryOrder createdAt id) where
  trans one two three := by
    unfold entryOrder
    omega

/-- Entries of different ids are sorted without ties. -/
theorem pairwise_sorted {entries : List α} (distinct : (entries.map id).Nodup) :
    (entries.insertionSort (entryOrder createdAt id)).Pairwise (Earlier createdAt id) := by
  have sorted := List.pairwise_insertionSort (entryOrder createdAt id) entries
  have same := List.perm_insertionSort (entryOrder createdAt id) entries
  have apart : ((entries.insertionSort (entryOrder createdAt id)).map id).Nodup :=
    (same.map id).nodup_iff.2 distinct
  rw [List.Nodup, List.pairwise_map] at apart
  refine (sorted.and apart).imp ?_
  intro one two both
  unfold entryOrder at both
  unfold Earlier
  omega

end

/-! ### The logs of a token -/

def tokenAuthLogs (authLogs : List SearchAuthLog) (tokenId : String) : List SearchAuthLog :=
  authLogs.filter fun log => log.tokenId = tokenId

def tokenRequestLogs (requestLogs : List SearchRequestLog) (tokenId : String) :
    List SearchRequestLog :=
  requestLogs.filter fun log => log.tokenId = tokenId

/-- How many searches of its token the log comes after. -/
def authRank (authLogs : List SearchAuthLog) (log : SearchAuthLog) : Nat :=
  rank (Earlier SearchAuthLog.createdAt SearchAuthLog.id) (tokenAuthLogs authLogs log.tokenId) log

def requestRank (requestLogs : List SearchRequestLog) (log : SearchRequestLog) : Nat :=
  rank (Earlier SearchRequestLog.createdAt SearchRequestLog.id)
    (tokenRequestLogs requestLogs log.tokenId) log

/-- The two logs are of one token and one rank. -/
def Counterparts (authLogs : List SearchAuthLog) (requestLogs : List SearchRequestLog)
    (pair : SearchAuthLog × SearchRequestLog) : Prop :=
  pair.1 ∈ authLogs ∧ pair.2 ∈ requestLogs ∧ pair.1.tokenId = pair.2.tokenId ∧
    authRank authLogs pair.1 = requestRank requestLogs pair.2

section

variable {authLogs : List SearchAuthLog} {requestLogs : List SearchRequestLog}

theorem sortedAuthEntries_eq (tokenId : String) :
    sortedAuthEntries authLogs tokenId =
      (tokenAuthLogs authLogs tokenId).insertionSort
        (entryOrder SearchAuthLog.createdAt SearchAuthLog.id) := by
  unfold sortedAuthEntries authByToken
  rw [MultiMap.getAll_foldl_append, MultiMap.getAll_empty, List.nil_append]
  rfl

theorem sortedRequestEntries_eq (tokenId : String) :
    sortedRequestEntries requestLogs tokenId =
      (tokenRequestLogs requestLogs tokenId).insertionSort
        (entryOrder SearchRequestLog.createdAt SearchRequestLog.id) := by
  unfold sortedRequestEntries requestByToken
  rw [MultiMap.getAll_foldl_append, MultiMap.getAll_empty, List.nil_append]
  rfl

theorem mem_sortedAuthEntries {tokenId : String} {log : SearchAuthLog} :
    log ∈ sortedAuthEntries authLogs tokenId ↔ log ∈ authLogs ∧ log.tokenId = tokenId := by
  simp [sortedAuthEntries_eq, tokenAuthLogs]

theorem mem_sortedRequestEntries {tokenId : String} {log : SearchRequestLog} :
    log ∈ sortedRequestEntries requestLogs tokenId ↔
      log ∈ requestLogs ∧ log.tokenId = tokenId := by
  simp [sortedRequestEntries_eq, tokenRequestLogs]

theorem pairwise_sortedAuthEntries (distinct : (authLogs.map SearchAuthLog.id).Nodup)
    (tokenId : String) :
    (sortedAuthEntries authLogs tokenId).Pairwise
      (Earlier SearchAuthLog.createdAt SearchAuthLog.id) := by
  rw [sortedAuthEntries_eq]
  exact pairwise_sorted _ _ (distinct.sublist (List.filter_sublist.map _))

theorem pairwise_sortedRequestEntries (distinct : (requestLogs.map SearchRequestLog.id).Nodup)
    (tokenId : String) :
    (sortedRequestEntries requestLogs tokenId).Pairwise
      (Earlier SearchRequestLog.createdAt SearchRequestLog.id) := by
  rw [sortedRequestEntries_eq]
  exact pairwise_sorted _ _ (distinct.sublist (List.filter_sublist.map _))

theorem rank_sortedAuthEntries (log : SearchAuthLog) :
    rank (Earlier SearchAuthLog.createdAt SearchAuthLog.id)
      (sortedAuthEntries authLogs log.tokenId) log = authRank authLogs log := by
  rw [sortedAuthEntries_eq, rank_perm (List.perm_insertionSort _ _)]
  rfl

theorem rank_sortedRequestEntries (log : SearchRequestLog) :
    rank (Earlier SearchRequestLog.createdAt SearchRequestLog.id)
      (sortedRequestEntries requestLogs log.tokenId) log = requestRank requestLogs log := by
  rw [sortedRequestEntries_eq, rank_perm (List.perm_insertionSort _ _)]
  rfl

/-- The pairs of a token are its counterparts. -/
theorem mem_pairs (distinct : (authLogs.map SearchAuthLog.id).Nodup)
    (distinct' : (requestLogs.map SearchRequestLog.id).Nodup) {tokenId : String}
    {pair : SearchAuthLog × SearchRequestLog} :
    pair ∈ (sortedAuthEntries authLogs tokenId).zip (sortedRequestEntries requestLogs tokenId) ↔
      Counterparts authLogs requestLogs pair ∧ pair.1.tokenId = tokenId := by
  obtain ⟨authLog, requestLog⟩ := pair
  rw [mem_zip_iff_rank (pairwise_sortedAuthEntries distinct tokenId) Earlier.asymm
    (pairwise_sortedRequestEntries distinct' tokenId) Earlier.asymm, mem_sortedAuthEntries,
    mem_sortedRequestEntries]
  unfold Counterparts
  simp only
  constructor
  · rintro ⟨⟨left, rfl⟩, ⟨right, same⟩, equal⟩
    rw [rank_sortedAuthEntries, ← same, rank_sortedRequestEntries] at equal
    exact ⟨⟨left, right, same.symm, equal⟩, rfl⟩
  · rintro ⟨⟨left, right, same, equal⟩, rfl⟩
    refine ⟨⟨left, rfl⟩, ⟨right, same.symm⟩, ?_⟩
    rw [rank_sortedAuthEntries, equal, same, rank_sortedRequestEntries]

theorem mem_tokenIds {tokenId : String} :
    tokenId ∈ tokenIds authLogs requestLogs ↔
      (∃ log ∈ authLogs, log.tokenId = tokenId) ∨ ∃ log ∈ requestLogs, log.tokenId = tokenId := by
  unfold tokenIds
  rw [List.mem_insertionSort, List.mem_dedup, List.mem_append, MultiMap.mem_keys_iff,
    MultiMap.mem_keys_iff, authByToken, requestByToken, MultiMap.getAll_foldl_append,
    MultiMap.getAll_foldl_append]
  simp

theorem tokenIds_nodup : (tokenIds authLogs requestLogs).Nodup :=
  (List.perm_insertionSort _ _).nodup_iff.2 (List.nodup_dedup _)

end

/-! ### The loops -/

/-- The loop goes through all pairs, or ends at the first that is too far apart. -/
theorem tokenCandidates_cases (tokenId : String)
    (pairs : List (SearchAuthLog × SearchRequestLog)) :
    (tokenCandidates tokenId pairs =
        .ok ((pairs.filter fun pair => pair.1.Unbilled).map (repairCandidate tokenId)) ∧
      ∀ pair ∈ pairs, skew pair ≤ maxLogSkewSecs) ∨
    ∃ before pair after, pairs = before ++ pair :: after ∧
      (∀ near ∈ before, skew near ≤ maxLogSkewSecs) ∧ maxLogSkewSecs < skew pair ∧
      tokenCandidates tokenId pairs = .error (skewReason pair.1.id pair.2.id (skew pair)) := by
  induction pairs with
  | nil => exact Or.inl ⟨rfl, by simp⟩
  | cons pair rest ih =>
      unfold tokenCandidates
      by_cases far : skew pair > maxLogSkewSecs
      · rw [if_pos far]
        exact Or.inr ⟨[], pair, rest, rfl, by simp, far, rfl⟩
      · rw [if_neg far]
        have near : skew pair ≤ maxLogSkewSecs := not_lt.1 far
        rcases ih with ⟨ran, all⟩ | ⟨before, last, after, rfl, all, late, ran⟩
        · refine Or.inl ⟨?_, List.forall_mem_cons.2 ⟨near, all⟩⟩
          rw [ran, List.filter_cons]
          by_cases unbilled : pair.1.Unbilled
          · simp [Except.map, unbilled]
          · simp [Except.map, unbilled]
        · refine Or.inr ⟨pair :: before, last, after, rfl,
            List.forall_mem_cons.2 ⟨near, all⟩, late, ?_⟩
          rw [ran]
          rfl

/-- What a token is skipped for. -/
inductive SkipCause (authEntries : List SearchAuthLog) (requestEntries : List SearchRequestLog) :
    String → Prop where
  | counts (differ : authEntries.length ≠ requestEntries.length) :
      SkipCause authEntries requestEntries "search auth/request log counts differ"
  | skewed {before after : List (SearchAuthLog × SearchRequestLog)}
      {pair : SearchAuthLog × SearchRequestLog}
      (same : authEntries.length = requestEntries.length)
      (first : authEntries.zip requestEntries = before ++ pair :: after)
      (near : ∀ earlier ∈ before, skew earlier ≤ maxLogSkewSecs)
      (far : maxLogSkewSecs < skew pair) :
      SkipCause authEntries requestEntries (skewReason pair.1.id pair.2.id (skew pair))

theorem pairTokenLogs_cases (tokenId : String) (authEntries : List SearchAuthLog)
    (requestEntries : List SearchRequestLog) :
    (pairTokenLogs tokenId authEntries requestEntries =
        .ok (((authEntries.zip requestEntries).filter fun pair => pair.1.Unbilled).map
          (repairCandidate tokenId)) ∧
      authEntries.length = requestEntries.length ∧
      ∀ pair ∈ authEntries.zip requestEntries, skew pair ≤ maxLogSkewSecs) ∨
    ∃ reason, SkipCause authEntries requestEntries reason ∧
      pairTokenLogs tokenId authEntries requestEntries =
        .error
          { tokenId, authLogCount := authEntries.length,
            requestLogCount := requestEntries.length, reason } := by
  unfold pairTokenLogs
  by_cases differ : authEntries.length ≠ requestEntries.length
  · rw [if_pos differ]
    exact Or.inr ⟨_, .counts differ, rfl⟩
  · rw [if_neg differ]
    have same := not_not.1 differ
    rcases tokenCandidates_cases tokenId (authEntries.zip requestEntries) with
      ⟨ran, all⟩ | ⟨before, pair, after, split, near, far, ran⟩
    · rw [ran]
      exact Or.inl ⟨rfl, same, all⟩
    · rw [ran]
      exact Or.inr ⟨_, .skewed same split near far, rfl⟩

section

variable {pairToken : String → Except RepairSkippedToken (List RepairCandidate)}

theorem mem_pairTokens_candidates {tokens : List String} {candidate : RepairCandidate} :
    candidate ∈ (pairTokens pairToken tokens).1 ↔
      ∃ tokenId ∈ tokens, ∃ paired, pairToken tokenId = .ok paired ∧ candidate ∈ paired := by
  induction tokens with
  | nil => simp [pairTokens]
  | cons tokenId rest ih =>
      unfold pairTokens
      cases answer : pairToken tokenId with
      | ok paired => simp [answer, ih]
      | error skipped => simp [answer, ih]

theorem mem_pairTokens_skipped {tokens : List String} {skipped : RepairSkippedToken} :
    skipped ∈ (pairTokens pairToken tokens).2 ↔
      ∃ tokenId ∈ tokens, pairToken tokenId = .error skipped := by
  induction tokens with
  | nil => simp [pairTokens]
  | cons tokenId rest ih =>
      unfold pairTokens
      cases answer : pairToken tokenId with
      | ok paired => simp [answer, ih]
      | error cause => simp [answer, ih, eq_comm]

/-- What no token has twice, and no two tokens share, nobody has twice. -/
theorem nodup_pairTokens {β : Type} (f : RepairCandidate → β) {tokens : List String}
    (distinct : tokens.Nodup)
    (once : ∀ tokenId paired, pairToken tokenId = .ok paired → (paired.map f).Nodup)
    (apart : ∀ tokenId paired one, pairToken tokenId = .ok paired → one ∈ paired →
      ∀ tokenId' paired' two, pairToken tokenId' = .ok paired' → two ∈ paired' →
        f one = f two → tokenId = tokenId') :
    ((pairTokens pairToken tokens).1.map f).Nodup := by
  induction tokens with
  | nil => exact List.nodup_nil
  | cons tokenId rest ih =>
      rw [List.nodup_cons] at distinct
      have others := ih distinct.2
      unfold pairTokens
      cases answer : pairToken tokenId with
      | error cause => exact others
      | ok paired =>
          simp only [List.map_append]
          refine List.nodup_append.2 ⟨once tokenId paired answer, others, ?_⟩
          intro key left key' right same
          subst same
          obtain ⟨one, member, rfl⟩ := List.mem_map.1 left
          obtain ⟨two, later, equal⟩ := List.mem_map.1 right
          obtain ⟨tokenId', inside, paired', answer', member'⟩ := mem_pairTokens_candidates.1 later
          have same :=
            apart tokenId paired one answer member tokenId' paired' two answer' member' equal.symm
          exact distinct.1 (same ▸ inside)

end

/-! ### The candidates -/

/-- The two logs of the token do not pair up. -/
def Unpairable (authLogs : List SearchAuthLog) (requestLogs : List SearchRequestLog)
    (tokenId : String) : Prop :=
  (tokenAuthLogs authLogs tokenId).length ≠ (tokenRequestLogs requestLogs tokenId).length ∨
    ∃ pair, Counterparts authLogs requestLogs pair ∧ pair.1.tokenId = tokenId ∧
      maxLogSkewSecs < skew pair

/-- What the candidates and the skipped tokens are, for two logs. -/
structure Pairing (authLogs : List SearchAuthLog) (requestLogs : List SearchRequestLog)
    (candidates : List RepairCandidate) (skippedTokens : List RepairSkippedToken) : Prop where
  /-- The candidates are the unbilled searches of the tokens that pair up, each with the
  request of its rank. -/
  paired : ∀ candidate, candidate ∈ candidates ↔ ∃ pair, Counterparts authLogs requestLogs pair ∧
    pair.1.Unbilled ∧ ¬ Unpairable authLogs requestLogs pair.1.tokenId ∧
      candidate = repairCandidate pair.1.tokenId pair
  /-- There every search has a request, and every request a search. -/
  covered : ∀ log ∈ authLogs, ¬ Unpairable authLogs requestLogs log.tokenId →
    ∃ requestLog, Counterparts authLogs requestLogs (log, requestLog)
  covered' : ∀ log ∈ requestLogs, ¬ Unpairable authLogs requestLogs log.tokenId →
    ∃ authLog, Counterparts authLogs requestLogs (authLog, log)
  authOnce : (candidates.map RepairCandidate.authLogId).Nodup
  requestOnce : (candidates.map RepairCandidate.requestLogId).Nodup
  skipped : ∀ tokenId, tokenId ∈ skippedTokens.map RepairSkippedToken.tokenId ↔
    Unpairable authLogs requestLogs tokenId

section

variable {authLogs : List SearchAuthLog} {requestLogs : List SearchRequestLog}

theorem length_sortedAuthEntries (tokenId : String) :
    (sortedAuthEntries authLogs tokenId).length = (tokenAuthLogs authLogs tokenId).length := by
  rw [sortedAuthEntries_eq, List.length_insertionSort]

theorem length_sortedRequestEntries (tokenId : String) :
    (sortedRequestEntries requestLogs tokenId).length =
      (tokenRequestLogs requestLogs tokenId).length := by
  rw [sortedRequestEntries_eq, List.length_insertionSort]

/-- A token that does not pair up has a log. -/
theorem Unpairable.mem_tokenIds {tokenId : String}
    (unpairable : Unpairable authLogs requestLogs tokenId) :
    tokenId ∈ tokenIds authLogs requestLogs := by
  rw [SearchBilling.mem_tokenIds]
  rcases unpairable with differ | ⟨pair, ⟨left, _⟩, same, _⟩
  · by_contra none
    rw [not_or] at none
    apply differ
    have noAuth : tokenAuthLogs authLogs tokenId = [] := by
      simpa [tokenAuthLogs] using none.1
    have noRequest : tokenRequestLogs requestLogs tokenId = [] := by
      simpa [tokenRequestLogs] using none.2
    rw [noAuth, noRequest]
    rfl
  · exact Or.inl ⟨pair.1, left, same⟩

/-- The loop over the pairs of a token finds candidates exactly where its logs pair up. -/
theorem pairTokenLogs_eq (distinct : (authLogs.map SearchAuthLog.id).Nodup)
    (distinct' : (requestLogs.map SearchRequestLog.id).Nodup) (tokenId : String) :
    (¬ Unpairable authLogs requestLogs tokenId ∧
      pairTokenLogs tokenId (sortedAuthEntries authLogs tokenId)
          (sortedRequestEntries requestLogs tokenId) =
        .ok ((((sortedAuthEntries authLogs tokenId).zip
          (sortedRequestEntries requestLogs tokenId)).filter fun pair => pair.1.Unbilled).map
            (repairCandidate tokenId))) ∨
    (Unpairable authLogs requestLogs tokenId ∧ ∃ skipped,
      pairTokenLogs tokenId (sortedAuthEntries authLogs tokenId)
          (sortedRequestEntries requestLogs tokenId) = .error skipped ∧
        skipped.tokenId = tokenId) := by
  rcases pairTokenLogs_cases tokenId (sortedAuthEntries authLogs tokenId)
    (sortedRequestEntries requestLogs tokenId) with ⟨ran, same, near⟩ | ⟨reason, cause, ran⟩
  · refine Or.inl ⟨?_, ran⟩
    rw [length_sortedAuthEntries, length_sortedRequestEntries] at same
    rintro (differ | ⟨pair, counterparts, owner, far⟩)
    · exact differ same
    · exact absurd (near pair ((mem_pairs distinct distinct').2 ⟨counterparts, owner⟩))
        (not_le.2 far)
  · refine Or.inr ⟨?_, _, ran, rfl⟩
    cases cause with
    | counts differ =>
        rw [length_sortedAuthEntries, length_sortedRequestEntries] at differ
        exact Or.inl differ
    | @skewed before after pair same split near far =>
        have member : pair ∈ (sortedAuthEntries authLogs tokenId).zip
            (sortedRequestEntries requestLogs tokenId) := by
          rw [split]
          simp
        obtain ⟨counterparts, owner⟩ := (mem_pairs distinct distinct').1 member
        exact Or.inr ⟨pair, counterparts, owner, far⟩

/-- A member of a list of a token that pairs up has its counterpart in the other list. -/
theorem exists_mem_zip {α β : Type} {l : List α} {m : List β} (same : l.length = m.length) :
    (∀ a ∈ l, ∃ b, (a, b) ∈ l.zip m) ∧ ∀ b ∈ m, ∃ a, (a, b) ∈ l.zip m := by
  constructor
  · intro a member
    rw [← List.map_fst_zip (Nat.le_of_eq same)] at member
    obtain ⟨pair, inside, rfl⟩ := List.mem_map.1 member
    exact ⟨pair.2, inside⟩
  · intro b member
    rw [← List.map_snd_zip (Nat.le_of_eq same.symm)] at member
    obtain ⟨pair, inside, rfl⟩ := List.mem_map.1 member
    exact ⟨pair.1, inside⟩

theorem length_eq_of_pairable {tokenId : String}
    (pairable : ¬ Unpairable authLogs requestLogs tokenId) :
    (sortedAuthEntries authLogs tokenId).length =
      (sortedRequestEntries requestLogs tokenId).length := by
  rw [length_sortedAuthEntries, length_sortedRequestEntries]
  by_contra differ
  exact pairable (Or.inl differ)

theorem buildCandidates_pairing (distinct : (authLogs.map SearchAuthLog.id).Nodup)
    (distinct' : (requestLogs.map SearchRequestLog.id).Nodup) :
    Pairing authLogs requestLogs (buildCandidates authLogs requestLogs).1
      (buildCandidates authLogs requestLogs).2 := by
  -- What a token contributes, in the words of the pairs.
  have contributed : ∀ {tokenId paired}, pairTokenLogs tokenId (sortedAuthEntries authLogs tokenId)
      (sortedRequestEntries requestLogs tokenId) = .ok paired →
      ¬ Unpairable authLogs requestLogs tokenId ∧
        paired = (((sortedAuthEntries authLogs tokenId).zip
          (sortedRequestEntries requestLogs tokenId)).filter fun pair => pair.1.Unbilled).map
            (repairCandidate tokenId) := by
    intro tokenId paired ran
    rcases pairTokenLogs_eq distinct distinct' tokenId with ⟨pairable, same⟩ | ⟨_, _, failed, _⟩
    · rw [same] at ran
      cases ran
      exact ⟨pairable, rfl⟩
    · rw [failed] at ran
      cases ran
  have found : ∀ {tokenId paired candidate}, pairTokenLogs tokenId
      (sortedAuthEntries authLogs tokenId) (sortedRequestEntries requestLogs tokenId) = .ok paired →
      candidate ∈ paired → ∃ pair, Counterparts authLogs requestLogs pair ∧
        pair.1.Unbilled ∧ pair.1.tokenId = tokenId ∧
        candidate = repairCandidate tokenId pair := by
    intro tokenId paired candidate ran member
    obtain ⟨_, rfl⟩ := contributed ran
    obtain ⟨pair, inside, rfl⟩ := List.mem_map.1 member
    obtain ⟨inside, unbilled⟩ := List.mem_filter.1 inside
    obtain ⟨counterparts, owner⟩ := (mem_pairs distinct distinct').1 inside
    exact ⟨pair, counterparts, of_decide_eq_true unbilled, owner, rfl⟩
  constructor
  case paired =>
    intro candidate
    unfold buildCandidates
    rw [mem_pairTokens_candidates]
    constructor
    · rintro ⟨tokenId, _, paired, ran, member⟩
      obtain ⟨pair, counterparts, unbilled, rfl, rfl⟩ := found ran member
      exact ⟨pair, counterparts, unbilled, (contributed ran).1, rfl⟩
    · rintro ⟨pair, counterparts, unbilled, pairable, rfl⟩
      refine ⟨pair.1.tokenId, mem_tokenIds.2 (Or.inl ⟨pair.1, counterparts.1, rfl⟩), ?_⟩
      rcases pairTokenLogs_eq distinct distinct' pair.1.tokenId with ⟨_, same⟩ | ⟨unpairable, _⟩
      · refine ⟨_, same, List.mem_map.2 ⟨pair, List.mem_filter.2 ⟨?_, decide_eq_true unbilled⟩, rfl⟩⟩
        exact (mem_pairs distinct distinct').2 ⟨counterparts, rfl⟩
      · exact absurd unpairable pairable
  case covered =>
    intro log member pairable
    obtain ⟨requestLog, inside⟩ := (exists_mem_zip (length_eq_of_pairable pairable)).1 log
      (mem_sortedAuthEntries.2 ⟨member, rfl⟩)
    exact ⟨requestLog, ((mem_pairs distinct distinct').1 inside).1⟩
  case covered' =>
    intro log member pairable
    obtain ⟨authLog, inside⟩ := (exists_mem_zip (length_eq_of_pairable pairable)).2 log
      (mem_sortedRequestEntries.2 ⟨member, rfl⟩)
    exact ⟨authLog, ((mem_pairs distinct distinct').1 inside).1⟩
  case authOnce =>
    refine nodup_pairTokens _ tokenIds_nodup ?_ ?_
    · intro tokenId paired ran
      obtain ⟨pairable, rfl⟩ := contributed ran
      rw [List.map_map]
      have ids : (((sortedAuthEntries authLogs tokenId).zip
          (sortedRequestEntries requestLogs tokenId)).map fun pair => pair.1.id).Nodup := by
        have entries : ((sortedAuthEntries authLogs tokenId).map SearchAuthLog.id).Nodup := by
          rw [sortedAuthEntries_eq, ((List.perm_insertionSort _ _).map _).nodup_iff]
          exact distinct.sublist (List.filter_sublist.map _)
        rw [← List.map_fst_zip (Nat.le_of_eq (length_eq_of_pairable pairable)),
          List.map_map] at entries
        exact entries
      exact ids.sublist (List.filter_sublist.map _)
    · intro tokenId paired one ran member tokenId' paired' two ran' member' same
      obtain ⟨pair, counterparts, _, rfl, rfl⟩ := found ran member
      obtain ⟨pair', counterparts', _, rfl, rfl⟩ := found ran' member'
      rw [List.inj_on_of_nodup_map distinct counterparts.1 counterparts'.1 same]
  case requestOnce =>
    refine nodup_pairTokens _ tokenIds_nodup ?_ ?_
    · intro tokenId paired ran
      obtain ⟨pairable, rfl⟩ := contributed ran
      rw [List.map_map]
      have ids : (((sortedAuthEntries authLogs tokenId).zip
          (sortedRequestEntries requestLogs tokenId)).map fun pair => pair.2.id).Nodup := by
        have entries : ((sortedRequestEntries requestLogs tokenId).map SearchRequestLog.id).Nodup := by
          rw [sortedRequestEntries_eq, ((List.perm_insertionSort _ _).map _).nodup_iff]
          exact distinct'.sublist (List.filter_sublist.map _)
        rw [← List.map_snd_zip (Nat.le_of_eq (length_eq_of_pairable pairable).symm),
          List.map_map] at entries
        exact entries
      exact ids.sublist (List.filter_sublist.map _)
    · intro tokenId paired one ran member tokenId' paired' two ran' member' same
      obtain ⟨pair, counterparts, _, rfl, rfl⟩ := found ran member
      obtain ⟨pair', counterparts', _, rfl, rfl⟩ := found ran' member'
      rw [counterparts.2.2.1, counterparts'.2.2.1,
        List.inj_on_of_nodup_map distinct' counterparts.2.1 counterparts'.2.1 same]
  case skipped =>
    intro tokenId
    rw [List.mem_map]
    unfold buildCandidates
    simp only [mem_pairTokens_skipped]
    constructor
    · rintro ⟨skipped, ⟨owner, _, failed⟩, rfl⟩
      rcases pairTokenLogs_eq distinct distinct' owner with ⟨_, ran⟩ | ⟨unpairable, _, ran, named⟩
      · rw [ran] at failed
        cases failed
      · rw [ran] at failed
        cases failed
        rw [named]
        exact unpairable
    · intro unpairable
      rcases pairTokenLogs_eq distinct distinct' tokenId with ⟨pairable, _⟩ | ⟨_, skipped, ran, named⟩
      · exact absurd unpairable pairable
      · exact ⟨skipped, ⟨tokenId, unpairable.mem_tokenIds, ran⟩, named⟩

end

/-! ### From the tables -/

/-- The row of the token log is a search in the scope that went well. -/
def IsSearch (sources : RepairSources) (scope : RepairScope) (id : Int) (row : AuthTokenLog) :
    Prop :=
  sources.requestKindKey id = some "mcp:search" ∧ row.resultStatus = "success" ∧
    row.httpStatus = some 200 ∧ scope.selects row.tokenId row.createdAt.secs = true

/-- The row of the request log is a call of the search tool in the scope that went well. -/
def IsSearchRequest (sources : RepairSources) (scope : RepairScope) (tokenId : String)
    (columns : SearchRequestColumns) (credits : Int) : Prop :=
  columns.resultStatus = "success" ∧ columns.statusCode = some 200 ∧
    likePrefix "/mcp" columns.path = true ∧ columns.authTokenId = some tokenId ∧
    scope.selects tokenId columns.createdAt = true ∧
    ∃ body, columns.requestBody.or sources.nullBody = some body ∧
      expectedSearchCreditsFromRequestBody sources.json body = some credits

/-- A search costs something. -/
theorem expectedSearchCredits_pos {json : SerdeJson} {bytes : ByteArray} {credits : Int}
    (expected : expectedSearchCreditsFromRequestBody json bytes = some credits) :
    credits = 1 ∨ credits = 2 := by
  unfold expectedSearchCreditsFromRequestBody at expected
  simp only [Option.bind_eq_bind, Option.bind_eq_some_iff] at expected
  obtain ⟨payload, _, expected⟩ := expected
  split at expected
  · simp only [Option.bind_eq_some_iff] at expected
    obtain ⟨params, _, name, _, expected⟩ := expected
    split at expected
    · split at expected
      · cases expected
        exact Or.inr rfl
      · cases expected
        exact Or.inl rfl
    · cases expected
  · cases expected

section

variable {sources : RepairSources} {scope : RepairScope} {db : BillingDb}

theorem mem_loadSearchAuthLogs {log : SearchAuthLog} :
    log ∈ loadSearchAuthLogs sources scope db ↔
      ∃ row, db.authTokenLogs.find log.id = some row ∧ IsSearch sources scope log.id row ∧
        log = searchAuthLog log.id row := by
  unfold loadSearchAuthLogs IsSearch
  simp only [List.mem_insertionSort, List.mem_map, List.mem_filter, Bool.and_eq_true,
    decide_eq_true_eq]
  constructor
  · rintro ⟨⟨id, row⟩, ⟨member, ⟨⟨kind, result⟩, status⟩, selected⟩, rfl⟩
    exact ⟨row, KeyedTable.find_eq_some_iff.2 member, ⟨kind, result, status, selected⟩, rfl⟩
  · rintro ⟨row, found, ⟨kind, result, status, selected⟩, same⟩
    exact ⟨(log.id, row), ⟨KeyedTable.find_eq_some_iff.1 found,
      ⟨⟨kind, result⟩, status⟩, selected⟩, same.symm⟩

theorem loadSearchAuthLogs_distinct :
    ((loadSearchAuthLogs sources scope db).map SearchAuthLog.id).Nodup := by
  unfold loadSearchAuthLogs
  rw [((List.perm_insertionSort _ _).map _).nodup_iff, List.map_map]
  exact db.authTokenLogs.table.distinct.sublist (List.filter_sublist.map _)

theorem searchRequestLog_eq_some {id : Int} {columns : SearchRequestColumns}
    {log : SearchRequestLog} :
    searchRequestLog sources id columns = some (some log) ↔
      ∃ body, columns.requestBody.or sources.nullBody = some body ∧
        ∃ credits, expectedSearchCreditsFromRequestBody sources.json body = some credits ∧
          log = { id, tokenId := columns.authTokenId.getD "", createdAt := columns.createdAt,
                  credits } := by
  unfold searchRequestLog
  simp only [Option.bind_eq_bind, Option.bind_eq_some_iff, Option.some.injEq,
    Option.map_eq_some_iff, eq_comm (b := log)]

/-- The request logs are the calls of the search tool among the chosen rows. -/
theorem loadSearchRequestLogs_eq {requestLogs : List SearchRequestLog}
    (loaded : loadSearchRequestLogs sources scope = some requestLogs) :
    ∃ chosen : List (Int × SearchRequestColumns), (chosen.map Prod.fst).Nodup ∧
      (∀ row, row ∈ chosen ↔ sources.requestLogs.find row.1 = some row.2 ∧
        row.2.resultStatus = "success" ∧ row.2.statusCode = some 200 ∧
          likePrefix "/mcp" row.2.path = true ∧ row.2.authTokenId.isSome = true ∧
            scope.selects (row.2.authTokenId.getD "") row.2.createdAt = true) ∧
      requestLogs = chosen.filterMap fun row =>
        (searchRequestLog sources row.1 row.2).join := by
  unfold loadSearchRequestLogs at loaded
  rw [Option.map_eq_some_iff] at loaded
  obtain ⟨logs, read, rfl⟩ := loaded
  refine ⟨_, ?_, ?_, reduceOption_of_mapM read⟩
  · rw [((List.perm_insertionSort _ _).map _).nodup_iff]
    exact sources.requestLogs.distinct.sublist (List.filter_sublist.map _)
  · rintro ⟨id, columns⟩
    simp only [List.mem_insertionSort, List.mem_filter, Bool.and_eq_true, decide_eq_true_eq,
      KeyedTable.find_eq_some_iff, and_assoc]

theorem mem_loadSearchRequestLogs {requestLogs : List SearchRequestLog}
    (loaded : loadSearchRequestLogs sources scope = some requestLogs) {log : SearchRequestLog} :
    log ∈ requestLogs ↔
      ∃ columns, sources.requestLogs.find log.id = some columns ∧
        IsSearchRequest sources scope log.tokenId columns log.credits ∧
        log.createdAt = columns.createdAt := by
  obtain ⟨chosen, _, rows, rfl⟩ := loadSearchRequestLogs_eq loaded
  simp only [List.mem_filterMap, Option.join_eq_some_iff, searchRequestLog_eq_some, rows]
  constructor
  · rintro ⟨⟨id, columns⟩, ⟨found, result, status, path, owned, selected⟩, body, there, credits,
      expected, rfl⟩
    obtain ⟨tokenId, owner⟩ := Option.isSome_iff_exists.1 owned
    simp only at owner selected
    simp only [owner, Option.getD_some] at selected ⊢
    exact ⟨columns, found, ⟨result, status, path, owner, selected, body, there, expected⟩, rfl⟩
  · rintro ⟨columns, found, ⟨result, status, path, owner, selected, body, there, expected⟩, time⟩
    refine ⟨(log.id, columns), ⟨found, result, status, path, ?_, ?_⟩, body, there, log.credits,
      expected, ?_⟩
    · simp [owner]
    · simpa [owner] using selected
    · simp [owner, ← time]

theorem loadSearchRequestLogs_distinct {requestLogs : List SearchRequestLog}
    (loaded : loadSearchRequestLogs sources scope = some requestLogs) :
    (requestLogs.map SearchRequestLog.id).Nodup := by
  obtain ⟨chosen, distinct, _, rfl⟩ := loadSearchRequestLogs_eq loaded
  refine distinct.sublist (map_filterMap_sublist ?_ chosen)
  intro row log picked
  rw [Option.join_eq_some_iff, searchRequestLog_eq_some] at picked
  obtain ⟨_, _, _, _, rfl⟩ := picked
  rfl

theorem pairing_of_loadCandidates {candidates : List RepairCandidate}
    {skippedTokens : List RepairSkippedToken}
    (loaded : loadCandidates sources scope db = some (candidates, skippedTokens)) :
    ∃ requestLogs, loadSearchRequestLogs sources scope = some requestLogs ∧
      Pairing (loadSearchAuthLogs sources scope db) requestLogs candidates skippedTokens := by
  unfold loadCandidates at loaded
  rw [Option.map_eq_some_iff] at loaded
  obtain ⟨requestLogs, read, built⟩ := loaded
  have distinct : ((loadSearchAuthLogs sources scope db).map SearchAuthLog.id).Nodup :=
    loadSearchAuthLogs_distinct
  have pairing := buildCandidates_pairing distinct (loadSearchRequestLogs_distinct read)
  rw [built] at pairing
  exact ⟨requestLogs, read, pairing⟩

/-- What a candidate rests on: an unbilled search and a request of its token within reach. -/
theorem listed_of_loadCandidates {candidates : List RepairCandidate}
    {skippedTokens : List RepairSkippedToken}
    (loaded : loadCandidates sources scope db = some (candidates, skippedTokens))
    {candidate : RepairCandidate} (member : candidate ∈ candidates) :
    ∃ row columns, db.authTokenLogs.find candidate.authLogId = some row ∧
      IsSearch sources scope candidate.authLogId row ∧ Unbilled row ∧
      row.tokenId = candidate.tokenId ∧
      sources.requestLogs.find candidate.requestLogId = some columns ∧
      IsSearchRequest sources scope candidate.tokenId columns candidate.credits ∧
      |row.createdAt.secs - columns.createdAt| ≤ maxLogSkewSecs ∧ 0 < candidate.credits := by
  obtain ⟨requestLogs, read, pairing⟩ := pairing_of_loadCandidates loaded
  obtain ⟨⟨authLog, requestLog⟩, counterparts, unbilled, pairable, rfl⟩ :=
    (pairing.paired candidate).1 member
  obtain ⟨row, found, search, same⟩ := mem_loadSearchAuthLogs.1 counterparts.1
  obtain ⟨columns, found', request, time⟩ := (mem_loadSearchRequestLogs read).1 counterparts.2.1
  have owner : authLog.tokenId = requestLog.tokenId := counterparts.2.2.1
  have near : skew (authLog, requestLog) ≤ maxLogSkewSecs := by
    by_contra far
    exact pairable (Or.inr ⟨_, counterparts, rfl, not_le.1 far⟩)
  have costs : requestLog.credits = 1 ∨ requestLog.credits = 2 := by
    obtain ⟨_, _, _, _, _, body, _, expected⟩ := request
    exact expectedSearchCredits_pos expected
  unfold skew at near
  rw [time, same] at near
  refine ⟨row, columns, found, search, ?_, ?_, found', ?_, near, ?_⟩
  · rw [same] at unbilled
    exact unbilled
  · rw [same]
    rfl
  · rw [show (repairCandidate authLog.tokenId (authLog, requestLog)).tokenId = _ from owner]
    exact request
  · rcases costs with cost | cost <;> simp [repairCandidate, cost]

/-- The repair bills what it can match. Its candidates are the unbilled searches of the tokens
whose two logs pair up, each with the credits of the request of its own rank, at most 30 seconds
away; no row of either log serves twice; and a token is skipped exactly where its logs differ in
number or two of one rank are further apart. -/
theorem loadCandidates_pairs {candidates : List RepairCandidate}
    {skippedTokens : List RepairSkippedToken}
    (loaded : loadCandidates sources scope db = some (candidates, skippedTokens)) :
    (∃ requestLogs, loadSearchRequestLogs sources scope = some requestLogs ∧
      Pairing (loadSearchAuthLogs sources scope db) requestLogs candidates skippedTokens) ∧
    ∀ candidate ∈ candidates, ∃ row columns,
      db.authTokenLogs.find candidate.authLogId = some row ∧
      IsSearch sources scope candidate.authLogId row ∧ Unbilled row ∧
      row.tokenId = candidate.tokenId ∧
      sources.requestLogs.find candidate.requestLogId = some columns ∧
      IsSearchRequest sources scope candidate.tokenId columns candidate.credits ∧
      |row.createdAt.secs - columns.createdAt| ≤ maxLogSkewSecs ∧ 0 < candidate.credits :=
  ⟨pairing_of_loadCandidates loaded, fun _ member => listed_of_loadCandidates loaded member⟩

end

/-! ### Searches that were never billed -/

/-- The call of a search at one of the two depths. -/
def searchText (depth : String) : String :=
  "\x7b\"method\":\"tools/call\",\"params\":\x7b\"name\":\"tavily_search\",\"arguments\":" ++
    "\x7b\"search_depth\":\"" ++ depth ++ "\"\x7d\x7d\x7d"

def searchBody (depth : String) : JsonValue :=
  .object [("method", .string "tools/call"),
    ("params", .object [("name", .string "tavily_search"),
      ("arguments", .object [("search_depth", .string depth)])])]

def searchColumns (depth : String) (createdAt : Int) : SearchRequestColumns where
  resultStatus := "success"
  statusCode := some 200
  path := "/mcp"
  authTokenId := some "t"
  createdAt
  requestBody := some (searchText depth).toUTF8

def searchSources : RepairSources where
  json := .ofDocuments
    [(searchText "advanced", searchBody "advanced"), (searchText "basic", searchBody "basic")]
  requestKindKey := fun _ => some "mcp:search"
  requestLogs :=
    (KeyedTable.empty.upsert 7 (searchColumns "advanced" 3) id).upsert 8
      (searchColumns "basic" 25) id
  nullBody := none

def searchRow (tokenId : String) (createdAt : UtcTimestamp) : AuthTokenLog where
  tokenId
  httpStatus := some 200
  mcpStatus := none
  resultStatus := "success"
  errorMessage := none
  countsBusinessQuota := 1
  businessCredits := none
  billingSubject := none
  billingState := billingStateNone
  apiKeyId := none
  requestLogId := none
  createdAt

def laterSearch : UtcTimestamp := ⟨20, by decide⟩

/-- Two searches of one token, and one of a token without requests. -/
def searchDb : BillingDb :=
  { BillingDb.empty with
    authTokenLogs :=
      ((AutoIncrement.empty.insert (searchRow "t" default)).insert (searchRow "u" default)).insert
        (searchRow "t" laterSearch) }

def wholeScope : RepairScope := { fromTs := 0, toTs := 60, tokenId := none }

/-- Each search of the one token has the request of its rank. -/
def searchCandidates : List RepairCandidate :=
  [{ authLogId := 1, requestLogId := 7, tokenId := "t", createdAt := 0, credits := 2 },
    { authLogId := 3, requestLogId := 8, tokenId := "t", createdAt := 20, credits := 1 }]

def unpairedToken : RepairSkippedToken where
  tokenId := "u"
  authLogCount := 1
  requestLogCount := 0
  reason := "search auth/request log counts differ"

theorem expectedSearchCredits_advanced :
    expectedSearchCreditsFromRequestBody searchSources.json (searchText "advanced").toUTF8 =
      some 2 := by
  unfold expectedSearchCreditsFromRequestBody searchSources
  rw [SerdeJson.fromSlice_ofDocuments]
  decide +kernel

theorem expectedSearchCredits_basic :
    expectedSearchCreditsFromRequestBody searchSources.json (searchText "basic").toUTF8 =
      some 1 := by
  unfold expectedSearchCreditsFromRequestBody searchSources
  rw [SerdeJson.fromSlice_ofDocuments]
  decide +kernel

theorem loadCandidates_searchDb :
    loadCandidates searchSources wholeScope searchDb =
      some (searchCandidates, [unpairedToken]) := by
  have first : searchRequestLog searchSources 7 (searchColumns "advanced" 3) =
      some (some { id := 7, tokenId := "t", createdAt := 3, credits := 2 }) :=
    searchRequestLog_eq_some.2 ⟨_, rfl, 2, expectedSearchCredits_advanced, rfl⟩
  have second : searchRequestLog searchSources 8 (searchColumns "basic" 25) =
      some (some { id := 8, tokenId := "t", createdAt := 25, credits := 1 }) :=
    searchRequestLog_eq_some.2 ⟨_, rfl, 1, expectedSearchCredits_basic, rfl⟩
  have chosen : loadSearchRequestLogs searchSources wholeScope =
      ([((7 : Int), searchColumns "advanced" 3), (8, searchColumns "basic" 25)].mapM fun row =>
        searchRequestLog searchSources row.1 row.2).map List.reduceOption := rfl
  have loaded : loadSearchRequestLogs searchSources wholeScope =
      some [{ id := 7, tokenId := "t", createdAt := 3, credits := 2 },
        { id := 8, tokenId := "t", createdAt := 25, credits := 1 }] := by
    rw [chosen]
    simp [first, second, List.reduceOption_cons_of_some]
  unfold loadCandidates
  rw [loaded]
  decide +kernel

theorem loadCandidates_pairs_searchDb :
    loadCandidates searchSources wholeScope searchDb =
        some (searchCandidates, [unpairedToken]) ∧
      ∃ requestLogs, loadSearchRequestLogs searchSources wholeScope = some requestLogs ∧
        Pairing (loadSearchAuthLogs searchSources wholeScope searchDb) requestLogs
          searchCandidates [unpairedToken] :=
  ⟨loadCandidates_searchDb, (loadCandidates_pairs loadCandidates_searchDb).1⟩

end TavilyHikari.Bin.SearchBilling
