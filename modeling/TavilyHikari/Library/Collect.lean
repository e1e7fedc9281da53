/-
Module: TavilyHikari.Library.Collect
Purpose: Tables filled from a list of entries, the values of one key merged into
  one: what is found under a key depends on the values of that key only, and for a
  maximum or a disjunction only on which values there are.
Trusted boundary: none
Main exports: mergeAll, valuesOf, collect, find_collect, max?_congr, rows_perm,
  valuesOf_insertionSort, find_upsertAll_replace, find_upsertAll_keep, total_collect
-/
import Mathlib.Data.List.Dedup
import TavilyHikari.Library.Int64
import TavilyHikari.Library.KeyedTable

namespace TavilyHikari.Library

universe u v w

variable {κ : Type u} {α : Type v} {β : Type w}

/-! ### Merging -/

/-- The values of a list merged into one, from the left. -/
def mergeAll (merge : α → α → α) : List α → Option α
  | [] => none
  | a :: rest => some (rest.foldl merge a)

@[simp] theorem mergeAll_nil (merge : α → α → α) : mergeAll merge [] = none := rfl

@[simp] theorem mergeAll_singleton (merge : α → α → α) (a : α) : mergeAll merge [a] = some a := rfl

theorem mergeAll_eq_none_iff {merge : α → α → α} {values : List α} :
    mergeAll merge values = none ↔ values = [] := by
  cases values with
  | nil => simp
  | cons a rest => simp [mergeAll]

theorem mergeAll_max (values : List Int) : mergeAll max values = values.max? := by
  cases values with
  | nil => rfl
  | cons a rest => rfl

theorem mergeAll_min (values : List Int) : mergeAll min values = values.min? := by
  cases values with
  | nil => rfl
  | cons a rest => rfl

theorem foldl_add (values : List Int) (start : Int) :
    values.foldl (· + ·) start = start + values.sum := by
  induction values generalizing start with
  | nil => simp
  | cons a rest ih => rw [List.foldl_cons, ih, List.sum_cons, Int.add_assoc]

theorem mergeAll_add (values : List Int) : (mergeAll (· + ·) values).getD 0 = values.sum := by
  cases values with
  | nil => rfl
  | cons a rest => rw [mergeAll, Option.getD_some, foldl_add, List.sum_cons]

theorem foldl_or (values : List Bool) (start : Bool) :
    values.foldl or start = (start || values.any id) := by
  induction values generalizing start with
  | nil => simp
  | cons a rest ih => simp [ih, Bool.or_assoc]

theorem mergeAll_or {values : List Bool} (nonempty : values ≠ []) :
    mergeAll or values = some (values.any id) := by
  cases values with
  | nil => exact absurd rfl nonempty
  | cons a rest => simp [mergeAll, foldl_or]

/-- The maximum of a list depends only on its elements. -/
theorem max?_congr {one two : List Int} (same : ∀ a, a ∈ one ↔ a ∈ two) :
    one.max? = two.max? := by
  cases found : two.max? with
  | none =>
      rw [List.max?_eq_none_iff] at found ⊢
      rw [List.eq_nil_iff_forall_not_mem]
      intro a member
      rw [same, found] at member
      exact List.not_mem_nil member
  | some m =>
      rw [List.max?_eq_some_iff] at found ⊢
      exact ⟨(same m).2 found.1, fun a member => found.2 a ((same a).1 member)⟩

theorem filterMap_ne_nil_iff {f : α → Option β} {l : List α} :
    l.filterMap f ≠ [] ↔ ∃ a ∈ l, ∃ b, f a = some b := by
  rw [Ne, List.filterMap_eq_nil_iff]
  simp only [not_forall, exists_prop]
  refine exists_congr fun a => and_congr_right fun _ => ?_
  exact Option.ne_none_iff_exists'

theorem map_of_mapM {f : α → Option β} {l : List α} {collected : List β}
    (all : l.mapM f = some collected) : l.map f = collected.map some := by
  induction l generalizing collected with
  | nil =>
      cases all
      rfl
  | cons a l ih =>
      rw [List.mapM_cons] at all
      obtain ⟨b, first, rest⟩ := Option.bind_eq_some_iff.1 all
      obtain ⟨later, found, same⟩ := Option.bind_eq_some_iff.1 rest
      cases same
      rw [List.map_cons, List.map_cons, first, ih found]

/-- What is collected, without the elements that are left out again. -/
theorem reduceOption_of_mapM {f : α → Option (Option β)} {l : List α} {collected : List (Option β)}
    (all : l.mapM f = some collected) :
    collected.reduceOption = l.filterMap fun a => (f a).join := by
  have images := map_of_mapM all
  calc collected.reduceOption
      = (collected.map some).filterMap Option.join := by
        rw [List.filterMap_map]
        rfl
    _ = l.filterMap fun a => (f a).join := by
        rw [← images, List.filterMap_map]
        rfl

/-- The keys of what is picked are among the keys there were, in their order. -/
theorem map_filterMap_sublist {κ : Type*} {g : α → Option β} {key : α → κ} {key' : β → κ}
    (same : ∀ a b, g a = some b → key' b = key a) (l : List α) :
    ((l.filterMap g).map key').Sublist (l.map key) := by
  induction l with
  | nil => exact .slnil
  | cons a l ih =>
      cases picked : g a with
      | none =>
          rw [List.filterMap_cons_none picked]
          exact ih.cons _
      | some b =>
          rw [List.filterMap_cons_some picked, List.map_cons, List.map_cons, same a b picked]
          exact ih.cons_cons _

/-! ### Collecting by key -/

variable [DecidableEq κ]

/-- The values of one key, in their order. -/
def valuesOf (k : κ) (entries : List (κ × α)) : List α :=
  (entries.filter fun entry => entry.1 = k).map Prod.snd

@[simp] theorem valuesOf_nil (k : κ) : valuesOf k ([] : List (κ × α)) = [] := rfl

theorem valuesOf_cons (k : κ) (entry : κ × α) (entries : List (κ × α)) :
    valuesOf k (entry :: entries) =
      if entry.1 = k then entry.2 :: valuesOf k entries else valuesOf k entries := by
  by_cases same : entry.1 = k <;> simp [valuesOf, same]

theorem valuesOf_eq_nil_iff {k : κ} {entries : List (κ × α)} :
    valuesOf k entries = [] ↔ k ∉ entries.map Prod.fst := by
  induction entries with
  | nil => simp
  | cons entry entries ih =>
      rw [valuesOf_cons]
      by_cases same : entry.1 = k
      · simp [same]
      · simp [same, ih, Ne.symm same]

/-- The values of a key, where an element of a list may make an entry under a key. -/
theorem valuesOf_filterMap (k : κ) (key : β → Option κ) (value : β → Option α) (l : List β) :
    valuesOf k (l.filterMap fun b => (key b).bind fun k => (value b).map fun v => (k, v)) =
      (l.filter fun b => key b = some k).filterMap value := by
  induction l with
  | nil => rfl
  | cons b l ih =>
      cases keyed : key b with
      | none => simp [keyed, ih]
      | some k' =>
          cases valued : value b with
          | none => by_cases same : k' = k <;> simp [keyed, valued, same, ih]
          | some v => by_cases same : k' = k <;> simp [keyed, valued, same, ih, valuesOf_cons]

/-- With distinct keys, one element has the key. -/
theorem filter_key_eq_singleton {key : β → Option κ} {l : List β} {b : β} {k : κ}
    (distinct : (l.filterMap key).Nodup) (member : b ∈ l) (keyed : key b = some k) :
    (l.filter fun c => key c = some k) = [b] := by
  induction l with
  | nil => exact absurd member List.not_mem_nil
  | cons c l ih =>
      cases here : key c with
      | none =>
          have other : b ≠ c := by
            rintro rfl
            rw [here] at keyed
            cases keyed
          rw [List.filterMap_cons_none here] at distinct
          rw [List.filter_cons_of_neg (by simp [here])]
          exact ih distinct ((List.mem_cons.1 member).resolve_left other)
      | some k' =>
          rw [List.filterMap_cons_some here, List.nodup_cons] at distinct
          rcases List.mem_cons.1 member with rfl | later
          · rw [here] at keyed
            cases keyed
            have none : (l.filter fun c => key c = some k) = [] := by
              rw [List.filter_eq_nil_iff]
              intro d tail same
              exact distinct.1 (List.mem_filterMap.2 ⟨d, tail, of_decide_eq_true same⟩)
            rw [List.filter_cons_of_pos (by simp [here]), none]
          · have other : k' ≠ k := by
              rintro rfl
              exact distinct.1 (List.mem_filterMap.2 ⟨b, later, keyed⟩)
            rw [List.filter_cons_of_neg (by simp [here, other])]
            exact ih distinct.2 later

/-! ### Sorted entries -/

section

variable {r : β → β → Prop} [DecidableRel r]

theorem filter_orderedInsert [IsTrans β r] (p : β → Bool) (b : β) {l : List β}
    (sorted : l.Pairwise r) :
    (l.orderedInsert r b).filter p =
      if p b then (l.filter p).orderedInsert r b else l.filter p := by
  induction l with
  | nil => cases chosen : p b <;> simp [chosen]
  | cons c l ih =>
      rw [List.pairwise_cons] at sorted
      have later := ih sorted.2
      rw [List.orderedInsert_cons]
      by_cases first : r b c
      · rw [if_pos first]
        cases chosen : p b with
        | false => rw [List.filter_cons_of_neg (by simp [chosen])]; simp
        | true =>
            have least : ∀ d ∈ (c :: l).filter p, r b d := by
              intro d member
              cases List.mem_cons.mp (List.mem_of_mem_filter member) with
              | inl same => exact same ▸ first
              | inr rest => exact Trans.trans first (sorted.1 d rest)
            rw [List.filter_cons_of_pos chosen, if_pos rfl]
            cases kept : (c :: l).filter p with
            | nil => rfl
            | cons d rest =>
                rw [List.orderedInsert_cons, if_pos (least d (kept ▸ List.mem_cons_self))]
      · rw [if_neg first]
        cases here : p c with
        | false =>
            rw [List.filter_cons_of_neg (by simp [here]), later,
              List.filter_cons_of_neg (by simp [here])]
        | true =>
            rw [List.filter_cons_of_pos here, later, List.filter_cons_of_pos here]
            cases p b with
            | false => rfl
            | true => rw [if_pos rfl, if_pos rfl, List.orderedInsert_cons, if_neg first]

/-- A part of a sorted list is the part, sorted. -/
theorem filter_insertionSort [Std.Total r] [IsTrans β r] (p : β → Bool) (l : List β) :
    (l.insertionSort r).filter p = (l.filter p).insertionSort r := by
  induction l with
  | nil => rfl
  | cons b l ih =>
      rw [List.insertionSort_cons, filter_orderedInsert p b (List.pairwise_insertionSort r l), ih]
      cases chosen : p b with
      | false => rw [List.filter_cons_of_neg (by simp [chosen])]; simp
      | true => rw [List.filter_cons_of_pos chosen, if_pos rfl, List.insertionSort_cons]

end

/-- The values of one key, where all entries are sorted by their values. -/
theorem valuesOf_insertionSort {r : α → α → Prop} [DecidableRel r] [Std.Total r] [IsTrans α r]
    (k : κ) (entries : List (κ × α)) :
    valuesOf k (entries.insertionSort fun one two => r one.2 two.2) =
      (valuesOf k entries).insertionSort r := by
  have total : Std.Total fun one two : κ × α => r one.2 two.2 :=
    ⟨fun one two => Std.Total.total one.2 two.2⟩
  have trans : IsTrans (κ × α) fun one two => r one.2 two.2 :=
    ⟨fun _ _ _ first second => Trans.trans first second⟩
  rw [valuesOf, filter_insertionSort,
    List.map_insertionSort (fun one two : κ × α => r one.2 two.2) r Prod.snd]
  · rfl
  · intro one _ two _
    exact Iff.rfl

namespace KeyedTable

/-- A table of entries, those of one key merged. -/
def collect (merge : α → α → α) (entries : List (κ × α)) : KeyedTable κ α :=
  empty.upsertAll id (fun a current => merge current a) entries

theorem find_upsertAll (merge : α → α → α) (t : KeyedTable κ α) (entries : List (κ × α)) (k : κ) :
    (t.upsertAll id (fun a current => merge current a) entries).find k =
      mergeAll merge ((t.find k).toList ++ valuesOf k entries) := by
  induction entries generalizing t with
  | nil => cases found : t.find k <;> simp [upsertAll, found]
  | cons entry entries ih =>
      rw [upsertAll_cons, ih, valuesOf_cons]
      by_cases same : entry.1 = k
      · subst same
        rw [find_upsert_self, if_pos rfl]
        cases t.find entry.1 <;> rfl
      · rw [t.find_upsert_of_ne (Ne.symm same), if_neg same]

theorem find_collect (merge : α → α → α) (entries : List (κ × α)) (k : κ) :
    (collect merge entries).find k = mergeAll merge (valuesOf k entries) := by
  rw [collect, find_upsertAll]
  rfl

theorem mem_keys_collect {merge : α → α → α} {entries : List (κ × α)} {k : κ} :
    k ∈ (collect merge entries).rows.map Prod.fst ↔ k ∈ entries.map Prod.fst := by
  have absent : (collect merge entries).find k = none ↔ k ∉ entries.map Prod.fst := by
    rw [find_collect, mergeAll_eq_none_iff, valuesOf_eq_nil_iff]
  rw [find_eq_none_iff] at absent
  exact not_iff_not.1 absent

/-- A sum over all rows, as a sum over the keys. -/
theorem total_eq_sum_keys (t : KeyedTable κ α) (f : α → Int) {keys : List κ}
    (distinct : keys.Nodup) (same : ∀ k, k ∈ keys ↔ k ∈ t.rows.map Prod.fst) :
    t.total (fun _ => true) f = (keys.map fun k => (t.find k).elim 0 f).sum := by
  have perm : keys.Perm (t.rows.map Prod.fst) :=
    (List.perm_ext_iff_of_nodup distinct t.distinct).2 same
  rw [(perm.map _).sum_eq, List.map_map, total, List.filter_true]
  apply sum_map_congr
  intro row member
  have found : t.find row.1 = some row.2 := find_eq_some_iff.2 member
  simp [found]

/-- Rows that are known one by one. -/
theorem rows_perm (t : KeyedTable κ α) {entries : List (κ × α)}
    (distinct : (entries.map Prod.fst).Nodup)
    (held : ∀ entry ∈ entries, t.find entry.1 = some entry.2)
    (only : ∀ k, k ∈ t.rows.map Prod.fst → k ∈ entries.map Prod.fst) : t.rows.Perm entries := by
  rw [List.perm_ext_iff_of_nodup t.distinct.of_map distinct.of_map]
  intro entry
  constructor
  · intro member
    obtain ⟨other, known, same⟩ :=
      List.mem_map.mp (only entry.1 (List.mem_map_of_mem (f := Prod.fst) member))
    have value : t.find entry.1 = some entry.2 := find_eq_some_iff.mpr member
    have sameEntry : other = entry := by
      apply Prod.ext same
      have found := held other known
      rw [same, value] at found
      exact (Option.some.inj found).symm
    exact sameEntry ▸ known
  · intro known
    exact find_eq_some_iff.mp (held entry known)

theorem valuesOf_rows (t : KeyedTable κ α) (k : κ) : valuesOf k t.rows = (t.find k).toList := by
  cases found : t.find k with
  | none =>
      rw [find_eq_none_iff, ← valuesOf_eq_nil_iff] at found
      exact found
  | some v =>
      let key : κ × α → Option κ := fun row => some row.1
      have keys : t.rows.filterMap key = t.rows.map Prod.fst :=
        congrFun List.filterMap_eq_map t.rows
      have keyed : key (k, v) = some k := rfl
      have distinct : (t.rows.filterMap key).Nodup := keys ▸ t.distinct
      have single : (t.rows.filter fun row => key row = some k) = [(k, v)] :=
        filter_key_eq_singleton distinct (find_eq_some_iff.mp found) keyed
      simp only [key, Option.some.injEq] at single
      rw [valuesOf, single]
      rfl

/-- A sum over a condition that one key meets. -/
theorem total_eq_elim (t : KeyedTable κ α) {p : κ → Bool} {k : κ}
    (only : ∀ other, p other = true ↔ other = k) (f : α → Int) :
    t.total p f = (t.find k).elim 0 f := by
  have rows : (t.rows.filter fun row => p row.1) = t.rows.filter fun row => row.1 = k := by
    apply List.filter_congr
    intro row _
    rw [Bool.eq_iff_iff, only, decide_eq_true_iff]
  have values := t.valuesOf_rows k
  rw [valuesOf] at values
  have mapped : ((t.rows.filter fun row => row.1 = k).map fun row => f row.2) =
      ((t.rows.filter fun row => row.1 = k).map Prod.snd).map f := by
    rw [List.map_map]
    rfl
  rw [total, rows, mapped, values]
  cases t.find k <;> simp

/-- A map filled from the keys of a list. -/
theorem find_upsertAll_replace (t : KeyedTable κ α) (f : κ → α) (keys : List κ) (k : κ) :
    (t.upsertAll id (fun a _ => a) (keys.map fun k => (k, f k))).find k =
      if k ∈ keys then some (f k) else t.find k := by
  induction keys generalizing t with
  | nil => rfl
  | cons key keys ih =>
      rw [List.map_cons, upsertAll_cons, ih]
      by_cases later : k ∈ keys
      · rw [if_pos later, if_pos (List.mem_cons_of_mem key later)]
      · by_cases here : k = key
        · rw [if_neg later, if_pos (here ▸ List.mem_cons_self), here, find_upsert_self]
          cases t.find key <;> rfl
        · rw [if_neg later, t.find_upsert_of_ne here, if_neg]
          exact fun member => (List.mem_cons.mp member).elim here later

/-- `INSERT ... ON CONFLICT DO NOTHING`, for the keys of a list. -/
theorem find_upsertAll_keep (t : KeyedTable κ α) (f : κ → α) (keys : List κ) (k : κ) :
    (t.upsertAll id (fun _ stored => stored) (keys.map fun k => (k, f k))).find k =
      (t.find k).or (if k ∈ keys then some (f k) else none) := by
  induction keys generalizing t with
  | nil => simp [upsertAll]
  | cons key keys ih =>
      rw [List.map_cons, upsertAll_cons, ih]
      by_cases here : k = key
      · rw [here, find_upsert_self, if_pos List.mem_cons_self]
        cases t.find key <;> rfl
      · rw [t.find_upsert_of_ne here]
        simp [here]

theorem total_collect (merge : α → α → α) (entries : List (κ × α)) (f : α → Int) :
    (collect merge entries).total (fun _ => true) f =
      ((entries.map Prod.fst).dedup.map fun k =>
        (mergeAll merge (valuesOf k entries)).elim 0 f).sum := by
  rw [total_eq_sum_keys _ f (List.nodup_dedup (entries.map Prod.fst))]
  · simp only [find_collect]
  · intro k
    rw [List.mem_dedup, mem_keys_collect]

end KeyedTable

end TavilyHikari.Library
