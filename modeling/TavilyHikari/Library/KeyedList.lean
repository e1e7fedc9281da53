/-
Module: TavilyHikari.Library.KeyedList
Purpose: Lists whose elements carry their own key, built by merging: an element under a
  key that the list has already is combined with the one there, any other is appended.
  Distinctness of the keys is an invariant of the construction, not of the type.
Trusted boundary: none
Main exports: mergeKeyed, mergeAllKeyed, nodup_mergeAllKeyed, mem_keys_mergeAllKeyed,
  mergeAllKeyed_forall, exists_mergeAllKeyed_of_mem, exists_mergeAllKeyed_of_added,
  freshKeyed, mergeAllKeyed_keepFirst, freshKeyed_id_flatMap
-/
import Mathlib.Data.List.Nodup

namespace TavilyHikari.Library

universe u v w

variable {α : Type u} {κ : Type v} [DecidableEq κ] {key : α → κ}

/-- Put `a` into the list: `combine` it into the first element under its key, or append it. -/
def mergeKeyed (key : α → κ) (combine : α → α → α) (a : α) : List α → List α
  | [] => [a]
  | b :: rest => if key b = key a then combine b a :: rest else b :: mergeKeyed key combine a rest

/-- Put one element after another into the list. -/
def mergeAllKeyed (key : α → κ) (combine : α → α → α) (added start : List α) : List α :=
  added.foldl (fun merged a => mergeKeyed key combine a merged) start

@[simp] theorem mergeAllKeyed_nil (combine : α → α → α) (start : List α) :
    mergeAllKeyed key combine [] start = start := rfl

@[simp] theorem mergeAllKeyed_cons (combine : α → α → α) (a : α) (added start : List α) :
    mergeAllKeyed key combine (a :: added) start =
      mergeAllKeyed key combine added (mergeKeyed key combine a start) := rfl

theorem mergeAllKeyed_append (combine : α → α → α) (first second start : List α) :
    mergeAllKeyed key combine (first ++ second) start =
      mergeAllKeyed key combine second (mergeAllKeyed key combine first start) :=
  List.foldl_append

variable {combine : α → α → α} (keeps : ∀ a b, key (combine a b) = key a)

include keeps

theorem keys_mergeKeyed (a : α) (l : List α) :
    (mergeKeyed key combine a l).map key =
      if key a ∈ l.map key then l.map key else l.map key ++ [key a] := by
  induction l with
  | nil => simp [mergeKeyed]
  | cons b rest ih =>
      by_cases same : key b = key a
      · simp [mergeKeyed, same, keeps]
      · simp only [mergeKeyed, same, if_false, List.map_cons, ih, List.mem_cons, Ne.symm same,
          false_or]
        split <;> simp

theorem nodup_mergeKeyed {a : α} {l : List α} (distinct : (l.map key).Nodup) :
    ((mergeKeyed key combine a l).map key).Nodup := by
  rw [keys_mergeKeyed keeps]
  split
  · exact distinct
  · rename_i new
    refine List.nodup_append.2 ⟨distinct, by simp, ?_⟩
    rintro k member k' last rfl
    rw [List.mem_singleton.1 last] at member
    exact new member

theorem mem_keys_mergeKeyed {a : α} {l : List α} {k : κ} :
    k ∈ (mergeKeyed key combine a l).map key ↔ k ∈ l.map key ∨ k = key a := by
  rw [keys_mergeKeyed keeps]
  split
  · rename_i present
    constructor
    · exact Or.inl
    · rintro (old | rfl)
      · exact old
      · exact present
  · rw [List.mem_append, List.mem_singleton]

theorem nodup_mergeAllKeyed {added start : List α} (distinct : (start.map key).Nodup) :
    ((mergeAllKeyed key combine added start).map key).Nodup := by
  induction added generalizing start with
  | nil => exact distinct
  | cons a added ih => exact ih (nodup_mergeKeyed keeps distinct)

theorem mem_keys_mergeAllKeyed {added start : List α} {k : κ} :
    k ∈ (mergeAllKeyed key combine added start).map key ↔
      k ∈ start.map key ∨ k ∈ added.map key := by
  induction added generalizing start with
  | nil => simp
  | cons a added ih =>
      rw [mergeAllKeyed_cons, ih, mem_keys_mergeKeyed keeps, List.map_cons, List.mem_cons, or_assoc]

omit keeps

theorem mergeKeyed_of_notMem {a : α} {l : List α} (fresh : key a ∉ l.map key) :
    mergeKeyed key combine a l = l ++ [a] := by
  induction l with
  | nil => rfl
  | cons b rest ih =>
      rw [List.map_cons, List.mem_cons, not_or] at fresh
      rw [mergeKeyed, if_neg (Ne.symm fresh.1), ih fresh.2, List.cons_append]

/-- What a merge leaves in the list: an element that was there, one that `a` was combined
into, or `a` itself under a new key. -/
theorem mem_mergeKeyed {a b : α} {l : List α} (member : b ∈ mergeKeyed key combine a l) :
    b ∈ l ∨ (∃ old ∈ l, key old = key a ∧ b = combine old a) ∨ (key a ∉ l.map key ∧ b = a) := by
  induction l with
  | nil =>
      rw [mergeKeyed, List.mem_singleton] at member
      exact Or.inr (Or.inr ⟨List.not_mem_nil, member⟩)
  | cons c rest ih =>
      by_cases same : key c = key a
      · rw [mergeKeyed, if_pos same, List.mem_cons] at member
        rcases member with rfl | later
        · exact Or.inr (Or.inl ⟨c, List.mem_cons_self, same, rfl⟩)
        · exact Or.inl (List.mem_cons_of_mem _ later)
      · rw [mergeKeyed, if_neg same, List.mem_cons] at member
        rcases member with rfl | later
        · exact Or.inl List.mem_cons_self
        · rcases ih later with there | ⟨old, there, under, combined⟩ | ⟨new, fresh⟩
          · exact Or.inl (List.mem_cons_of_mem _ there)
          · exact Or.inr (Or.inl ⟨old, List.mem_cons_of_mem _ there, under, combined⟩)
          · refine Or.inr (Or.inr ⟨?_, fresh⟩)
            rw [List.map_cons, List.mem_cons, not_or]
            exact ⟨Ne.symm same, new⟩

/-- Every element is still there, as it was or combined with `a`. -/
theorem mem_mergeKeyed_of_mem {a b : α} {l : List α} (member : b ∈ l) :
    b ∈ mergeKeyed key combine a l ∨
      (key b = key a ∧ combine b a ∈ mergeKeyed key combine a l) := by
  induction l with
  | nil => cases member
  | cons c rest ih =>
      by_cases same : key c = key a
      · rw [mergeKeyed, if_pos same]
        rcases List.mem_cons.1 member with rfl | later
        · exact Or.inr ⟨same, List.mem_cons_self⟩
        · exact Or.inl (List.mem_cons_of_mem _ later)
      · rw [mergeKeyed, if_neg same]
        rcases List.mem_cons.1 member with rfl | later
        · exact Or.inl List.mem_cons_self
        · rcases ih later with there | ⟨under, there⟩
          · exact Or.inl (List.mem_cons_of_mem _ there)
          · exact Or.inr ⟨under, List.mem_cons_of_mem _ there⟩

/-- The merged element is there, by itself or combined into another. -/
theorem merged_mem_mergeKeyed (a : α) (l : List α) :
    a ∈ mergeKeyed key combine a l ∨
      ∃ old ∈ l, key old = key a ∧ combine old a ∈ mergeKeyed key combine a l := by
  induction l with
  | nil => exact Or.inl List.mem_cons_self
  | cons c rest ih =>
      by_cases same : key c = key a
      · rw [mergeKeyed, if_pos same]
        exact Or.inr ⟨c, List.mem_cons_self, same, List.mem_cons_self⟩
      · rw [mergeKeyed, if_neg same]
        rcases ih with there | ⟨old, there, under, combined⟩
        · exact Or.inl (List.mem_cons_of_mem _ there)
        · exact Or.inr ⟨old, List.mem_cons_of_mem _ there, under, List.mem_cons_of_mem _ combined⟩

/-- Merging elements under distinct new keys appends them. -/
theorem mergeAllKeyed_of_fresh {added start : List α} (distinct : (added.map key).Nodup)
    (fresh : ∀ a ∈ added, key a ∉ start.map key) :
    mergeAllKeyed key combine added start = start ++ added := by
  induction added generalizing start with
  | nil => simp
  | cons a added ih =>
      simp only [List.map_cons, List.nodup_cons] at distinct
      have appended : mergeKeyed key combine a start = start ++ [a] :=
        mergeKeyed_of_notMem (fresh a List.mem_cons_self)
      rw [mergeAllKeyed_cons, appended, ih distinct.2, List.append_assoc, List.singleton_append]
      intro b member
      rw [List.map_append, List.mem_append, not_or]
      refine ⟨fresh b (List.mem_cons_of_mem _ member), ?_⟩
      intro same
      rw [List.map_singleton, List.mem_singleton] at same
      exact distinct.1 (same ▸ List.mem_map_of_mem member)

/-- The induction rule of merging: a property of elements that combining keeps, and that
every new element has whose key is not there yet, holds of all elements. -/
theorem mergeAllKeyed_forall (keeps : ∀ a b, key (combine a b) = key a) {P : α → Prop}
    {added start : List α} (init : ∀ b ∈ start, P b)
    (combined : ∀ a ∈ added, ∀ b, P b → key b = key a → P (combine b a))
    (fresh : ∀ a ∈ added, key a ∉ start.map key → P a) :
    ∀ b ∈ mergeAllKeyed key combine added start, P b := by
  induction added generalizing start with
  | nil => exact init
  | cons a added ih =>
      apply ih
      · intro b member
        rcases mem_mergeKeyed member with there | ⟨old, there, under, rfl⟩ | ⟨new, rfl⟩
        · exact init b there
        · exact combined a List.mem_cons_self old (init old there) under
        · exact fresh b List.mem_cons_self new
      · exact fun c member => combined c (List.mem_cons_of_mem _ member)
      · intro c member new
        apply fresh c (List.mem_cons_of_mem _ member)
        intro old
        exact new ((mem_keys_mergeKeyed keeps).2 (Or.inl old))

/-- A property of elements that combining never takes away, once some element under a key
has it, is still had by an element under that key. -/
theorem exists_mergeAllKeyed_of_mem (keeps : ∀ a b, key (combine a b) = key a) {P : α → Prop}
    (added : List α) {start : List α} (combined : ∀ a b, P b → P (combine b a)) {b : α}
    (member : b ∈ start) (holds : P b) :
    ∃ c ∈ mergeAllKeyed key combine added start, key c = key b ∧ P c := by
  induction added generalizing start b with
  | nil => exact ⟨b, member, rfl, holds⟩
  | cons a added ih =>
      have kept : b ∈ mergeKeyed key combine a start ∨
          (key b = key a ∧ combine b a ∈ mergeKeyed key combine a start) :=
        mem_mergeKeyed_of_mem member
      rcases kept with there | ⟨_, there⟩
      · exact ih there holds
      · obtain ⟨c, last, under, had⟩ := ih there (combined a b holds)
        exact ⟨c, last, under.trans (keeps b a), had⟩

/-- The same for an element that is merged in. -/
theorem exists_mergeAllKeyed_of_added (keeps : ∀ a b, key (combine a b) = key a) {P : α → Prop}
    {added start : List α} (combined : ∀ a b, P b → P (combine b a))
    (received : ∀ a b, P a → P (combine b a)) {a : α} (member : a ∈ added) (holds : P a) :
    ∃ c ∈ mergeAllKeyed key combine added start, key c = key a ∧ P c := by
  induction added generalizing start with
  | nil => cases member
  | cons first added ih =>
      rw [mergeAllKeyed_cons]
      rcases List.mem_cons.1 member with rfl | later
      · have merged : a ∈ mergeKeyed key combine a start ∨ ∃ old ∈ start, key old = key a ∧
            combine old a ∈ mergeKeyed key combine a start := merged_mem_mergeKeyed a start
        rcases merged with there | ⟨old, _, under, there⟩
        · exact exists_mergeAllKeyed_of_mem keeps added combined there holds
        · obtain ⟨c, last, same, had⟩ :=
            exists_mergeAllKeyed_of_mem keeps added combined there (received a old holds)
          exact ⟨c, last, same.trans ((keeps old a).trans under), had⟩
      · exact ih later

/-! ### Elements under keys that have not been seen -/

omit keeps

/-- The elements whose keys are not among those that are seen, each key once. -/
def freshKeyed (key : α → κ) : List κ → List α → List α
  | _, [] => []
  | seen, a :: rest =>
      if key a ∈ seen then freshKeyed key seen rest
      else a :: freshKeyed key (key a :: seen) rest

theorem freshKeyed_of_mem {seen : List κ} {a : α} (known : key a ∈ seen) (rest : List α) :
    freshKeyed key seen (a :: rest) = freshKeyed key seen rest := by
  rw [freshKeyed, if_pos known]

theorem freshKeyed_of_notMem {seen : List κ} {a : α} (new : key a ∉ seen) (rest : List α) :
    freshKeyed key seen (a :: rest) = a :: freshKeyed key (key a :: seen) rest := by
  rw [freshKeyed, if_neg new]

/-- Only what is among the seen keys matters. -/
theorem freshKeyed_congr {seen seen' : List κ} (same : ∀ k, k ∈ seen ↔ k ∈ seen')
    (l : List α) : freshKeyed key seen l = freshKeyed key seen' l := by
  induction l generalizing seen seen' with
  | nil => rfl
  | cons a rest ih =>
      unfold freshKeyed
      by_cases known : key a ∈ seen
      · rw [if_pos known, if_pos ((same _).1 known), ih same]
      · rw [if_neg known, if_neg fun other => known ((same _).2 other)]
        congr 1
        apply ih
        intro k
        rw [List.mem_cons, List.mem_cons, same]

theorem freshKeyed_append (seen : List κ) (l m : List α) :
    freshKeyed key seen (l ++ m) =
      freshKeyed key seen l ++ freshKeyed key (l.map key ++ seen) m := by
  induction l generalizing seen with
  | nil => rfl
  | cons a rest ih =>
      rw [List.cons_append]
      by_cases known : key a ∈ seen
      · rw [freshKeyed_of_mem known, freshKeyed_of_mem known, ih]
        congr 1
        apply freshKeyed_congr
        intro k
        simp only [List.map_cons, List.cons_append, List.mem_cons, List.mem_append]
        constructor
        · intro inside
          exact Or.inr inside
        · rintro (rfl | inside)
          · exact Or.inr known
          · exact inside
      · rw [freshKeyed_of_notMem known, freshKeyed_of_notMem known, ih, List.cons_append]
        congr 2
        apply freshKeyed_congr
        intro k
        simp only [List.map_cons, List.cons_append, List.mem_cons, List.mem_append]
        tauto

theorem freshKeyed_sublist (seen : List κ) (l : List α) : (freshKeyed key seen l).Sublist l := by
  induction l generalizing seen with
  | nil => exact List.Sublist.refl []
  | cons a rest ih =>
      unfold freshKeyed
      split
      · exact (ih seen).cons a
      · exact (ih (key a :: seen)).cons_cons a

theorem mem_keys_freshKeyed {seen : List κ} {l : List α} {k : κ} :
    k ∈ (freshKeyed key seen l).map key ↔ k ∈ l.map key ∧ k ∉ seen := by
  induction l generalizing seen with
  | nil => simp [freshKeyed]
  | cons a rest ih =>
      unfold freshKeyed
      by_cases known : key a ∈ seen
      · rw [if_pos known, ih, List.map_cons, List.mem_cons]
        constructor
        · rintro ⟨member, new⟩
          exact ⟨Or.inr member, new⟩
        · rintro ⟨rfl | member, new⟩
          · exact absurd known new
          · exact ⟨member, new⟩
      · rw [if_neg known, List.map_cons, List.mem_cons, ih, List.map_cons, List.mem_cons,
          List.mem_cons]
        constructor
        · rintro (rfl | ⟨member, new⟩)
          · exact ⟨Or.inl rfl, known⟩
          · exact ⟨Or.inr member, fun inside => new (Or.inr inside)⟩
        · rintro ⟨here | member, new⟩
          · exact Or.inl here
          · by_cases same : k = key a
            · exact Or.inl same
            · exact Or.inr ⟨member, fun inside => inside.elim same new⟩

theorem nodup_freshKeyed (seen : List κ) (l : List α) :
    ((freshKeyed key seen l).map key).Nodup := by
  induction l generalizing seen with
  | nil => exact List.nodup_nil
  | cons a rest ih =>
      unfold freshKeyed
      split
      · exact ih seen
      · rw [List.map_cons, List.nodup_cons]
        refine ⟨?_, ih (key a :: seen)⟩
        intro again
        exact (mem_keys_freshKeyed.1 again).2 List.mem_cons_self

theorem freshKeyed_eq_nil_iff {seen : List κ} {l : List α} :
    freshKeyed key seen l = [] ↔ ∀ a ∈ l, key a ∈ seen := by
  induction l generalizing seen with
  | nil => simp [freshKeyed]
  | cons a rest ih =>
      rw [List.forall_mem_cons]
      by_cases known : key a ∈ seen
      · rw [freshKeyed_of_mem known, ih]
        exact (and_iff_right known).symm
      · rw [freshKeyed_of_notMem known]
        constructor
        · intro none
          cases none
        · intro both
          exact absurd both.1 known

theorem map_freshKeyed (seen : List κ) (l : List α) :
    (freshKeyed key seen l).map key = freshKeyed id seen (l.map key) := by
  induction l generalizing seen with
  | nil => rfl
  | cons a rest ih =>
      rw [List.map_cons]
      by_cases known : key a ∈ seen
      · rw [freshKeyed_of_mem known, freshKeyed_of_mem (show id (key a) ∈ seen from known), ih]
      · rw [freshKeyed_of_notMem known, freshKeyed_of_notMem (show id (key a) ∉ seen from known),
          List.map_cons, ih]
        rfl

/-- Merging that keeps what is there adds the elements under new keys. -/
theorem mergeAllKeyed_keepFirst (added start : List α) :
    mergeAllKeyed key (fun seen _ => seen) added start =
      start ++ freshKeyed key (start.map key) added := by
  have put (a : α) (l : List α) : mergeKeyed key (fun seen _ => seen) a l =
      if key a ∈ l.map key then l else l ++ [a] := by
    induction l with
    | nil => rfl
    | cons b rest ih =>
        unfold mergeKeyed
        by_cases same : key b = key a
        · rw [if_pos same, if_pos]
          rw [List.map_cons, same]
          exact List.mem_cons_self
        · rw [if_neg same, ih]
          by_cases known : key a ∈ rest.map key
          · rw [if_pos known, if_pos]
            exact List.mem_cons_of_mem _ known
          · rw [if_neg known, if_neg, List.cons_append]
            rw [List.map_cons, List.mem_cons]
            rintro (here | there)
            · exact same here.symm
            · exact known there
  induction added generalizing start with
  | nil => simp [freshKeyed]
  | cons a rest ih =>
      rw [mergeAllKeyed_cons, put]
      by_cases known : key a ∈ start.map key
      · rw [if_pos known, freshKeyed_of_mem known, ih]
      · rw [if_neg known, freshKeyed_of_notMem known, ih, List.append_assoc,
          List.singleton_append]
        congr 2
        apply freshKeyed_congr
        intro k
        rw [List.map_append, List.map_singleton, List.mem_append, List.mem_singleton,
          List.mem_cons]
        exact Or.comm

/-! ### First occurrences -/

theorem freshKeyed_id_of_nodup {l : List κ} (distinct : l.Nodup) : freshKeyed id [] l = l := by
  have kept : mergeAllKeyed id (fun seen _ => seen) l [] = [] ++ l :=
    mergeAllKeyed_of_fresh (by rwa [List.map_id]) (by simp)
  rw [mergeAllKeyed_keepFirst] at kept
  exact kept

theorem nodup_freshKeyed_id (seen l : List κ) : (freshKeyed id seen l).Nodup := by
  have distinct : ((freshKeyed id seen l).map id).Nodup := nodup_freshKeyed seen l
  rwa [List.map_id] at distinct

theorem mem_freshKeyed_id {seen l : List κ} {k : κ} :
    k ∈ freshKeyed id seen l ↔ k ∈ l ∧ k ∉ seen := by
  have members : k ∈ (freshKeyed id seen l).map id ↔ k ∈ l.map id ∧ k ∉ seen :=
    mem_keys_freshKeyed
  rwa [List.map_id, List.map_id] at members

/-- What occurs in a list of one element, again and again. -/
theorem freshKeyed_id_of_const {seen : List κ} {l : List κ} {k : κ} (some : l ≠ [])
    (only : ∀ a ∈ l, a = k) : freshKeyed id seen l = if k ∈ seen then [] else [k] := by
  by_cases known : k ∈ seen
  · rw [if_pos known, freshKeyed_eq_nil_iff]
    intro a member
    rw [only a member]
    exact known
  · cases l with
    | nil => exact absurd rfl some
    | cons a rest =>
        rw [List.forall_mem_cons] at only
        obtain ⟨rfl, rest'⟩ := only
        rw [if_neg known, freshKeyed_of_notMem (show id a ∉ seen from known),
          freshKeyed_eq_nil_iff.2]
        intro b member
        rw [rest' b member]
        exact List.mem_cons_self

theorem freshKeyed_id_eq_singleton_iff {l : List κ} {k : κ} :
    freshKeyed id [] l = [k] ↔ l ≠ [] ∧ ∀ a ∈ l, a = k := by
  constructor
  · intro one
    refine ⟨?_, ?_⟩
    · rintro rfl
      cases one
    · intro a member
      have inside : a ∈ freshKeyed id [] l := mem_freshKeyed_id.2 ⟨member, List.not_mem_nil⟩
      rw [one] at inside
      exact List.mem_singleton.1 inside
  · rintro ⟨some, only⟩
    rw [freshKeyed_id_of_const some only, if_neg List.not_mem_nil]

/-- Lists that repeat one element each have the first occurrences of these elements. -/
theorem freshKeyed_id_flatMap {β : Type w} {f : β → List κ} {g : β → Option κ} {l : List β}
    (const : ∀ b ∈ l, ∃ k, g b = some k ∧ f b ≠ [] ∧ ∀ a ∈ f b, a = k) (seen : List κ) :
    freshKeyed id seen (l.flatMap f) = freshKeyed id seen (l.filterMap g) := by
  induction l generalizing seen with
  | nil => rfl
  | cons b rest ih =>
      rw [List.forall_mem_cons] at const
      obtain ⟨⟨k, given, some, only⟩, later⟩ := const
      rw [List.flatMap_cons, freshKeyed_append, freshKeyed_id_of_const some only, ih later,
        List.filterMap_cons_some given]
      have among : ∀ a, a ∈ (f b).map id ++ seen ↔ a = k ∨ a ∈ seen := by
        intro a
        rw [List.map_id, List.mem_append]
        constructor
        · rintro (here | there)
          · exact Or.inl (only a here)
          · exact Or.inr there
        · rintro (rfl | there)
          · obtain ⟨first, member⟩ := List.exists_mem_of_ne_nil _ some
            exact Or.inl (only first member ▸ member)
          · exact Or.inr there
      by_cases known : k ∈ seen
      · rw [if_pos known, freshKeyed_of_mem (show id k ∈ seen from known), List.nil_append]
        apply freshKeyed_congr
        intro a
        rw [among]
        constructor
        · rintro (rfl | there)
          · exact known
          · exact there
        · exact Or.inr
      · rw [if_neg known, freshKeyed_of_notMem (show id k ∉ seen from known),
          List.singleton_append]
        congr 1
        apply freshKeyed_congr
        intro a
        rw [among, List.mem_cons]
        rfl

omit [DecidableEq κ]

/-- A selection that keeps keys has its keys among the old ones, in their order. -/
theorem keys_filterMap_sublist {f : α → Option α} (keeps : ∀ a b, f a = some b → key b = key a)
    (l : List α) : ((l.filterMap f).map key).Sublist (l.map key) := by
  induction l with
  | nil => exact List.Sublist.refl _
  | cons a rest ih =>
      cases kept : f a with
      | none =>
          rw [List.filterMap_cons_none kept]
          exact ih.cons _
      | some b =>
          rw [List.filterMap_cons_some kept, List.map_cons, List.map_cons, keeps a b kept]
          exact ih.cons_cons _

end TavilyHikari.Library
