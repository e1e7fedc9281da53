/-
Module: TavilyHikari.Library.MultiMap
Purpose: Maps that keep one value or more for a key, in the order they were added, with the
  two ways to write them: one that adds a value and one that replaces what there was.
Trusted boundary: none
Main exports: MultiMap, iter, insert, append, insertAll, getAll_insertAll, getAll_foldl_append
-/
import TavilyHikari.Library.Collect

namespace TavilyHikari.Library

universe u v

variable {κ : Type u} {ν : Type v}

/-- A row holds the first value of its key and those after it. -/
structure MultiMap (κ : Type u) (ν : Type v) where
  table : KeyedTable κ (ν × List ν)

namespace MultiMap

def empty : MultiMap κ ν := { table := .empty }

/-- Every key with each of its values. -/
def iter (m : MultiMap κ ν) : List (κ × ν) :=
  m.table.rows.flatMap fun row => (row.2.1 :: row.2.2).map fun value => (row.1, value)

variable [DecidableEq κ]

def getAll (m : MultiMap κ ν) (k : κ) : List ν :=
  (m.table.find k).elim [] fun values => values.1 :: values.2

/-- The value replaces all there were. -/
def insert (m : MultiMap κ ν) (k : κ) (value : ν) : MultiMap κ ν :=
  { table := m.table.upsert k (value, []) fun _ => (value, []) }

def append (m : MultiMap κ ν) (k : κ) (value : ν) : MultiMap κ ν :=
  { table := m.table.upsert k (value, []) fun values => (values.1, values.2 ++ [value]) }

/-- One insert after another. -/
def insertAll (m : MultiMap κ ν) (entries : List (κ × ν)) : MultiMap κ ν :=
  entries.foldl (fun m entry => m.insert entry.1 entry.2) m

@[simp] theorem getAll_empty (k : κ) : (empty : MultiMap κ ν).getAll k = [] := rfl

@[simp] theorem getAll_insert_self (m : MultiMap κ ν) (k : κ) (value : ν) :
    (m.insert k value).getAll k = [value] := by
  unfold getAll insert
  rw [KeyedTable.find_upsert_self]
  cases m.table.find k <;> rfl

theorem getAll_insert_of_ne (m : MultiMap κ ν) {k k' : κ} (other : k' ≠ k) (value : ν) :
    (m.insert k value).getAll k' = m.getAll k' := by
  unfold getAll insert
  rw [KeyedTable.find_upsert_of_ne _ other]

theorem valuesOf_append (k : κ) (first last : List (κ × ν)) :
    valuesOf k (first ++ last) = valuesOf k first ++ valuesOf k last := by
  simp [valuesOf]

/-- What a map iterates over for a key is what it holds for it. -/
theorem valuesOf_iter (m : MultiMap κ ν) (k : κ) : valuesOf k m.iter = m.getAll k := by
  obtain ⟨⟨rows, distinct⟩⟩ := m
  unfold iter getAll KeyedTable.find
  simp only
  induction rows with
  | nil => rfl
  | cons row rows ih =>
      obtain ⟨key, first, later⟩ := row
      rw [List.map_cons, List.nodup_cons] at distinct
      rw [List.flatMap_cons, valuesOf_append, ih distinct.2]
      by_cases same : key = k
      · subst same
        rw [findRow_eq_none_iff.2 distinct.1]
        simp [valuesOf, findRow, List.filter_map, Function.comp_def]
      · simp [valuesOf, findRow, same, List.filter_map, Function.comp_def]

theorem getAll_append (m : MultiMap κ ν) (k k' : κ) (value : ν) :
    (m.append k value).getAll k' =
      if k = k' then m.getAll k' ++ [value] else m.getAll k' := by
  unfold getAll append
  by_cases same : k = k'
  · subst same
    rw [if_pos rfl, KeyedTable.find_upsert_self]
    cases m.table.find k <;> rfl
  · rw [if_neg same, KeyedTable.find_upsert_of_ne _ (Ne.symm same)]

/-- The keys are those that have a value. -/
theorem mem_keys_iff {m : MultiMap κ ν} {k : κ} :
    k ∈ m.table.rows.map Prod.fst ↔ m.getAll k ≠ [] := by
  unfold getAll
  cases found : m.table.find k with
  | none => simpa using KeyedTable.find_eq_none_iff.1 found
  | some values => simpa using ⟨_, _, KeyedTable.find_eq_some_iff.1 found⟩

/-- Values appended under their keys are grouped by them, in their order. -/
theorem getAll_foldl_append (key : ν → κ) (m : MultiMap κ ν) (values : List ν) (k : κ) :
    (values.foldl (fun m value => m.append (key value) value) m).getAll k =
      m.getAll k ++ values.filter fun value => key value = k := by
  induction values generalizing m with
  | nil => simp
  | cons value values ih =>
      rw [List.foldl_cons, ih, getAll_append, List.filter_cons]
      by_cases same : key value = k
      · simp [same]
      · simp [same]

/-- Inserting one entry after another keeps the last value of each key. -/
theorem getAll_insertAll (m : MultiMap κ ν) (entries : List (κ × ν)) (k : κ) :
    (m.insertAll entries).getAll k =
      (valuesOf k entries).getLast?.elim (m.getAll k) fun value => [value] := by
  induction entries generalizing m with
  | nil => rfl
  | cons entry entries ih =>
      unfold insertAll at ih ⊢
      rw [List.foldl_cons, ih, valuesOf_cons]
      by_cases same : entry.1 = k
      · subst same
        rw [if_pos rfl, getAll_insert_self, List.getLast?_cons]
        cases (valuesOf entry.1 entries).getLast? <;> rfl
      · rw [if_neg same, getAll_insert_of_ne _ (Ne.symm same)]

end MultiMap

end TavilyHikari.Library
