/-
Module: TavilyHikari.Library.AutoIncrement
Purpose: Tables whose integer key the database hands out in increasing order. No
  row has an id past the last one handed out, so an insert never meets a row.
Trusted boundary: human-reviewed spec (the meaning of AUTOINCREMENT)
Main exports: AutoIncrement, insert, modify, deleteWhere, find_insert_self,
  find_insert_of_ne, find_deleteWhere
-/
import Mathlib.Data.List.Sort
import TavilyHikari.Library.KeyedTable

namespace TavilyHikari.Library

universe u

/-- A table with `INTEGER PRIMARY KEY AUTOINCREMENT`. -/
structure AutoIncrement (ν : Type u) where
  table : KeyedTable Int ν
  last : Int
  bounded : ∀ id row, table.find id = some row → id ≤ last

namespace AutoIncrement

variable {ν : Type u}

def empty : AutoIncrement ν where
  table := .empty
  last := 0
  bounded := by simp

instance : Inhabited (AutoIncrement ν) := ⟨empty⟩

def find (t : AutoIncrement ν) (id : Int) : Option ν := t.table.find id

/-- `INSERT ... RETURNING id`: the id is the one after the last. -/
def insert (t : AutoIncrement ν) (row : ν) : AutoIncrement ν where
  table := t.table.upsert (t.last + 1) row id
  last := t.last + 1
  bounded := by
    intro id stored found
    by_cases new : id = t.last + 1
    · exact Int.le_of_eq new
    · rw [t.table.find_upsert_of_ne new] at found
      exact Int.le_trans (t.bounded id stored found) (by omega)

/-- `UPDATE ... SET f WHERE id = ?`. -/
def modify (t : AutoIncrement ν) (id : Int) (f : ν → ν) : AutoIncrement ν where
  table := t.table.modify id f
  last := t.last
  bounded := by
    intro other stored found
    by_cases same : other = id
    · subst same
      rw [KeyedTable.find_modify_self, Option.map_eq_some_iff] at found
      obtain ⟨old, found, _⟩ := found
      exact t.bounded other old found
    · rw [t.table.find_modify_of_ne same] at found
      exact t.bounded other stored found

/-- `DELETE ... WHERE p`. The ids of deleted rows are not handed out again. -/
def deleteWhere (t : AutoIncrement ν) (p : Int → ν → Bool) : AutoIncrement ν where
  table := t.table.deleteWhere p
  last := t.last
  bounded := by
    intro id row found
    rw [KeyedTable.find_deleteWhere] at found
    exact t.bounded id row (Option.filter_eq_some_iff.1 found).1

/-- `SELECT ... WHERE p ORDER BY id ASC`, as the ids of the rows. -/
def idsWhere (t : AutoIncrement ν) (p : ν → Bool) : List Int :=
  ((t.table.rows.filter fun row => p row.2).map Prod.fst).insertionSort (· ≤ ·)

/-- A sum over all rows. -/
def total (t : AutoIncrement ν) (f : ν → Int) : Int := t.table.total (fun _ => true) f

@[simp] theorem find_empty (id : Int) : (empty : AutoIncrement ν).find id = none := rfl

@[simp] theorem total_empty (f : ν → Int) : (empty : AutoIncrement ν).total f = 0 := rfl

theorem le_last {t : AutoIncrement ν} {id : Int} {row : ν}
    (found : t.find id = some row) : id ≤ t.last :=
  t.bounded id row found

@[simp] theorem find_next (t : AutoIncrement ν) : t.find (t.last + 1) = none := by
  cases found : t.find (t.last + 1) with
  | none => rfl
  | some row =>
      have bound := le_last found
      omega

@[simp] theorem find_insert_self (t : AutoIncrement ν) (row : ν) :
    (t.insert row).find (t.last + 1) = some row := by
  have missing : t.table.find (t.last + 1) = none := t.find_next
  simp [find, insert, missing]

theorem find_insert_of_ne (t : AutoIncrement ν) {id : Int} (other : id ≠ t.last + 1)
    (row : ν) : (t.insert row).find id = t.find id :=
  t.table.find_upsert_of_ne other row _

/-- Rows that are there stay there when another is inserted. -/
theorem find_insert_of_found {t : AutoIncrement ν} {id : Int} {row : ν}
    (found : t.find id = some row) (new : ν) : (t.insert new).find id = some row := by
  have bound := le_last found
  rw [t.find_insert_of_ne (by omega), found]

@[simp] theorem find_modify_self (t : AutoIncrement ν) (id : Int) (f : ν → ν) :
    (t.modify id f).find id = (t.find id).map f :=
  t.table.find_modify_self id f

theorem find_modify_of_ne (t : AutoIncrement ν) {id other : Int} (different : other ≠ id)
    (f : ν → ν) : (t.modify id f).find other = t.find other :=
  t.table.find_modify_of_ne different f

theorem find_deleteWhere (t : AutoIncrement ν) (p : Int → ν → Bool) (id : Int) :
    (t.deleteWhere p).find id = (t.find id).filter fun row => !p id row :=
  t.table.find_deleteWhere p id

theorem find_eq_some_iff {t : AutoIncrement ν} {id : Int} {row : ν} :
    t.find id = some row ↔ (id, row) ∈ t.table.rows :=
  KeyedTable.find_eq_some_iff

@[simp] theorem last_insert (t : AutoIncrement ν) (row : ν) :
    (t.insert row).last = t.last + 1 := rfl

@[simp] theorem last_modify (t : AutoIncrement ν) (id : Int) (f : ν → ν) :
    (t.modify id f).last = t.last := rfl

theorem total_insert (t : AutoIncrement ν) (row : ν) (f : ν → Int) :
    (t.insert row).total f = t.total f + f row := by
  have missing : t.table.find (t.last + 1) = none := t.find_next
  simp [total, insert, KeyedTable.total_upsert, missing]

theorem total_modify (t : AutoIncrement ν) (id : Int) (g : ν → ν) (f : ν → Int) :
    (t.modify id g).total f =
      t.total f + (t.find id).elim 0 fun old => f (g old) - f old := by
  simp [total, modify, find, KeyedTable.total_modify]

theorem total_congr (t : AutoIncrement ν) {f g : ν → Int}
    (same : ∀ id row, t.find id = some row → f row = g row) : t.total f = t.total g := by
  unfold total KeyedTable.total
  congr 1
  apply List.map_congr_left
  intro row member
  exact same row.1 row.2 (find_eq_some_iff.2 (List.mem_filter.1 member).1)

/-- Every row of the table has a property that the new row has. -/
theorem forall_insert {t : AutoIncrement ν} {row : ν} {P : ν → Prop}
    (old : ∀ id stored, t.find id = some stored → P stored) (new : P row) :
    ∀ id stored, (t.insert row).find id = some stored → P stored := by
  intro id stored found
  by_cases last : id = t.last + 1
  · rw [last, find_insert_self, Option.some.injEq] at found
    rw [← found]
    exact new
  · rw [t.find_insert_of_ne last] at found
    exact old id stored found

/-- Every row of the table has a property that the change keeps. -/
theorem forall_modify {t : AutoIncrement ν} {id : Int} {f : ν → ν} {P : ν → Prop}
    (old : ∀ id stored, t.find id = some stored → P stored)
    (kept : ∀ stored, P stored → P (f stored)) :
    ∀ other stored, (t.modify id f).find other = some stored → P stored := by
  intro other stored found
  by_cases same : other = id
  · rw [same, find_modify_self, Option.map_eq_some_iff] at found
    obtain ⟨before, there, rfl⟩ := found
    exact kept before (old id before there)
  · rw [t.find_modify_of_ne same] at found
    exact old other stored found

/-- Sums that are below one another row by row are equal where every row is. -/
theorem total_eq_total_iff (t : AutoIncrement ν) {f g : ν → Int} (le : ∀ row, f row ≤ g row) :
    t.total f = t.total g ↔ ∀ id row, t.find id = some row → f row = g row :=
  (t.table.total_le_total le).2

theorem total_eq_zero_iff (t : AutoIncrement ν) {f : ν → Int} (nonneg : ∀ row, 0 ≤ f row) :
    t.total f = 0 ↔ ∀ id row, t.find id = some row → f row = 0 := by
  have zero : t.total (fun _ => 0) = 0 := by simp [total, KeyedTable.total]
  have equal := t.total_eq_total_iff nonneg
  rw [zero] at equal
  exact ⟨fun none id row found => (equal.1 none.symm id row found).symm,
    fun all => (equal.2 fun id row found => (all id row found).symm).symm⟩

theorem mem_idsWhere {t : AutoIncrement ν} {p : ν → Bool} {id : Int} :
    id ∈ t.idsWhere p ↔ ∃ row, t.find id = some row ∧ p row = true := by
  simp only [idsWhere, List.mem_insertionSort, List.mem_map, List.mem_filter, Prod.exists,
    exists_and_right, exists_eq_right, find, KeyedTable.find_eq_some_iff]

end AutoIncrement

end TavilyHikari.Library
