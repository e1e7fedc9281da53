/-
Module: TavilyHikari.Library.KeyedTable
Purpose: Finite tables with a primary key, with the statements a program runs
  against them: point reads, `INSERT ... ON CONFLICT DO UPDATE`, updates and
  deletes under a condition, first rows in an order, and sums over the rows a
  condition selects. That no key occurs twice is a field of the table.
Trusted boundary: human-reviewed spec (the meaning of the statements)
Main exports: KeyedTable, find, upsert, modify, deleteWhere, total,
  find_upsert_self, find_upsert_of_ne, total_upsert
-/
import Mathlib.Data.List.Sort
import Mathlib.Logic.Function.Basic
import TavilyHikari.Library.Sums

namespace TavilyHikari.Library

universe u v w

variable {κ : Type u} {ν : Type v}

/-- A table whose keys are distinct. -/
structure KeyedTable (κ : Type u) (ν : Type v) where
  rows : List (κ × ν)
  distinct : (rows.map Prod.fst).Nodup

namespace KeyedTable

def empty : KeyedTable κ ν := { rows := [], distinct := List.nodup_nil }

instance : Inhabited (KeyedTable κ ν) := ⟨empty⟩

@[ext] theorem ext {t u : KeyedTable κ ν} (same : t.rows = u.rows) : t = u := by
  cases t
  cases u
  cases same
  rfl

/-- `UPDATE ... SET f`, over all rows. -/
def mapValues (t : KeyedTable κ ν) (f : κ → ν → ν) : KeyedTable κ ν where
  rows := t.rows.map fun row => (row.1, f row.1 row.2)
  distinct := by
    have keys : (t.rows.map fun row => (row.1, f row.1 row.2)).map Prod.fst =
        t.rows.map Prod.fst := by simp [List.map_map, Function.comp_def]
    rw [keys]
    exact t.distinct

/-- `DELETE ... WHERE p`. -/
def deleteWhere (t : KeyedTable κ ν) (p : κ → ν → Bool) : KeyedTable κ ν where
  rows := t.rows.filter fun row => !p row.1 row.2
  distinct := t.distinct.sublist (List.filter_sublist.map Prod.fst)

/-- `UPDATE ... SET f WHERE p`. -/
def updateWhere (t : KeyedTable κ ν) (p : κ → ν → Bool) (f : ν → ν) : KeyedTable κ ν :=
  t.mapValues fun k v => if p k v then f v else v

/-- `SELECT EXISTS (... WHERE p)`; also whether an update under `p` affects a row. -/
def existsWhere (t : KeyedTable κ ν) (p : κ → ν → Bool) : Bool :=
  t.rows.any fun row => p row.1 row.2

/-- `SELECT ... WHERE p ORDER BY le LIMIT 1`. -/
def firstWhere (t : KeyedTable κ ν) (p : κ → ν → Bool) (le : κ × ν → κ × ν → Prop)
    [DecidableRel le] : Option (κ × ν) :=
  ((t.rows.filter fun row => p row.1 row.2).insertionSort le).head?

/-- `SELECT SUM(f) ... WHERE p`, 0 over no rows. -/
def total (t : KeyedTable κ ν) (p : κ → Bool) (f : ν → Int) : Int :=
  ((t.rows.filter fun row => p row.1).map fun row => f row.2).sum

@[simp] theorem total_empty (p : κ → Bool) (f : ν → Int) :
    (empty : KeyedTable κ ν).total p f = 0 := rfl

/-- A delete leaves the other rows as they are. -/
theorem filter_rows_deleteWhere (t : KeyedTable κ ν) {d : κ → ν → Bool} {p : κ → Bool}
    (kept : ∀ k v, p k = true → d k v = false) :
    ((t.deleteWhere d).rows.filter fun row => p row.1) = t.rows.filter fun row => p row.1 := by
  rw [deleteWhere, List.filter_filter]
  apply List.filter_congr
  intro row _
  cases chosen : p row.1 with
  | true => simp [kept row.1 row.2 chosen]
  | false => simp

/-- A delete leaves a sum over other rows as it is. -/
theorem total_deleteWhere (t : KeyedTable κ ν) {d : κ → ν → Bool} {p : κ → Bool} (f : ν → Int)
    (kept : ∀ k v, p k = true → d k v = false) : (t.deleteWhere d).total p f = t.total p f := by
  rw [total, total, filter_rows_deleteWhere t kept]

/-- A sum over rows that are of one of two kinds. -/
theorem total_split (t : KeyedTable κ ν) {p q r : κ → Bool} (f : ν → Int)
    (kinds : ∀ k, p k = (q k ^^ r k)) (apart : ∀ k, q k = true → r k = false) :
    t.total p f = t.total q f + t.total r f := by
  unfold total
  induction t.rows with
  | nil => rfl
  | cons row rows ih =>
      cases first : q row.1 with
      | true =>
          have second := apart row.1 first
          simp only [List.filter_cons, kinds row.1, first, second, Bool.xor_false, if_true,
            List.map_cons, List.sum_cons, ih]
          simp only [Bool.false_eq_true, if_false, Int.add_assoc]
      | false =>
          cases second : r row.1 with
          | true =>
              simp only [List.filter_cons, kinds row.1, first, second, Bool.false_xor, if_true,
                List.map_cons, List.sum_cons, ih]
              simp only [Bool.false_eq_true, if_false]
              omega
          | false =>
              simp only [List.filter_cons, kinds row.1, first, second, Bool.xor_self,
                Bool.false_eq_true, if_false, ih]

end KeyedTable

variable [DecidableEq κ]

/-- First value stored under a key. -/
def findRow (k : κ) : List (κ × ν) → Option ν
  | [] => none
  | (k', v) :: rows => if k' = k then some v else findRow k rows

/-- Replace the value under a key by `merge` of it, or append a new row. -/
def upsertRow (k : κ) (fresh : ν) (merge : ν → ν) : List (κ × ν) → List (κ × ν)
  | [] => [(k, fresh)]
  | (k', v) :: rows =>
      if k' = k then (k', merge v) :: rows
      else (k', v) :: upsertRow k fresh merge rows

theorem findRow_eq_none_iff {k : κ} {rows : List (κ × ν)} :
    findRow k rows = none ↔ k ∉ rows.map Prod.fst := by
  induction rows with
  | nil => simp [findRow]
  | cons row rows ih =>
      by_cases same : row.1 = k
      · simp [findRow, same]
      · simp [findRow, same, ih, Ne.symm same]

theorem findRow_mem {k : κ} {v : ν} {rows : List (κ × ν)}
    (found : findRow k rows = some v) : (k, v) ∈ rows := by
  induction rows with
  | nil => simp [findRow] at found
  | cons row rows ih =>
      obtain ⟨k', v'⟩ := row
      by_cases same : k' = k
      · simp only [findRow, same, if_true, Option.some.injEq] at found
        simp [same, found]
      · simp only [findRow, same, if_false] at found
        exact List.mem_cons_of_mem _ (ih found)

theorem findRow_of_mem {k : κ} {v : ν} {rows : List (κ × ν)}
    (distinct : (rows.map Prod.fst).Nodup) (member : (k, v) ∈ rows) :
    findRow k rows = some v := by
  induction rows with
  | nil => simp at member
  | cons row rows ih =>
      obtain ⟨k', v'⟩ := row
      simp only [List.map_cons, List.nodup_cons] at distinct
      rcases List.mem_cons.1 member with head | tail
      · cases head
        simp [findRow]
      · have other : k' ≠ k := by
          rintro rfl
          exact distinct.1 (List.mem_map_of_mem (f := Prod.fst) tail)
        simp [findRow, other, ih distinct.2 tail]

theorem keys_upsertRow (k : κ) (fresh : ν) (merge : ν → ν) (rows : List (κ × ν)) :
    (upsertRow k fresh merge rows).map Prod.fst =
      if k ∈ rows.map Prod.fst then rows.map Prod.fst
      else rows.map Prod.fst ++ [k] := by
  induction rows with
  | nil => simp [upsertRow]
  | cons row rows ih =>
      obtain ⟨k', v⟩ := row
      by_cases same : k' = k
      · simp [upsertRow, same]
      · simp only [upsertRow, same, if_false, List.map_cons, ih, List.mem_cons,
          Ne.symm same, false_or]
        split <;> simp

theorem modifyRows_of_notMem {k : κ} {g : ν → ν} {rows : List (κ × ν)}
    (absent : k ∉ rows.map Prod.fst) :
    (rows.map fun row => (row.1, if row.1 = k then g row.2 else row.2)) = rows := by
  induction rows with
  | nil => rfl
  | cons row rows ih =>
      obtain ⟨k', v⟩ := row
      simp only [List.map_cons, List.mem_cons, not_or] at absent
      simp [Ne.symm absent.1, ih absent.2]

theorem modifyRows_eq_upsertRow {k : κ} {g : ν → ν} {fresh : ν} {rows : List (κ × ν)}
    (present : k ∈ rows.map Prod.fst) (distinct : (rows.map Prod.fst).Nodup) :
    (rows.map fun row => (row.1, if row.1 = k then g row.2 else row.2)) =
      upsertRow k fresh g rows := by
  induction rows with
  | nil => simp at present
  | cons row rows ih =>
      obtain ⟨k', v⟩ := row
      simp only [List.map_cons, List.nodup_cons] at distinct
      by_cases same : k' = k
      · subst same
        simp [upsertRow, modifyRows_of_notMem distinct.1]
      · have later : k ∈ rows.map Prod.fst := by
          rcases List.mem_cons.1 present with head | tail
          · exact absurd head.symm same
          · exact tail
        simp [upsertRow, same, ih later distinct.2]

namespace KeyedTable

/-- `SELECT ... WHERE key = k`. -/
def find (t : KeyedTable κ ν) (k : κ) : Option ν := findRow k t.rows

/-- `INSERT ... VALUES (k, fresh) ON CONFLICT(key) DO UPDATE`, `merge` being the
assignment of the update. -/
def upsert (t : KeyedTable κ ν) (k : κ) (fresh : ν) (merge : ν → ν) :
    KeyedTable κ ν where
  rows := upsertRow k fresh merge t.rows
  distinct := by
    rw [keys_upsertRow]
    split
    · exact t.distinct
    · rename_i new
      exact List.nodup_append.2
        ⟨t.distinct, by simp, by
          rintro a member b last rfl
          rw [List.mem_singleton.1 last] at member
          exact new member⟩

/-- One upsert after another. -/
def upsertAll {α : Type w} (t : KeyedTable κ ν) (fresh : α → ν) (merge : α → ν → ν)
    (entries : List (κ × α)) : KeyedTable κ ν :=
  entries.foldl (fun t entry => t.upsert entry.1 (fresh entry.2) (merge entry.2)) t

/-- `UPDATE ... SET f WHERE key = k`. -/
def modify (t : KeyedTable κ ν) (k : κ) (f : ν → ν) : KeyedTable κ ν :=
  t.mapValues fun k' v => if k' = k then f v else v

/-- One update of a row after another. -/
def modifyAll {α : Type w} (t : KeyedTable κ ν) (f : α → ν → ν) (entries : List (κ × α)) :
    KeyedTable κ ν :=
  entries.foldl (fun t entry => t.modify entry.1 (f entry.2)) t

@[simp] theorem find_empty (k : κ) : (empty : KeyedTable κ ν).find k = none := rfl

theorem find_eq_some_iff {t : KeyedTable κ ν} {k : κ} {v : ν} :
    t.find k = some v ↔ (k, v) ∈ t.rows :=
  ⟨findRow_mem, findRow_of_mem t.distinct⟩

theorem find_eq_none_iff {t : KeyedTable κ ν} {k : κ} :
    t.find k = none ↔ k ∉ t.rows.map Prod.fst :=
  findRow_eq_none_iff

theorem rows_eq_nil_iff {t : KeyedTable κ ν} : t.rows = [] ↔ ∀ k, t.find k = none := by
  simp only [find_eq_none_iff]
  constructor
  · intro none k
    simp [none]
  · intro none
    rw [List.eq_nil_iff_forall_not_mem]
    intro row member
    exact none row.1 (List.mem_map_of_mem (f := Prod.fst) member)

@[simp] theorem find_upsert_self (t : KeyedTable κ ν) (k : κ) (fresh : ν)
    (merge : ν → ν) :
    (t.upsert k fresh merge).find k =
      some ((t.find k).elim fresh merge) := by
  unfold find upsert
  simp only
  induction t.rows with
  | nil => simp [upsertRow, findRow]
  | cons row rows ih =>
      obtain ⟨k', v⟩ := row
      by_cases same : k' = k
      · simp [upsertRow, findRow, same]
      · simp [upsertRow, findRow, same, ih]

theorem find_upsert_of_ne (t : KeyedTable κ ν) {k k' : κ} (other : k' ≠ k)
    (fresh : ν) (merge : ν → ν) :
    (t.upsert k fresh merge).find k' = t.find k' := by
  unfold find upsert
  simp only
  induction t.rows with
  | nil => simp [upsertRow, findRow, Ne.symm other]
  | cons row rows ih =>
      obtain ⟨k₀, v⟩ := row
      by_cases same : k₀ = k
      · subst same
        simp [upsertRow, findRow, Ne.symm other]
      · by_cases here : k₀ = k'
        · subst here
          simp [upsertRow, findRow, same]
        · simp [upsertRow, findRow, same, here, ih]

theorem upsertAll_cons {α : Type w} (t : KeyedTable κ ν) (fresh : α → ν) (merge : α → ν → ν)
    (entry : κ × α) (entries : List (κ × α)) :
    t.upsertAll fresh merge (entry :: entries) =
      (t.upsert entry.1 (fresh entry.2) (merge entry.2)).upsertAll fresh merge entries := rfl

theorem find_upsertAll_of_notMem {α : Type w} (t : KeyedTable κ ν) (fresh : α → ν)
    (merge : α → ν → ν) {entries : List (κ × α)} {k : κ}
    (absent : k ∉ entries.map Prod.fst) :
    (t.upsertAll fresh merge entries).find k = t.find k := by
  induction entries generalizing t with
  | nil => rfl
  | cons entry entries ih =>
      simp only [List.map_cons, List.mem_cons, not_or] at absent
      rw [upsertAll_cons, ih _ absent.2, t.find_upsert_of_ne absent.1]

/-- With distinct keys, every entry is merged into the row that was there. -/
theorem find_upsertAll_of_mem {α : Type w} (t : KeyedTable κ ν) (fresh : α → ν)
    (merge : α → ν → ν) {entries : List (κ × α)} {k : κ} {a : α}
    (distinct : (entries.map Prod.fst).Nodup) (member : (k, a) ∈ entries) :
    (t.upsertAll fresh merge entries).find k = some ((t.find k).elim (fresh a) (merge a)) := by
  induction entries generalizing t with
  | nil => simp at member
  | cons entry entries ih =>
      simp only [List.map_cons, List.nodup_cons] at distinct
      rw [upsertAll_cons]
      rcases List.mem_cons.1 member with head | tail
      · cases head
        rw [find_upsertAll_of_notMem _ _ _ distinct.1, find_upsert_self]
      · have other : k ≠ entry.1 := by
          rintro rfl
          exact distinct.1 (List.mem_map.2 ⟨_, tail, rfl⟩)
        rw [ih _ distinct.2 tail, t.find_upsert_of_ne other]

/-- What no upsert changes about a value is as before, under every key. -/
theorem elim_find_upsertAll {α : Type w} {β : Type u} (t : KeyedTable κ ν) {fresh : α → ν}
    {merge : α → ν → ν} {default : β} {f : ν → β} (entries : List (κ × α))
    (freshSame : ∀ a, f (fresh a) = default) (mergeSame : ∀ a v, f (merge a v) = f v) (k : κ) :
    ((t.upsertAll fresh merge entries).find k).elim default f = (t.find k).elim default f := by
  induction entries generalizing t with
  | nil => rfl
  | cons entry entries ih =>
      rw [upsertAll_cons, ih]
      by_cases same : k = entry.1
      · subst same
        rw [find_upsert_self]
        cases t.find entry.1 with
        | none => exact freshSame entry.2
        | some v => exact mergeSame entry.2 v
      · rw [t.find_upsert_of_ne same]

@[simp] theorem find_mapValues (t : KeyedTable κ ν) (f : κ → ν → ν) (k : κ) :
    (t.mapValues f).find k = (t.find k).map (f k) := by
  unfold find mapValues
  simp only
  induction t.rows with
  | nil => simp [findRow]
  | cons row rows ih =>
      obtain ⟨k', v⟩ := row
      by_cases same : k' = k
      · simp [findRow, same]
      · simp [findRow, same, ih]

@[simp] theorem find_modify_self (t : KeyedTable κ ν) (k : κ) (f : ν → ν) :
    (t.modify k f).find k = (t.find k).map f := by
  simp [modify]

theorem find_modify_of_ne (t : KeyedTable κ ν) {k k' : κ} (other : k' ≠ k)
    (f : ν → ν) : (t.modify k f).find k' = t.find k' := by
  simp [modify, other]

theorem find_modifyAll_of_notMem {α : Type w} (t : KeyedTable κ ν) (f : α → ν → ν)
    {entries : List (κ × α)} {k : κ} (absent : k ∉ entries.map Prod.fst) :
    (t.modifyAll f entries).find k = t.find k := by
  induction entries generalizing t with
  | nil => rfl
  | cons entry entries ih =>
      simp only [List.map_cons, List.mem_cons, not_or] at absent
      exact (ih (t.modify entry.1 (f entry.2)) absent.2).trans (t.find_modify_of_ne absent.1 _)

theorem find_modifyAll_of_mem {α : Type w} (t : KeyedTable κ ν) (f : α → ν → ν)
    {entries : List (κ × α)} {k : κ} {a : α} (distinct : (entries.map Prod.fst).Nodup)
    (member : (k, a) ∈ entries) : (t.modifyAll f entries).find k = (t.find k).map (f a) := by
  induction entries generalizing t with
  | nil => cases member
  | cons entry entries ih =>
      simp only [List.map_cons, List.nodup_cons] at distinct
      rcases List.mem_cons.1 member with head | tail
      · cases head
        exact (find_modifyAll_of_notMem _ f distinct.1).trans (t.find_modify_self k (f a))
      · have other : k ≠ entry.1 := by
          rintro rfl
          exact distinct.1 (List.mem_map.2 ⟨_, tail, rfl⟩)
        have later := ih (t.modify entry.1 (f entry.2)) distinct.2 tail
        rw [t.find_modify_of_ne other] at later
        exact later

/-! ### What holds of every value -/

theorem forall_upsert {t : KeyedTable κ ν} {P : ν → Prop} {k : κ} {fresh : ν} {merge : ν → ν}
    (before : ∀ k v, t.find k = some v → P v) (inserted : P fresh)
    (merged : ∀ v, P v → P (merge v)) :
    ∀ k' v, (t.upsert k fresh merge).find k' = some v → P v := by
  intro k' v found
  by_cases same : k' = k
  · subst same
    rw [find_upsert_self] at found
    cases there : t.find k' with
    | none =>
        rw [there] at found
        cases found
        exact inserted
    | some old =>
        rw [there] at found
        cases found
        exact merged old (before k' old there)
  · rw [t.find_upsert_of_ne same] at found
    exact before k' v found

theorem forall_upsertAll {α : Type w} {t : KeyedTable κ ν} {P : ν → Prop} {fresh : α → ν}
    {merge : α → ν → ν} {entries : List (κ × α)} (before : ∀ k v, t.find k = some v → P v)
    (inserted : ∀ entry ∈ entries, P (fresh entry.2))
    (merged : ∀ entry ∈ entries, ∀ v, P v → P (merge entry.2 v)) :
    ∀ k v, (t.upsertAll fresh merge entries).find k = some v → P v := by
  induction entries generalizing t with
  | nil => exact before
  | cons entry entries ih =>
      rw [upsertAll_cons]
      apply ih
      · exact forall_upsert before (inserted entry List.mem_cons_self)
          (merged entry List.mem_cons_self)
      · intro later member
        exact inserted later (List.mem_cons_of_mem entry member)
      · intro later member
        exact merged later (List.mem_cons_of_mem entry member)

theorem forall_modify {t : KeyedTable κ ν} {P : ν → Prop} {k : κ} {f : ν → ν}
    (before : ∀ k v, t.find k = some v → P v) (modified : ∀ v, P v → P (f v)) :
    ∀ k' v, (t.modify k f).find k' = some v → P v := by
  intro k' v found
  by_cases same : k' = k
  · subst same
    rw [find_modify_self, Option.map_eq_some_iff] at found
    obtain ⟨old, there, rfl⟩ := found
    exact modified old (before k' old there)
  · rw [t.find_modify_of_ne same] at found
    exact before k' v found

theorem forall_modifyAll {α : Type w} {t : KeyedTable κ ν} {P : ν → Prop} {f : α → ν → ν}
    {entries : List (κ × α)} (before : ∀ k v, t.find k = some v → P v)
    (modified : ∀ entry ∈ entries, ∀ v, P v → P (f entry.2 v)) :
    ∀ k v, (t.modifyAll f entries).find k = some v → P v := by
  induction entries generalizing t with
  | nil => exact before
  | cons entry entries ih =>
      apply @ih (t.modify entry.1 (f entry.2))
      · exact forall_modify before (modified entry List.mem_cons_self)
      · intro later member
        exact modified later (List.mem_cons_of_mem entry member)

theorem find_deleteWhere (t : KeyedTable κ ν) (p : κ → ν → Bool) (k : κ) :
    (t.deleteWhere p).find k = (t.find k).filter fun v => !p k v := by
  cases found : t.find k with
  | none =>
      rw [Option.filter_none, find_eq_none_iff]
      rw [find_eq_none_iff] at found
      intro member
      obtain ⟨row, kept, rfl⟩ := List.mem_map.1 member
      exact found (List.mem_map_of_mem (List.mem_of_mem_filter kept))
  | some v =>
      rw [find_eq_some_iff] at found
      cases drop : p k v with
      | false =>
          simp only [Option.filter_some, drop, Bool.not_false, if_true]
          exact find_eq_some_iff.2 (List.mem_filter.2 ⟨found, by simp [drop]⟩)
      | true =>
          simp only [Option.filter_some, drop, Bool.not_true, Bool.false_eq_true, if_false]
          rw [find_eq_none_iff]
          intro member
          obtain ⟨⟨k', v'⟩, kept, same⟩ := List.mem_map.1 member
          cases same
          obtain ⟨old, keep⟩ := List.mem_filter.1 kept
          have first := findRow_of_mem t.distinct found
          have second := findRow_of_mem t.distinct old
          rw [first] at second
          cases second
          simp [drop] at keep

@[simp] theorem find_updateWhere (t : KeyedTable κ ν) (p : κ → ν → Bool) (f : ν → ν) (k : κ) :
    (t.updateWhere p f).find k = (t.find k).map fun v => if p k v then f v else v := by
  simp [updateWhere]

theorem existsWhere_eq_true_iff {t : KeyedTable κ ν} {p : κ → ν → Bool} :
    t.existsWhere p = true ↔ ∃ k v, t.find k = some v ∧ p k v = true := by
  simp only [existsWhere, List.any_eq_true, Prod.exists, find_eq_some_iff]

/-- The first row is a row that the condition selects. -/
theorem find_of_firstWhere {t : KeyedTable κ ν} {p : κ → ν → Bool} {le : κ × ν → κ × ν → Prop}
    [DecidableRel le] {k : κ} {v : ν} (first : t.firstWhere p le = some (k, v)) :
    t.find k = some v ∧ p k v = true := by
  have member := List.mem_of_head? first
  rw [List.mem_insertionSort, List.mem_filter] at member
  exact ⟨find_eq_some_iff.2 member.1, member.2⟩

/-- Where there is no first row, the condition selects none. -/
theorem firstWhere_eq_none {t : KeyedTable κ ν} {p : κ → ν → Bool} {le : κ × ν → κ × ν → Prop}
    [DecidableRel le] (missing : t.firstWhere p le = none) {k : κ} {v : ν}
    (found : t.find k = some v) : p k v = false := by
  have empty := List.head?_eq_none_iff.1 missing
  cases chosen : p k v with
  | false => rfl
  | true =>
      have member : (k, v) ∈ (t.rows.filter fun row => p row.1 row.2).insertionSort le := by
        rw [List.mem_insertionSort]
        exact List.mem_filter.2 ⟨find_eq_some_iff.1 found, chosen⟩
      rw [empty] at member
      cases member

/-- What an upsert adds to a sum: the new value minus the one it replaces. -/
theorem total_upsert (t : KeyedTable κ ν) (k : κ) (fresh : ν) (merge : ν → ν)
    (p : κ → Bool) (f : ν → Int) :
    (t.upsert k fresh merge).total p f =
      t.total p f +
        if p k then
          (t.find k).elim (f fresh) fun old => f (merge old) - f old
        else 0 := by
  unfold total find upsert
  simp only
  induction t.rows with
  | nil => cases chosen : p k <;> simp [upsertRow, findRow, chosen]
  | cons row rows ih =>
      obtain ⟨k', v⟩ := row
      by_cases same : k' = k
      · subst same
        cases chosen : p k'
        · simp [upsertRow, chosen]
        · simp only [upsertRow, findRow, chosen, List.filter_cons_of_pos, List.map_cons,
            List.sum_cons, if_true, Option.elim_some]
          omega
      · simp only [upsertRow, findRow, same, if_false]
        cases mine : p k'
        · simpa [List.filter_cons, mine] using ih
        · simp only [List.filter_cons, mine, if_true, List.map_cons, List.sum_cons, ih]
          omega

/-- What an update of one row adds to a sum. -/
theorem total_modify (t : KeyedTable κ ν) (k : κ) (g : ν → ν) (p : κ → Bool)
    (f : ν → Int) :
    (t.modify k g).total p f =
      t.total p f +
        if p k then (t.find k).elim 0 fun old => f (g old) - f old else 0 := by
  cases found : t.find k with
  | none =>
      have untouched : t.modify k g = t := ext (modifyRows_of_notMem (find_eq_none_iff.1 found))
      simp [untouched]
  | some v =>
      -- Where the key is present, the update is an upsert.
      have present : k ∈ t.rows.map Prod.fst :=
        List.mem_map_of_mem (f := Prod.fst) (findRow_mem found)
      have same : t.modify k g = t.upsert k (g v) g :=
        ext (modifyRows_eq_upsertRow present t.distinct)
      rw [same, total_upsert, found]
      simp only [Option.elim_some]

/-- A sum is at most another one that is larger row by row, and equal to it only
where every row is. -/
theorem total_le_total (t : KeyedTable κ ν) {f g : ν → Int} (le : ∀ v, f v ≤ g v) :
    t.total (fun _ => true) f ≤ t.total (fun _ => true) g ∧
      (t.total (fun _ => true) f = t.total (fun _ => true) g ↔
        ∀ k v, t.find k = some v → f v = g v) := by
  obtain ⟨below, same⟩ := sum_map_le_iff (l := t.rows) fun row _ => le row.2
  unfold total
  rw [List.filter_true]
  refine ⟨below, same.trans ?_⟩
  simp only [find_eq_some_iff, Prod.forall]

/-- Inserting under a new key appends a row. -/
theorem rows_upsert_of_absent {t : KeyedTable κ ν} {k : κ} (absent : t.find k = none)
    (fresh : ν) (merge : ν → ν) : (t.upsert k fresh merge).rows = t.rows ++ [(k, fresh)] := by
  unfold find at absent
  unfold upsert
  simp only
  revert absent
  induction t.rows with
  | nil => intro _; rfl
  | cons row rows ih =>
      obtain ⟨k', v⟩ := row
      intro absent
      by_cases same : k' = k
      · simp [findRow, same] at absent
      · simp only [findRow, same, if_false] at absent
        simp [upsertRow, same, ih absent]

theorem length_rows_upsert (t : KeyedTable κ ν) (k : κ) (fresh : ν) (merge : ν → ν) :
    (t.upsert k fresh merge).rows.length =
      if (t.find k).isSome then t.rows.length else t.rows.length + 1 := by
  have keys := congrArg List.length (keys_upsertRow k fresh merge t.rows)
  rw [List.length_map] at keys
  change (upsertRow k fresh merge t.rows).length = _
  rw [keys]
  cases found : t.find k with
  | none => simp [find_eq_none_iff.1 found]
  | some v => simp [List.mem_map_of_mem (f := Prod.fst) (find_eq_some_iff.1 found)]

/-- An upsert leaves the rows of other keys as they are. -/
theorem filter_rows_upsert (t : KeyedTable κ ν) {k : κ} {p : κ → Bool} (other : p k = false)
    (fresh : ν) (merge : ν → ν) :
    ((t.upsert k fresh merge).rows.filter fun row => p row.1) =
      t.rows.filter fun row => p row.1 := by
  change (upsertRow k fresh merge t.rows).filter _ = _
  induction t.rows with
  | nil => rw [upsertRow, List.filter_cons_of_neg (by simp [other])]
  | cons row rows ih =>
      obtain ⟨k', v⟩ := row
      by_cases same : k' = k
      · subst same
        rw [upsertRow, if_pos rfl, List.filter_cons_of_neg (by simp [other]),
          List.filter_cons_of_neg (by simp [other])]
      · rw [upsertRow, if_neg same, List.filter_cons, List.filter_cons, ih]

/-! ### Columns -/

/-- A column after the insert of a key that is not there. -/
theorem map_find_upsert {β : Type w} (t : KeyedTable κ ν) {k : κ} {fresh : ν} {f : ν → β}
    (absent : t.find k = none) :
    (fun other => ((t.upsert k fresh fun _ => fresh).find other).map f) =
      Function.update (fun other => (t.find other).map f) k (some (f fresh)) := by
  funext other
  by_cases same : other = k
  · subst same
    rw [find_upsert_self, absent, Function.update_self]
    rfl
  · rw [find_upsert_of_ne _ same, Function.update_of_ne same]

/-- A column that an update leaves alone. -/
theorem map_find_modify {β : Type w} (t : KeyedTable κ ν) {k : κ} {g : ν → ν} {f : ν → β}
    (keeps : ∀ v, f (g v) = f v) (other : κ) :
    ((t.modify k g).find other).map f = (t.find other).map f := by
  by_cases same : other = k
  · subst same
    rw [find_modify_self, Option.map_map]
    congr 1
    exact funext keeps
  · rw [find_modify_of_ne _ same]

theorem isSome_find_modify (t : KeyedTable κ ν) {k : κ} {g : ν → ν} (other : κ) :
    ((t.modify k g).find other).isSome = (t.find other).isSome := by
  by_cases same : other = k
  · subst same
    rw [find_modify_self, Option.isSome_map]
  · rw [find_modify_of_ne _ same]

theorem isSome_find_upsert (t : KeyedTable κ ν) {k : κ} {fresh : ν} {merge : ν → ν} (other : κ) :
    ((t.upsert k fresh merge).find other).isSome = true ↔
      other = k ∨ (t.find other).isSome = true := by
  by_cases same : other = k
  · subst same
    rw [find_upsert_self]
    simp
  · rw [find_upsert_of_ne _ same]
    simp [same]

/-- A table is one of its rows and what is left without the key of it. -/
theorem rows_perm_of_find {t : KeyedTable κ ν} {k : κ} {v : ν} (found : t.find k = some v) :
    t.rows.Perm ((k, v) :: (t.deleteWhere fun k' _ => k' = k).rows) := by
  obtain ⟨before, after, split⟩ := List.append_of_mem (find_eq_some_iff.1 found)
  have distinct := t.distinct
  rw [split, List.map_append, List.map_cons, List.nodup_append, List.nodup_cons] at distinct
  obtain ⟨-, ⟨notAfter, -⟩, apart⟩ := distinct
  have others : (t.deleteWhere fun k' _ => k' = k).rows = before ++ after := by
    change (t.rows.filter fun row => !decide (row.1 = k)) = _
    rw [split]
    simp only [List.filter_append, List.filter_cons, decide_true, Bool.not_true,
      Bool.false_eq_true, if_false]
    congr 1
    · rw [List.filter_eq_self]
      intro row member
      simpa using apart row.1 (List.mem_map_of_mem (f := Prod.fst) member) k List.mem_cons_self
    · rw [List.filter_eq_self]
      intro row member
      have listed : row.1 ∈ after.map Prod.fst := List.mem_map_of_mem member
      have other : row.1 ≠ k := fun same => notAfter (same ▸ listed)
      simpa using other
  rw [others, split]
  exact List.perm_middle

/-- Deleting the keys of the first rows of an order leaves its other rows. -/
theorem rows_deleteWhere_first {t : KeyedTable κ ν} {first last : List (κ × ν)}
    (same : (first ++ last).Perm t.rows) :
    (t.deleteWhere fun k _ => decide (k ∈ first.map Prod.fst)).rows.Perm last := by
  have distinct : ((first ++ last).map Prod.fst).Nodup :=
    (same.map Prod.fst).nodup_iff.2 t.distinct
  rw [List.map_append, List.nodup_append] at distinct
  obtain ⟨-, -, apart⟩ := distinct
  have kept : (first ++ last).filter (fun row => !decide (row.1 ∈ first.map Prod.fst)) = last := by
    rw [List.filter_append, List.filter_eq_nil_iff.2, List.nil_append, List.filter_eq_self]
    · intro row member
      simp only [Bool.not_eq_true', decide_eq_false_iff_not]
      intro dropped
      exact apart row.1 dropped row.1 (List.mem_map_of_mem (f := Prod.fst) member) rfl
    · intro row member
      simp [List.mem_map_of_mem (f := Prod.fst) member]
  have swapped := same.symm.filter fun row => !decide (row.1 ∈ first.map Prod.fst)
  rwa [kept] at swapped

/-- A selection of the rows of a table is the rows that it still finds. -/
theorem rows_eq_filter_find {t u : KeyedTable κ ν} {p : κ × ν → Bool}
    (selected : u.rows = t.rows.filter p) :
    u.rows = t.rows.filter fun row => (u.find row.1).isSome := by
  rw [selected]
  apply List.filter_congr
  intro row member
  cases kept : p row with
  | true =>
      have found : u.find row.1 = some row.2 := by
        rw [find_eq_some_iff, selected]
        exact List.mem_filter.2 ⟨member, kept⟩
      rw [found]
      rfl
  | false =>
      cases found : u.find row.1 with
      | none => rfl
      | some value =>
          have stored : (row.1, value) ∈ t.rows.filter p := by
            rw [← selected, ← find_eq_some_iff, found]
          obtain ⟨old, keep⟩ := List.mem_filter.1 stored
          have same : value = row.2 := by
            have first := findRow_of_mem t.distinct old
            rw [findRow_of_mem t.distinct member] at first
            exact (Option.some.inj first).symm
          rw [same, kept] at keep
          cases keep

end KeyedTable

end TavilyHikari.Library
