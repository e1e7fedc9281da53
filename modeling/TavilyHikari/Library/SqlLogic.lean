/-
Module: TavilyHikari.Library.SqlLogic
Purpose: SQL conditions. A condition is true, false or NULL, and a `WHEN` or a
  `WHERE` takes it only when it is true.
Trusted boundary: human-reviewed spec
Main exports: SqlBool, SqlBool.and, SqlBool.or, SqlBool.not, between, holds
-/
import Mathlib.Tactic.Common

namespace TavilyHikari.Library

/-- The value of an SQL condition; `none` is NULL. -/
abbrev SqlBool := Option Bool

namespace SqlBool

/-- A comparison whose operands are not NULL. -/
def known (b : Bool) : SqlBool := some b

def and : SqlBool → SqlBool → SqlBool
  | some false, _ => some false
  | _, some false => some false
  | some true, some true => some true
  | _, _ => none

def or : SqlBool → SqlBool → SqlBool
  | some true, _ => some true
  | _, some true => some true
  | some false, some false => some false
  | _, _ => none

def not : SqlBool → SqlBool
  | some b => some (!b)
  | none => none

/-- `x BETWEEN low AND high`. -/
def between (x : Option Int) (low high : Int) : SqlBool :=
  x.map fun x => low ≤ x ∧ x ≤ high

/-- Whether a `WHEN` or a `WHERE` takes the condition. -/
def holds (condition : SqlBool) : Bool := condition = some true

@[simp] theorem holds_known (b : Bool) : (known b).holds = b := by
  cases b <;> rfl

@[simp] theorem holds_and (p q : SqlBool) : (p.and q).holds = (p.holds && q.holds) := by
  rcases p with _ | _ | _ <;> rcases q with _ | _ | _ <;> rfl

@[simp] theorem holds_or (p q : SqlBool) : (p.or q).holds = (p.holds || q.holds) := by
  rcases p with _ | _ | _ <;> rcases q with _ | _ | _ <;> rfl

/-- Only a condition that is known to be false has a negation that holds. -/
theorem holds_not_iff (p : SqlBool) : p.not.holds = true ↔ p = some false := by
  rcases p with _ | _ | _ <;> decide

/-- A disjunction is NULL when no side holds and one of them is NULL. -/
theorem or_eq_some_false_iff (p q : SqlBool) :
    p.or q = some false ↔ p = some false ∧ q = some false := by
  rcases p with _ | _ | _ <;> rcases q with _ | _ | _ <;> decide

end SqlBool

end TavilyHikari.Library
