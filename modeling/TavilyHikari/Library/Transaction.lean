/-
Module: TavilyHikari.Library.Transaction
Purpose: Database transactions as programs over a working copy. Any statement of
  one may break, and a transaction that breaks or is abandoned leaves the
  database as it was. The rules of `Yields` take a committed transaction apart
  statement by statement.
Trusted boundary: human-reviewed spec (atomicity of a transaction)
Main exports: Tx, execute, query, transaction, Yields, transaction_cases
-/
import Mathlib.Tactic.Common

namespace TavilyHikari.Library

universe u

/-- The working copy, and how many more statements go through before one breaks.
`none` is a connection that does not break. -/
structure TxState (Db : Type u) where
  copy : Db
  healthy : Option Nat

/-- A program over a working copy. Its errors abandon the transaction. -/
abbrev Tx (ε Db α : Type u) := StateT (TxState Db) (Except ε) α

namespace Tx

variable {ε Db α β : Type u}

/-- One statement, with the error it ends in when it breaks. -/
def statement (broken : ε) (f : Db → α × Db) : Tx ε Db α := fun st =>
  match st.healthy with
  | some 0 => .error broken
  | some (more + 1) => .ok ((f st.copy).1, { copy := (f st.copy).2, healthy := some more })
  | none => .ok ((f st.copy).1, { copy := (f st.copy).2, healthy := none })

def execute (broken : ε) (f : Db → Db) : Tx ε Db PUnit :=
  statement broken fun db => (⟨⟩, f db)

def query (broken : ε) (f : Db → α) : Tx ε Db α :=
  statement broken fun db => (f db, db)

/-- Leave the transaction without a commit. -/
def abandon (e : ε) : Tx ε Db α := fun _ => .error e

/-- Go on with the result of a check, or abandon. -/
def ofExcept (result : Except ε α) : Tx ε Db α :=
  match result with
  | .ok a => pure a
  | .error e => abandon e

/-- Begin, run the body, commit. The database changes only when the commit goes
through. -/
def transaction (broken : ε) (body : Tx ε Db α) (healthy : Option Nat) (db : Db) :
    Except ε α × Db :=
  let whole : Tx ε Db α := do
    execute broken id
    let a ← body
    execute broken id
    pure a
  match whole { copy := db, healthy } with
  | .ok (a, st) => (.ok a, st.copy)
  | .error e => (.error e, db)

/-- The program can go through from `db` with result `a` and working copy `db'`. -/
def Yields (x : Tx ε Db α) (db : Db) (a : α) (db' : Db) : Prop :=
  ∃ healthy healthy', x { copy := db, healthy } = .ok (a, { copy := db', healthy := healthy' })

theorem Yields.of_pure {a b : α} {db db' : Db}
    (yields : Yields (pure a : Tx ε Db α) db b db') : b = a ∧ db' = db := by
  obtain ⟨_, _, ran⟩ := yields
  cases ran
  exact ⟨rfl, rfl⟩

theorem Yields.of_bind {x : Tx ε Db α} {f : α → Tx ε Db β} {db db' : Db} {b : β}
    (yields : Yields (x >>= f) db b db') :
    ∃ a mid, Yields x db a mid ∧ Yields (f a) mid b db' := by
  obtain ⟨healthy, healthy', ran⟩ := yields
  change (x { copy := db, healthy }).bind (fun p => f p.1 p.2) = _ at ran
  cases first : x { copy := db, healthy } with
  | error e =>
      rw [first] at ran
      cases ran
  | ok p =>
      rw [first] at ran
      exact ⟨p.1, p.2.copy, ⟨healthy, p.2.healthy, first⟩, ⟨p.2.healthy, healthy', ran⟩⟩

theorem Yields.of_statement {broken : ε} {f : Db → α × Db} {db db' : Db} {a : α}
    (yields : Yields (statement broken f) db a db') : f db = (a, db') := by
  obtain ⟨healthy, healthy', ran⟩ := yields
  unfold statement at ran
  split at ran <;> cases ran <;> rfl

theorem Yields.of_execute {broken : ε} {f : Db → Db} {db db' : Db} {a : PUnit}
    (yields : Yields (execute broken f) db a db') : db' = f db := by
  have ran := Yields.of_statement yields
  cases ran
  rfl

theorem Yields.of_query {broken : ε} {f : Db → α} {db db' : Db} {a : α}
    (yields : Yields (query broken f) db a db') : a = f db ∧ db' = db := by
  have ran := Yields.of_statement yields
  cases ran
  exact ⟨rfl, rfl⟩

theorem Yields.of_abandon {e : ε} {db db' : Db} {a : α}
    (yields : Yields (abandon e) db a db') : False := by
  obtain ⟨_, _, ran⟩ := yields
  cases ran

theorem Yields.of_ofExcept {result : Except ε α} {db db' : Db} {a : α}
    (yields : Yields (ofExcept result) db a db') : result = .ok a ∧ db' = db := by
  cases result with
  | ok b =>
      obtain ⟨rfl, same⟩ := yields.of_pure
      exact ⟨rfl, same⟩
  | error e => exact yields.of_abandon.elim

/-- A transaction either commits what its body yields, or changes nothing. -/
theorem transaction_cases (broken : ε) (body : Tx ε Db α) (healthy : Option Nat)
    (db : Db) :
    (∃ e, transaction broken body healthy db = (.error e, db)) ∨
      ∃ a db', transaction broken body healthy db = (.ok a, db') ∧
        Yields body db a db' := by
  unfold transaction
  simp only
  split
  · rename_i a st ran
    right
    have whole : Yields (do execute broken id; let a ← body; execute broken id; pure a)
        db a st.copy := ⟨healthy, st.healthy, ran⟩
    obtain ⟨_, begun, opened, rest⟩ := whole.of_bind
    obtain ⟨b, mid, ranBody, rest⟩ := rest.of_bind
    obtain ⟨_, last, committed, done⟩ := rest.of_bind
    obtain ⟨rfl, same⟩ := done.of_pure
    have atBegin : begun = db := opened.of_execute
    have atEnd : last = mid := committed.of_execute
    subst atBegin
    subst atEnd
    exact ⟨a, st.copy, rfl, by rw [same]; exact ranBody⟩
  · rename_i e ran
    exact Or.inl ⟨e, rfl⟩

/-- A transaction that ends in an error leaves the database as it was. -/
theorem transaction_of_error {broken : ε} {body : Tx ε Db α} {healthy : Option Nat}
    {db db' : Db} {e : ε} (failed : transaction broken body healthy db = (.error e, db')) :
    db' = db := by
  rcases transaction_cases broken body healthy db with ⟨_, same⟩ | ⟨_, _, same, _⟩
  · rw [same] at failed
    cases failed
    rfl
  · rw [same] at failed
    cases failed

end Tx

end TavilyHikari.Library
