/-
Module: TavilyHikari.Library.TransitionSystem
Purpose: Transition systems whose steps are labelled by actions, the runs of an
  action list, and the invariant rules over such runs. A schedule is a list of
  actions, so a claim about every interleaving is a claim about every list.
Trusted boundary: none
Main exports: TransitionSystem, run, AlongRun, Guarded, alongRun_of_guarded,
  alongRun_iff_guarded
-/
import Mathlib.Data.List.Basic

namespace TavilyHikari.Library

universe u v

/-- A transition system. `step s a = none` says that `a` is not enabled in `s`. -/
structure TransitionSystem (State : Type u) (Action : Type v) where
  step : State → Action → Option State

namespace TransitionSystem

variable {State : Type u} {Action : Type v} (system : TransitionSystem State Action)

/-- The state an action list leads to, when every action of it is enabled. -/
def run : State → List Action → Option State
  | s, [] => some s
  | s, a :: rest => (system.step s a).bind fun s' => run s' rest

/-- `P` holds in every state that the action list visits, the first one
included. The run stops where an action is not enabled. -/
def AlongRun (P : State → Prop) : State → List Action → Prop
  | s, [] => P s
  | s, a :: rest => P s ∧ ∀ s', system.step s a = some s' → AlongRun P s' rest

/-- Every step of the run is taken from a state and by an action that satisfy
`good`. -/
def Guarded (good : State → Action → Prop) : State → List Action → Prop
  | _, [] => True
  | s, a :: rest =>
      ∀ s', system.step s a = some s' → good s a ∧ Guarded good s' rest

/-- Whether a property holds along a run is decided step by step. -/
instance decidableAlongRun (P : State → Prop) [DecidablePred P] :
    (s : State) → (actions : List Action) → Decidable (system.AlongRun P s actions)
  | s, [] => inferInstanceAs (Decidable (P s))
  | s, a :: rest =>
      have decideRest (s' : State) : Decidable (system.AlongRun P s' rest) :=
        decidableAlongRun P s' rest
      have decideNext : Decidable (∀ s', system.step s a = some s' → system.AlongRun P s' rest) :=
        match system.step s a with
        | none => isTrue fun _ taken => nomatch taken
        | some next =>
            decidable_of_iff (system.AlongRun P next rest) <| by
              constructor
              · intro along s' taken
                cases taken
                exact along
              · intro all
                exact all next rfl
      inferInstanceAs (Decidable (P s ∧ _))

instance decidableGuarded (good : State → Action → Prop) [∀ s a, Decidable (good s a)] :
    (s : State) → (actions : List Action) → Decidable (system.Guarded good s actions)
  | _, [] => isTrue trivial
  | s, a :: rest =>
      have decideRest (s' : State) : Decidable (system.Guarded good s' rest) :=
        decidableGuarded good s' rest
      show Decidable (∀ s', system.step s a = some s' → good s a ∧ system.Guarded good s' rest) from
        match system.step s a with
        | none => isTrue fun _ taken => nomatch taken
        | some next =>
            decidable_of_iff (good s a ∧ system.Guarded good next rest) <| by
              constructor
              · intro guarded s' taken
                cases taken
                exact guarded
              · intro all
                exact all next rfl

@[simp] theorem run_nil (s : State) : system.run s [] = some s := rfl

theorem run_cons {s s'' : State} {a : Action} {rest : List Action} :
    system.run s (a :: rest) = some s'' ↔
      ∃ s', system.step s a = some s' ∧ system.run s' rest = some s'' := by
  simp [run, Option.bind_eq_some_iff]

theorem run_append {s s'' : State} {first second : List Action} :
    system.run s (first ++ second) = some s'' ↔
      ∃ s', system.run s first = some s' ∧ system.run s' second = some s'' := by
  induction first generalizing s with
  | nil => simp
  | cons a rest ih =>
      simp only [List.cons_append, run_cons, ih]
      constructor
      · rintro ⟨mid, taken, last, ran, rest⟩
        exact ⟨last, ⟨mid, taken, ran⟩, rest⟩
      · rintro ⟨last, ⟨mid, taken, ran⟩, rest⟩
        exact ⟨mid, taken, last, ran, rest⟩

/-- What holds along a run holds in its first state. -/
theorem AlongRun.head {P : State → Prop} {s : State} {actions : List Action}
    (along : system.AlongRun P s actions) : P s := by
  cases actions with
  | nil => exact along
  | cons a rest => exact along.1

/-- What holds along a run holds in the state it ends in. -/
theorem AlongRun.last {P : State → Prop} {s s' : State} {actions : List Action}
    (along : system.AlongRun P s actions) (ran : system.run s actions = some s') :
    P s' := by
  induction actions generalizing s with
  | nil =>
      cases ran
      exact along
  | cons a rest ih =>
      obtain ⟨mid, taken, ran⟩ := system.run_cons.1 ran
      exact ih (along.2 mid taken) ran

theorem AlongRun.mono {P Q : State → Prop} (weaker : ∀ s, P s → Q s) {s : State}
    {actions : List Action} (along : system.AlongRun P s actions) :
    system.AlongRun Q s actions := by
  induction actions generalizing s with
  | nil => exact weaker s along
  | cons a rest ih =>
      exact ⟨weaker s along.1, fun s' taken => ih (along.2 s' taken)⟩

/-- Steps out of states that make every step good are good. -/
theorem AlongRun.guarded {P : State → Prop} {good : State → Action → Prop}
    (enough : ∀ s a, P s → good s a) {s : State} {actions : List Action}
    (along : system.AlongRun P s actions) : system.Guarded good s actions := by
  induction actions generalizing s with
  | nil => trivial
  | cons a rest ih =>
      exact fun s' taken => ⟨enough s a along.1, ih (along.2 s' taken)⟩

/-- A guarded run is guarded up to any state it visits and from there on. -/
theorem Guarded.split {good : State → Action → Prop} {s s' : State} {first second : List Action}
    (guarded : system.Guarded good s (first ++ second)) (ran : system.run s first = some s') :
    system.Guarded good s first ∧ system.Guarded good s' second := by
  induction first generalizing s with
  | nil =>
      cases ran
      exact ⟨trivial, guarded⟩
  | cons a rest ih =>
      obtain ⟨mid, taken, ran⟩ := system.run_cons.1 ran
      obtain ⟨here, later⟩ := guarded mid taken
      obtain ⟨rest, last⟩ := ih later ran
      refine ⟨fun other other_taken => ?_, last⟩
      rw [taken] at other_taken
      cases other_taken
      exact ⟨here, rest⟩

/-- Where two readings of a good step agree under an invariant, they agree on runs. -/
theorem guarded_congr {Inv : State → Prop} {good fine : State → Action → Prop}
    (preserved : ∀ s a s', Inv s → system.step s a = some s' → Inv s')
    (same : ∀ s a, Inv s → (good s a ↔ fine s a))
    {s : State} (init : Inv s) (actions : List Action) :
    system.Guarded good s actions ↔ system.Guarded fine s actions := by
  induction actions generalizing s with
  | nil => exact Iff.rfl
  | cons a rest ih =>
      apply forall_congr'
      intro s'
      apply imp_congr_right
      intro taken
      exact and_congr (same s a init) (ih (preserved s a s' init taken))

/-- The invariant rule for guarded runs: what every good step preserves holds
along every run whose steps are good. -/
theorem alongRun_of_guarded {Inv : State → Prop} {good : State → Action → Prop}
    (preserved : ∀ s a s', Inv s → good s a → system.step s a = some s' → Inv s')
    {s : State} (init : Inv s) {actions : List Action}
    (guarded : system.Guarded good s actions) : system.AlongRun Inv s actions := by
  induction actions generalizing s with
  | nil => exact init
  | cons a rest ih =>
      refine ⟨init, fun s' taken => ?_⟩
      obtain ⟨here, later⟩ := guarded s' taken
      exact ih (preserved s a s' init here taken) later

/-- The invariant rule for all runs. -/
theorem alongRun_of_preserved {Inv : State → Prop}
    (preserved : ∀ s a s', Inv s → system.step s a = some s' → Inv s')
    {s : State} (init : Inv s) (actions : List Action) :
    system.AlongRun Inv s actions := by
  induction actions generalizing s with
  | nil => exact init
  | cons a rest ih =>
      exact ⟨init, fun s' taken => ih (preserved s a s' init taken)⟩

/-- Where `Inv` implies `P` and a step out of `Inv` keeps `P` only when it is
good, `P` along the run is the same as goodness of every step. -/
theorem alongRun_iff_guarded {Inv P : State → Prop} {good : State → Action → Prop}
    (preserved : ∀ s a s', Inv s → good s a → system.step s a = some s' → Inv s')
    (sound : ∀ s, Inv s → P s)
    (broken : ∀ s a s', Inv s → system.step s a = some s' → P s' → good s a)
    {s : State} (init : Inv s) (actions : List Action) :
    system.AlongRun P s actions ↔ system.Guarded good s actions := by
  constructor
  · intro along
    induction actions generalizing s with
    | nil => trivial
    | cons a rest ih =>
        intro s' taken
        have later := along.2 s' taken
        have here := broken s a s' init taken (AlongRun.head system later)
        exact ⟨here, ih (preserved s a s' init here taken) later⟩
  · intro guarded
    exact (system.alongRun_of_guarded preserved init guarded).mono system sound

end TransitionSystem

end TavilyHikari.Library
