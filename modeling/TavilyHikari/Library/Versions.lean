/-
Module: TavilyHikari.Library.Versions
Purpose: The states that a value went through, numbered in their order, copies of what was
  read from one of them, and the versions that changed it.
Trusted boundary: none
Main exports: IsVersion, ReadSince, ReadSince.append, latestVersion, latestVersion_of_version,
  ChangedAt, Unchanged, Unchanged.same, exists_version_of_reads
-/
import Mathlib.Data.List.Basic

namespace TavilyHikari.Library

universe u v

variable {σ : Type u} {ρ : Type v}

/-- The `i`-th version is `s`. -/
def IsVersion (versions : List σ) (i : Nat) (s : σ) : Prop := versions[i]? = some s

theorem IsVersion.append {versions : List σ} {i : Nat} {s : σ} (version : IsVersion versions i s)
    (more : List σ) : IsVersion (versions ++ more) i s := by
  obtain ⟨small, _⟩ := List.getElem?_eq_some_iff.1 version
  rw [IsVersion, List.getElem?_append_left small]
  exact version

theorem IsVersion.lt {versions : List σ} {i : Nat} {s : σ} (version : IsVersion versions i s) :
    i < versions.length :=
  (List.getElem?_eq_some_iff.1 version).1

theorem isVersion_new (versions : List σ) (s : σ) :
    IsVersion (versions ++ [s]) versions.length s := by
  simp [IsVersion]

/-- The value was read from a version no older than `floor`. -/
def ReadSince (read : σ → ρ) (versions : List σ) (floor : Nat) (value : ρ) : Prop :=
  ∃ i s, floor ≤ i ∧ IsVersion versions i s ∧ read s = value

theorem ReadSince.append {read : σ → ρ} {versions : List σ} {floor : Nat} {value : ρ}
    (since : ReadSince read versions floor value) (more : List σ) :
    ReadSince read (versions ++ more) floor value := by
  obtain ⟨i, s, notOlder, version, same⟩ := since
  exact ⟨i, s, notOlder, version.append more, same⟩

/-- The number of the last version that satisfies `p`. -/
def latestVersion (versions : List σ) (p : σ → Bool) : Option Nat :=
  (List.range versions.length).reverse.find? fun i => versions[i]?.any p

/-- The last such version is no older than any other. -/
theorem latestVersion_of_version {versions : List σ} {p : σ → Bool} {i : Nat} {s : σ}
    (version : IsVersion versions i s) (holds : p s = true) :
    ∃ j t, latestVersion versions p = some j ∧ i ≤ j ∧ IsVersion versions j t ∧ p t = true := by
  have small := version.lt
  unfold IsVersion at version
  unfold latestVersion
  generalize versions.length = n at small
  induction n with
  | zero => omega
  | succ n ih =>
      rw [List.range_succ, List.reverse_append, List.reverse_singleton, List.singleton_append,
        List.find?_cons]
      cases here : versions[n]?.any p with
      | true =>
          obtain ⟨t, found, last⟩ := (Option.any_eq_true _ _).1 here
          exact ⟨n, t, rfl, by omega, found, last⟩
      | false =>
          have other : i ≠ n := by
            rintro rfl
            rw [version, Option.any_some, holds] at here
            cases here
          exact ih (by omega)

/-! ### Changes -/

/-- The write that made version `i` changed what is read. -/
def ChangedAt (read : σ → ρ) (versions : List σ) (i : Nat) : Prop :=
  ∃ j before after, i = j + 1 ∧ IsVersion versions j before ∧ IsVersion versions i after ∧
    read before ≠ read after

/-- No write after version `i`, up to version `j`, changed what is read. -/
def Unchanged (read : σ → ρ) (versions : List σ) (i j : Nat) : Prop :=
  ∀ k, i < k → k ≤ j → ¬ChangedAt read versions k

theorem IsVersion.of_append {versions more : List σ} {i : Nat} {s : σ}
    (version : IsVersion (versions ++ more) i s) (old : i < versions.length) :
    IsVersion versions i s := by
  rw [IsVersion, List.getElem?_append_left old] at version
  exact version

/-- What a version changed is not affected by later ones. -/
theorem ChangedAt.of_append {read : σ → ρ} {versions more : List σ} {i : Nat}
    (changed : ChangedAt read (versions ++ more) i) (old : i < versions.length) :
    ChangedAt read versions i := by
  obtain ⟨j, before, after, rfl, first, second, differ⟩ := changed
  exact ⟨j, before, after, rfl, first.of_append (Nat.lt_of_succ_lt old), second.of_append old,
    differ⟩

theorem ChangedAt.lt {read : σ → ρ} {versions : List σ} {i : Nat}
    (changed : ChangedAt read versions i) : i < versions.length := by
  obtain ⟨_, _, _, _, _, version, _⟩ := changed
  exact version.lt

theorem Unchanged.append {read : σ → ρ} {versions : List σ} {i j : Nat}
    (same : Unchanged read versions i j) (old : j < versions.length) (more : List σ) :
    Unchanged read (versions ++ more) i j := by
  intro k after upTo changed
  exact same k after upTo (changed.of_append (Nat.lt_of_le_of_lt upTo old))

/-- What no write changed is the same. -/
theorem Unchanged.same {read : σ → ρ} {versions : List σ} {i j : Nat} {s t : σ}
    (unchanged : Unchanged read versions i j) (upTo : i ≤ j) (first : IsVersion versions i s)
    (last : IsVersion versions j t) : read s = read t := by
  induction upTo generalizing t with
  | refl =>
      rw [IsVersion, first] at last
      cases last
      rfl
  | @step j upTo ih =>
      obtain ⟨u, before⟩ : ∃ u, IsVersion versions j u :=
        ⟨_, List.getElem?_eq_getElem (Nat.lt_of_succ_lt last.lt)⟩
      have front : Unchanged read versions i j :=
        fun k after within => unchanged k after (Nat.le_succ_of_le within)
      rw [ih front before]
      by_contra differ
      exact unchanged (j + 1) (Nat.lt_succ_of_le upTo) (Nat.le_refl _)
        ⟨j, u, t, rfl, before, last, differ⟩

/-- Of two values, one read after the other, some version has both, where no write to the
second comes after one to the first. -/
theorem exists_version_of_reads {α : Type v} {β : Type v} {f : σ → α} {g : σ → β}
    {versions : List σ} {i j : Nat} {s t : σ} (upTo : i ≤ j) (first : IsVersion versions i s)
    (last : IsVersion versions j t)
    (untorn : ∀ k l, i < k → k ≤ l → l ≤ j → ChangedAt f versions k →
      ¬ChangedAt g versions l) :
    ∃ k u, i ≤ k ∧ IsVersion versions k u ∧ f u = f s ∧ g u = g t := by
  -- Follow the first value as long as the second one is not written.
  have followed : ∃ k u, i ≤ k ∧ k ≤ j ∧ IsVersion versions k u ∧ f u = f s ∧
      Unchanged g versions k j := by
    clear last
    induction upTo with
    | refl => exact ⟨i, s, Nat.le_refl i, Nat.le_refl i, first, rfl, fun k after upTo =>
        absurd upTo (Nat.not_le_of_lt after)⟩
    | @step j upTo ih =>
        obtain ⟨k, u, notOlder, within, version, same, unchanged⟩ :=
          ih fun k l after upTo within => untorn k l after upTo (Nat.le_succ_of_le within)
        by_cases changed : ChangedAt g versions (j + 1)
        · have kept : Unchanged f versions i (j + 1) := fun l after within written =>
            untorn l (j + 1) after within (Nat.le_refl _) written changed
          have ⟨_, _, after, _, _, version, _⟩ := changed
          have later : i ≤ j + 1 := Nat.le_succ_of_le upTo
          exact ⟨j + 1, after, later, Nat.le_refl _, version,
            (kept.same later first version).symm, fun l past upTo =>
              absurd upTo (Nat.not_le_of_lt past)⟩
        · refine ⟨k, u, notOlder, Nat.le_succ_of_le within, version, same, fun l past upTo => ?_⟩
          rcases Nat.lt_or_ge j l with new | old
          · rw [Nat.le_antisymm upTo new]
            exact changed
          · exact unchanged l past old
  obtain ⟨k, u, notOlder, within, version, same, unchanged⟩ := followed
  exact ⟨k, u, notOlder, version, same, unchanged.same within version last⟩

end TavilyHikari.Library
