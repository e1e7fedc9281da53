/-
Module: TavilyHikari.Library.Text
Purpose: The string operations of the standard library and of SQL that the
  program uses, over the characters of a string, with the equations that let a
  proof pass from one to the other.
Trusted boundary: human-reviewed spec
Main exports: startsWith, stripPrefix, likePrefix, parseI64, parseU32, splitOnce, splitAt,
  startsWith_iff, stripPrefix_eq_some_iff, likePrefix_append, parseI64_toString_int
-/
import Mathlib.Data.List.Basic

namespace TavilyHikari.Library

/-- `str::starts_with`. -/
def startsWith (p s : String) : Bool := p.toList.isPrefixOf s.toList

/-- `str::strip_prefix`. -/
def stripPrefix (p s : String) : Option String :=
  if startsWith p s then some (String.ofList (s.toList.drop p.toList.length)) else none

/-- `s LIKE 'p%'` for a pattern without wildcards: ASCII letters match in either
case. -/
def likePrefix (p s : String) : Bool :=
  (p.toList.map Char.toLower).isPrefixOf (s.toList.map Char.toLower)

/-- The value of a run of ASCII digits, `none` without any or with another
character. -/
def digitsValue (digits : List Char) : Option Nat :=
  if digits.isEmpty then none
  else if digits.all Char.isDigit then some (Nat.ofDigitChars 10 digits 0)
  else none

/-- `str::parse::<i64>().ok()`. -/
def parseI64 (raw : String) : Option Int :=
  let value : Option Int :=
    match raw.toList with
    | '-' :: digits => (digitsValue digits).map fun value => -(value : Int)
    | '+' :: digits => (digitsValue digits).map Int.ofNat
    | digits => (digitsValue digits).map Int.ofNat
  value.filter fun value => -9223372036854775808 ≤ value ∧ value ≤ 9223372036854775807

/-- `str::parse::<u32>().ok()`. -/
def parseU32 (raw : String) : Option Nat :=
  let value :=
    match raw.toList with
    | '+' :: digits => digitsValue digits
    | digits => digitsValue digits
  value.filter fun value => value ≤ 4294967295

/-- `str::split_once`, over characters. -/
def splitOnceChars (sep : List Char) : List Char → Option (List Char × List Char)
  | [] => if sep.isEmpty then some ([], []) else none
  | c :: rest =>
      if sep.isPrefixOf (c :: rest) then some ([], (c :: rest).drop sep.length)
      else (splitOnceChars sep rest).map fun parts => (c :: parts.1, parts.2)

/-- `str::split_once`: what stands before and after the first `sep`. -/
def splitOnce (sep s : String) : Option (String × String) :=
  (splitOnceChars sep.toList s.toList).map fun parts =>
    (String.ofList parts.1, String.ofList parts.2)

/-- `str::split` at one character. -/
def splitAt (c : Char) (s : String) : List String := (s.toList.splitOn c).map String.ofList

theorem startsWith_iff {p s : String} :
    startsWith p s = true ↔ ∃ rest, s = p ++ rest := by
  rw [startsWith, List.isPrefixOf_iff_prefix]
  constructor
  · rintro ⟨rest, same⟩
    refine ⟨String.ofList rest, ?_⟩
    rw [← String.toList_inj, String.toList_append, String.toList_ofList, same]
  · rintro ⟨rest, rfl⟩
    exact ⟨rest.toList, by simp⟩

@[simp] theorem startsWith_append (p rest : String) :
    startsWith p (p ++ rest) = true :=
  startsWith_iff.2 ⟨rest, rfl⟩

theorem startsWith_append_left {p s : String} (front : String) (starts : startsWith p s = true) :
    startsWith (front ++ p) (front ++ s) = true := by
  obtain ⟨rest, rfl⟩ := startsWith_iff.1 starts
  rw [← String.append_assoc]
  exact startsWith_append _ rest

@[simp] theorem stripPrefix_append (p rest : String) :
    stripPrefix p (p ++ rest) = some rest := by
  simp [stripPrefix]

theorem stripPrefix_eq_some_iff {p s rest : String} :
    stripPrefix p s = some rest ↔ s = p ++ rest := by
  constructor
  · intro stripped
    by_cases starts : startsWith p s = true
    · obtain ⟨tail, rfl⟩ := startsWith_iff.1 starts
      rw [stripPrefix_append] at stripped
      rw [Option.some.inj stripped]
    · simp [stripPrefix, starts] at stripped
  · rintro rfl
    exact stripPrefix_append p rest

theorem stripPrefix_eq_none_iff {p s : String} :
    stripPrefix p s = none ↔ startsWith p s = false := by
  by_cases starts : startsWith p s = true <;> simp [stripPrefix, starts]

/-- Two prefixes of one string agree on their common length. -/
theorem startsWith_false_of_ne {p q rest : String}
    (other : ∀ tail, ¬ (p.toList <+: q.toList ++ tail)) :
    startsWith p (q ++ rest) = false := by
  rw [Bool.eq_false_iff, Ne, startsWith, List.isPrefixOf_iff_prefix,
    String.toList_append]
  exact other rest.toList

@[simp] theorem digitsValue_toDigits (n : Nat) : digitsValue (Nat.toDigits 10 n) = some n := by
  have digits : (Nat.toDigits 10 n).all Char.isDigit = true :=
    List.all_eq_true.2 fun c member =>
      Nat.isDigit_of_mem_toDigits (by decide) (by decide) member
  have nonempty : (Nat.toDigits 10 n).isEmpty = false := by
    rw [List.isEmpty_eq_false_iff]
    exact Nat.toDigits_ne_nil
  simp [digitsValue, digits, nonempty]

/-- What stands in the digits of a number. -/
theorem toDigits_eq_cons {n : Nat} {c : Char} {rest : List Char}
    (digits : Nat.toDigits 10 n = c :: rest) : c ≠ '-' ∧ c ≠ '+' ∧ c ≠ ':' := by
  have digit : c.isDigit = true := by
    apply Nat.isDigit_of_mem_toDigits (b := 10) (n := n) (by decide) (by decide)
    rw [digits]
    exact List.mem_cons_self
  refine ⟨?_, ?_, ?_⟩ <;> rintro rfl <;> exact absurd digit (by decide)

/-- What `to_string` writes, `parse` reads. -/
theorem parseI64_toString {n : Nat} (small : (n : Int) ≤ 9223372036854775807) :
    parseI64 (toString (n : Int)) = some (n : Int) := by
  have text : (toString (n : Int)).toList = Nat.toDigits 10 n := Nat.toList_repr
  unfold parseI64
  rw [text]
  have value : digitsValue (Nat.toDigits 10 n) = some n := digitsValue_toDigits n
  cases digits : Nat.toDigits 10 n with
  | nil => exact absurd digits Nat.toDigits_ne_nil
  | cons c rest =>
      -- A digit is neither of the signs.
      obtain ⟨minus, plus, _⟩ := toDigits_eq_cons digits
      rw [digits] at value
      split
      · rename_i same
        exact absurd (List.cons.inj same).1 minus
      · rename_i same
        exact absurd (List.cons.inj same).1 plus
      · rw [value]
        simp only [Option.map_some, Option.filter_some]
        rw [if_pos]
        · rfl
        · simp only [Int.ofNat_eq_natCast, decide_eq_true_eq]
          omega

theorem toList_toString_negSucc (n : Nat) :
    (toString (Int.negSucc n)).toList = '-' :: Nat.toDigits 10 (n + 1) := by
  have text : toString (Int.negSucc n) = "-" ++ (n + 1).repr := rfl
  rw [text, String.toList_append, Nat.toList_repr]
  rfl

/-- `parseI64_toString` for every number of the range. -/
theorem parseI64_toString_int {a : Int} (lower : -9223372036854775808 ≤ a)
    (upper : a ≤ 9223372036854775807) : parseI64 (toString a) = some a := by
  cases a with
  | ofNat n => exact parseI64_toString upper
  | negSucc n =>
      unfold parseI64
      rw [toList_toString_negSucc]
      simp only [digitsValue_toDigits, Option.pure_def, Option.bind_eq_bind, Option.bind_some,
        Option.map_some, Option.filter_some]
      have value : -((n + 1 : Nat) : Int) = Int.negSucc n := rfl
      rw [value, if_pos (by simp only [decide_eq_true_eq]; exact ⟨lower, upper⟩)]

theorem parseU32_toString {n : Nat} (small : n ≤ 4294967295) :
    parseU32 (toString n) = some n := by
  have text : (toString n).toList = Nat.toDigits 10 n := Nat.toList_repr
  unfold parseU32
  rw [text]
  have value : digitsValue (Nat.toDigits 10 n) = some n := digitsValue_toDigits n
  cases digits : Nat.toDigits 10 n with
  | nil => exact absurd digits Nat.toDigits_ne_nil
  | cons c rest =>
      obtain ⟨_, plus, _⟩ := toDigits_eq_cons digits
      rw [digits] at value
      split
      · rename_i same
        exact absurd (List.cons.inj same).1 plus
      · rw [value]
        simp [small]

/-- A number is written with digits and a minus. -/
theorem mem_toString {a : Int} {c : Char} (member : c ∈ (toString a).toList) :
    c.isDigit = true ∨ c = '-' := by
  have digits {n : Nat} (member : c ∈ Nat.toDigits 10 n) : c.isDigit = true :=
    Nat.isDigit_of_mem_toDigits (by decide) (by decide) member
  cases a with
  | ofNat n =>
      have text : (toString (Int.ofNat n)).toList = Nat.toDigits 10 n := Nat.toList_repr
      rw [text] at member
      exact Or.inl (digits member)
  | negSucc n =>
      rw [toList_toString_negSucc, List.mem_cons] at member
      rcases member with minus | member
      · exact Or.inr minus
      · exact Or.inl (digits member)

/-- A number is written without a colon. -/
theorem colon_notMem_toString (a : Int) : ':' ∉ (toString a).toList := by
  intro member
  exact absurd (mem_toString member) (by decide)

/-- A number is written without a comma. -/
theorem comma_notMem_toString (a : Int) : ',' ∉ (toString a).toList := by
  intro member
  exact absurd (mem_toString member) (by decide)

/-- A text is split at its first occurrence of the character. -/
theorem splitAt_append {c : Char} {first : String} (free : c ∉ first.toList) (rest : String) :
    splitAt c (first ++ String.singleton c ++ rest) = first :: splitAt c rest := by
  simp only [splitAt, String.toList_append, String.toList_singleton, List.append_assoc,
    List.cons_append, List.nil_append]
  rw [List.splitOn_append_cons_self_of_not_mem free]
  simp

theorem splitAt_of_notMem {c : Char} {s : String} (free : c ∉ s.toList) :
    splitAt c s = [s] := by
  have single : (List.intercalate [c] [s.toList]).splitOn c = [s.toList] :=
    List.splitOn_intercalate c (by simpa using free) (by simp)
  simp only [List.intercalate_singleton] at single
  simp [splitAt, single]

/-- What `strip_prefix` takes, `LIKE` accepts. -/
theorem likePrefix_append (p rest : String) : likePrefix p (p ++ rest) = true := by
  rw [likePrefix, List.isPrefixOf_iff_prefix, String.toList_append, List.map_append]
  exact List.prefix_append _ _

theorem likePrefix_of_startsWith {p s : String} (starts : startsWith p s = true) :
    likePrefix p s = true := by
  obtain ⟨rest, rfl⟩ := startsWith_iff.1 starts
  exact likePrefix_append p rest

end TavilyHikari.Library
