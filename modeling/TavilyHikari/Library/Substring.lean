/-
Module: TavilyHikari.Library.Substring
Purpose: Texts that occur in other texts: the search of the standard library, and where an
  occurrence can stand in a text that is put together or trimmed.
Trusted boundary: human-reviewed spec (`str::contains`)
Main exports: contains, contains_iff, infix_append_cons_iff, infix_trimChars_iff,
  contains_toAsciiLowercase_trim
-/
import TavilyHikari.Library.Trim

namespace TavilyHikari.Library

/-- Whether the needle occurs in the characters. -/
def containsChars (needle : List Char) : List Char → Bool
  | [] => needle.isEmpty
  | c :: rest => needle.isPrefixOf (c :: rest) || containsChars needle rest

/-- `str::contains` of a text. -/
def contains (s needle : String) : Bool := containsChars needle.toList s.toList

theorem containsChars_iff {needle s : List Char} :
    containsChars needle s = true ↔ needle <:+: s := by
  induction s with
  | nil => simp [containsChars]
  | cons c rest ih =>
      rw [containsChars, Bool.or_eq_true, List.isPrefixOf_iff_prefix, ih, List.infix_cons_iff]

theorem contains_iff {s needle : String} :
    contains s needle = true ↔ needle.toList <:+: s.toList :=
  containsChars_iff

/-! ### Occurrences in a text that is put together -/

section

variable {α : Type} {word one two : List α} {c : α}

theorem prefix_append_cons (absent : c ∉ word) (starts : word <+: one ++ c :: two) :
    word <+: one := by
  induction one generalizing word with
  | nil =>
      cases word with
      | nil => exact List.nil_prefix
      | cons d rest =>
          obtain ⟨same, _⟩ := List.cons_prefix_cons.1 starts
          exact absurd (same ▸ List.mem_cons_self) absent
  | cons d one ih =>
      cases word with
      | nil => exact List.nil_prefix
      | cons e rest =>
          obtain ⟨same, starts⟩ := List.cons_prefix_cons.1 starts
          rw [List.mem_cons, not_or] at absent
          exact List.cons_prefix_cons.2 ⟨same, ih absent.2 starts⟩

/-- A word does not reach over a character that it does not have. -/
theorem infix_append_cons_iff (absent : c ∉ word) :
    word <:+: one ++ c :: two ↔ word <:+: one ∨ word <:+: two := by
  constructor
  · intro occurs
    induction one with
    | nil =>
        rcases List.infix_cons_iff.1 occurs with starts | later
        · exact Or.inl (prefix_append_cons absent starts).isInfix
        · exact Or.inr later
    | cons d one ih =>
        rcases List.infix_cons_iff.1 occurs with starts | later
        · exact Or.inl (prefix_append_cons absent starts).isInfix
        · rcases ih later with occurs | occurs
          · exact Or.inl (List.infix_cons occurs)
          · exact Or.inr occurs
  · rintro (occurs | occurs)
    · exact occurs.trans (List.prefix_append _ _).isInfix
    · exact occurs.trans ((List.suffix_cons c two).isInfix.trans
        (List.suffix_append one (c :: two)).isInfix)

/-- A word that begins with another character does not begin at this one. -/
theorem infix_cons_of_ne (nonempty : word ≠ []) (other : word.head? ≠ some c) :
    word <:+: c :: two ↔ word <:+: two := by
  rw [List.infix_cons_iff]
  constructor
  · rintro (starts | occurs)
    · cases word with
      | nil => exact absurd rfl nonempty
      | cons d rest =>
          obtain ⟨same, _⟩ := List.cons_prefix_cons.1 starts
          exact absurd (congrArg some same) other
    · exact occurs
  · exact Or.inr

/-- A word without the separator stands in one of the parts. -/
theorem infix_map_intercalate_iff {β : Type} {f : β → α} {sep : β} (absent : f sep ∉ word)
    (nonempty : word ≠ []) (parts : List (List β)) :
    word <:+: ([sep].intercalate parts).map f ↔ ∃ part ∈ parts, word <:+: part.map f := by
  induction parts with
  | nil =>
      rw [List.intercalate_nil, List.map_nil, List.infix_nil]
      constructor
      · intro empty
        exact absurd empty nonempty
      · rintro ⟨part, none, _⟩
        cases none
  | cons part parts ih =>
      rw [List.exists_mem_cons_iff, ← ih]
      cases parts with
      | nil =>
          rw [List.intercalate_singleton, List.intercalate_nil, List.map_nil, List.infix_nil]
          exact (or_iff_left nonempty).symm
      | cons next parts =>
          rw [List.intercalate_cons_cons, List.append_assoc, List.map_append,
            List.singleton_append, List.map_cons]
          exact infix_append_cons_iff absent

end

/-! ### Occurrences in a trimmed text -/

section

variable {p : Char → Bool} {word l : List Char}

theorem head?_of_trimmed (trimmed : word.dropWhile p = word) {c : Char}
    (first : word.head? = some c) : p c = false := by
  cases word with
  | nil => cases first
  | cons d rest =>
      cases first
      cases drops : p c with
      | false => rfl
      | true =>
          rw [List.dropWhile_cons_of_pos drops] at trimmed
          have shorter := List.length_dropWhile_le p rest
          rw [trimmed] at shorter
          exact absurd shorter (by simp)

theorem infix_dropWhile_iff (nonempty : word ≠ []) (trimmed : word.dropWhile p = word) :
    word <:+: l.dropWhile p ↔ word <:+: l := by
  induction l with
  | nil => exact Iff.rfl
  | cons c rest ih =>
      by_cases drops : p c = true
      · rw [List.dropWhile_cons_of_pos drops, ih]
        symm
        apply infix_cons_of_ne nonempty
        intro first
        rw [head?_of_trimmed trimmed first] at drops
        cases drops
      · rw [List.dropWhile_cons_of_neg drops]

/-- Trimming a text keeps every word that is trimmed itself. -/
theorem infix_trimChars_iff (nonempty : word ≠ []) (trimmed : Trimmed p word) :
    word <:+: trimChars p l ↔ word <:+: l := by
  have backwards : word.reverse ≠ [] := fun empty => nonempty (List.reverse_eq_nil_iff.1 empty)
  have finish : word.reverse.dropWhile p = word.reverse := by
    have kept := congrArg List.reverse trimmed.finish
    rw [List.rdropWhile, List.reverse_reverse] at kept
    exact kept
  rw [trimChars, List.rdropWhile, ← List.reverse_infix, List.reverse_reverse,
    infix_dropWhile_iff backwards finish, List.reverse_infix,
    infix_dropWhile_iff nonempty trimmed.start]

end

theorem trimChars_map {p : Char → Bool} {f : Char → Char} (same : ∀ c, p (f c) = p c)
    (l : List Char) : trimChars p (l.map f) = (trimChars p l).map f := by
  have composed : p ∘ f = p := funext same
  rw [trimChars, trimChars, List.dropWhile_map, composed, List.rdropWhile, List.rdropWhile,
    ← List.map_reverse, List.dropWhile_map, composed, List.map_reverse]

theorem isWhiteSpace_of_letter {c : Char} (lower : 65 ≤ c.toNat) (upper : c.toNat ≤ 122) :
    isWhiteSpace c = false := by
  simp only [isWhiteSpace, Bool.or_eq_false_iff, Bool.and_eq_false_iff, decide_eq_false_iff_not]
  omega

/-- A capital letter becomes the small one, anything else stays. -/
theorem toLower_cases (c : Char) :
    (65 ≤ c.toNat ∧ c.toNat ≤ 90 ∧ c.toLower.toNat = c.toNat + 32) ∨
      (¬ (65 ≤ c.toNat ∧ c.toNat ≤ 90) ∧ c.toLower = c) := by
  by_cases letter : c.val ≥ 'A'.val ∧ c.val ≤ 'Z'.val
  · have lower : 65 ≤ c.toNat := letter.1
    have upper : c.toNat ≤ 90 := letter.2
    refine .inl ⟨lower, upper, ?_⟩
    have shifted : c.toLower = _ := dif_pos letter
    rw [shifted]
    show (c.val + ('a'.val - 'A'.val)).toNat = c.val.toNat + 32
    rw [UInt32.toNat_add]
    have gap : ('a'.val - 'A'.val).toNat = 32 := by decide
    rw [gap]
    apply Nat.mod_eq_of_lt
    have small : c.val.toNat ≤ 90 := upper
    omega
  · exact .inr ⟨letter, dif_neg letter⟩

/-- A letter is no white space in either case. -/
theorem isWhiteSpace_toLower (c : Char) : isWhiteSpace c.toLower = isWhiteSpace c := by
  rcases toLower_cases c with ⟨lower, upper, value⟩ | ⟨_, same⟩
  · rw [isWhiteSpace_of_letter lower (by omega), isWhiteSpace_of_letter (by omega) (by omega)]
  · rw [same]

theorem toLower_toLower (c : Char) : c.toLower.toLower = c.toLower := by
  rcases toLower_cases c with ⟨lower, upper, value⟩ | ⟨_, same⟩
  · rcases toLower_cases c.toLower with ⟨_, again, _⟩ | ⟨_, kept⟩
    · omega
    · exact kept
  · rw [same, same]

/-- Case is a matter of letters. -/
theorem toLower_eq_iff {c d : Char} (noLetter : ¬ (65 ≤ d.toNat ∧ d.toNat ≤ 122)) :
    c.toLower = d ↔ c = d := by
  rcases toLower_cases c with ⟨lower, upper, value⟩ | ⟨_, same⟩
  · constructor
    · rintro rfl
      omega
    · rintro rfl
      omega
  · rw [same]

theorem toAsciiLowercase_idem (s : String) :
    toAsciiLowercase (toAsciiLowercase s) = toAsciiLowercase s := by
  simp only [toAsciiLowercase, String.toList_ofList, List.map_map, Function.comp_def,
    toLower_toLower]

theorem mem_toAsciiLowercase {c : Char} (noLetter : ¬ (65 ≤ c.toNat ∧ c.toNat ≤ 122)) {s : String} :
    c ∈ (toAsciiLowercase s).toList ↔ c ∈ s.toList := by
  simp [toAsciiLowercase, toLower_eq_iff noLetter]

/-- Trimming keeps the words of a text, in any case. -/
theorem contains_toAsciiLowercase_trim {s needle : String} (nonempty : needle.toList ≠ [])
    (trimmed : Trimmed isWhiteSpace needle.toList) :
    contains (toAsciiLowercase (trim s)) needle = contains (toAsciiLowercase s) needle := by
  rw [Bool.eq_iff_iff, contains_iff, contains_iff, toAsciiLowercase, toAsciiLowercase, trim,
    String.toList_ofList, String.toList_ofList, String.toList_ofList,
    ← trimChars_map isWhiteSpace_toLower]
  exact infix_trimChars_iff nonempty trimmed

end TavilyHikari.Library
