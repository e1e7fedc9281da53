/-
Module: TavilyHikari.Library.Trim
Purpose: Trimming, ASCII case and lines of a string as the standard library of Rust
  has them, over the characters of the string.
Trusted boundary: human-reviewed spec (`White_Space` of Unicode, `str::lines`)
Main exports: isWhiteSpace, trimChars, trim, trimStart, trimEnd, toAsciiLowercase,
  replaceChar, lines, Trimmed, trimmed_trimChars, prefix_trimChars
-/
import Mathlib.Data.List.DropRight
import TavilyHikari.Library.Text

namespace TavilyHikari.Library

/-- `char::is_whitespace`: the property `White_Space`. -/
def isWhiteSpace (c : Char) : Bool :=
  (9 ≤ c.toNat && c.toNat ≤ 13) || c.toNat = 32 || c.toNat = 133 || c.toNat = 160 ||
    c.toNat = 5760 || (8192 ≤ c.toNat && c.toNat ≤ 8202) || c.toNat = 8232 || c.toNat = 8233 ||
    c.toNat = 8239 || c.toNat = 8287 || c.toNat = 12288

/-- A text without the characters of `p` at its ends. -/
def trimChars (p : Char → Bool) (l : List Char) : List Char := (l.dropWhile p).rdropWhile p

/-- `str::trim`. -/
def trim (s : String) : String := String.ofList (trimChars isWhiteSpace s.toList)

/-- `str::trim_start`. -/
def trimStart (s : String) : String := String.ofList (s.toList.dropWhile isWhiteSpace)

/-- `str::trim_end`. -/
def trimEnd (s : String) : String := String.ofList (s.toList.rdropWhile isWhiteSpace)

/-- `text.map(str::trim).filter(|value| !value.is_empty())`. -/
def trimmedNonEmpty (text : Option String) : Option String :=
  (text.map trim).filter fun trimmed => trimmed ≠ ""

/-- `str::to_ascii_lowercase`. -/
def toAsciiLowercase (s : String) : String := String.ofList (s.toList.map Char.toLower)

/-- `str::replace` of one character by another. -/
def replaceChar (old new : Char) (s : String) : String :=
  String.ofList (s.toList.map fun c => if c = old then new else c)

/-- The parts of a text between line feeds. -/
def splitLineFeeds : List Char → List (List Char)
  | [] => [[]]
  | c :: rest =>
      if c = '\n' then [] :: splitLineFeeds rest
      else
        match splitLineFeeds rest with
        | [] => [[c]]
        | line :: lines => (c :: line) :: lines

/-- A line without the carriage return of its line ending. -/
def stripCarriageReturn (line : List Char) : List Char :=
  if line.getLast? = some '\r' then line.dropLast else line

/-- `str::lines`: only a line that a line feed ends may lose a carriage return, and
nothing after the last line feed is no line. -/
def lines (s : String) : List String :=
  let parts := splitLineFeeds s.toList
  let ended := parts.dropLast.map stripCarriageReturn
  let rest := (parts.getLast?.getD [])
  (ended ++ if rest.isEmpty then [] else [rest]).map String.ofList

theorem splitLineFeeds_of_notMem {l : List Char} (single : '\n' ∉ l) :
    splitLineFeeds l = [l] := by
  induction l with
  | nil => rfl
  | cons c rest ih =>
      rw [List.mem_cons, not_or] at single
      rw [splitLineFeeds, if_neg (Ne.symm single.1), ih single.2]

/-- A text without a line feed is one line. -/
theorem lines_of_notMem {s : String} (single : '\n' ∉ s.toList) :
    lines s = if s.isEmpty then [] else [s] := by
  unfold lines
  rw [splitLineFeeds_of_notMem single]
  by_cases empty : s = ""
  · subst empty
    rfl
  · have chars : s.toList.isEmpty = false := by
      rw [Bool.eq_false_iff, Ne, List.isEmpty_iff]
      intro none
      exact empty (String.toList_inj.1 none)
    have text : s.isEmpty = false := by
      rw [Bool.eq_false_iff, Ne, String.isEmpty_iff]
      exact empty
    simp [chars, text]

/-- Trimming at the end leaves a prefix. -/
theorem startsWith_of_trimEnd {p s : String} (starts : startsWith p (trimEnd s) = true) :
    startsWith p s = true := by
  rw [startsWith, List.isPrefixOf_iff_prefix] at starts ⊢
  rw [trimEnd, String.toList_ofList] at starts
  exact starts.trans (List.rdropWhile_prefix isWhiteSpace _)

/-! ### Trimmed texts -/

/-- Neither end of the text is to be trimmed. -/
structure Trimmed (p : Char → Bool) (l : List Char) : Prop where
  start : l.dropWhile p = l
  finish : l.rdropWhile p = l

theorem trimChars_of_trimmed {p : Char → Bool} {l : List Char} (trimmed : Trimmed p l) :
    trimChars p l = l := by
  rw [trimChars, trimmed.start, trimmed.finish]

theorem trim_of_free {s : String} (free : ∀ c ∈ s.toList, isWhiteSpace c = false) :
    trim s = s := by
  have trimmed : Trimmed isWhiteSpace s.toList := by
    constructor
    · cases text : s.toList with
      | nil => rfl
      | cons c rest =>
          apply List.dropWhile_cons_of_neg
          rw [free c (by rw [text]; exact List.mem_cons_self)]
          exact Bool.false_ne_true
    · apply List.rdropWhile_eq_self_iff.2
      intro nonempty
      rw [free _ (List.getLast_mem nonempty)]
      exact Bool.false_ne_true
  rw [trim, trimChars_of_trimmed trimmed, String.ofList_toList]

/-- A number is written without white space. -/
theorem trim_toString (a : Int) : trim (toString a) = toString a := by
  apply trim_of_free
  intro c member
  rcases mem_toString member with digit | minus
  · rw [Char.isDigit] at digit
    simp only [Bool.and_eq_true, decide_eq_true_eq] at digit
    have lower : 48 ≤ c.toNat := digit.1
    have upper : c.toNat ≤ 57 := digit.2
    simp only [isWhiteSpace, Bool.or_eq_false_iff, Bool.and_eq_false_iff, decide_eq_false_iff_not]
    omega
  · subst minus
    decide

/-- A prefix that needs no trimming at its end survives trimming at the end. -/
theorem prefix_rdropWhile {p : Char → Bool} {q l : List Char} (starts : q <+: l)
    (kept : q.rdropWhile p = q) : q <+: l.rdropWhile p := by
  obtain ⟨rest, rfl⟩ := starts
  induction rest using List.reverseRecOn with
  | nil =>
      have whole : (q ++ []).rdropWhile p = q := by rw [List.append_nil, kept]
      exact ⟨[], by rw [whole, List.append_nil]⟩
  | append_singleton rest c ih =>
      rw [← List.append_assoc, List.rdropWhile_concat]
      split
      · exact ih
      · rw [List.append_assoc]
        exact List.prefix_append _ _

/-- The first character decides whether anything is dropped at the start. -/
theorem dropWhile_of_prefix {p : Char → Bool} {q l : List Char} (starts : q <+: l)
    (nonempty : q ≠ []) (kept : q.dropWhile p = q) : l.dropWhile p = l := by
  obtain ⟨rest, rfl⟩ := starts
  cases q with
  | nil => exact absurd rfl nonempty
  | cons c q =>
      have first : p c = false := by
        cases drop : p c with
        | false => rfl
        | true =>
            rw [List.dropWhile_cons_of_pos drop] at kept
            have shorter := List.length_dropWhile_le p q
            rw [kept] at shorter
            exact absurd shorter (by simp)
      rw [List.cons_append, List.dropWhile_cons_of_neg (by simp [first])]

/-- Trimming keeps a trimmed prefix. -/
theorem prefix_trimChars {p : Char → Bool} {q l : List Char} (starts : q <+: l)
    (nonempty : q ≠ []) (kept : Trimmed p q) : q <+: trimChars p l := by
  rw [trimChars, dropWhile_of_prefix starts nonempty kept.start]
  exact prefix_rdropWhile starts kept.finish

/-- A trimmed beginning survives trimming. -/
theorem startsWith_trim {p s : String} (starts : startsWith p s = true) (nonempty : p ≠ "")
    (kept : Trimmed isWhiteSpace p.toList) : startsWith p (trim s) = true := by
  rw [startsWith, List.isPrefixOf_iff_prefix] at starts ⊢
  rw [trim, String.toList_ofList]
  apply prefix_trimChars starts _ kept
  intro empty
  exact nonempty (String.toList_inj.1 empty)

theorem trimmed_trimChars (p : Char → Bool) (l : List Char) : Trimmed p (trimChars p l) := by
  refine ⟨?_, List.rdropWhile_idempotent p _⟩
  cases left : trimChars p l with
  | nil => rfl
  | cons c rest =>
      -- What is left begins as the text does once its start is trimmed.
      have starts : (c :: rest) <+: l.dropWhile p := by
        rw [← left]
        exact List.rdropWhile_prefix p _
      obtain ⟨tail, same⟩ := starts
      have fixed := List.dropWhile_idempotent p l
      rw [← same, List.cons_append] at fixed
      cases drop : p c with
      | false => exact List.dropWhile_cons_of_neg (by simp [drop])
      | true =>
          rw [List.dropWhile_cons_of_pos drop] at fixed
          have shorter := List.length_dropWhile_le p (rest ++ tail)
          rw [fixed] at shorter
          exact absurd shorter (by simp)

@[simp] theorem trim_trim (s : String) : trim (trim s) = trim s := by
  simp only [trim, String.toList_ofList]
  rw [trimChars_of_trimmed (trimmed_trimChars isWhiteSpace s.toList)]

theorem trimmed_of_trim {s : String} (kept : trim s = s) : Trimmed isWhiteSpace s.toList := by
  have trimmed := trimmed_trimChars isWhiteSpace s.toList
  rw [← String.toList_ofList (l := trimChars isWhiteSpace s.toList), ← trim, kept] at trimmed
  exact trimmed

/-- What a trimmed text ends with ends trimmed. -/
theorem rdropWhile_of_append {p : Char → Bool} {front l : List Char}
    (kept : (front ++ l).rdropWhile p = front ++ l) : l.rdropWhile p = l := by
  rw [List.rdropWhile_eq_self_iff] at kept ⊢
  intro nonempty
  have last := kept (List.append_ne_nil_of_right_ne_nil front nonempty)
  rw [List.getLast_append_of_ne_nil _ nonempty] at last
  exact last

/-- A text that ends trimmed does so behind a text that starts trimmed. -/
theorem trim_append {front s : String}
    (starts : front.toList.dropWhile isWhiteSpace = front.toList) (nonempty : front ≠ "")
    (ends : s.toList.rdropWhile isWhiteSpace = s.toList) (more : s ≠ "") :
    trim (front ++ s) = front ++ s := by
  have trimmed : Trimmed isWhiteSpace (front ++ s).toList := by
    rw [String.toList_append]
    refine { start := ?_, finish := ?_ }
    · apply dropWhile_of_prefix (List.prefix_append _ _) _ starts
      intro none
      exact nonempty (String.toList_inj.mp none)
    · rw [List.rdropWhile_eq_self_iff] at ends ⊢
      intro chars
      have tail : s.toList ≠ [] := fun none => more (String.toList_inj.mp none)
      rw [List.getLast_append_of_ne_nil _ tail]
      exact ends tail
  rw [trim, trimChars_of_trimmed trimmed, String.ofList_toList]

end TavilyHikari.Library
