/-
Module: TavilyHikari.Library.JsonText
Purpose: The texts of JSON documents: the tokens of a value with white space between them, and
  what the lines of such a text are.
Trusted boundary: human-reviewed spec (the grammar of RFC 8259)
Main exports: IsToken, ValueTokens, Spaced, IsJsonText, SolidToken, ValueTokens.solid,
  Spaced.cut, Spaced.dropWhile, Spaced.rdropWhile, Spaced.lines
-/
import Mathlib.Data.List.Forall2
import TavilyHikari.Library.Delimiters

namespace TavilyHikari.Library

/-! ### Tokens -/

def isHexDigit (c : Char) : Bool :=
  c.isDigit || ('a' ≤ c && c ≤ 'f') || ('A' ≤ c && c ≤ 'F')

/-- What stands between the quotes of a string. -/
inductive StringBody : List Char → Prop where
  | nil : StringBody []
  | char {c : Char} {rest : List Char} (noControl : 32 ≤ c.toNat) (noQuote : c ≠ '"')
      (noEscape : c ≠ '\\') (more : StringBody rest) : StringBody (c :: rest)
  | escape {c : Char} {rest : List Char} (known : c ∈ ['"', '\\', '/', 'b', 'f', 'n', 'r', 't'])
      (more : StringBody rest) : StringBody ('\\' :: c :: rest)
  | unicode {digits rest : List Char} (four : digits.length = 4)
      (hex : ∀ c ∈ digits, isHexDigit c = true) (more : StringBody rest) :
      StringBody ('\\' :: 'u' :: (digits ++ rest))

inductive IsString : List Char → Prop where
  | quoted {body : List Char} (chars : StringBody body) : IsString ('"' :: (body ++ ['"']))

/-- One digit or more. -/
structure IsDigits (digits : List Char) : Prop where
  some : digits ≠ []
  all : ∀ c ∈ digits, c.isDigit = true

inductive IsWhole : List Char → Prop where
  | zero : IsWhole ['0']
  | digits {c : Char} {rest : List Char} (all : IsDigits (c :: rest)) (noZero : c ≠ '0') :
      IsWhole (c :: rest)

inductive IsFraction : List Char → Prop where
  | none : IsFraction []
  | digits {digits : List Char} (all : IsDigits digits) : IsFraction ('.' :: digits)

inductive IsExponent : List Char → Prop where
  | none : IsExponent []
  | digits {e : Char} {sign digits : List Char} (letter : e = 'e' ∨ e = 'E')
      (signed : sign = [] ∨ sign = ['+'] ∨ sign = ['-']) (all : IsDigits digits) :
      IsExponent (e :: (sign ++ digits))

inductive IsNumber : List Char → Prop where
  | parts {sign whole fraction exponent : List Char} (signed : sign = [] ∨ sign = ['-'])
      (isWhole : IsWhole whole) (isFraction : IsFraction fraction)
      (isExponent : IsExponent exponent) : IsNumber (sign ++ (whole ++ (fraction ++ exponent)))

def literals : List (List Char) := ["null".toList, "true".toList, "false".toList]

/-- The tokens between the scalar ones. -/
def marks : List Char := ['[', ']', '\x7b', '\x7d', ',', ':']

inductive IsToken : List Char → Prop where
  | mark {c : Char} (known : c ∈ marks) : IsToken [c]
  | literal {token : List Char} (known : token ∈ literals) : IsToken token
  | number {token : List Char} (isNumber : IsNumber token) : IsToken token
  | string {token : List Char} (isString : IsString token) : IsToken token

/-! ### Values -/

mutual

/-- The tokens of a value. -/
inductive ValueTokens : List (List Char) → Prop where
  | literal {token : List Char} (known : token ∈ literals) : ValueTokens [token]
  | number {token : List Char} (isNumber : IsNumber token) : ValueTokens [token]
  | string {token : List Char} (isString : IsString token) : ValueTokens [token]
  | noItems : ValueTokens [['['], [']']]
  | array {tokens : List (List Char)} (items : ItemTokens tokens) :
      ValueTokens (['['] :: (tokens ++ [[']']]))
  | noMembers : ValueTokens [['{'], ['}']]
  | object {tokens : List (List Char)} (members : MemberTokens tokens) :
      ValueTokens (['{'] :: (tokens ++ [['}']]))

inductive ItemTokens : List (List Char) → Prop where
  | last {tokens : List (List Char)} (value : ValueTokens tokens) : ItemTokens tokens
  | item {tokens rest : List (List Char)} (value : ValueTokens tokens) (items : ItemTokens rest) :
      ItemTokens (tokens ++ [','] :: rest)

inductive MemberTokens : List (List Char) → Prop where
  | last {name : List Char} {tokens : List (List Char)} (isString : IsString name)
      (value : ValueTokens tokens) : MemberTokens (name :: [':'] :: tokens)
  | member {name : List Char} {tokens rest : List (List Char)} (isString : IsString name)
      (value : ValueTokens tokens) (members : MemberTokens rest) :
      MemberTokens (name :: [':'] :: (tokens ++ [','] :: rest))

end

/-! ### White space -/

def isJsonSpace (c : Char) : Bool := c = ' ' || c = '\t' || c = '\n' || c = '\r'

/-- The text is the tokens in their order, with white space before, between and after them. -/
inductive Spaced : List (List Char) → List Char → Prop where
  | done : Spaced [] []
  | space {c : Char} {tokens : List (List Char)} {text : List Char}
      (blank : isJsonSpace c = true) (more : Spaced tokens text) : Spaced tokens (c :: text)
  | token {tokens : List (List Char)} {text : List Char} (token : List Char)
      (more : Spaced tokens text) : Spaced (token :: tokens) (token ++ text)

/-- The text of a JSON document. -/
def IsJsonText (text : List Char) : Prop := ∃ tokens, ValueTokens tokens ∧ Spaced tokens text

/-! ### Solid tokens -/

/-- The first characters of tokens that are no digits. -/
def tokenStarts : List Char := ['[', ']', '\x7b', '\x7d', ',', ':', '"', '-', 'n', 't', 'f']

def isTokenStart (c : Char) : Bool := tokenStarts.contains c || c.isDigit

/-- A token is on one line, and nothing is to be trimmed at its ends. -/
structure SolidToken (token : List Char) : Prop where
  first : ∃ c rest, token = c :: rest ∧ isTokenStart c = true
  last : ∃ front c, token = front ++ [c] ∧ isWhiteSpace c = false
  oneLine : '\n' ∉ token

theorem isWhiteSpace_of_isDigit {c : Char} (digit : c.isDigit = true) : isWhiteSpace c = false := by
  rw [Char.isDigit] at digit
  simp only [Bool.and_eq_true, decide_eq_true_eq] at digit
  have lower : 48 ≤ c.toNat := digit.1
  have upper : c.toNat ≤ 57 := digit.2
  simp only [isWhiteSpace, Bool.or_eq_false_iff, Bool.and_eq_false_iff, decide_eq_false_iff_not]
  omega

theorem isWhiteSpace_of_isTokenStart {c : Char} (start : isTokenStart c = true) :
    isWhiteSpace c = false := by
  have all : tokenStarts.all (fun c => !isWhiteSpace c) = true := by decide
  rw [isTokenStart, Bool.or_eq_true, List.contains_iff_mem] at start
  rcases start with listed | digit
  · exact Bool.not_eq_true' _ ▸ List.all_eq_true.1 all c listed
  · exact isWhiteSpace_of_isDigit digit

theorem SolidToken.trimmed {token : List Char} (solid : SolidToken token) :
    Trimmed isWhiteSpace token where
  start := by
    obtain ⟨c, rest, rfl, start⟩ := solid.first
    apply List.dropWhile_cons_of_neg
    rw [isWhiteSpace_of_isTokenStart start]
    exact Bool.false_ne_true
  finish := by
    obtain ⟨front, c, rfl, visible⟩ := solid.last
    apply List.rdropWhile_concat_neg
    rw [visible]
    exact Bool.false_ne_true

theorem solidToken_of_mark {c : Char} (known : c ∈ marks) : SolidToken [c] := by
  have all : marks.all (fun c => isTokenStart c && c ≠ '\n') = true := by decide
  have here := List.all_eq_true.1 all c known
  rw [Bool.and_eq_true, decide_eq_true_eq] at here
  refine ⟨⟨c, [], rfl, here.1⟩, ⟨[], c, rfl, isWhiteSpace_of_isTokenStart here.1⟩, ?_⟩
  rw [List.mem_singleton]
  exact Ne.symm here.2

theorem solidToken_of_literal {token : List Char} (known : token ∈ literals) :
    SolidToken token := by
  have cases : token = "null".toList ∨ token = "true".toList ∨ token = "false".toList := by
    simpa [literals] using known
  rcases cases with rfl | rfl | rfl
  · exact ⟨⟨'n', "ull".toList, rfl, by decide⟩, ⟨"nul".toList, 'l', rfl, by decide⟩, by decide⟩
  · exact ⟨⟨'t', "rue".toList, rfl, by decide⟩, ⟨"tru".toList, 'e', rfl, by decide⟩, by decide⟩
  · exact ⟨⟨'f', "alse".toList, rfl, by decide⟩, ⟨"fals".toList, 'e', rfl, by decide⟩, by decide⟩

theorem StringBody.oneLine {body : List Char} (chars : StringBody body) : '\n' ∉ body := by
  induction chars with
  | nil => exact List.not_mem_nil
  | char noControl _ _ _ ih =>
      rw [List.mem_cons, not_or]
      refine ⟨?_, ih⟩
      rintro rfl
      revert noControl
      decide
  | escape known _ ih =>
      rw [List.mem_cons, List.mem_cons, not_or, not_or]
      refine ⟨by decide, ?_, ih⟩
      rintro rfl
      revert known
      decide
  | unicode four hex _ ih =>
      rw [List.mem_cons, List.mem_cons, List.mem_append, not_or, not_or, not_or]
      refine ⟨by decide, by decide, ?_, ih⟩
      intro member
      have digit := hex _ member
      revert digit
      decide

theorem IsString.solid {token : List Char} (isString : IsString token) : SolidToken token := by
  obtain ⟨chars⟩ := isString
  rename_i body
  refine ⟨⟨'"', body ++ ['"'], rfl, by decide⟩, ⟨'"' :: body, '"', rfl, by decide⟩, ?_⟩
  rw [List.mem_cons, List.mem_append, not_or, not_or]
  exact ⟨by decide, chars.oneLine, by decide⟩

/-- The characters of numbers that are no digits. -/
def numberMarks : List Char := ['+', '-', '.', 'e', 'E']

def isNumberChar (c : Char) : Bool := numberMarks.contains c || c.isDigit

theorem isWhiteSpace_of_isNumberChar {c : Char} (inNumber : isNumberChar c = true) :
    isWhiteSpace c = false := by
  have all : numberMarks.all (fun c => !isWhiteSpace c) = true := by decide
  rw [isNumberChar, Bool.or_eq_true, List.contains_iff_mem] at inNumber
  rcases inNumber with listed | digit
  · exact Bool.not_eq_true' _ ▸ List.all_eq_true.1 all c listed
  · exact isWhiteSpace_of_isDigit digit

theorem isNumberChar_of_isDigit {c : Char} (digit : c.isDigit = true) : isNumberChar c = true := by
  rw [isNumberChar, digit, Bool.or_true]

theorem IsNumber.all {token : List Char} (isNumber : IsNumber token) :
    ∀ c ∈ token, isNumberChar c = true := by
  obtain ⟨signed, isWhole, isFraction, isExponent⟩ := isNumber
  intro c member
  rcases List.mem_append.1 member with inSign | member
  · rcases signed with rfl | rfl
    · cases inSign
    · rw [List.mem_singleton.1 inSign]
      decide
  rcases List.mem_append.1 member with inWhole | member
  · cases isWhole with
    | zero =>
        rw [List.mem_singleton.1 inWhole]
        decide
    | digits all _ => exact isNumberChar_of_isDigit (all.all c inWhole)
  rcases List.mem_append.1 member with inFraction | inExponent
  · cases isFraction with
    | none => cases inFraction
    | digits all =>
        rcases List.mem_cons.1 inFraction with rfl | digit
        · decide
        · exact isNumberChar_of_isDigit (all.all c digit)
  · cases isExponent with
    | none => cases inExponent
    | digits letter signed all =>
        rcases List.mem_cons.1 inExponent with rfl | inExponent
        · rcases letter with rfl | rfl <;> decide
        rcases List.mem_append.1 inExponent with inSign | digit
        · rcases signed with rfl | rfl | rfl
          · cases inSign
          · rw [List.mem_singleton.1 inSign]
            decide
          · rw [List.mem_singleton.1 inSign]
            decide
        · exact isNumberChar_of_isDigit (all.all c digit)

theorem IsNumber.first {token : List Char} (isNumber : IsNumber token) :
    ∃ c rest, token = c :: rest ∧ isTokenStart c = true := by
  obtain ⟨signed, isWhole, _, _⟩ := isNumber
  rcases signed with rfl | rfl
  · cases isWhole with
    | zero => exact ⟨_, _, rfl, by decide⟩
    | digits all _ =>
        refine ⟨_, _, rfl, ?_⟩
        rw [isTokenStart, all.all _ List.mem_cons_self, Bool.or_true]
  · exact ⟨_, _, rfl, by decide⟩

theorem IsNumber.solid {token : List Char} (isNumber : IsNumber token) : SolidToken token := by
  have all := isNumber.all
  have first := isNumber.first
  refine ⟨first, ?_, ?_⟩
  · obtain ⟨c, rest, rfl, _⟩ := first
    have nonempty := List.cons_ne_nil c rest
    refine ⟨_, _, (List.dropLast_append_getLast nonempty).symm, ?_⟩
    exact isWhiteSpace_of_isNumberChar (all _ (List.getLast_mem nonempty))
  · intro member
    have inNumber := all _ member
    revert inNumber
    decide

theorem IsToken.solid {token : List Char} (isToken : IsToken token) : SolidToken token := by
  cases isToken with
  | mark known => exact solidToken_of_mark known
  | literal known => exact solidToken_of_literal known
  | number isNumber => exact isNumber.solid
  | string isString => exact isString.solid

mutual

theorem ValueTokens.all {tokens : List (List Char)} (value : ValueTokens tokens) :
    ∀ token ∈ tokens, IsToken token := by
  match value with
  | .literal known =>
      rw [List.forall_mem_singleton]
      exact .literal known
  | .number isNumber =>
      rw [List.forall_mem_singleton]
      exact .number isNumber
  | .string isString =>
      rw [List.forall_mem_singleton]
      exact .string isString
  | .noItems =>
      rw [List.forall_mem_cons, List.forall_mem_singleton]
      exact ⟨.mark (by decide), .mark (by decide)⟩
  | .array items =>
      rw [List.forall_mem_cons, List.forall_mem_append, List.forall_mem_singleton]
      exact ⟨.mark (by decide), items.all, .mark (by decide)⟩
  | .noMembers =>
      rw [List.forall_mem_cons, List.forall_mem_singleton]
      exact ⟨.mark (by decide), .mark (by decide)⟩
  | .object members =>
      rw [List.forall_mem_cons, List.forall_mem_append, List.forall_mem_singleton]
      exact ⟨.mark (by decide), members.all, .mark (by decide)⟩

theorem ItemTokens.all {tokens : List (List Char)} (items : ItemTokens tokens) :
    ∀ token ∈ tokens, IsToken token := by
  match items with
  | .last value => exact value.all
  | .item value items =>
      rw [List.forall_mem_append, List.forall_mem_cons]
      exact ⟨value.all, .mark (by decide), items.all⟩

theorem MemberTokens.all {tokens : List (List Char)} (members : MemberTokens tokens) :
    ∀ token ∈ tokens, IsToken token := by
  match members with
  | .last isString value =>
      rw [List.forall_mem_cons, List.forall_mem_cons]
      exact ⟨.string isString, .mark (by decide), value.all⟩
  | .member isString value members =>
      rw [List.forall_mem_cons, List.forall_mem_cons, List.forall_mem_append, List.forall_mem_cons]
      exact ⟨.string isString, .mark (by decide), value.all, .mark (by decide), members.all⟩

end

theorem ValueTokens.solid {tokens : List (List Char)} (value : ValueTokens tokens) :
    ∀ token ∈ tokens, SolidToken token :=
  fun token member => (value.all token member).solid

theorem ValueTokens.nonempty {tokens : List (List Char)} (value : ValueTokens tokens) :
    tokens ≠ [] := by
  cases value <;> exact List.cons_ne_nil _ _

/-! ### Lines -/

theorem isWhiteSpace_of_isJsonSpace {c : Char} (blank : isJsonSpace c = true) :
    isWhiteSpace c = true := by
  simp only [isJsonSpace, Bool.or_eq_true, decide_eq_true_eq] at blank
  rcases blank with ((rfl | rfl) | rfl) | rfl <;> decide

namespace Spaced

variable {tokens : List (List Char)} {text : List Char}

theorem append {more : List (List Char)} {rest : List Char} (one : Spaced tokens text)
    (two : Spaced more rest) : Spaced (tokens ++ more) (text ++ rest) := by
  induction one with
  | done => exact two
  | space blank _ ih => exact .space blank ih
  | token token _ ih =>
      rw [List.append_assoc]
      exact .token token ih

/-- A line feed is white space, so it cuts the tokens too. -/
theorem cut (spaced : Spaced tokens text) (solid : ∀ token ∈ tokens, SolidToken token)
    {front back : List Char} (parts : text = front ++ '\n' :: back) :
    ∃ before after, tokens = before ++ after ∧ Spaced before front ∧ Spaced after back := by
  induction spaced generalizing front with
  | done => exact absurd parts.symm (List.append_ne_nil_of_right_ne_nil _ (List.cons_ne_nil _ _))
  | space blank more ih =>
      cases front with
      | nil =>
          obtain ⟨rfl, rfl⟩ := List.cons.inj parts
          exact ⟨[], _, rfl, .done, more⟩
      | cons c front =>
          obtain ⟨rfl, rest⟩ := List.cons.inj parts
          obtain ⟨before, after, rfl, inFront, inBack⟩ := ih solid rest
          exact ⟨before, after, rfl, .space blank inFront, inBack⟩
  | token token more ih =>
      rw [List.forall_mem_cons] at solid
      rcases List.append_eq_append_iff.1 parts with ⟨middle, rfl, rest⟩ | ⟨middle, rfl, rest⟩
      · obtain ⟨before, after, rfl, inFront, inBack⟩ := ih solid.2 rest
        exact ⟨token :: before, after, rfl, .token token inFront, inBack⟩
      · cases middle with
        | nil =>
            rw [List.nil_append] at rest
            obtain ⟨before, after, rfl, inFront, inBack⟩ :=
              ih solid.2 (rest.symm.trans (List.nil_append _).symm)
            rw [List.append_nil]
            refine ⟨front :: before, after, rfl, ?_, inBack⟩
            have whole := Spaced.token front inFront
            rwa [List.append_nil] at whole
        | cons c middle =>
            obtain ⟨rfl, _⟩ := List.cons.inj rest
            exact absurd (by simp) solid.1.oneLine

/-- White space at the end is of no token. -/
theorem of_append (spaced : Spaced tokens text) (solid : ∀ token ∈ tokens, SolidToken token)
    {front back : List Char} (parts : text = front ++ back)
    (blank : ∀ c ∈ back, isWhiteSpace c = true) : Spaced tokens front := by
  induction spaced generalizing front back with
  | done =>
      rw [(List.append_eq_nil_iff.1 parts.symm).1]
      exact .done
  | space space more ih =>
      cases front with
      | nil =>
          rw [List.nil_append] at parts
          subst parts
          exact ih solid (List.nil_append _).symm (List.forall_mem_cons.1 blank).2
      | cons c front =>
          obtain ⟨rfl, rest⟩ := List.cons.inj parts
          exact .space space (ih solid rest blank)
  | token token more ih =>
      rw [List.forall_mem_cons] at solid
      rcases List.append_eq_append_iff.1 parts with ⟨middle, rfl, rest⟩ | ⟨middle, same, rest⟩
      · exact .token token (ih solid.2 rest blank)
      · subst rest
        have ended := ih solid.2 (List.nil_append _).symm
          (List.forall_mem_append.1 blank).2
        cases middle using List.reverseRecOn with
        | nil =>
            rw [List.append_nil] at same
            subst same
            have whole := Spaced.token token ended
            rwa [List.append_nil] at whole
        | append_singleton middle c =>
            -- The last character of a token is no white space.
            obtain ⟨_, last, sameToken, visible⟩ := solid.1.last
            rw [same, ← List.append_assoc] at sameToken
            obtain rfl := List.singleton_inj.1 (List.append_inj' sameToken rfl).2
            rw [blank c (by simp)] at visible
            cases visible

theorem dropWhile (spaced : Spaced tokens text) (solid : ∀ token ∈ tokens, SolidToken token) :
    Spaced tokens (text.dropWhile isWhiteSpace) := by
  induction spaced with
  | done => exact .done
  | @space c tokens text blank more ih =>
      by_cases drops : isWhiteSpace c = true
      · rw [List.dropWhile_cons_of_pos drops]
        exact ih solid
      · rw [List.dropWhile_cons_of_neg drops]
        exact .space blank more
  | @token tokens text token more ih =>
      obtain ⟨c, rest, rfl, start⟩ := (List.forall_mem_cons.1 solid).1.first
      rw [List.cons_append, List.dropWhile_cons_of_neg
        (by rw [isWhiteSpace_of_isTokenStart start]; exact Bool.false_ne_true)]
      exact .token (c :: rest) more

/-- Trimming a text takes no token from it. -/
theorem rdropWhile (spaced : Spaced tokens text) (solid : ∀ token ∈ tokens, SolidToken token) :
    Spaced tokens (text.rdropWhile isWhiteSpace) := by
  apply spaced.of_append solid (List.rdropWhile_append_rtakeWhile (p := isWhiteSpace)).symm
  intro c member
  exact List.mem_rtakeWhile_imp member

theorem nil_of_nil (spaced : Spaced tokens text) (solid : ∀ token ∈ tokens, SolidToken token)
    (empty : text = []) : tokens = [] := by
  cases spaced with
  | done => rfl
  | space blank more => cases empty
  | token token more =>
      obtain ⟨c, rest, rfl, _⟩ := (List.forall_mem_cons.1 solid).1.first
      cases empty

/-- The tokens of a text, line by line. -/
theorem lines {contents : List (List Char)}
    (spaced : Spaced tokens (['\n'].intercalate contents))
    (solid : ∀ token ∈ tokens, SolidToken token) :
    ∃ parts, parts.flatten = tokens ∧ List.Forall₂ Spaced parts contents := by
  induction contents generalizing tokens with
  | nil => exact ⟨[], (spaced.nil_of_nil solid rfl).symm, .nil⟩
  | cons content contents ih =>
      cases contents with
      | nil =>
          rw [List.intercalate_singleton] at spaced
          exact ⟨[tokens], by simp, .cons spaced .nil⟩
      | cons next contents =>
          rw [List.intercalate_cons_cons, List.append_assoc, List.singleton_append] at spaced
          obtain ⟨before, after, rfl, inFirst, inRest⟩ := spaced.cut solid rfl
          obtain ⟨parts, rfl, more⟩ := ih inRest (List.forall_mem_append.1 solid).2
          exact ⟨before :: parts, rfl, .cons inFirst more⟩

/-- The tokens of one of the lines. -/
theorem line {contents : List (List Char)} {content : List Char}
    (spaced : Spaced tokens (['\n'].intercalate contents))
    (solid : ∀ token ∈ tokens, SolidToken token) (member : content ∈ contents) :
    ∃ part, (∀ token ∈ part, SolidToken token) ∧ Spaced part content := by
  obtain ⟨parts, rfl, lines⟩ := spaced.lines solid
  rw [List.forall_mem_flatten] at solid
  clear spaced
  induction lines with
  | nil => cases member
  | cons first more ih =>
      rw [List.forall_mem_cons] at solid
      rcases List.mem_cons.1 member with rfl | later
      · exact ⟨_, solid.1, first⟩
      · exact ih later solid.2

/-- A text begins with white space or with a token. -/
theorem head (spaced : Spaced tokens text) (solid : ∀ token ∈ tokens, SolidToken token) {c : Char}
    (first : text.head? = some c) : isJsonSpace c = true ∨ isTokenStart c = true := by
  cases spaced with
  | done => cases first
  | space blank more =>
      cases first
      exact Or.inl blank
  | token token more =>
      obtain ⟨d, rest, rfl, start⟩ := (List.forall_mem_cons.1 solid).1.first
      cases first
      exact Or.inr start

/-- Where there is no token, there is white space. -/
theorem isWhiteSpace_of_nil (spaced : Spaced tokens text) (none : tokens = []) :
    ∀ c ∈ text, isWhiteSpace c = true := by
  induction spaced with
  | done => exact fun c member => absurd member List.not_mem_nil
  | space blank more ih =>
      rw [List.forall_mem_cons]
      exact ⟨isWhiteSpace_of_isJsonSpace blank, ih none⟩
  | token token more ih => cases none

/-- What is left of a text of one token. -/
theorem trimChars_singleton {token : List Char} (spaced : Spaced tokens text)
    (single : tokens = [token]) (solid : SolidToken token) :
    trimChars isWhiteSpace text = token := by
  induction spaced with
  | done => cases single
  | space blank more ih => rw [trimChars_cons (isWhiteSpace_of_isJsonSpace blank), ih single]
  | @token tokens rest token more ih =>
      obtain ⟨rfl, none⟩ := List.cons.inj single
      have blank := more.isWhiteSpace_of_nil none
      clear more ih
      induction rest using List.reverseRecOn with
      | nil =>
          rw [List.append_nil]
          exact trimChars_of_trimmed solid.trimmed
      | append_singleton rest c ih =>
          rw [List.forall_mem_append, List.forall_mem_singleton] at blank
          rw [← List.append_assoc, trimChars_concat blank.2, ih blank.1]

end Spaced

end TavilyHikari.Library
