/-
Module: TavilyHikari.Library.Delimiters
Purpose: Texts cut at delimiters, as the standard library of Rust cuts them: once at a
  separator from either end, and everywhere at the characters of a set.
Trusted boundary: human-reviewed spec (`str::rsplit_once`, `str::split` at a set of characters)
Main exports: splitOnce_append, splitOnce_of_free, eq_of_splitOnce, rsplitOnce_append, splitAny,
  splitAny_of_free, BetweenCuts, mem_splitOnP_iff, trimChars_between, countP_trimChars, wordsOf,
  wordsOf_trimChars, words_splitAny, words_lines
-/
import TavilyHikari.Library.Trim

namespace TavilyHikari.Library

theorem eq_nil_of_ofList {l : List Char} (empty : String.ofList l = "") : l = [] := by
  have chars := congrArg String.toList empty
  rwa [String.toList_ofList] at chars

theorem append_ne_empty {front : String} (nonempty : front.toList ≠ []) (rest : String) :
    front ++ rest ≠ "" := by
  intro empty
  have none := congrArg String.toList empty
  rw [String.toList_append] at none
  exact nonempty (List.append_eq_nil_iff.1 none).1

/-- Whether a text has none of the characters, as it is computed. -/
theorem forall_notMem_of_all {cuts l : List Char} (none : (l.all fun c => !cuts.contains c) = true) :
    ∀ c ∈ l, c ∉ cuts := by
  intro c member cut
  have other := List.all_eq_true.1 none c member
  rw [List.contains_iff_mem.2 cut] at other
  cases other

theorem splitOnceChars_append {c : Char} {before : List Char} (free : c ∉ before)
    (more after : List Char) :
    splitOnceChars (c :: more) (before ++ (c :: more ++ after)) = some (before, after) := by
  induction before with
  | nil =>
      have starts : (c :: more).isPrefixOf (c :: (more ++ after)) = true :=
        List.isPrefixOf_iff_prefix.2 (List.prefix_append (c :: more) after)
      rw [List.nil_append, List.cons_append, splitOnceChars, if_pos starts]
      simp
  | cons d before ih =>
      rw [List.mem_cons, not_or] at free
      have other : (c :: more).isPrefixOf (d :: (before ++ (c :: more ++ after))) = false := by
        simp [List.isPrefixOf, free.1]
      rw [List.cons_append, splitOnceChars, other, if_neg Bool.false_ne_true, ih free.2]
      rfl

/-- A text without the first character of the separator ends at the separator. -/
theorem splitOnce_append {sep before : String} {c : Char} {more : List Char}
    (chars : sep.toList = c :: more) (free : c ∉ before.toList) (after : String) :
    splitOnce sep (before ++ (sep ++ after)) = some (before, after) := by
  rw [splitOnce, String.toList_append, String.toList_append, chars,
    splitOnceChars_append free more after.toList]
  simp

theorem eq_of_splitOnceChars {sep l before after : List Char}
    (split : splitOnceChars sep l = some (before, after)) : l = before ++ (sep ++ after) := by
  induction l generalizing before with
  | nil =>
      cases sep with
      | nil => cases split; rfl
      | cons c more => simp [splitOnceChars] at split
  | cons c l ih =>
      rw [splitOnceChars] at split
      split at split
      case isTrue starts =>
        obtain ⟨rest, same⟩ := List.isPrefixOf_iff_prefix.1 starts
        cases split
        rw [← same, List.drop_left, List.nil_append]
      case isFalse =>
        obtain ⟨⟨first, last⟩, inner, same⟩ := Option.map_eq_some_iff.1 split
        cases same
        rw [ih inner, List.cons_append]

/-- Cutting a text in two loses nothing of it. -/
theorem eq_of_splitOnce {sep s before after : String}
    (split : splitOnce sep s = some (before, after)) : s = before ++ (sep ++ after) := by
  obtain ⟨⟨first, last⟩, inner, same⟩ := Option.map_eq_some_iff.1 split
  cases same
  rw [← String.toList_inj, eq_of_splitOnceChars inner]
  simp

/-- A text without the first character of the separator is not cut. -/
theorem splitOnce_of_free {sep s : String} {c : Char} {more : List Char}
    (chars : sep.toList = c :: more) (free : c ∉ s.toList) : splitOnce sep s = none := by
  have none : splitOnceChars (c :: more) s.toList = none := by
    generalize s.toList = l at free
    induction l with
    | nil => rfl
    | cons d l ih =>
        rw [List.mem_cons, not_or] at free
        have other : (c :: more).isPrefixOf (d :: l) = false := by
          simp [List.isPrefixOf, free.1]
        rw [splitOnceChars, other, if_neg Bool.false_ne_true, ih free.2]
        rfl
  rw [splitOnce, chars, none]
  rfl

/-- `str::rsplit_once` at a character: what stands before and after the last one. -/
def rsplitOnce (c : Char) (s : String) : Option (String × String) :=
  (splitOnceChars [c] s.toList.reverse).map fun parts =>
    (String.ofList parts.2.reverse, String.ofList parts.1.reverse)

theorem rsplitOnce_append {sep after : String} {c : Char} (chars : sep.toList = [c])
    (free : c ∉ after.toList) (before : String) :
    rsplitOnce c (before ++ (sep ++ after)) = some (before, after) := by
  have backwards : (before ++ (sep ++ after)).toList.reverse =
      after.toList.reverse ++ ([c] ++ before.toList.reverse) := by
    rw [String.toList_append, String.toList_append, chars, List.reverse_append, List.reverse_append,
      List.append_assoc, List.reverse_singleton]
  rw [rsplitOnce, backwards, splitOnceChars_append (by rwa [List.mem_reverse]) [] _]
  simp

/-! ### Cuts at the characters of a set -/

/-- `str::split` at any of the characters. -/
def splitAny (delimiters : List Char) (s : String) : List String :=
  (s.toList.splitOnP fun c => delimiters.contains c).map String.ofList

theorem splitAny_of_free {delimiters : List Char} {s : String}
    (free : ∀ c ∈ s.toList, c ∉ delimiters) : splitAny delimiters s = [s] := by
  have whole : (s.toList.splitOnP fun c => delimiters.contains c) = [s.toList] := by
    apply List.splitOnP_eq_singleton
    intro c member
    rw [Bool.eq_false_iff, Ne, List.contains_iff_mem]
    exact free c member
  rw [splitAny, whole, List.map_singleton, String.ofList_toList]

section

variable {cut : Char → Bool}

/-- A text with a cut in it is two texts. -/
theorem exists_first_cut {l : List Char} (some : ∃ c ∈ l, cut c = true) :
    ∃ before c after, l = before ++ c :: after ∧ cut c = true ∧ ∀ d ∈ before, cut d = false := by
  induction l with
  | nil =>
      obtain ⟨c, none, _⟩ := some
      cases none
  | cons d l ih =>
      by_cases here : cut d = true
      · exact ⟨[], d, l, rfl, here, fun e none => absurd none List.not_mem_nil⟩
      · have later : ∃ c ∈ l, cut c = true := by
          obtain ⟨c, member, cuts⟩ := some
          rcases List.mem_cons.1 member with rfl | tail
          · exact absurd cuts here
          · exact ⟨c, tail, cuts⟩
        obtain ⟨before, c, after, rfl, cuts, free⟩ := ih later
        refine ⟨d :: before, c, after, rfl, cuts, fun e member => ?_⟩
        rcases List.mem_cons.1 member with rfl | front
        · exact Bool.eq_false_iff.2 here
        · exact free e front

/-- What stands in a text between two cuts, or a cut and an end. -/
def BetweenCuts (cut : Char → Bool) (piece l : List Char) : Prop :=
  ∃ before after, l = before ++ (piece ++ after) ∧ (∀ c ∈ piece, cut c = false) ∧
    (∀ c ∈ before.getLast?, cut c = true) ∧ ∀ c ∈ after.head?, cut c = true

theorem betweenCuts_of_mem_splitOnP {l piece : List Char} (member : piece ∈ l.splitOnP cut) :
    BetweenCuts cut piece l := by
  by_cases some : ∃ c ∈ l, cut c = true
  · obtain ⟨first, c, rest, text, cuts, free⟩ := exists_first_cut some
    rw [text, List.splitOnP_append_cons_of_forall_mem free c cuts, List.mem_cons] at member
    rcases member with rfl | later
    · refine ⟨[], c :: rest, text, free, by simp, fun d head => ?_⟩
      cases head
      exact cuts
    · obtain ⟨before, after, tail, inside, last, next⟩ := betweenCuts_of_mem_splitOnP later
      refine ⟨first ++ c :: before, after, by simp [text, tail], inside, fun d ends => ?_, next⟩
      cases before using List.reverseRecOn with
      | nil =>
          rw [List.getLast?_concat] at ends
          cases ends
          exact cuts
      | append_singleton front e =>
          apply last
          rw [List.getLast?_concat]
          rwa [← List.cons_append, ← List.append_assoc, List.getLast?_concat] at ends
  · have free : ∀ c ∈ l, cut c = false := by simpa using some
    rw [List.splitOnP_eq_singleton free, List.mem_singleton] at member
    subst member
    exact ⟨[], [], by simp, free, by simp, by simp⟩
termination_by l.length
decreasing_by
  rw [text, List.length_append, List.length_cons]
  omega

/-- The pieces of a text are all that stands in it between cuts. -/
theorem mem_splitOnP_iff {l piece : List Char} :
    piece ∈ l.splitOnP cut ↔ BetweenCuts cut piece l := by
  refine ⟨betweenCuts_of_mem_splitOnP, ?_⟩
  rintro ⟨before, after, rfl, free, last, next⟩
  have here : piece ∈ (piece ++ after).splitOnP cut := by
    cases after with
    | nil =>
        rw [List.append_nil, List.splitOnP_eq_singleton free]
        exact List.mem_singleton_self piece
    | cons d after =>
        rw [List.splitOnP_append_cons_of_forall_mem free d (next d rfl)]
        exact List.mem_cons_self
  cases before using List.reverseRecOn with
  | nil => exact here
  | append_singleton front c =>
      have cuts : cut c = true := last c List.getLast?_concat
      rw [List.append_assoc, List.singleton_append, List.splitOnP_append_cons front _ cuts]
      exact List.mem_append_right _ here

end

/-! ### Words -/

section

variable {cut blank : Char → Bool} {c : Char}

/-- The pieces between the characters of a set, trimmed, without the empty ones. -/
def wordsOf (cut blank : Char → Bool) (l : List Char) : List (List Char) :=
  ((l.splitOnP cut).map (trimChars blank)).filter fun word => !word.isEmpty

theorem trimChars_cons (drops : blank c = true) (l : List Char) :
    trimChars blank (c :: l) = trimChars blank l := by
  rw [trimChars, List.dropWhile_cons_of_pos drops, trimChars]

theorem trimChars_concat (drops : blank c = true) (l : List Char) :
    trimChars blank (l ++ [c]) = trimChars blank l := by
  rw [trimChars, List.dropWhile_append]
  split
  · rename_i none
    rw [List.isEmpty_iff] at none
    rw [List.dropWhile_cons_of_pos drops, trimChars, none]
    rfl
  · rw [List.rdropWhile_concat_pos blank _ _ drops, trimChars]

/-- Blanks around a text are trimmed away with its own. -/
theorem trimChars_between {before after : List Char} (front : ∀ d ∈ before, blank d = true)
    (back : ∀ d ∈ after, blank d = true) (l : List Char) :
    trimChars blank (before ++ (l ++ after)) = trimChars blank l := by
  induction before with
  | nil =>
      rw [List.nil_append]
      induction after using List.reverseRecOn with
      | nil => rw [List.append_nil]
      | append_singleton after d ih =>
          rw [← List.append_assoc, trimChars_concat (back d (by simp))]
          exact ih fun e member => back e (List.mem_append_left _ member)
  | cons d before ih =>
      rw [List.cons_append, trimChars_cons (front d List.mem_cons_self)]
      exact ih fun e member => front e (List.mem_cons_of_mem d member)

/-- Trimming takes only blanks. -/
theorem countP_trimChars (blank : Char → Bool) (l : List Char) :
    (trimChars blank l).countP (fun d => !blank d) = l.countP fun d => !blank d := by
  have start (l : List Char) :
      (l.dropWhile blank).countP (fun d => !blank d) = l.countP fun d => !blank d := by
    induction l with
    | nil => rfl
    | cons d l ih =>
        by_cases drops : blank d = true
        · rw [List.dropWhile_cons_of_pos drops, ih, List.countP_cons_of_neg (by simp [drops])]
        · rw [List.dropWhile_cons_of_neg drops]
  rw [trimChars, List.rdropWhile, List.countP_reverse, start, List.countP_reverse, start]

/-- What stands around a part that has all characters of a text but blanks is blank. -/
theorem blank_of_countP_eq {before l after : List Char}
    (all : (before ++ (l ++ after)).countP (fun d => !blank d) = l.countP fun d => !blank d) :
    (∀ d ∈ before, blank d = true) ∧ ∀ d ∈ after, blank d = true := by
  rw [List.countP_append, List.countP_append] at all
  have front : before.countP (fun d => !blank d) = 0 := by omega
  have back : after.countP (fun d => !blank d) = 0 := by omega
  rw [List.countP_eq_zero] at front back
  exact ⟨fun d member => by simpa using front d member, fun d member => by simpa using back d member⟩

/-- What a character at the end does to the pieces. -/
theorem splitOnP_concat (cut : Char → Bool) (l : List Char) (c : Char) :
    ∃ front last, l.splitOnP cut = front ++ [last] ∧
      (l ++ [c]).splitOnP cut = if cut c then front ++ [last, []] else front ++ [last ++ [c]] := by
  induction l with
  | nil =>
      refine ⟨[], [], rfl, ?_⟩
      rw [List.nil_append, List.splitOnP_cons_eq_if_modifyHead]
      split <;> rfl
  | cons d l ih =>
      obtain ⟨front, last, pieces, longer⟩ := ih
      rw [List.cons_append, List.splitOnP_cons_eq_if_modifyHead,
        List.splitOnP_cons_eq_if_modifyHead, pieces, longer]
      by_cases here : cut d = true
      · refine ⟨[] :: front, last, by rw [if_pos here, List.cons_append], ?_⟩
        rw [if_pos here]
        split <;> rfl
      · rw [if_neg here, if_neg here]
        cases front with
        | nil =>
            refine ⟨[], d :: last, rfl, ?_⟩
            split <;> rfl
        | cons piece front =>
            refine ⟨(d :: piece) :: front, last, rfl, ?_⟩
            split <;> rfl

theorem wordsOf_cons (drops : blank c = true) (l : List Char) :
    wordsOf cut blank (c :: l) = wordsOf cut blank l := by
  unfold wordsOf
  rw [List.splitOnP_cons_eq_if_modifyHead]
  split
  · rfl
  · cases pieces : l.splitOnP cut with
    | nil => rfl
    | cons piece rest =>
        rw [List.modifyHead_cons, List.map_cons, List.map_cons, trimChars_cons drops]

theorem wordsOf_concat (drops : blank c = true) (l : List Char) :
    wordsOf cut blank (l ++ [c]) = wordsOf cut blank l := by
  obtain ⟨front, last, pieces, longer⟩ := splitOnP_concat cut l c
  unfold wordsOf
  rw [pieces, longer]
  split
  · rw [List.map_append, List.map_append, List.filter_append, List.filter_append]
    congr 1
  · rw [List.map_append, List.map_append, List.map_singleton, List.map_singleton,
      trimChars_concat drops]

/-- Trimming a text takes no word from it. -/
theorem wordsOf_trimChars (cut blank : Char → Bool) (l : List Char) :
    wordsOf cut blank (trimChars blank l) = wordsOf cut blank l := by
  have start (l : List Char) : wordsOf cut blank (l.dropWhile blank) = wordsOf cut blank l := by
    induction l with
    | nil => rfl
    | cons c l ih =>
        by_cases drops : blank c = true
        · rw [List.dropWhile_cons_of_pos drops, ih, wordsOf_cons drops]
        · rw [List.dropWhile_cons_of_neg drops]
  have finish (l : List Char) : wordsOf cut blank (l.rdropWhile blank) = wordsOf cut blank l := by
    induction l using List.reverseRecOn with
    | nil => rfl
    | append_singleton l c ih =>
        by_cases drops : blank c = true
        · rw [List.rdropWhile_concat_pos blank _ _ drops, ih, wordsOf_concat drops]
        · rw [List.rdropWhile_concat_neg blank _ _ drops]
  rw [trimChars, finish, start]

theorem mem_of_mem_splitOnP {l piece : List Char} (member : piece ∈ l.splitOnP cut) :
    ∀ c ∈ piece, c ∈ l := by
  induction l generalizing piece with
  | nil =>
      rw [List.splitOnP_nil, List.mem_singleton] at member
      rw [member]
      exact fun c none => none
  | cons d l ih =>
      rw [List.splitOnP_cons_eq_if_modifyHead] at member
      split at member
      · rcases List.mem_cons.1 member with rfl | later
        · exact fun c none => absurd none List.not_mem_nil
        · exact fun c inside => List.mem_cons_of_mem d (ih later c inside)
      · obtain ⟨first, rest, pieces⟩ := List.exists_cons_of_ne_nil (List.splitOnP_ne_nil cut l)
        rw [pieces, List.modifyHead_cons] at member
        rw [pieces] at ih
        rcases List.mem_cons.1 member with rfl | later
        · intro c inside
          rcases List.mem_cons.1 inside with rfl | more
          · exact List.mem_cons_self
          · exact List.mem_cons_of_mem d (ih List.mem_cons_self c more)
        · exact fun c inside => List.mem_cons_of_mem d (ih (List.mem_cons_of_mem _ later) c inside)

/-- The characters of a word are in the text. -/
theorem mem_of_mem_wordsOf {l word : List Char} (member : word ∈ wordsOf cut blank l) :
    ∀ c ∈ word, c ∈ l := by
  obtain ⟨piece, among, rfl⟩ := List.mem_map.1 (List.mem_filter.1 member).1
  intro c inside
  have dropped : c ∈ piece.dropWhile blank := (List.rdropWhile_prefix blank _).subset inside
  exact mem_of_mem_splitOnP among c ((List.dropWhile_suffix blank).subset dropped)

end

/-! ### Words of texts -/

theorem map_trim_ofList (l : List (List Char)) :
    (l.map String.ofList).map trim = (l.map (trimChars isWhiteSpace)).map String.ofList := by
  rw [List.map_map, List.map_map]
  apply List.map_congr_left
  intro piece _
  simp only [Function.comp_apply, trim, String.toList_ofList]

theorem filter_nonempty_ofList (l : List (List Char)) :
    (l.map String.ofList).filter (fun piece => !piece.toList.isEmpty) =
      (l.filter fun piece => !piece.isEmpty).map String.ofList := by
  rw [List.filter_map]
  congr 1
  apply List.filter_congr
  intro piece _
  simp only [Function.comp_apply, String.toList_ofList]

/-- The pieces of a text, trimmed, without the empty ones. -/
theorem words_splitAny (delimiters : List Char) (s : String) :
    ((splitAny delimiters s).map trim).filter (fun piece => !piece.toList.isEmpty) =
      (wordsOf (fun c => delimiters.contains c) isWhiteSpace s.toList).map String.ofList := by
  rw [splitAny, map_trim_ofList, filter_nonempty_ofList, wordsOf]

theorem splitLineFeeds_eq_splitOnP (l : List Char) :
    splitLineFeeds l = l.splitOnP fun c => c = '\n' := by
  induction l with
  | nil => rfl
  | cons c l ih =>
      rw [splitLineFeeds, List.splitOnP_cons_eq_if_modifyHead, ih]
      by_cases feed : c = '\n'
      · simp only [feed, decide_true, if_true]
      · simp only [feed, decide_false, if_false, Bool.false_eq_true]
        cases pieces : l.splitOnP fun c => c = '\n' with
        | nil => exact absurd pieces (List.splitOnP_ne_nil _ l)
        | cons line lines => rfl

theorem trimChars_stripCarriageReturn (line : List Char) :
    trimChars isWhiteSpace (stripCarriageReturn line) = trimChars isWhiteSpace line := by
  unfold stripCarriageReturn
  split
  · rename_i last
    obtain ⟨front, rfl⟩ := List.getLast?_eq_some_iff.1 last
    rw [List.dropLast_concat, trimChars_concat (by decide)]
  · rfl

/-- The lines of a text, trimmed, without the blank ones. -/
theorem words_lines (s : String) :
    ((lines s).map trim).filter (fun line => !line.toList.isEmpty) =
      (wordsOf (fun c => c = '\n') isWhiteSpace s.toList).map String.ofList := by
  obtain ⟨front, last, pieces⟩ :
      ∃ front last, (s.toList.splitOnP fun c => c = '\n') = front ++ [last] :=
    ⟨_, _, (List.dropLast_append_getLast (List.splitOnP_ne_nil _ _)).symm⟩
  have ended : (front.map stripCarriageReturn).map (trimChars isWhiteSpace) =
      front.map (trimChars isWhiteSpace) := by
    rw [List.map_map]
    exact List.map_congr_left fun line _ => trimChars_stripCarriageReturn line
  have unended : ((if last.isEmpty then [] else [last]).map (trimChars isWhiteSpace)).filter
      (fun line => !line.isEmpty) =
        ([last].map (trimChars isWhiteSpace)).filter fun line => !line.isEmpty := by
    cases last <;> rfl
  unfold lines wordsOf
  rw [splitLineFeeds_eq_splitOnP, pieces, map_trim_ofList, filter_nonempty_ofList]
  simp only [List.dropLast_concat, List.getLast?_concat, Option.getD_some, List.map_append,
    List.filter_append, ended]
  rw [unended]

/-- The characters of a line are in the text. -/
theorem mem_of_mem_lines {s line : String} (member : line ∈ lines s) :
    ∀ c ∈ line.toList, c ∈ s.toList := by
  intro c inside
  unfold lines at member
  rw [splitLineFeeds_eq_splitOnP] at member
  obtain ⟨piece, among, rfl⟩ := List.mem_map.1 member
  rw [String.toList_ofList] at inside
  rcases List.mem_append.1 among with ended | last
  · obtain ⟨full, there, rfl⟩ := List.mem_map.1 ended
    have kept : c ∈ full := by
      unfold stripCarriageReturn at inside
      split at inside
      · exact List.dropLast_subset full inside
      · exact inside
    exact mem_of_mem_splitOnP (List.dropLast_subset _ there) c kept
  · split at last
    · cases last
    · rw [List.mem_singleton.1 last] at inside
      have nonempty := List.splitOnP_ne_nil (fun c => decide (c = '\n')) s.toList
      rw [List.getLast?_eq_getLast_of_ne_nil nonempty, Option.getD_some] at inside
      exact mem_of_mem_splitOnP (List.getLast_mem nonempty) c inside

end TavilyHikari.Library
