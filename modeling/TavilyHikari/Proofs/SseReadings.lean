/-
Module: TavilyHikari.Proofs.SseReadings
Purpose: The two readings of a body: no event is read from the text of a JSON document, and
  from a stream of events each document that is printed on their data lines, in its order.
Trusted boundary: white space between the tokens is nothing to the parser (`SpaceInsignificant`)
Main exports: BlockLine, StreamBlock, SseStream, SpaceInsignificant,
  extractSseJsonMessages_of_isJsonText, readings_disjoint
-/
import TavilyHikari.Analysis.McpResponse
import TavilyHikari.Library.JsonText

namespace TavilyHikari.Analysis

open Library

/-! ### Streams -/

def dataField : List Char := "data:".toList

/-- A line of an event that is not blank: data, or a comment or another field. -/
inductive BlockLine where
  | data (content : List Char) (oneLine : '\n' ∉ content)
  | other (text : List Char) (oneLine : '\n' ∉ text) (noData : ¬dataField <+: text)
      (visible : ∃ c ∈ text, isWhiteSpace c = false)

namespace BlockLine

def chars : BlockLine → List Char
  | .data content _ => dataField ++ content
  | .other text _ _ _ => text

def content? : BlockLine → Option (List Char)
  | .data content _ => some content
  | .other _ _ _ _ => none

end BlockLine

/-- A line with its ending, LF or CRLF. -/
structure EndedLine where
  line : BlockLine
  crlf : Bool

/-- What stands before the line feed. -/
def EndedLine.chars (ended : EndedLine) : List Char :=
  ended.line.chars ++ if ended.crlf then ['\r'] else []

def dataOf (lines : List EndedLine) : List (List Char) :=
  lines.filterMap fun ended => ended.line.content?

structure BlankLine where
  chars : List Char
  blank : ∀ c ∈ chars, isWhiteSpace c = true
  oneLine : '\n' ∉ chars

/-- The text is one of JSON that is read as the value. -/
def Prints (json : SerdeJson) (value : JsonValue) (text : List Char) : Prop :=
  IsJsonText text ∧ json.fromStr (String.ofList text) = some value

/-- The contents of the data lines are the lines of a text of the value, or there are none. -/
def Carries (json : SerdeJson) (contents : List (List Char)) : Option JsonValue → Prop
  | some value => Prints json value (['\n'].intercalate contents)
  | none => contents = []

structure StreamBlock (json : SerdeJson) where
  lines : List EndedLine
  value : Option JsonValue
  carries : Carries json (dataOf lines) value

/-- Blocks with one blank line or more after each. None need to stand after the last one. -/
structure SseStream (json : SerdeJson) where
  before : List BlankLine
  blocks : List (StreamBlock json × BlankLine × List BlankLine)
  last : StreamBlock json

section

variable {json : SerdeJson}

def StreamBlock.rawLines (block : StreamBlock json) : List (List Char) :=
  block.lines.map EndedLine.chars

def blockLines (block : StreamBlock json × BlankLine × List BlankLine) : List (List Char) :=
  block.1.rawLines ++ (block.2.1 :: block.2.2).map BlankLine.chars

namespace SseStream

def rawLines (stream : SseStream json) : List (List Char) :=
  stream.before.map BlankLine.chars ++ (stream.blocks.flatMap blockLines ++ stream.last.rawLines)

def text (stream : SseStream json) : String := String.ofList (['\n'].intercalate stream.rawLines)

/-- The values in the order of their blocks. -/
def values (stream : SseStream json) : List JsonValue :=
  stream.blocks.flatMap (fun block => block.1.value.toList) ++ stream.last.value.toList

end SseStream

end

/-- Two texts of the same tokens are read alike. -/
def SpaceInsignificant (json : SerdeJson) : Prop :=
  ∀ tokens one two, ValueTokens tokens → Spaced tokens one → Spaced tokens two →
    json.fromStr (String.ofList one) = json.fromStr (String.ofList two)

/-! ### Lines -/

variable {json : SerdeJson}

/-- The state after a line, by its characters before the line feed. -/
def sseRaw (json : SerdeJson) (state : List JsonValue × String) (raw : List Char) :
    List JsonValue × String :=
  sseLine json state (String.ofList raw)

theorem sseRaw_of_trimEnd {one two : List Char}
    (same : one.rdropWhile isWhiteSpace = two.rdropWhile isWhiteSpace)
    (state : List JsonValue × String) : sseRaw json state one = sseRaw json state two := by
  have trimmed : trimEnd (String.ofList one) = trimEnd (String.ofList two) := by
    rw [trimEnd, trimEnd, String.toList_ofList, String.toList_ofList, same]
  unfold sseRaw sseLine
  rw [trimmed]

theorem rdropWhile_stripCarriageReturn (line : List Char) :
    (stripCarriageReturn line).rdropWhile isWhiteSpace = line.rdropWhile isWhiteSpace := by
  unfold stripCarriageReturn
  split
  · rename_i last
    obtain ⟨front, rfl⟩ := List.getLast?_eq_some_iff.1 last
    rw [List.dropLast_concat, List.rdropWhile_concat_pos _ _ _ (by decide)]
  · rfl

theorem sseRaw_blank {raw : List Char} (blank : ∀ c ∈ raw, isWhiteSpace c = true)
    (state : List JsonValue × String) :
    sseRaw json state raw = (flushEvent json state.1 state.2, "") := by
  have trimmed : trimEnd (String.ofList raw) = "" := by
    rw [trimEnd, String.toList_ofList, List.rdropWhile_eq_nil_iff.2 blank]
  unfold sseRaw sseLine
  rw [trimmed]
  rfl

theorem flushEvent_empty (messages : List JsonValue) : flushEvent json messages "" = messages := rfl

/-- The carriage returns of the line endings are trimmed anyway. -/
theorem foldl_stripCarriageReturn (raws : List (List Char)) (state : List JsonValue × String) :
    (raws.map stripCarriageReturn).foldl (sseRaw json) state = raws.foldl (sseRaw json) state := by
  induction raws generalizing state with
  | nil => rfl
  | cons raw raws ih =>
      rw [List.map_cons, List.foldl_cons, List.foldl_cons, ih,
        sseRaw_of_trimEnd (rdropWhile_stripCarriageReturn raw)]

theorem foldl_ofList (raws : List (List Char)) (state : List JsonValue × String) :
    (raws.map String.ofList).foldl (sseLine json) state = raws.foldl (sseRaw json) state :=
  List.foldl_map

/-- The events of a text, line by line. That a last empty line is none does not matter. -/
theorem extractSseJsonMessages_eq {text : String} {messages : List JsonValue} {current : String}
    (read : (splitLineFeeds text.toList).foldl (sseRaw json) ([], "") = (messages, current)) :
    extractSseJsonMessages json text = flushEvent json messages current := by
  have nonempty : splitLineFeeds text.toList ≠ [] := by
    rw [splitLineFeeds_eq_splitOnP]
    exact List.splitOnP_ne_nil _ _
  obtain ⟨ended, rest, parts⟩ : ∃ ended rest, splitLineFeeds text.toList = ended ++ [rest] :=
    ⟨_, _, (List.dropLast_append_getLast nonempty).symm⟩
  have cut : lines text =
      (ended.map stripCarriageReturn ++ if rest.isEmpty then [] else [rest]).map String.ofList := by
    rw [lines, parts, List.dropLast_concat, List.getLast?_concat, Option.getD_some]
  rw [parts, List.foldl_append] at read
  rw [extractSseJsonMessages, cut, foldl_ofList, List.foldl_append,
    foldl_stripCarriageReturn]
  cases rest with
  | nil =>
      rw [List.foldl_cons, sseRaw_blank (fun _ member => absurd member List.not_mem_nil)] at read
      cases read
      rfl
  | cons c rest =>
      have whole : (if (c :: rest).isEmpty then [] else [c :: rest]) = [c :: rest] := rfl
      rw [whole, read]

theorem stripPrefix_of_noData {raw : List Char} (noData : ¬dataField <+: raw) :
    stripPrefix "data:" (trimEnd (String.ofList raw)) = none := by
  have starts : startsWith "data:" (trimEnd (String.ofList raw)) = false := by
    rw [Bool.eq_false_iff]
    intro starts
    have whole := startsWith_of_trimEnd starts
    rw [startsWith, List.isPrefixOf_iff_prefix, String.toList_ofList (l := raw)] at whole
    exact noData whole
  rw [stripPrefix, starts]
  rfl

/-- A line that is no data begins no event. -/
theorem sseRaw_of_noData {raw : List Char} (noData : ¬dataField <+: raw)
    (messages : List JsonValue) : sseRaw json (messages, "") raw = (messages, "") := by
  unfold sseRaw sseLine
  simp only [stripPrefix_of_noData noData, flushEvent_empty, ite_self]

/-! ### Documents -/

/-- A line of a document begins with white space or with a token. -/
theorem noData_of_spaced {tokens : List (List Char)} {line : List Char}
    (spaced : Spaced tokens line) (solid : ∀ token ∈ tokens, SolidToken token) :
    ¬dataField <+: line := by
  rintro ⟨rest, rfl⟩
  rcases spaced.head solid (c := 'd') rfl with space | start
  · revert space
    decide
  · revert start
    decide

theorem intercalate_splitLineFeeds (text : List Char) :
    ['\n'].intercalate (splitLineFeeds text) = text := by
  rw [splitLineFeeds_eq_splitOnP]
  exact List.intercalate_splitOn '\n'

/-- No line of a document is data. -/
theorem noData_of_isJsonText {text : List Char} (document : IsJsonText text) :
    ∀ line ∈ splitLineFeeds text, ¬dataField <+: line := by
  obtain ⟨tokens, value, spaced⟩ := document
  rw [← intercalate_splitLineFeeds text] at spaced
  intro line member
  obtain ⟨part, solid, inLine⟩ := spaced.line value.solid member
  exact noData_of_spaced inLine solid

theorem extractSseJsonMessages_of_isJsonText {text : String} (document : IsJsonText text.toList) :
    extractSseJsonMessages json text = [] := by
  have read : (splitLineFeeds text.toList).foldl (sseRaw json) ([], "") = ([], "") := by
    have noData := noData_of_isJsonText document
    generalize splitLineFeeds text.toList = lines at noData
    induction lines with
    | nil => rfl
    | cons line lines ih =>
        rw [List.forall_mem_cons] at noData
        rw [List.foldl_cons, sseRaw_of_noData noData.1, ih noData.2]
  rw [extractSseJsonMessages_eq read]
  rfl

/-! ### Blocks -/

theorem rdropWhile_dataField (rest : List Char) :
    (dataField ++ rest).rdropWhile isWhiteSpace = dataField ++ rest.rdropWhile isWhiteSpace := by
  induction rest using List.reverseRecOn with
  | nil => rfl
  | append_singleton rest c ih =>
      rw [← List.append_assoc, List.rdropWhile_concat, List.rdropWhile_concat]
      split
      · exact ih
      · rw [List.append_assoc]

/-- A data line adds what is left of its content when that is trimmed. -/
theorem sseRaw_data (content : List Char) (messages : List JsonValue) (current : String) :
    sseRaw json (messages, current) (dataField ++ content) =
      (messages, (if current.isEmpty then current else current ++ "\n") ++
        String.ofList ((content.rdropWhile isWhiteSpace).dropWhile isWhiteSpace)) := by
  have trimmed : trimEnd (String.ofList (dataField ++ content)) =
      "data:" ++ String.ofList (content.rdropWhile isWhiteSpace) := by
    rw [trimEnd, String.toList_ofList, rdropWhile_dataField, String.ofList_append]
    rfl
  have rest : stripPrefix "data:" ("data:" ++ String.ofList (content.rdropWhile isWhiteSpace)) =
      some (String.ofList (content.rdropWhile isWhiteSpace)) :=
    stripPrefix_eq_some_iff.2 rfl
  have start : trimStart (String.ofList (content.rdropWhile isWhiteSpace)) =
      String.ofList ((content.rdropWhile isWhiteSpace).dropWhile isWhiteSpace) := by
    rw [trimStart, String.toList_ofList]
  have visible : ("data:" ++ String.ofList (content.rdropWhile isWhiteSpace)).isEmpty = false := by
    rw [Bool.eq_false_iff, Ne, String.isEmpty_iff]
    exact append_ne_empty (by decide) _
  unfold sseRaw sseLine
  simp only [trimmed, rest, start, visible, Bool.false_eq_true, if_false]

theorem isWhiteSpace_carriageReturn : isWhiteSpace '\r' = true := by decide

/-- A comment or another field changes nothing. -/
theorem sseRaw_other {text : List Char} (noData : ¬dataField <+: text)
    (visible : ∃ c ∈ text, isWhiteSpace c = false) (state : List JsonValue × String) :
    sseRaw json state text = state := by
  have some : (trimEnd (String.ofList text)).isEmpty = false := by
    rw [Bool.eq_false_iff, Ne, String.isEmpty_iff, trimEnd, String.toList_ofList]
    intro empty
    obtain ⟨c, member, kept⟩ := visible
    rw [List.rdropWhile_eq_nil_iff.1 (eq_nil_of_ofList empty) c member] at kept
    cases kept
  unfold sseRaw sseLine
  simp only [stripPrefix_of_noData noData, some, Bool.false_eq_true, if_false]

/-- A line ending is trimmed. -/
theorem sseRaw_ended (ended : EndedLine) (state : List JsonValue × String) :
    sseRaw json state ended.chars = sseRaw json state ended.line.chars := by
  apply sseRaw_of_trimEnd
  unfold EndedLine.chars
  split
  · exact List.rdropWhile_concat_pos _ _ _ isWhiteSpace_carriageReturn
  · rw [List.append_nil]

theorem foldl_noData {lines : List EndedLine} (none : dataOf lines = [])
    (state : List JsonValue × String) :
    (lines.map EndedLine.chars).foldl (sseRaw json) state = state := by
  induction lines with
  | nil => rfl
  | cons ended lines ih =>
      rw [List.map_cons, List.foldl_cons, sseRaw_ended]
      obtain ⟨line, crlf⟩ := ended
      cases line with
      | data content oneLine => cases none
      | other text oneLine noData visible =>
          rw [BlockLine.chars, sseRaw_other noData visible]
          exact ih none

/-- The data of a block is what its lines hold, with other white space around the tokens. -/
theorem foldl_data {lines : List EndedLine} {parts : List (List (List Char))}
    (spaced : List.Forall₂ Spaced parts (dataOf lines))
    (solid : ∀ part ∈ parts, ∀ token ∈ part, SolidToken token) (messages : List JsonValue)
    {read : List (List Char)} {current : List Char} (before : Spaced read current)
    (solidRead : ∀ token ∈ read, SolidToken token) :
    ∃ data, (lines.map EndedLine.chars).foldl (sseRaw json) (messages, String.ofList current) =
        (messages, String.ofList data) ∧ Spaced (read ++ parts.flatten) data := by
  induction lines generalizing parts read current with
  | nil =>
      cases spaced
      exact ⟨current, rfl, by rwa [List.flatten_nil, List.append_nil]⟩
  | cons ended lines ih =>
      rw [List.map_cons, List.foldl_cons, sseRaw_ended]
      obtain ⟨line, crlf⟩ := ended
      cases line with
      | other text oneLine noData visible =>
          rw [BlockLine.chars, sseRaw_other noData visible]
          exact ih spaced solid before solidRead
      | data content oneLine =>
          cases spaced with
          | @cons part _ parts _ first rest =>
              rw [List.forall_mem_cons] at solid
              have trimmed := (first.rdropWhile solid.1).dropWhile solid.1
              rw [BlockLine.chars, sseRaw_data, List.flatten_cons, ← List.append_assoc]
              have solidNext : ∀ token ∈ read ++ part, SolidToken token :=
                List.forall_mem_append.2 ⟨solidRead, solid.1⟩
              by_cases empty : (String.ofList current).isEmpty = true
              · have nothing := eq_nil_of_ofList (String.isEmpty_iff.1 empty)
                subst nothing
                rw [if_pos empty, ← String.ofList_append, List.nil_append]
                apply ih rest solid.2 _ solidNext
                rw [before.nil_of_nil solidRead rfl]
                exact trimmed
              · have joined : String.ofList current ++ "\n" = String.ofList (current ++ ['\n']) := by
                  rw [String.ofList_append]
                rw [if_neg empty, joined, ← String.ofList_append, List.append_assoc]
                apply ih rest solid.2 _ solidNext
                exact before.append (.space (by decide) trimmed)

/-! ### Streams -/

variable (insignificant : SpaceInsignificant json)

include insignificant in
/-- A block leaves data that is flushed as its value. -/
theorem foldl_block (block : StreamBlock json) (messages : List JsonValue) :
    ∃ data, block.rawLines.foldl (sseRaw json) (messages, "") = (messages, data) ∧
      flushEvent json messages data = messages ++ block.value.toList := by
  obtain ⟨lines, value, carries⟩ := block
  cases value with
  | none =>
      refine ⟨"", foldl_noData carries _, ?_⟩
      rw [flushEvent_empty, Option.toList_none, List.append_nil]
  | some value =>
      obtain ⟨⟨tokens, isValue, spaced⟩, parsed⟩ := carries
      obtain ⟨parts, rfl, inLines⟩ := spaced.lines isValue.solid
      obtain ⟨data, read, inData⟩ := foldl_data inLines
        (List.forall_mem_flatten.1 isValue.solid) messages .done
        (fun _ none => absurd none List.not_mem_nil)
      rw [List.nil_append] at inData
      refine ⟨String.ofList data, read, ?_⟩
      have some : (String.ofList data).isEmpty = false := by
        rw [Bool.eq_false_iff, Ne, String.isEmpty_iff]
        intro empty
        exact isValue.nonempty (inData.nil_of_nil isValue.solid (eq_nil_of_ofList empty))
      have readData := (insignificant _ _ _ isValue inData spaced).trans parsed
      rw [flushEvent, some, if_neg Bool.false_ne_true, readData]
      rfl

/-- Blank lines after the first one flush nothing. -/
theorem foldl_blank (blanks : List BlankLine) (messages : List JsonValue) :
    (blanks.map BlankLine.chars).foldl (sseRaw json) (messages, "") = (messages, "") := by
  induction blanks with
  | nil => rfl
  | cons blank blanks ih =>
      rw [List.map_cons, List.foldl_cons, sseRaw_blank blank.blank]
      exact ih

include insignificant in
theorem foldl_blocks (blocks : List (StreamBlock json × BlankLine × List BlankLine))
    (messages : List JsonValue) :
    (blocks.flatMap blockLines).foldl (sseRaw json) (messages, "") =
      (messages ++ blocks.flatMap (fun block => block.1.value.toList), "") := by
  induction blocks generalizing messages with
  | nil => rw [List.flatMap_nil, List.foldl_nil, List.flatMap_nil, List.append_nil]
  | cons block blocks ih =>
      obtain ⟨block, blank, blanks⟩ := block
      obtain ⟨data, read, flushed⟩ := foldl_block insignificant block messages
      rw [List.flatMap_cons, List.foldl_append, blockLines, List.foldl_append, read, List.map_cons,
        List.foldl_cons, sseRaw_blank blank.blank]
      simp only [flushed]
      rw [foldl_blank, ih, List.flatMap_cons, List.append_assoc]

theorem EndedLine.oneLine (ended : EndedLine) : '\n' ∉ ended.chars := by
  obtain ⟨line, crlf⟩ := ended
  have inLine : '\n' ∉ line.chars := by
    cases line with
    | data content oneLine =>
        rw [BlockLine.chars, List.mem_append, not_or]
        exact ⟨by decide, oneLine⟩
    | other text oneLine _ _ => exact oneLine
  have inEnding : '\n' ∉ (if crlf then ['\r'] else []) := by
    cases crlf <;> decide
  rw [EndedLine.chars, List.mem_append, not_or]
  exact ⟨inLine, inEnding⟩

theorem StreamBlock.oneLine (block : StreamBlock json) : ∀ raw ∈ block.rawLines, '\n' ∉ raw := by
  intro raw member
  obtain ⟨ended, _, rfl⟩ := List.mem_map.1 member
  exact ended.oneLine

theorem oneLine_blanks (blanks : List BlankLine) :
    ∀ raw ∈ blanks.map BlankLine.chars, '\n' ∉ raw := by
  intro raw member
  obtain ⟨blank, _, rfl⟩ := List.mem_map.1 member
  exact blank.oneLine

theorem oneLine_rawLines (stream : SseStream json) : ∀ raw ∈ stream.rawLines, '\n' ∉ raw := by
  rw [SseStream.rawLines, List.forall_mem_append, List.forall_mem_append]
  refine ⟨oneLine_blanks _, ?_, stream.last.oneLine⟩
  intro raw member
  obtain ⟨block, _, inBlock⟩ := List.mem_flatMap.1 member
  rcases List.mem_append.1 inBlock with inLines | inBlanks
  · exact block.1.oneLine raw inLines
  · exact oneLine_blanks _ raw inBlanks

theorem splitLineFeeds_intercalate {lines : List (List Char)} (nonempty : lines ≠ [])
    (single : ∀ line ∈ lines, '\n' ∉ line) : splitLineFeeds (['\n'].intercalate lines) = lines := by
  rw [splitLineFeeds_eq_splitOnP]
  exact List.splitOn_intercalate '\n' single nonempty

include insignificant in
/-- **Streams.** The documents on the data lines are read, each once and in their order. -/
theorem extractSseJsonMessages_stream (stream : SseStream json) :
    extractSseJsonMessages json stream.text = stream.values := by
  obtain ⟨data, read, flushed⟩ := foldl_block insignificant stream.last
    (stream.blocks.flatMap fun block => block.1.value.toList)
  have whole : stream.rawLines.foldl (sseRaw json) ([], "") =
      (stream.blocks.flatMap (fun block => block.1.value.toList), data) := by
    rw [SseStream.rawLines, List.foldl_append, List.foldl_append, foldl_blank,
      foldl_blocks insignificant, List.nil_append, read]
  have parts : (splitLineFeeds stream.text.toList).foldl (sseRaw json) ([], "") =
      stream.rawLines.foldl (sseRaw json) ([], "") := by
    rw [SseStream.text, String.toList_ofList]
    by_cases empty : stream.rawLines = []
    · rw [empty]
      rfl
    · rw [splitLineFeeds_intercalate empty (oneLine_rawLines stream)]
  rw [extractSseJsonMessages_eq (parts.trans whole), flushed]
  rfl

include insignificant in
/-- **Readings.** No event is read from a document, and from a stream all of its documents. -/
theorem readings_disjoint :
    (∀ text : String, IsJsonText text.toList → extractSseJsonMessages json text = []) ∧
      ∀ stream : SseStream json, extractSseJsonMessages json stream.text = stream.values :=
  ⟨fun _ document => extractSseJsonMessages_of_isJsonText document,
    extractSseJsonMessages_stream insignificant⟩

/-! ### Two blocks with a document each -/

/-- A parser of two of the literals. -/
def literalJson : SerdeJson where
  fromSlice := fun body =>
    (String.fromUTF8? body).bind fun text =>
      if trimChars isWhiteSpace text.toList = "null".toList then some .null
      else if trimChars isWhiteSpace text.toList = "true".toList then some (.bool true)
      else none
  print _ := "null"

theorem fromStr_literalJson (text : List Char) :
    literalJson.fromStr (String.ofList text) =
      if trimChars isWhiteSpace text = "null".toList then some .null
      else if trimChars isWhiteSpace text = "true".toList then some (.bool true)
      else none := by
  show (String.fromUTF8? (String.ofList text).toUTF8).bind _ = _
  rw [fromUTF8?_toUTF8, Option.bind_some, String.toList_ofList]

theorem spaced_trimChars {tokens : List (List Char)} {text : List Char}
    (spaced : Spaced tokens text) (solid : ∀ token ∈ tokens, SolidToken token) :
    Spaced tokens (trimChars isWhiteSpace text) :=
  (spaced.dropWhile solid).rdropWhile solid

/-- A literal is told by its first character from every other token. -/
theorem literals_first : ∀ literal ∈ literals,
    isJsonSpace (literal.headD ' ') = false ∧ literal.headD ' ' ∉ marks ∧
      isNumberChar (literal.headD ' ') = false ∧ literal.headD ' ' ≠ '"' ∧
      ∀ other ∈ literals, other.headD ' ' = literal.headD ' ' → other = literal := by
  decide

/-- The only token that begins as this one does. -/
theorem eq_literal {literal token : List Char} (known : literal ∈ literals)
    (isToken : IsToken token) (first : token.head? = some (literal.headD ' ')) :
    token = literal := by
  obtain ⟨_, unmarked, unnumbered, unquoted, alone⟩ := literals_first literal known
  cases isToken with
  | mark marked =>
      cases first
      exact absurd marked unmarked
  | literal knownToken =>
      refine alone token knownToken ?_
      rw [List.headD_eq_head?_getD, first]
      rfl
  | number isNumber =>
      have inNumber := isNumber.all _ (List.mem_of_mem_head? first)
      rw [unnumbered] at inNumber
      cases inNumber
  | string isString =>
      cases isString
      exact absurd (Option.some.inj first).symm unquoted

theorem tokens_of_literal {literal : List Char} (known : literal ∈ literals)
    {tokens : List (List Char)} {text : List Char} (spaced : Spaced tokens text)
    (all : ∀ token ∈ tokens, IsToken token) (same : text = literal) : tokens = [literal] := by
  have solid : ∀ token ∈ tokens, SolidToken token := fun token member => (all token member).solid
  obtain ⟨filled, _⟩ := literals_first literal known
  cases spaced with
  | done =>
      rw [← same] at filled
      exact absurd filled (by decide)
  | space blank more =>
      rw [← same] at filled
      exact absurd blank (by simpa using filled)
  | @token tokens rest token more =>
      rw [List.forall_mem_cons] at all solid
      obtain ⟨c, front, begins, _⟩ := solid.1.first
      have first : token.head? = some (literal.headD ' ') := by
        rw [← same, begins]
        rfl
      obtain rfl := eq_literal known all.1 first
      rw [more.nil_of_nil solid.2 (List.append_right_eq_self.1 same)]

theorem spaceInsignificant_literalJson : SpaceInsignificant literalJson := by
  intro tokens one two value inOne inTwo
  have same {literal : List Char} (known : literal ∈ literals) {text : List Char}
      (spaced : Spaced tokens text) :
      trimChars isWhiteSpace text = literal ↔ tokens = [literal] := by
    constructor
    · exact tokens_of_literal known (spaced_trimChars spaced value.solid) value.all
    · intro single
      exact spaced.trimChars_singleton single (IsToken.literal known).solid
  have null : "null".toList ∈ literals := by decide
  have true_ : "true".toList ∈ literals := by decide
  rw [fromStr_literalJson, fromStr_literalJson]
  simp only [same null inOne, same null inTwo, same true_ inOne, same true_ inTwo]

/-- A comment, and two data lines with the document on the second one. -/
def nullBlock : StreamBlock literalJson where
  lines :=
    [{ line := .other ": hello".toList (by decide) (by decide) ⟨':', by decide, by decide⟩
       crlf := true },
      { line := .data [] List.not_mem_nil, crlf := true },
      { line := .data " null".toList (by decide), crlf := false }]
  value := some .null
  carries := by
    refine ⟨⟨["null".toList], .literal (by decide), ?_⟩, ?_⟩
    · exact .space (by decide) (.space (by decide) (.token "null".toList .done))
    · rw [fromStr_literalJson]
      exact if_pos (by decide)

/-- One data line. -/
def trueBlock : StreamBlock literalJson where
  lines := [{ line := .data " true".toList (by decide), crlf := true }]
  value := some (.bool true)
  carries := by
    refine ⟨⟨["true".toList], .literal (by decide), ?_⟩, ?_⟩
    · exact .space (by decide) (.token "true".toList .done)
    · rw [fromStr_literalJson, if_neg (by decide)]
      exact if_pos (by decide)

/-- Two lines stand between the blocks, and none after the second one. -/
def twoBlockStream : SseStream literalJson where
  before := []
  blocks :=
    [(nullBlock, { chars := [], blank := List.forall_mem_nil _, oneLine := List.not_mem_nil },
      [{ chars := ['\r'], blank := List.forall_mem_singleton.2 rfl, oneLine := by decide }])]
  last := trueBlock

theorem readings_disjoint_twoBlocks :
    extractSseJsonMessages literalJson twoBlockStream.text = [.null, .bool true] :=
  (readings_disjoint spaceInsignificant_literalJson).2 twoBlockStream

end TavilyHikari.Analysis
