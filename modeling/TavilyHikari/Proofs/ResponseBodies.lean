/-
Module: TavilyHikari.Proofs.ResponseBodies
Purpose: The bodies in which an upstream sends its messages, as the array of a batch or as
  the events of a stream: the messages that are read back from them, and the words in them.
Trusted boundary: the parser reads an array item by item
Main exports: WireMessage, BodyFormat, SseEvent, textMessages_render, textMessages_events,
  quarantineWords, contains_render
-/
import Mathlib.Data.List.Infix
import TavilyHikari.Analysis.Attempt
import TavilyHikari.Proofs.McpAnswers

namespace TavilyHikari.Analysis

open Library Store

/-! ### Bodies -/

/-- The parser reads a text, also as the item of an array. -/
def Reads (json : SerdeJson) (text : String) (value : JsonValue) : Prop :=
  json.fromStr text = some value ∧ json.fromStr ("[" ++ text ++ "]") = some (.array [value])

/-- A message, as a text of JSON on one line. -/
structure WireMessage (json : SerdeJson) where
  text : String
  value : JsonValue
  nonempty : text ≠ ""
  oneLine : '\n' ∉ text.toList
  trimmed : Trimmed isWhiteSpace text.toList
  reads : Reads json text value

/-- The data of an event, as a text of JSON on one line. -/
structure SseEvent (json : SerdeJson) where
  text : String
  value : JsonValue
  nonempty : text ≠ ""
  oneLine : '\n' ∉ text.toList
  trimmed : Trimmed isWhiteSpace text.toList
  parsed : json.fromStr text = some value

def WireMessage.event {json : SerdeJson} (message : WireMessage json) : SseEvent json :=
  { message with parsed := message.reads.1 }

/-- How the messages come: as the array of a batch, or as the events of a stream. -/
inductive BodyFormat where
  | batch
  | eventStream
deriving DecidableEq, Repr

def eventName : String := "event: message"

def dataName : String := "data: "

/-- An event with a message. -/
def eventOf (text : String) : List Char :=
  eventName.toList ++ '\n' :: (dataName.toList ++ text.toList ++ ['\n', '\n'])

def BodyFormat.render : BodyFormat → List String → String
  | .batch, texts => String.ofList ('[' :: ([','].intercalate (texts.map String.toList) ++ [']']))
  | .eventStream, texts => String.ofList (texts.flatMap eventOf)

variable {json : SerdeJson}

/-- The body with these messages. -/
def BodyFormat.body (format : BodyFormat) (messages : List (WireMessage json)) : ByteArray :=
  (format.render (messages.map WireMessage.text)).toUTF8

/-- The parser reads an array item by item. -/
def ReadsArrays (json : SerdeJson) : Prop :=
  ∀ messages : List (WireMessage json), messages ≠ [] →
    json.fromStr (BodyFormat.batch.render (messages.map WireMessage.text)) =
      some (.array (messages.map WireMessage.value))

theorem splitLineFeeds_append {line : List Char} (single : '\n' ∉ line) (rest : List Char) :
    splitLineFeeds (line ++ '\n' :: rest) = line :: splitLineFeeds rest := by
  induction line with
  | nil => rfl
  | cons c line ih =>
      rw [List.mem_cons, not_or] at single
      rw [List.cons_append, splitLineFeeds, if_neg (Ne.symm single.1), ih single.2]

/-- The lines of the events of a stream. -/
def eventLines (text : String) : List String := [eventName, dataName ++ text, ""]

theorem toList_eventLines (text : String) :
    (eventLines text).map String.toList =
      [eventName.toList, dataName.toList ++ text.toList, []] := by
  simp only [eventLines, List.map_cons, List.map_nil, String.toList_append, String.toList_empty]

theorem splitLineFeeds_event (event : SseEvent json) (rest : List Char) :
    splitLineFeeds (eventOf event.text ++ rest) =
      (eventLines event.text).map String.toList ++ splitLineFeeds rest := by
  have name : '\n' ∉ eventName.toList := by decide
  have data : '\n' ∉ dataName.toList ++ event.text.toList := by
    rw [List.mem_append, not_or]
    exact ⟨by decide, event.oneLine⟩
  have none : '\n' ∉ ([] : List Char) := List.not_mem_nil
  have chars : eventOf event.text ++ rest =
      eventName.toList ++ '\n' :: ((dataName.toList ++ event.text.toList) ++
        '\n' :: ([] ++ '\n' :: rest)) := by
    simp only [eventOf, List.append_assoc, List.cons_append, List.nil_append]
  rw [chars, splitLineFeeds_append name, splitLineFeeds_append data, splitLineFeeds_append none,
    toList_eventLines]
  simp only [List.cons_append, List.nil_append]

theorem splitLineFeeds_events (events : List (SseEvent json)) :
    splitLineFeeds ((events.map SseEvent.text).flatMap eventOf) =
      (events.flatMap fun event => (eventLines event.text).map String.toList) ++ [[]] := by
  induction events with
  | nil => rfl
  | cons event events ih =>
      rw [List.map_cons, List.flatMap_cons, List.flatMap_cons, splitLineFeeds_event, ih,
        List.append_assoc]

theorem stripCarriageReturn_of_trimmed {line : List Char}
    (trimmed : line.rdropWhile isWhiteSpace = line) : stripCarriageReturn line = line := by
  unfold stripCarriageReturn
  rw [if_neg]
  intro last
  have nonempty : line ≠ [] := by
    rintro rfl
    cases last
  rw [List.getLast?_eq_getLast_of_ne_nil nonempty] at last
  have kept := List.rdropWhile_eq_self_iff.1 trimmed nonempty
  rw [Option.some.inj last] at kept
  exact kept (by decide)

/-- A line with data ends where its data ends. -/
theorem SseEvent.dataLine (event : SseEvent json) :
    (dataName.toList ++ event.text.toList).rdropWhile isWhiteSpace =
      dataName.toList ++ event.text.toList := by
  have nonempty : event.text.toList ≠ [] :=
    fun empty => event.nonempty (String.toList_inj.1 empty)
  apply List.rdropWhile_eq_self_iff.2
  intro some
  rw [List.getLast_append_of_right_ne_nil _ _ nonempty]
  exact List.rdropWhile_eq_self_iff.1 event.trimmed.finish nonempty

theorem stripCarriageReturn_eventLines (event : SseEvent json) :
    ((eventLines event.text).map String.toList).map stripCarriageReturn =
      (eventLines event.text).map String.toList := by
  have name : stripCarriageReturn eventName.toList = eventName.toList := by decide
  have data := stripCarriageReturn_of_trimmed event.dataLine
  have none : stripCarriageReturn [] = [] := rfl
  rw [toList_eventLines]
  simp only [List.map_cons, List.map_nil, name, data, none]

theorem lines_events (events : List (SseEvent json)) :
    lines (BodyFormat.eventStream.render (events.map SseEvent.text)) =
      events.flatMap fun event => eventLines event.text := by
  have back (event : SseEvent json) :
      ((eventLines event.text).map String.toList).map String.ofList =
        eventLines event.text := by
    rw [List.map_map]
    exact (List.map_congr_left fun line _ => String.ofList_toList).trans (List.map_id _)
  unfold lines BodyFormat.render
  simp only [String.toList_ofList, splitLineFeeds_events, List.dropLast_concat,
    List.getLast?_concat, Option.getD_some, List.isEmpty_nil, if_true, List.append_nil,
    List.map_flatMap, stripCarriageReturn_eventLines, back]

/-- The three lines of an event push its data. -/
theorem sseLines_event (event : SseEvent json) (before : List JsonValue) :
    (eventLines event.text).foldl (sseLine json) (before, "") =
      (before ++ [event.value], "") := by
  have nonempty : event.text.toList ≠ [] :=
    fun empty => event.nonempty (String.toList_inj.1 empty)
  have name : sseLine json (before, "") eventName = (before, "") := by
    have noData : stripPrefix "data:" (trimEnd eventName) = none := by decide
    have some : ¬(trimEnd eventName).isEmpty = true := by decide
    unfold sseLine
    simp only [noData]
    exact if_neg some
  have data : sseLine json (before, "") (dataName ++ event.text) = (before, event.text) := by
    have line : trimEnd (dataName ++ event.text) = dataName ++ event.text := by
      rw [trimEnd, String.toList_append, event.dataLine, ← String.toList_append,
        String.ofList_toList]
    have rest : stripPrefix "data:" (dataName ++ event.text) = some (" " ++ event.text) :=
      stripPrefix_eq_some_iff.2 (by rw [← String.append_assoc]; rfl)
    have start : trimStart (" " ++ event.text) = event.text := by
      rw [trimStart, String.toList_append]
      show String.ofList ((' ' :: event.text.toList).dropWhile isWhiteSpace) = event.text
      rw [List.dropWhile_cons_of_pos (by decide), event.trimmed.start, String.ofList_toList]
    unfold sseLine
    simp only [line, rest, start]
    rw [if_neg]
    · simp
    · rw [String.isEmpty_iff]
      intro empty
      exact event.nonempty (String.append_eq_empty_iff.1 empty).2
  have blank : sseLine json (before, event.text) "" = (before ++ [event.value], "") := by
    have pushed : flushEvent json before event.text = before ++ [event.value] := by
      unfold flushEvent
      rw [if_neg, event.parsed]
      rw [String.isEmpty_iff]
      exact event.nonempty
    have empty : (trimEnd "").isEmpty = true := by decide
    unfold sseLine
    simp only [pushed]
    exact if_pos empty
  simp only [eventLines, List.foldl_cons, List.foldl_nil, name, data, blank]

theorem sseLines_events (events : List (SseEvent json)) (before : List JsonValue) :
    (events.flatMap fun event => eventLines event.text).foldl (sseLine json) (before, "") =
      (before ++ events.map SseEvent.value, "") := by
  induction events generalizing before with
  | nil => rw [List.flatMap_nil, List.foldl_nil, List.map_nil, List.append_nil]
  | cons event events ih =>
      rw [List.flatMap_cons, List.foldl_append, sseLines_event, ih, List.map_cons,
        List.append_assoc, List.singleton_append]

theorem extractSseJsonMessages_events (events : List (SseEvent json)) :
    extractSseJsonMessages json (BodyFormat.eventStream.render (events.map SseEvent.text)) =
      events.map SseEvent.value := by
  unfold extractSseJsonMessages
  rw [lines_events, sseLines_events]
  rfl

theorem textMessages_events {events : List (SseEvent json)} (nonempty : events ≠ []) :
    textMessages json (BodyFormat.eventStream.render (events.map SseEvent.text)) =
      events.map SseEvent.value := by
  rw [textMessages, extractSseJsonMessages_events, if_neg]
  rw [List.isEmpty_iff, List.map_eq_nil_iff]
  exact nonempty

theorem texts_events (messages : List (WireMessage json)) :
    (messages.map WireMessage.event).map SseEvent.text = messages.map WireMessage.text := by
  rw [List.map_map]
  rfl

theorem values_events (messages : List (WireMessage json)) :
    (messages.map WireMessage.event).map SseEvent.value = messages.map WireMessage.value := by
  rw [List.map_map]
  rfl

/-! ### The text of an array -/

theorem toList_batch (texts : List String) :
    (BodyFormat.batch.render texts).toList =
      '[' :: ([','].intercalate (texts.map String.toList) ++ [']']) :=
  String.toList_ofList

theorem oneLine_batch (messages : List (WireMessage json)) :
    '\n' ∉ (BodyFormat.batch.render (messages.map WireMessage.text)).toList := by
  have inParts : '\n' ∉ [','].intercalate ((messages.map WireMessage.text).map String.toList) := by
    rw [← List.singleton_infix_iff, ← List.map_id ([','].intercalate _),
      infix_map_intercalate_iff (by decide) (List.cons_ne_nil _ _)]
    rintro ⟨part, member, occurs⟩
    obtain ⟨text, inTexts, rfl⟩ := List.mem_map.1 member
    obtain ⟨message, _, rfl⟩ := List.mem_map.1 inTexts
    rw [List.map_id, List.singleton_infix_iff] at occurs
    exact message.oneLine occurs
  rw [toList_batch, List.mem_cons, List.mem_append, not_or, not_or]
  exact ⟨by decide, inParts, by decide⟩

theorem noData_batch (texts : List String) :
    startsWith "data:" (BodyFormat.batch.render texts) = false := by
  rw [startsWith, toList_batch]
  rfl

/-- An array of messages is not the empty one. -/
theorem batch_ne_brackets {messages : List (WireMessage json)} (nonempty : messages ≠ []) :
    BodyFormat.batch.render (messages.map WireMessage.text) ≠ "[]" := by
  intro same
  have chars := congrArg String.toList same
  rw [toList_batch] at chars
  have none : [','].intercalate ((messages.map WireMessage.text).map String.toList) = [] :=
    List.append_cancel_right (List.cons.inj chars).2
  cases messages with
  | nil => exact nonempty rfl
  | cons message messages =>
      apply message.nonempty
      rw [← String.toList_inj]
      cases messages with
      | nil =>
          rw [List.map_cons, List.map_cons, List.map_nil, List.map_nil,
            List.intercalate_singleton] at none
          exact none
      | cons next messages =>
          rw [List.map_cons, List.map_cons, List.map_cons, List.map_cons,
            List.intercalate_cons_cons] at none
          exact (List.append_eq_nil_iff.mp (List.append_eq_nil_iff.mp none).1).1

theorem textMessages_batch {messages : List (WireMessage json)} {items : List JsonValue}
    (parsed : json.fromStr (BodyFormat.batch.render (messages.map WireMessage.text)) =
      some (.array items)) :
    textMessages json (BodyFormat.batch.render (messages.map WireMessage.text)) = items := by
  rw [textMessages, Server.extractSseJsonMessages_of_line json (oneLine_batch messages)
    (noData_batch _), parsed]
  rfl

/-- A body has the messages that it was made of. -/
theorem textMessages_render (arrays : ReadsArrays json) (format : BodyFormat)
    {messages : List (WireMessage json)} (nonempty : messages ≠ []) :
    textMessages json (format.render (messages.map WireMessage.text)) =
      messages.map WireMessage.value := by
  cases format with
  | eventStream =>
      have some : messages.map WireMessage.event ≠ [] := by
        rw [Ne, List.map_eq_nil_iff]
        exact nonempty
      rw [← texts_events, textMessages_events some, values_events]
  | batch => exact textMessages_batch (arrays messages nonempty)

/-! ### Words -/

/-- The words that `classify_quarantine_reason` looks for. -/
def quarantineWords : List String :=
  ["deactivated", "revoked", "invalid api key", "invalid_token", "api key is invalid"]

/-- A message has the word somewhere in its text. -/
def WireMessage.mentions (message : WireMessage json) (word : String) : Bool :=
  contains (toAsciiLowercase message.text) word

/-- A word that stands in no frame of the messages, and over no end of one. -/
structure PlainWord (word : List Char) : Prop where
  nonempty : word ≠ []
  trimmed : Trimmed isWhiteSpace word
  free : ∀ c ∈ [',', '[', ']', '\n', ':'], c ∉ word
  spaceless : word.head? ≠ some ' '
  inNoName : ¬word <:+: eventName.toList.map Char.toLower
  inNoData : ¬word <:+: "data".toList

theorem plainWord_of_mem {word : String} (member : word ∈ quarantineWords) :
    PlainWord word.toList := by
  have trimmed : ∀ word ∈ quarantineWords, word.toList.dropWhile isWhiteSpace = word.toList ∧
      word.toList.rdropWhile isWhiteSpace = word.toList := by decide +kernel
  have free : ∀ word ∈ quarantineWords, word.toList ≠ [] ∧ word.toList.head? ≠ some ' ' ∧
      [',', '[', ']', '\n', ':'].all (fun c => decide (c ∉ word.toList)) = true := by decide +kernel
  have names : ∀ word ∈ quarantineWords,
      containsChars word.toList (eventName.toList.map Char.toLower) = false ∧
        containsChars word.toList "data".toList = false := by decide +kernel
  obtain ⟨start, finish⟩ := trimmed word member
  obtain ⟨nonempty, spaceless, free⟩ := free word member
  obtain ⟨inNoName, inNoData⟩ := names word member
  exact {
    nonempty := nonempty
    trimmed := ⟨start, finish⟩
    free := fun c listed => of_decide_eq_true (List.all_eq_true.1 free c listed)
    spaceless := spaceless
    inNoName := by
      rw [← containsChars_iff, inNoName]
      exact Bool.false_ne_true
    inNoData := by
      rw [← containsChars_iff, inNoData]
      exact Bool.false_ne_true }

/-- A word in an event is in its message. -/
theorem infix_event_iff {word : List Char} (plain : PlainWord word) (text : String)
    (rest : List Char) :
    word <:+: (eventOf text ++ rest).map Char.toLower ↔
      word <:+: text.toList.map Char.toLower ∨ word <:+: rest.map Char.toLower := by
  have lineFeed : '\n' ∉ word := plain.free '\n' (by decide)
  have chars : (eventOf text ++ rest).map Char.toLower =
      eventName.toList.map Char.toLower ++ '\n' :: ("data".toList ++ ':' :: ' ' ::
        (text.toList.map Char.toLower ++ '\n' :: '\n' :: rest.map Char.toLower)) := by
    have data : dataName.toList.map Char.toLower = "data".toList ++ [':', ' '] := by decide
    have lineFeed : Char.toLower '\n' = '\n' := by decide
    rw [eventOf, List.map_append, List.map_append, List.map_cons, List.map_append,
      List.map_append, data, lineFeed]
    simp only [List.map_cons, List.map_nil, lineFeed, List.append_assoc, List.cons_append,
      List.nil_append]
  have atLineFeed : word.head? ≠ some '\n' := fun first => lineFeed (List.mem_of_mem_head? first)
  rw [chars, infix_append_cons_iff lineFeed, infix_append_cons_iff (plain.free ':' (by decide)),
    infix_cons_of_ne plain.nonempty plain.spaceless, infix_append_cons_iff lineFeed,
    infix_cons_of_ne plain.nonempty atLineFeed]
  constructor
  · rintro (inName | inData | occurs)
    · exact absurd inName plain.inNoName
    · exact absurd inData plain.inNoData
    · exact occurs
  · intro occurs
    exact Or.inr (Or.inr occurs)

/-- The words of a lone event are those of its data. -/
theorem contains_event {word : String} (plain : PlainWord word.toList) (text : String) :
    contains (toAsciiLowercase (BodyFormat.eventStream.render [text])) word =
      contains (toAsciiLowercase text) word := by
  have chars : (BodyFormat.eventStream.render [text]).toList = eventOf text ++ [] :=
    String.toList_ofList
  rw [Bool.eq_iff_iff, contains_iff, contains_iff, toAsciiLowercase, toAsciiLowercase,
    String.toList_ofList, String.toList_ofList, chars, infix_event_iff plain, List.map_nil,
    List.infix_nil]
  exact or_iff_left plain.nonempty

theorem infix_events_iff {word : List Char} (plain : PlainWord word)
    (messages : List (WireMessage json)) :
    word <:+: ((messages.map WireMessage.text).flatMap eventOf).map Char.toLower ↔
      ∃ message ∈ messages, word <:+: message.text.toList.map Char.toLower := by
  induction messages with
  | nil =>
      rw [List.map_nil, List.flatMap_nil, List.map_nil, List.infix_nil]
      constructor
      · intro empty
        exact absurd empty plain.nonempty
      · rintro ⟨message, none, _⟩
        cases none
  | cons message messages ih =>
      rw [List.map_cons, List.flatMap_cons, infix_event_iff plain, List.exists_mem_cons_iff, ih]

/-- A body has the words of its messages. -/
theorem contains_render {word : String} (member : word ∈ quarantineWords) (format : BodyFormat)
    (messages : List (WireMessage json)) :
    contains (toAsciiLowercase (format.render (messages.map WireMessage.text))) word =
      messages.any fun message => message.mentions word := by
  have plain := plainWord_of_mem member
  have mentioned : (messages.any fun message => message.mentions word) = true ↔
      ∃ message ∈ messages, word.toList <:+: message.text.toList.map Char.toLower := by
    rw [List.any_eq_true]
    apply exists_congr
    intro message
    rw [WireMessage.mentions, contains_iff, toAsciiLowercase, String.toList_ofList]
  rw [Bool.eq_iff_iff, mentioned, contains_iff, toAsciiLowercase, String.toList_ofList]
  cases format with
  | batch =>
      have open' : word.toList.head? ≠ some '[' :=
        fun first => plain.free '[' (by decide) (List.mem_of_mem_head? first)
      have brackets : Char.toLower '[' = '[' ∧ Char.toLower ']' = ']' ∧ Char.toLower ',' = ',' := by
        decide
      have comma : Char.toLower ',' ∉ word.toList := by
        rw [brackets.2.2]
        exact plain.free ',' (by decide)
      rw [BodyFormat.render, String.toList_ofList, List.map_cons, List.map_append, List.map_cons,
        List.map_nil, brackets.1, brackets.2.1, infix_cons_of_ne plain.nonempty open',
        infix_append_cons_iff (plain.free ']' (by decide)),
        infix_map_intercalate_iff comma plain.nonempty, List.infix_nil, List.map_map]
      simp only [plain.nonempty, or_false, List.mem_map, Function.comp_apply]
      constructor
      · rintro ⟨part, ⟨message, inMessages, rfl⟩, occurs⟩
        exact ⟨message, inMessages, occurs⟩
      · rintro ⟨message, inMessages, occurs⟩
        exact ⟨_, ⟨message, inMessages, rfl⟩, occurs⟩
  | eventStream =>
      rw [BodyFormat.render, String.toList_ofList]
      exact infix_events_iff plain messages

end TavilyHikari.Analysis
