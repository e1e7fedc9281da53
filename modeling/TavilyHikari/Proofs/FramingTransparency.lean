/-
Module: TavilyHikari.Proofs.FramingTransparency
Purpose: What the framing of the messages changes in the analysis of an answer: nothing
  between an array and an event for each message, and everything that the messages report
  where the array itself is the data of one event.
Trusted boundary: the parser reads an array item by item
Main exports: Framing, attemptOutcome, framingTransparent_iff
-/
import TavilyHikari.Proofs.HealthVerdict

namespace TavilyHikari.Analysis

open Library Store

variable {json : SerdeJson}

/-! ### Framings -/

/-- The three ways to send the messages. -/
inductive Framing where
  | array
  | arrayEvent
  | events
deriving DecidableEq, Repr

def Framing.render : Framing → List String → String
  | .array, texts => BodyFormat.batch.render texts
  | .arrayEvent, texts => BodyFormat.eventStream.render [BodyFormat.batch.render texts]
  | .events, texts => BodyFormat.eventStream.render texts

def Framing.body (framing : Framing) (messages : List (WireMessage json)) : ByteArray :=
  (framing.render (messages.map WireMessage.text)).toUTF8

/-- The parser reads every array item by item, and nothing in no text. -/
structure ReadsBodies (json : SerdeJson) : Prop where
  arrays : ReadsArrays json
  noItems : json.fromStr "[]" = some (.array [])
  noText : json.fromStr "" = none

theorem ReadsBodies.array (reads : ReadsBodies json) (messages : List (WireMessage json)) :
    json.fromStr (BodyFormat.batch.render (messages.map WireMessage.text)) =
      some (.array (messages.map WireMessage.value)) := by
  by_cases nonempty : messages = []
  · subst nonempty
    exact reads.noItems
  · exact reads.arrays messages nonempty

/-- The array as the data of an event. -/
def arrayEvent (reads : ReadsBodies json) (messages : List (WireMessage json)) :
    SseEvent json where
  text := BodyFormat.batch.render (messages.map WireMessage.text)
  value := .array (messages.map WireMessage.value)
  nonempty := by
    intro empty
    have chars := toList_batch (messages.map WireMessage.text)
    rw [empty] at chars
    cases chars
  oneLine := oneLine_batch messages
  trimmed := by
    rw [toList_batch]
    constructor
    · exact List.dropWhile_cons_of_neg (by decide)
    · rw [← List.cons_append, List.rdropWhile_concat_neg _ _ _ (by decide)]
  parsed := reads.array messages

/-! ### Messages of a framing -/

theorem textMessages_array (reads : ReadsBodies json) (messages : List (WireMessage json)) :
    textMessages json (Framing.array.render (messages.map WireMessage.text)) =
      messages.map WireMessage.value :=
  textMessages_batch (reads.array messages)

theorem textMessages_arrayEvent (reads : ReadsBodies json) (messages : List (WireMessage json)) :
    textMessages json (Framing.arrayEvent.render (messages.map WireMessage.text)) =
      [.array (messages.map WireMessage.value)] := by
  have some : [arrayEvent reads messages] ≠ [] := List.cons_ne_nil _ _
  have read := textMessages_events some
  rw [List.map_cons, List.map_nil, List.map_cons, List.map_nil] at read
  have text : (arrayEvent reads messages).text =
      BodyFormat.batch.render (messages.map WireMessage.text) := rfl
  have value : (arrayEvent reads messages).value = .array (messages.map WireMessage.value) := rfl
  rw [text, value] at read
  rw [Framing.render]
  exact read

theorem textMessages_eachEvent (reads : ReadsBodies json) (messages : List (WireMessage json)) :
    textMessages json (Framing.events.render (messages.map WireMessage.text)) =
      messages.map WireMessage.value := by
  by_cases nonempty : messages = []
  · subst nonempty
    have text : Framing.events.render [] = "" := by decide
    have read := extractSseJsonMessages_events ([] : List (SseEvent json))
    rw [List.map_nil, List.map_nil] at read
    change extractSseJsonMessages json (Framing.events.render []) = [] at read
    rw [text] at read
    rw [List.map_nil, List.map_nil, text, textMessages, read, reads.noText]
    rfl
  · exact textMessages_render reads.arrays .eventStream nonempty

/-- The words of a reason are those of the messages, in every framing. -/
theorem contains_framing {word : String} (member : word ∈ quarantineWords) (framing : Framing)
    (messages : List (WireMessage json)) :
    contains (toAsciiLowercase (framing.render (messages.map WireMessage.text))) word =
      messages.any fun message => message.mentions word := by
  cases framing with
  | array => exact contains_render member .batch messages
  | events => exact contains_render member .eventStream messages
  | arrayEvent =>
      rw [← contains_render member .batch messages]
      exact contains_event (plainWord_of_mem member) _

/-! ### Outcomes -/

/-- A quarantine without the text that it quotes. -/
def unquoted : KeyHealthAction → KeyHealthAction
  | .quarantine decision => .quarantine { decision with reasonDetail := "" }
  | action => action

/-- The status of an attempt, the code it detected and what becomes of the key. -/
def attemptOutcome (json : SerdeJson) (status : Nat) (body : ByteArray) :
    AttemptStatus × Option Int × KeyHealthAction :=
  let analysis := analyzeAttempt json status body
  (analysis.status, analysis.tavilyStatusCode, unquoted analysis.keyHealthAction)

theorem unquoted_quarantineAction (statusCode : Option Int) (body : ByteArray) :
    unquoted (quarantineAction statusCode body) =
      (((classifyQuarantineReason statusCode body).map fun decision =>
        (decision.reasonCode, decision.reasonSummary)).elim .none fun reason =>
          .quarantine { reasonCode := reason.1, reasonSummary := reason.2, reasonDetail := "" }) := by
  unfold quarantineAction
  cases classifyQuarantineReason statusCode body with
  | none => rfl
  | some decision => rfl

/-- Two bodies of the same messages and words have the same outcome. -/
theorem attemptOutcome_congr (status : Nat) {text text' : String}
    (messages : isSuccessStatus status = true → textMessages json text = textMessages json text')
    (words : ∀ word ∈ quarantineWords,
      contains (toAsciiLowercase text) word = contains (toAsciiLowercase text') word) :
    attemptOutcome json status text.toUTF8 = attemptOutcome json status text'.toUTF8 := by
  have action (statusCode : Option Int) : unquoted (quarantineAction statusCode text.toUTF8) =
      unquoted (quarantineAction statusCode text'.toUTF8) := by
    rw [unquoted_quarantineAction, unquoted_quarantineAction, classifyQuarantineReason_reason,
      classifyQuarantineReason_reason, quarantineReason_congr _ words]
  unfold attemptOutcome analyzeAttempt
  cases success : isSuccessStatus status with
  | false => simp only [Bool.not_false, if_true, action]
  | true =>
      simp only [Bool.not_true, Bool.false_eq_true, if_false, fromUTF8?_toUTF8, messages success]
      cases scanMessages json (textMessages json text') .start with
      | error code => rfl
      | ok scan =>
          cases failed : scan.anyError with
          | true => simp only [failed, if_true, action]
          | false => simp only [failed, Bool.false_eq_true, if_false]

/-! ### Messages that report something -/

/-- The loop passes over messages that report nothing. -/
theorem scanMessages_of_silent {messages : List (WireMessage json)}
    (silent : ∀ message ∈ messages, message.outcome = none) (scan : MessageScan) :
    scanMessages json (messages.map WireMessage.value) scan = .ok scan := by
  induction messages with
  | nil => rfl
  | cons message messages ih =>
      have here : analyzeJsonMessage json message.value = none :=
        Option.map_eq_none_iff.mp (silent message List.mem_cons_self)
      rw [List.map_cons, scanMessages, here]
      exact ih fun later member => silent later (List.mem_cons_of_mem _ member)

/-- A message about an exhausted quota ends the loop, if none before it does. -/
theorem scanMessages_of_exhausted {messages : List (WireMessage json)}
    (exhausted : ∃ message ∈ messages, message.outcome = some .quotaExhausted)
    (scan : MessageScan) :
    ∃ code, scanMessages json (messages.map WireMessage.value) scan = .error code := by
  induction messages generalizing scan with
  | nil =>
      obtain ⟨message, none, _⟩ := exhausted
      cases none
  | cons message messages ih =>
      rw [List.map_cons, scanMessages]
      obtain ⟨report, read⟩ : ∃ report, analyzeJsonMessage json message.value = report := ⟨_, rfl⟩
      have later (here : message.outcome ≠ some .quotaExhausted) :
          ∃ message ∈ messages, message.outcome = some .quotaExhausted := by
        obtain ⟨other, member, ends⟩ := exhausted
        cases List.mem_cons.mp member with
        | inl same => exact absurd (same ▸ ends) here
        | inr rest => exact ⟨other, rest, ends⟩
      have outcomes : message.outcome = report.map Prod.fst := congrArg (Option.map Prod.fst) read
      rw [outcomes] at later
      rw [read]
      cases report with
      | none => exact ih (later (by simp)) scan
      | some report =>
          obtain ⟨outcome, code⟩ := report
          cases outcome with
          | quotaExhausted => exact ⟨_, rfl⟩
          | error => exact ih (later (by simp)) _
          | success => exact ih (later (by simp)) _

/-- Nothing is known of an answer only where no message reports anything. -/
theorem attemptOutcome_array_eq_iff (reads : ReadsBodies json) {status : Nat}
    (success : isSuccessStatus status = true) (messages : List (WireMessage json)) :
    attemptOutcome json status (Framing.array.body messages) = (.unknown, none, .none) ↔
      ∀ message ∈ messages, message.outcome = none := by
  unfold attemptOutcome analyzeAttempt Framing.body
  simp only [success, Bool.not_true, Bool.false_eq_true, if_false, fromUTF8?_toUTF8,
    textMessages_array reads]
  constructor
  · intro unknown
    by_contra loud
    push Not at loud
    by_cases exhausted : ∃ message ∈ messages, message.outcome = some .quotaExhausted
    · obtain ⟨code, ended⟩ := scanMessages_of_exhausted exhausted .start
      rw [ended] at unknown
      cases unknown
    · push Not at exhausted
      rw [scanMessages_eq exhausted] at unknown
      obtain ⟨message, member, reports⟩ := loud
      obtain ⟨outcome, reported⟩ := Option.ne_none_iff_exists'.mp reports
      cases outcome with
      | quotaExhausted => exact exhausted message member reported
      | error =>
          have failed : (messages.any fun message => message.outcome = some .error) = true :=
            List.any_eq_true.mpr ⟨message, member, decide_eq_true reported⟩
          simp [MessageScan.start, failed] at unknown
      | success =>
          have succeeded : (messages.any fun message => message.outcome = some .success) = true :=
            List.any_eq_true.mpr ⟨message, member, decide_eq_true reported⟩
          simp only [MessageScan.start, succeeded, Bool.false_or] at unknown
          split at unknown <;> cases unknown
  · intro silent
    rw [scanMessages_of_silent silent]
    rfl

/-! ### The three framings -/

/-- The outcome of an answer, and what the two readers of errors and successes say of it. -/
def answerOutcome (json : SerdeJson) (status : Nat) (body : ByteArray) :
    (AttemptStatus × Option Int × KeyHealthAction) × Bool × Bool :=
  (attemptOutcome json status body, mcpResponseHasAnyError json body,
    mcpResponseHasAnySuccess json body)

/-- With a status of success no message reports anything; with another one, from which the
outcome is read, none reports a success. -/
def NothingToReport (status : Nat) (messages : List (WireMessage json)) : Prop :=
  if isSuccessStatus status then ∀ message ∈ messages, message.outcome = none
  else ∀ message ∈ messages, message.outcome ≠ some .success

theorem isSuccessMessage_eq (message : WireMessage json) :
    isSuccessMessage json message.value = decide (message.outcome = some .success) := by
  unfold isSuccessMessage WireMessage.outcome
  cases analyzeJsonMessage json message.value with
  | none => rfl
  | some report => simp

theorem hasAnySuccess_iff {messages : List (WireMessage json)} {text : String}
    (read : textMessages json text = messages.map WireMessage.value) :
    mcpResponseHasAnySuccess json text.toUTF8 = true ↔
      ∃ message ∈ messages, message.outcome = some .success := by
  unfold mcpResponseHasAnySuccess
  rw [fromUTF8?_toUTF8]
  simp only [read, List.any_map, List.any_eq_true, Function.comp_apply, isSuccessMessage_eq,
    decide_eq_true_eq]

/-- Without a success there is an error. -/
theorem hasAnyError_of_noSuccess {messages : List (WireMessage json)} {text : String}
    (read : textMessages json text = messages.map WireMessage.value)
    (noSuccess : ∀ message ∈ messages, message.outcome ≠ some .success) :
    mcpResponseHasAnyError json text.toUTF8 = true := by
  unfold mcpResponseHasAnyError
  rw [fromUTF8?_toUTF8]
  simp only [read]
  cases messages with
  | nil => rfl
  | cons message messages =>
      have fails := noSuccess message List.mem_cons_self
      rw [List.map_cons, List.any_cons, isSuccessMessage_eq, decide_eq_false fails]
      rfl

/-- An array that is not taken apart reports nothing. -/
theorem answerOutcome_arrayEvent (reads : ReadsBodies json) (status : Nat)
    (messages : List (WireMessage json)) :
    answerOutcome json status (Framing.arrayEvent.body messages) =
      (attemptOutcome json status (Framing.arrayEvent.body messages), true, false) := by
  have silent : isSuccessMessage json (.array (messages.map WireMessage.value)) = false := rfl
  unfold answerOutcome mcpResponseHasAnyError mcpResponseHasAnySuccess
  rw [Framing.body, fromUTF8?_toUTF8]
  simp only [textMessages_arrayEvent reads, List.any_cons, List.any_nil, silent, List.isEmpty_cons,
    Bool.not_false, Bool.or_false, Bool.or_true]

theorem answerOutcome_arrayEvent_iff (reads : ReadsBodies json) {status : Nat}
    {messages : List (WireMessage json)} {body : ByteArray} :
    answerOutcome json status (Framing.arrayEvent.body messages) = answerOutcome json status body ↔
      attemptOutcome json status (Framing.arrayEvent.body messages) =
          attemptOutcome json status body ∧
        mcpResponseHasAnyError json body = true ∧ mcpResponseHasAnySuccess json body = false := by
  rw [answerOutcome_arrayEvent reads]
  constructor
  · intro same
    exact ⟨congrArg Prod.fst same, (congrArg (fun outcome => outcome.2.1) same).symm,
      (congrArg (fun outcome => outcome.2.2) same).symm⟩
  · intro ⟨outcome, error, success⟩
    rw [answerOutcome, outcome, error, success]

theorem attemptOutcome_arrayEvent (reads : ReadsBodies json) {status : Nat}
    (success : isSuccessStatus status = true) (messages : List (WireMessage json)) :
    attemptOutcome json status (Framing.arrayEvent.body messages) = (.unknown, none, .none) := by
  have silent : scanMessages json [.array (messages.map WireMessage.value)] .start =
      .ok .start := rfl
  unfold attemptOutcome analyzeAttempt
  rw [Framing.body, fromUTF8?_toUTF8]
  simp only [success, Bool.not_true, Bool.false_eq_true, if_false,
    textMessages_arrayEvent reads, silent]
  rfl

/-- **Framing.** An array and an event for each message are told apart by none of the three
readers. An event that holds the array is read like them exactly where there is nothing to
report. -/
theorem framingTransparent_iff (json : SerdeJson) (reads : ReadsBodies json) (status : Nat)
    (messages : List (WireMessage json)) :
    answerOutcome json status (Framing.events.body messages) =
        answerOutcome json status (Framing.array.body messages) ∧
    (answerOutcome json status (Framing.arrayEvent.body messages) =
        answerOutcome json status (Framing.array.body messages) ↔
      NothingToReport status messages) := by
  have words (one two : Framing) : ∀ word ∈ quarantineWords,
      contains (toAsciiLowercase (one.render (messages.map WireMessage.text))) word =
        contains (toAsciiLowercase (two.render (messages.map WireMessage.text))) word := by
    intro word member
    rw [contains_framing member, contains_framing member]
  have array := textMessages_array reads messages
  have events := textMessages_eachEvent reads messages
  constructor
  · have same := @attemptOutcome_congr json status _ _ (fun _ => events.trans array.symm)
      (words .events .array)
    unfold answerOutcome mcpResponseHasAnyError mcpResponseHasAnySuccess Framing.body
    simp only [same, fromUTF8?_toUTF8, events, array]
  · rw [answerOutcome_arrayEvent_iff reads]
    have succeeds := hasAnySuccess_iff array
    have fails := hasAnyError_of_noSuccess array
    change mcpResponseHasAnySuccess json (Framing.array.body messages) = true ↔ _ at succeeds
    change _ → mcpResponseHasAnyError json (Framing.array.body messages) = true at fails
    unfold NothingToReport
    cases success : isSuccessStatus status with
    | true =>
        rw [if_pos rfl, attemptOutcome_arrayEvent reads success,
          ← attemptOutcome_array_eq_iff reads success messages]
        constructor
        · intro same
          exact same.1.symm
        · intro unknown
          have silent := (attemptOutcome_array_eq_iff reads success messages).mp unknown
          have noSuccess : ∀ message ∈ messages, message.outcome ≠ some .success := by
            intro message member reported
            rw [silent message member] at reported
            cases reported
          refine ⟨unknown.symm, fails noSuccess, ?_⟩
          rw [← Bool.not_eq_true, succeeds]
          rintro ⟨message, member, reported⟩
          exact noSuccess message member reported
    | false =>
        rw [if_neg Bool.false_ne_true]
        have same : attemptOutcome json status (Framing.arrayEvent.body messages) =
            attemptOutcome json status (Framing.array.body messages) := by
          apply attemptOutcome_congr status _ (words .arrayEvent .array)
          intro successful
          rw [success] at successful
          cases successful
        constructor
        · rintro ⟨_, _, noSuccess⟩ message member reported
          rw [succeeds.mpr ⟨message, member, reported⟩] at noSuccess
          cases noSuccess
        · intro noSuccess
          refine ⟨same, fails noSuccess, ?_⟩
          rw [← Bool.not_eq_true, succeeds]
          rintro ⟨message, member, reported⟩
          exact noSuccess message member reported

/-! ### An exhausted key -/

/-- A parser of documents and of arrays of them, the empty one included. -/
def bodiesJson (documents : List (String × JsonValue)) : SerdeJson where
  fromSlice := fun body => (String.fromUTF8? body).bind fun text =>
    if text = "[]" then some (.array []) else readItems documents text
  print := fun _ => ""

theorem fromStr_bodiesJson (documents : List (String × JsonValue)) (text : String) :
    (bodiesJson documents).fromStr text =
      if text = "[]" then some (.array []) else readItems documents text := by
  show (String.fromUTF8? text.toUTF8).bind _ = _
  rw [fromUTF8?_toUTF8, Option.bind_some]

def exhaustedText : String := "\x7b\"result\":\x7b\"structuredContent\":\x7b\"status\":432\x7d\x7d\x7d"

def exhaustedDocuments : List (String × JsonValue) :=
  [(exhaustedText, .object [("result", .object [("structuredContent",
    .object [("status", .number (.posInt 432))])])])]

theorem reads_exhaustedDocuments (text : String) (some : text ≠ "[]") :
    (bodiesJson exhaustedDocuments).fromStr text = readItems exhaustedDocuments text := by
  rw [fromStr_bodiesJson, if_neg some]

theorem readsBodies_exhausted : ReadsBodies (bodiesJson exhaustedDocuments) where
  arrays := readsArrays_of_reads reads_exhaustedDocuments
  noItems := by rw [fromStr_bodiesJson, if_pos rfl]
  noText := by
    rw [reads_exhaustedDocuments "" (by decide)]
    rfl

/-- The answer to a search with a key whose plan is used up. -/
def exhaustedAnswer : WireMessage (bodiesJson exhaustedDocuments) where
  text := exhaustedText
  value := .object [("result", .object [("structuredContent",
    .object [("status", .number (.posInt 432))])])]
  nonempty := by decide
  oneLine := by decide
  trimmed := ⟨by decide, by decide⟩
  reads := by
    constructor
    · rw [reads_exhaustedDocuments exhaustedText (by decide)]
      rfl
    · exact reads_bracketed reads_exhaustedDocuments (by decide) (by decide) rfl

theorem framingTransparent_iff_exhausted :
    answerOutcome (bodiesJson exhaustedDocuments) 200 (Framing.events.body [exhaustedAnswer]) =
      answerOutcome (bodiesJson exhaustedDocuments) 200 (Framing.array.body [exhaustedAnswer]) :=
  (framingTransparent_iff _ readsBodies_exhausted 200 [exhaustedAnswer]).1

/-- In an event, the array with this answer leaves the key in rotation. -/
theorem arrayEvent_hides_exhausted :
    ¬ ∀ (json : SerdeJson) (status : Nat) (messages : List (WireMessage json)),
      ReadsBodies json →
      answerOutcome json status (Framing.arrayEvent.body messages) =
        answerOutcome json status (Framing.array.body messages) := by
  intro transparent
  have same := congrArg Prod.fst
    (transparent _ 200 [exhaustedAnswer] readsBodies_exhausted)
  have hidden := attemptOutcome_arrayEvent readsBodies_exhausted (by decide : isSuccessStatus 200)
    [exhaustedAnswer]
  have silent := (attemptOutcome_array_eq_iff readsBodies_exhausted
    (by decide : isSuccessStatus 200) [exhaustedAnswer]).mp (same.symm.trans hidden)
  have reported : exhaustedAnswer.outcome = some .quotaExhausted := rfl
  rw [silent exhaustedAnswer List.mem_cons_self] at reported
  cases reported

end TavilyHikari.Analysis
