/-
Module: TavilyHikari.Proofs.HealthVerdict
Purpose: Which lists of answers leave the health of a key to what their errors say: where the
  verdict depends neither on the order of the messages nor on what the successes among them say.
Trusted boundary: the parser reads an array item by item
Main exports: healthVerdict, Rearranged, healthVerdict_stable_iff
-/
import TavilyHikari.Proofs.ResponseBodies

namespace TavilyHikari.Analysis

open Library Store

variable {json : SerdeJson}

/-! ### The verdict -/

/-- What becomes of the key, for a quarantine with the code of its reason. -/
inductive HealthVerdict where
  | none
  | exhausted
  | quarantine (reasonCode : String)
deriving DecidableEq, Repr

def healthVerdict : KeyHealthAction → HealthVerdict
  | .none => .none
  | .markExhausted => .exhausted
  | .quarantine decision => .quarantine decision.reasonCode

/-- The code of the reason that the words give. -/
def reasonCodeOf (mentions : String → Bool) : HealthVerdict :=
  if mentions "deactivated" then .quarantine "account_deactivated"
  else if mentions "revoked" then .quarantine "key_revoked"
  else if mentions "invalid api key" || mentions "invalid_token" || mentions "api key is invalid" then
    .quarantine "invalid_api_key"
  else .none

/-- A status code with which the words of the body are looked at. -/
def isScanned (statusCode : Option Int) : Bool :=
  !statusCode.any fun code => code ≠ 401 ∧ code ≠ 403

theorem reasonCodeOf_congr {one two : String → Bool}
    (same : ∀ word ∈ quarantineWords, one word = two word) :
    reasonCodeOf one = reasonCodeOf two := by
  unfold reasonCodeOf
  rw [same "deactivated" (by decide), same "revoked" (by decide),
    same "invalid api key" (by decide), same "invalid_token" (by decide),
    same "api key is invalid" (by decide)]

theorem reasonCodeOf_eq_none_iff {mentions : String → Bool} :
    reasonCodeOf mentions = .none ↔ ∀ word ∈ quarantineWords, mentions word = false := by
  unfold reasonCodeOf quarantineWords
  simp only [List.forall_mem_cons, List.not_mem_nil, false_implies, implies_true, and_true]
  by_cases deactivated : mentions "deactivated" = true
  · simp [deactivated]
  · by_cases revoked : mentions "revoked" = true
    · simp [deactivated, revoked]
    · by_cases invalid : (mentions "invalid api key" || mentions "invalid_token" ||
          mentions "api key is invalid") = true
      · rw [if_neg deactivated, if_neg revoked, if_pos invalid]
        constructor
        · intro same
          cases same
        · rintro ⟨_, _, one, two, three⟩
          rw [one, two, three] at invalid
          cases invalid
      · rw [if_neg deactivated, if_neg revoked, if_neg invalid]
        simpa [and_assoc, deactivated, revoked] using invalid

theorem reasonCodeOf_eq_account_iff {mentions : String → Bool} :
    reasonCodeOf mentions = .quarantine "account_deactivated" ↔ mentions "deactivated" = true := by
  unfold reasonCodeOf
  by_cases deactivated : mentions "deactivated" = true
  · rw [if_pos deactivated]
    exact iff_of_true rfl deactivated
  · rw [if_neg deactivated]
    apply iff_of_false _ deactivated
    split
    · decide
    · split
      · decide
      · decide

theorem quarantineReason_code (normalized statusLabel : String) :
    ((quarantineReason normalized statusLabel).map fun reason =>
        HealthVerdict.quarantine reason.1).getD .none =
      reasonCodeOf (contains normalized) := by
  unfold quarantineReason reasonCodeOf
  split
  · rfl
  · split
    · rfl
    · split
      · rfl
      · rfl

theorem healthVerdict_quarantineAction_eq (statusCode : Option Int) (body : ByteArray) :
    healthVerdict (quarantineAction statusCode body) =
      ((classifyQuarantineReason statusCode body).map fun decision =>
        HealthVerdict.quarantine decision.reasonCode).getD .none := by
  unfold quarantineAction
  cases classifyQuarantineReason statusCode body with
  | none => rfl
  | some decision => rfl

/-- How the summary of a reason names a status code. -/
def statusLabel (statusCode : Option Int) : String :=
  match statusCode with
  | some code => "HTTP " ++ toString code
  | none => "MCP error"

theorem quarantineReason_congr {one two : String} (label : String)
    (same : ∀ word ∈ quarantineWords, contains one word = contains two word) :
    quarantineReason one label = quarantineReason two label := by
  unfold quarantineReason
  rw [same "deactivated" (by decide), same "revoked" (by decide),
    same "invalid api key" (by decide), same "invalid_token" (by decide),
    same "api key is invalid" (by decide)]

/-- The words of a body decide the reason, where the status code lets them. -/
theorem classifyQuarantineReason_reason (statusCode : Option Int) (text : String) :
    ((classifyQuarantineReason statusCode text.toUTF8).map fun decision =>
        (decision.reasonCode, decision.reasonSummary)) =
      if isScanned statusCode then
        quarantineReason (toAsciiLowercase text) (statusLabel statusCode)
      else none := by
  have trimmed : ∀ word ∈ quarantineWords,
      contains (toAsciiLowercase (trim text)) word = contains (toAsciiLowercase text) word := by
    intro word member
    have plain := plainWord_of_mem member
    exact contains_toAsciiLowercase_trim plain.nonempty plain.trimmed
  rw [← quarantineReason_congr _ trimmed]
  unfold classifyQuarantineReason isScanned
  rw [fromUtf8Lossy_toUTF8]
  by_cases other : (statusCode.any fun code => code ≠ 401 ∧ code ≠ 403) = true
  · rw [if_pos other, other]
    rfl
  · rw [if_neg other, Bool.eq_false_iff.2 other, Bool.not_false, if_pos rfl]
    by_cases empty : (trim text).isEmpty = true
    · rw [if_pos empty, String.isEmpty_iff.1 empty]
      rfl
    · rw [if_neg empty]
      change Option.map _ (Option.map _ (quarantineReason (toAsciiLowercase (trim text))
        (statusLabel statusCode))) = _
      cases quarantineReason (toAsciiLowercase (trim text)) (statusLabel statusCode) with
      | none => rfl
      | some reason => rfl

theorem healthVerdict_quarantineAction (statusCode : Option Int) (text : String) :
    healthVerdict (quarantineAction statusCode text.toUTF8) =
      if isScanned statusCode then reasonCodeOf (contains (toAsciiLowercase text)) else .none := by
  have reason := congrArg (Option.map fun reason => HealthVerdict.quarantine reason.1)
    (classifyQuarantineReason_reason statusCode text)
  rw [Option.map_map] at reason
  rw [healthVerdict_quarantineAction_eq]
  refine (congrArg (Option.getD · HealthVerdict.none) reason).trans ?_
  split
  · exact quarantineReason_code _ _
  · rfl

/-! ### Messages -/

namespace WireMessage

/-- Whether the message reports a success, an error or an exhausted quota. -/
def outcome (message : WireMessage json) : Option MessageOutcome :=
  (analyzeJsonMessage json message.value).map Prod.fst

/-- The status code that the message reports. -/
def code (message : WireMessage json) : Option Int :=
  (analyzeJsonMessage json message.value).bind Prod.snd

end WireMessage

/-- The status code of the first message that reports one. -/
def firstCode (messages : List (WireMessage json)) : Option Int :=
  messages.findSome? WireMessage.code

/-- The loop over messages without a report of an exhausted quota. -/
theorem scanMessages_eq {messages : List (WireMessage json)}
    (unexhausted : ∀ message ∈ messages, message.outcome ≠ some .quotaExhausted)
    (scan : MessageScan) :
    scanMessages json (messages.map WireMessage.value) scan =
      .ok
        { anySuccess := scan.anySuccess || messages.any fun message => message.outcome = some .success
          anyError := scan.anyError || messages.any fun message => message.outcome = some .error
          detectedCode := scan.detectedCode.or (firstCode messages) } := by
  induction messages generalizing scan with
  | nil => simp [scanMessages, firstCode]
  | cons message messages ih =>
      have rest := ih fun later member => unexhausted later (List.mem_cons_of_mem _ member)
      have here := unexhausted message List.mem_cons_self
      obtain ⟨report, read⟩ : ∃ report, analyzeJsonMessage json message.value = report := ⟨_, rfl⟩
      have outcomes : message.outcome = report.map Prod.fst := congrArg (Option.map Prod.fst) read
      have codes : message.code = report.bind Prod.snd :=
        congrArg (fun report : Option (MessageOutcome × Option Int) => report.bind Prod.snd) read
      rw [outcomes] at here
      rw [List.map_cons, scanMessages, read, List.any_cons, List.any_cons, outcomes, firstCode,
        List.findSome?_cons, codes]
      cases report with
      | none => exact rest scan
      | some report =>
          obtain ⟨outcome, code⟩ := report
          cases outcome with
          | quotaExhausted => exact absurd rfl here
          | error =>
              apply (rest _).trans
              cases code with
              | none => simp [firstCode]
              | some code => cases found : scan.detectedCode <;> simp
          | success =>
              apply (rest _).trans
              cases code with
              | none => simp [firstCode]
              | some code => cases found : scan.detectedCode <;> simp

/-- The verdict about a body, by the first status code and the words of its messages. -/
theorem healthVerdict_analyzeAttempt (arrays : ReadsArrays json) {status : Nat}
    (successful : isSuccessStatus status = true) (format : BodyFormat)
    {messages : List (WireMessage json)}
    (unexhausted : ∀ message ∈ messages, message.outcome ≠ some .quotaExhausted)
    (failed : ∃ message ∈ messages, message.outcome = some .error) :
    healthVerdict (analyzeAttempt json status (format.body messages)).keyHealthAction =
      if isScanned (firstCode messages) then
        reasonCodeOf fun word => messages.any fun message => message.mentions word
      else .none := by
  have nonempty : messages ≠ [] := by
    rintro rfl
    obtain ⟨message, none, _⟩ := failed
    cases none
  have anyError : (messages.any fun message => message.outcome = some .error) = true := by
    obtain ⟨message, member, error⟩ := failed
    exact List.any_eq_true.2 ⟨message, member, decide_eq_true error⟩
  have scanned := scanMessages_eq unexhausted .start
  have read : String.fromUTF8? (format.body messages) =
      some (format.render (messages.map WireMessage.text)) := fromUTF8?_toUTF8 _
  have words :
      reasonCodeOf (contains (toAsciiLowercase (format.render (messages.map WireMessage.text)))) =
        reasonCodeOf fun word => messages.any fun message => message.mentions word :=
    reasonCodeOf_congr fun word member => contains_render member format messages
  have verdict := healthVerdict_quarantineAction (firstCode messages)
    (format.render (messages.map WireMessage.text))
  rw [words] at verdict
  have analysis : (analyzeAttempt json status (format.body messages)).keyHealthAction =
      quarantineAction (firstCode messages) (format.body messages) := by
    unfold analyzeAttempt
    rw [successful, Bool.not_true, if_neg Bool.false_ne_true, read]
    simp only [textMessages_render arrays format nonempty, scanned]
    simp only [MessageScan.start, Bool.false_or, anyError, if_true, Option.none_or]
  rw [analysis]
  exact verdict

theorem lt_of_classifyStatusCode {code : Int} (success : classifyStatusCode code = .success) :
    code < 400 := by
  unfold classifyStatusCode at success
  split at success
  · cases success
  · split at success
    · cases success
    · omega

theorem lt_of_codeOutcome {code code' : Int}
    (success : codeOutcome code = (.success, some code')) : code' < 400 := by
  have classified := congrArg Prod.fst success
  have same := congrArg Prod.snd success
  rw [← Option.some.inj same]
  exact lt_of_classifyStatusCode classified

theorem lt_of_analyzeStructuredContent {result : JsonValue} {code : Int}
    (success : analyzeStructuredContent json result = some (.success, some code)) : code < 400 := by
  unfold analyzeStructuredContent at success
  cases content : result.get "structuredContent" with
  | none =>
      rw [content] at success
      cases success
  | some structured =>
      rw [content, Option.bind_some] at success
      simp only at success
      split at success
      · split at success
        · rename_i classified _
          cases success
          exact lt_of_classifyStatusCode classified
        · exact lt_of_codeOutcome (Option.some.inj success)
      · split at success
        · cases success
        · split at success
          · cases success
          · split at success
            · exact lt_of_codeOutcome (Option.some.inj success)
            · cases success

theorem lt_of_contentItemOutcome {item : JsonValue} {code : Int}
    (success : contentItemOutcome json item = some (.success, some code)) : code < 400 := by
  unfold contentItemOutcome at success
  split at success
  · cases success
  · obtain ⟨reported, _, classified⟩ := Option.map_eq_some_iff.1 success
    exact lt_of_codeOutcome classified

/-- A success reports no status code of an error. -/
theorem lt_of_analyzeJsonMessage {value : JsonValue} {code : Int}
    (success : analyzeJsonMessage json value = some (.success, some code)) : code < 400 := by
  unfold analyzeJsonMessage at success
  split at success
  · cases success
  · obtain ⟨result, _, success⟩ := Option.bind_eq_some_iff.1 success
    unfold analyzeResultPayload at success
    simp only at success
    split at success
    · rename_i content
      rw [success] at content
      exact lt_of_analyzeStructuredContent content
    · split at success
      · rename_i found
        rw [success] at found
        obtain ⟨item, _, found⟩ := List.exists_of_findSome?_eq_some found
        exact lt_of_contentItemOutcome found
      · split at success
        · cases success
        · split at success
          · cases success
          · cases success

/-! ### Other orders and other successes -/

/-- The second list has the messages of the first one in some order, or another success in the
place of one. -/
inductive Rearranged : List (WireMessage json) → List (WireMessage json) → Prop where
  | order {messages messages' : List (WireMessage json)} (same : messages.Perm messages') :
      Rearranged messages messages'
  | success {before after : List (WireMessage json)} {old new : WireMessage json}
      (oldSuccess : old.outcome = some .success) (newSuccess : new.outcome = some .success) :
      Rearranged (before ++ old :: after) (before ++ new :: after)

/-- A status code of an answer that rejects the key. -/
def deniesKey (statusCode : Option Int) : Bool := statusCode.any fun code => code = 401 ∨ code = 403

/-- A status code that says something else. -/
def isOtherCode (statusCode : Option Int) : Bool :=
  statusCode.any fun code => code ≠ 401 ∧ code ≠ 403

/-- What is left of the successes where no word is looked at, or where the one that wins is said
elsewhere. -/
def FreeOfSuccesses (messages : List (WireMessage json)) : Prop :=
  ∀ (before after : List (WireMessage json)) (success : WireMessage json),
    messages = before ++ success :: after → success.outcome = some .success →
    isOtherCode (firstCode (before ++ after)) ∨
      deniesKey (firstCode before) ∧
        ∃ message ∈ before ++ after, message.mentions "deactivated"

/-- No word of a reason is said, or the codes are not such that their order decides whether the
words are looked at. -/
def FreeOfOrder (messages : List (WireMessage json)) : Prop :=
  (∀ message ∈ messages, ∀ word ∈ quarantineWords, message.mentions word = false) ∨
    ¬((∃ message ∈ messages, deniesKey message.code) ∧
      ∃ message ∈ messages, isOtherCode message.code)

/-! ### Some successes -/

/-- The parser reads three short answers: one with a status code, one that says nothing, and one
that has a word in its text. -/
structure ReadsSuccesses (json : SerdeJson) : Prop where
  coded : Reads json "\x7b\"result\":\x7b\"structuredContent\":\x7b\"status\":200\x7d\x7d\x7d"
    (.object [("result", .object [("structuredContent",
      .object [("status", .number (.posInt 200))])])])
  plain : Reads json "\x7b\"result\":\"ok\"\x7d" (.object [("result", .string "ok")])
  telling : Reads json "\x7b\"result\":\"deactivated\"\x7d"
    (.object [("result", .string "deactivated")])

theorem ReadsSuccesses.exists_coded (successes : ReadsSuccesses json) :
    ∃ message : WireMessage json, message.outcome = some .success ∧ message.code = some 200 := by
  refine ⟨
    { text := _
      value := _
      nonempty := ?_
      oneLine := ?_
      trimmed := ?_
      reads := successes.coded }, rfl, rfl⟩
  · decide
  · decide
  · exact ⟨by decide, by decide⟩

theorem ReadsSuccesses.exists_plain (successes : ReadsSuccesses json) :
    ∃ message : WireMessage json, message.outcome = some .success ∧ message.code = none ∧
      message.mentions "deactivated" = false := by
  refine ⟨
    { text := _
      value := _
      nonempty := ?_
      oneLine := ?_
      trimmed := ?_
      reads := successes.plain }, rfl, rfl, ?_⟩
  · decide
  · decide
  · exact ⟨by decide, by decide⟩
  · show contains (toAsciiLowercase "\x7b\"result\":\"ok\"\x7d") "deactivated" = false
    decide

theorem ReadsSuccesses.exists_telling (successes : ReadsSuccesses json) :
    ∃ message : WireMessage json, message.outcome = some .success ∧ message.code = none ∧
      message.mentions "deactivated" = true := by
  refine ⟨
    { text := _
      value := _
      nonempty := ?_
      oneLine := ?_
      trimmed := ?_
      reads := successes.telling }, rfl, rfl, ?_⟩
  · decide
  · decide
  · exact ⟨by decide, by decide⟩
  · show contains (toAsciiLowercase "\x7b\"result\":\"deactivated\"\x7d") "deactivated" = true
    decide

/-! ### Where the verdict is left to the errors -/

/-- The verdict by the messages. -/
def verdictOf (messages : List (WireMessage json)) : HealthVerdict :=
  if isScanned (firstCode messages) then
    reasonCodeOf fun word => messages.any fun message => message.mentions word
  else .none

theorem isScanned_iff (statusCode : Option Int) :
    isScanned statusCode = true ↔ isOtherCode statusCode = false := by
  rw [isScanned, isOtherCode, Bool.not_eq_true']

/-- A code is missing, or it denies the key, or it is another one. -/
theorem code_cases (statusCode : Option Int) :
    statusCode = none ∨ deniesKey statusCode = true ∧ isOtherCode statusCode = false ∨
      deniesKey statusCode = false ∧ isOtherCode statusCode = true := by
  cases statusCode with
  | none => exact Or.inl rfl
  | some code =>
      right
      simp only [deniesKey, isOtherCode, Option.any_some, decide_eq_true_eq, decide_eq_false_iff_not]
      omega

theorem verdictOf_of_scanned {messages : List (WireMessage json)}
    (scanned : isOtherCode (firstCode messages) = false) :
    verdictOf messages =
      reasonCodeOf fun word => messages.any fun message => message.mentions word :=
  if_pos ((isScanned_iff _).2 scanned)

theorem verdictOf_of_other {messages : List (WireMessage json)}
    (other : isOtherCode (firstCode messages) = true) : verdictOf messages = .none := by
  apply if_neg
  rw [isScanned_iff, other]
  exact Bool.noConfusion

theorem firstCode_append (before after : List (WireMessage json)) :
    firstCode (before ++ after) = (firstCode before).or (firstCode after) := by
  unfold firstCode
  rw [List.findSome?_append]

theorem firstCode_cons (message : WireMessage json) (messages : List (WireMessage json)) :
    firstCode (message :: messages) = message.code.or (firstCode messages) := by
  unfold firstCode
  rw [List.findSome?_cons]
  cases message.code <;> rfl

/-- The first code is one of the codes. -/
theorem exists_of_firstCode {messages : List (WireMessage json)} {p : Option Int → Bool}
    (none : p .none = false) (first : p (firstCode messages) = true) :
    ∃ message ∈ messages, p message.code = true := by
  cases found : firstCode messages with
  | none =>
      rw [found, none] at first
      cases first
  | some code =>
      obtain ⟨message, member, reported⟩ := List.exists_of_findSome?_eq_some found
      refine ⟨message, member, ?_⟩
      rw [reported, ← found]
      exact first

theorem deniesKey_none : deniesKey none = false := rfl

theorem isOtherCode_none : isOtherCode none = false := rfl

/-- In any order the words are the same. -/
theorem reasonCodeOf_perm {messages messages' : List (WireMessage json)}
    (same : messages.Perm messages') :
    (reasonCodeOf fun word => messages.any fun message => message.mentions word) =
      reasonCodeOf fun word => messages'.any fun message => message.mentions word :=
  reasonCodeOf_congr fun _ _ => same.any_eq

/-- Where the codes are of one sort, any of them says whether the words are looked at. -/
theorem isOtherCode_firstCode_iff {messages : List (WireMessage json)}
    (oneSort : ¬((∃ message ∈ messages, deniesKey message.code) ∧
      ∃ message ∈ messages, isOtherCode message.code)) :
    isOtherCode (firstCode messages) = true ↔ ∃ message ∈ messages, isOtherCode message.code := by
  constructor
  · exact exists_of_firstCode isOtherCode_none
  · rintro ⟨message, member, other⟩
    rcases code_cases (firstCode messages) with none | ⟨denied, _⟩ | ⟨_, isOther⟩
    · have silent := List.findSome?_eq_none_iff.1 none message member
      rw [silent] at other
      cases other
    · exact absurd ⟨exists_of_firstCode deniesKey_none denied, message, member, other⟩ oneSort
    · exact isOther

theorem verdictOf_of_unsaid {messages : List (WireMessage json)}
    (unsaid : ∀ message ∈ messages, ∀ word ∈ quarantineWords, message.mentions word = false) :
    verdictOf messages = .none := by
  have noReason :
      (reasonCodeOf fun word => messages.any fun message => message.mentions word) = .none := by
    apply reasonCodeOf_eq_none_iff.2
    intro word said
    rw [List.any_eq_false]
    intro message member
    rw [unsaid message member word said]
    exact Bool.false_ne_true
  unfold verdictOf
  rw [noReason, ite_self]

/-- A message goes to the front. -/
theorem exists_perm_cons {messages : List (WireMessage json)} {message : WireMessage json}
    (member : message ∈ messages) : ∃ rest, messages.Perm (message :: rest) := by
  obtain ⟨before, after, rfl⟩ := List.append_of_mem member
  exact ⟨before ++ after, List.perm_middle⟩

/-- The order does not matter for exactly these messages. -/
theorem verdictOf_order_iff (messages : List (WireMessage json)) :
    (∀ messages' : List (WireMessage json), messages.Perm messages' →
      verdictOf messages' = verdictOf messages) ↔ FreeOfOrder messages := by
  constructor
  · intro stable
    by_contra mixed
    unfold FreeOfOrder at mixed
    push Not at mixed
    obtain ⟨⟨said, here, word, inWords, mentioned⟩, ⟨denying, atDenying, denied⟩, saying, atSaying,
      other⟩ := mixed
    obtain ⟨restOne, one⟩ := exists_perm_cons atDenying
    obtain ⟨restTwo, two⟩ := exists_perm_cons atSaying
    have scanned : isOtherCode (firstCode (denying :: restOne)) = false := by
      rw [firstCode_cons]
      rcases code_cases denying.code with none | ⟨_, notOther⟩ | ⟨notDenied, _⟩
      · rw [none] at denied
        cases denied
      · cases code : denying.code with
        | none =>
            rw [code] at denied
            cases denied
        | some code' =>
            rw [code] at notOther
            exact notOther
      · rw [notDenied] at denied
        cases denied
    have unscanned : isOtherCode (firstCode (saying :: restTwo)) = true := by
      rw [firstCode_cons]
      cases code : saying.code with
      | none =>
          rw [code] at other
          cases other
      | some code' =>
          rw [code] at other
          exact other
    -- The one order shows the reason, the other one does not.
    have reason := verdictOf_of_scanned scanned
    rw [stable _ one, ← stable _ two, verdictOf_of_other unscanned, ← reasonCodeOf_perm one] at reason
    have unsaid := reasonCodeOf_eq_none_iff.1 reason.symm word inWords
    rw [List.any_eq_false] at unsaid
    exact unsaid said here (Bool.eq_true_of_not_eq_false mentioned)
  · rintro (unsaid | oneSort) messages' same
    · rw [verdictOf_of_unsaid unsaid]
      apply verdictOf_of_unsaid
      intro message member
      exact unsaid message (same.mem_iff.2 member)
    · have oneSort' : ¬((∃ message ∈ messages', deniesKey message.code) ∧
          ∃ message ∈ messages', isOtherCode message.code) := by
        simpa only [same.mem_iff] using oneSort
      have sorts : isOtherCode (firstCode messages') = isOtherCode (firstCode messages) := by
        rw [Bool.eq_iff_iff, isOtherCode_firstCode_iff oneSort, isOtherCode_firstCode_iff oneSort']
        simp only [same.mem_iff]
      cases other : isOtherCode (firstCode messages) with
      | true => rw [verdictOf_of_other other, verdictOf_of_other (sorts.trans other)]
      | false =>
          rw [verdictOf_of_scanned other, verdictOf_of_scanned (sorts.trans other),
            reasonCodeOf_perm same]

theorem isOtherCode_of_success {message : WireMessage json}
    (success : message.outcome = some .success) {code : Int} (reported : message.code = some code) :
    isOtherCode (some code) = true := by
  obtain ⟨report, read, outcome⟩ := Option.map_eq_some_iff.1 success
  have codes : report.2 = some code := by
    have found := reported
    rw [WireMessage.code, read, Option.bind_some] at found
    exact found
  have small : code < 400 := by
    apply lt_of_analyzeJsonMessage (read.trans (congrArg some _))
    exact Prod.ext outcome codes
  simp only [isOtherCode, Option.any_some, decide_eq_true_eq]
  omega

theorem or_of_holds {p : Option Int → Bool} (none : p .none = false) {one two : Option Int}
    (holds : p one = true) : one.or two = one := by
  cases one with
  | none =>
      rw [none] at holds
      cases holds
  | some code => rfl

/-- The words of the list name the account where one of its messages does. -/
theorem reasonCodeOf_any_iff {messages : List (WireMessage json)} :
    (reasonCodeOf fun word => messages.any fun message => message.mentions word) =
        .quarantine "account_deactivated" ↔
      ∃ message ∈ messages, message.mentions "deactivated" = true := by
  rw [reasonCodeOf_eq_account_iff, List.any_eq_true]

theorem mem_or_mem_of_mem {before after : List (WireMessage json)}
    {message other : WireMessage json} (member : other ∈ before ++ message :: after) :
    other = message ∨ other ∈ before ++ after := by
  simpa only [List.mem_append, List.mem_cons, or_left_comm] using member

/-- A code of another sort among the others keeps the words unread. -/
theorem verdictOf_of_otherAround (before after : List (WireMessage json))
    {message : WireMessage json} (success : message.outcome = some .success)
    (other : isOtherCode (firstCode (before ++ after)) = true) :
    verdictOf (before ++ message :: after) = .none := by
  apply verdictOf_of_other
  rw [firstCode_append] at other ⊢
  rw [firstCode_cons]
  cases first : firstCode before with
  | some code =>
      rw [first] at other
      exact other
  | none =>
      rw [first, Option.none_or] at other
      cases reported : message.code with
      | none => exact other
      | some code => exact isOtherCode_of_success success reported

/-- The account is named by the others, and the words are read. -/
theorem verdictOf_of_denied {before after : List (WireMessage json)} {message : WireMessage json}
    (denied : deniesKey (firstCode before) = true)
    (said : ∃ other ∈ before ++ message :: after, other.mentions "deactivated" = true) :
    verdictOf (before ++ message :: after) = .quarantine "account_deactivated" := by
  have first : firstCode (before ++ message :: after) = firstCode before := by
    rw [firstCode_append, or_of_holds deniesKey_none denied]
  rw [verdictOf_of_scanned, reasonCodeOf_any_iff]
  · exact said
  · rw [first]
    rcases code_cases (firstCode before) with none | ⟨_, notOther⟩ | ⟨notDenied, _⟩
    · rw [none]
      rfl
    · exact notOther
    · rw [notDenied] at denied
      cases denied

/-- A success may say anything for exactly these messages. -/
theorem verdictOf_success_iff (successes : ReadsSuccesses json)
    (before after : List (WireMessage json)) {old : WireMessage json}
    (oldSuccess : old.outcome = some .success) :
    (∀ new : WireMessage json, new.outcome = some .success →
      verdictOf (before ++ new :: after) = verdictOf (before ++ old :: after)) ↔
    (isOtherCode (firstCode (before ++ after)) ∨
      deniesKey (firstCode before) ∧ ∃ other ∈ before ++ after, other.mentions "deactivated") := by
  constructor
  · intro stable
    by_contra unstable
    rw [not_or, not_and] at unstable
    obtain ⟨notOther, quiet⟩ := unstable
    -- A success that has the word in its text names the account.
    obtain ⟨telling, tellingSuccess, tellingCode, said⟩ := successes.exists_telling
    have tellingFirst : firstCode (before ++ telling :: after) = firstCode (before ++ after) := by
      rw [firstCode_append, firstCode_append, firstCode_cons, tellingCode, Option.none_or]
    have reason : verdictOf (before ++ old :: after) = .quarantine "account_deactivated" := by
      rw [← stable telling tellingSuccess, verdictOf_of_scanned, reasonCodeOf_any_iff]
      · exact ⟨telling, List.mem_append_right _ List.mem_cons_self, said⟩
      · rw [tellingFirst]
        exact Bool.eq_false_iff.2 notOther
    rcases code_cases (firstCode before) with none | ⟨denied, scanned⟩ | ⟨_, other⟩
    · -- One with a code of its own keeps the words unread.
      obtain ⟨coded, codedSuccess, reported⟩ := successes.exists_coded
      have first : firstCode (before ++ coded :: after) = some 200 := by
        rw [firstCode_append, none, firstCode_cons, reported]
        rfl
      have unread : verdictOf (before ++ coded :: after) = .none := by
        apply verdictOf_of_other
        rw [first]
        rfl
      rw [stable coded codedSuccess, reason] at unread
      cases unread
    · -- One without the word does not name the account.
      obtain ⟨plain, plainSuccess, _, unsaid⟩ := successes.exists_plain
      have first : firstCode (before ++ plain :: after) = firstCode before := by
        rw [firstCode_append, or_of_holds deniesKey_none denied]
      have named := stable plain plainSuccess
      rw [reason, verdictOf_of_scanned (first ▸ scanned), reasonCodeOf_any_iff] at named
      obtain ⟨message, member, mentioned⟩ := named
      rcases mem_or_mem_of_mem member with rfl | elsewhere
      · rw [unsaid] at mentioned
        cases mentioned
      · exact quiet denied ⟨message, elsewhere, mentioned⟩
    · apply notOther
      rw [firstCode_append, or_of_holds isOtherCode_none other]
      exact other
  · rintro (other | ⟨denied, message, member, said⟩) new newSuccess
    · rw [verdictOf_of_otherAround before after newSuccess other,
        verdictOf_of_otherAround before after oldSuccess other]
    · have around (success : WireMessage json) :
          ∃ other ∈ before ++ success :: after, other.mentions "deactivated" = true := by
        refine ⟨message, ?_, said⟩
        rcases List.mem_append.1 member with earlier | later
        · exact List.mem_append_left _ earlier
        · exact List.mem_append_right _ (List.mem_cons_of_mem _ later)
      rw [verdictOf_of_denied denied (around new), verdictOf_of_denied denied (around old)]

theorem Rearranged.mem {messages messages' : List (WireMessage json)}
    (rearranged : Rearranged messages messages') {message : WireMessage json}
    (member : message ∈ messages') : message ∈ messages ∨ message.outcome = some .success := by
  cases rearranged with
  | order same => exact Or.inl (same.mem_iff.2 member)
  | success oldSuccess newSuccess =>
      rcases mem_or_mem_of_mem member with rfl | elsewhere
      · exact Or.inr newSuccess
      · left
        rcases List.mem_append.1 elsewhere with earlier | later
        · exact List.mem_append_left _ earlier
        · exact List.mem_append_right _ (List.mem_cons_of_mem _ later)

theorem Rearranged.symm {messages messages' : List (WireMessage json)}
    (rearranged : Rearranged messages messages') : Rearranged messages' messages := by
  cases rearranged with
  | order same => exact .order same.symm
  | success oldSuccess newSuccess => exact .success newSuccess oldSuccess

/-- Of the lists with an error and without a report of an exhausted quota, these are the ones for
which the action on the key changes neither with the order of the messages nor with what a success
says. -/
theorem healthVerdict_stable_iff (arrays : ReadsArrays json) (successes : ReadsSuccesses json)
    {status : Nat} (successful : isSuccessStatus status = true) (format : BodyFormat)
    {messages : List (WireMessage json)}
    (unexhausted : ∀ message ∈ messages, message.outcome ≠ some .quotaExhausted)
    (failed : ∃ message ∈ messages, message.outcome = some .error) :
    (∀ messages' : List (WireMessage json), Rearranged messages messages' →
      healthVerdict (analyzeAttempt json status (format.body messages')).keyHealthAction =
        healthVerdict (analyzeAttempt json status (format.body messages)).keyHealthAction) ↔
    FreeOfOrder messages ∧ FreeOfSuccesses messages := by
  have verdict := healthVerdict_analyzeAttempt arrays successful format unexhausted failed
  have verdict' : ∀ messages' : List (WireMessage json), Rearranged messages messages' →
      healthVerdict (analyzeAttempt json status (format.body messages')).keyHealthAction =
        verdictOf messages' := by
    intro messages' rearranged
    apply healthVerdict_analyzeAttempt arrays successful format
    · intro message member
      rcases rearranged.mem member with old | success
      · exact unexhausted message old
      · rw [success]
        decide
    · obtain ⟨message, member, error⟩ := failed
      refine ⟨message, ?_, error⟩
      rcases rearranged.symm.mem member with new | success
      · exact new
      · rw [error] at success
        cases success
  constructor
  · intro stable
    have stable' : ∀ messages' : List (WireMessage json), Rearranged messages messages' →
        verdictOf messages' = verdictOf messages := by
      intro messages' rearranged
      have same := stable messages' rearranged
      rw [verdict, verdict' messages' rearranged] at same
      exact same
    constructor
    · apply (verdictOf_order_iff messages).1
      intro messages' same
      exact stable' messages' (.order same)
    · rintro before after old rfl oldSuccess
      apply (verdictOf_success_iff successes before after oldSuccess).1
      intro new newSuccess
      exact stable' _ (.success oldSuccess newSuccess)
  · rintro ⟨order, others⟩ messages' rearranged
    rw [verdict, verdict' messages' rearranged]
    cases rearranged with
    | order same => exact (verdictOf_order_iff messages).2 order messages' same
    | success oldSuccess newSuccess =>
        have free := others _ _ _ rfl oldSuccess
        exact (verdictOf_success_iff successes _ _ oldSuccess).2 free _ newSuccess

/-! ### A parser of arrays -/

/-- The value of a document. -/
def readDocument (documents : List (String × JsonValue)) (text : String) : Option JsonValue :=
  (documents.find? fun document => document.1 = text).map Prod.snd

def readDocuments (documents : List (String × JsonValue)) :
    List (List Char) → Option (List JsonValue)
  | [] => some []
  | item :: items =>
      (readDocument documents (String.ofList item)).bind fun value =>
        (readDocuments documents items).map fun values => value :: values

/-- A document, or an array of documents without commas. -/
def readItems (documents : List (String × JsonValue)) (text : String) : Option JsonValue :=
  match text.toList with
  | '[' :: rest =>
      if rest.getLast? = some ']' then
        (readDocuments documents (rest.dropLast.splitOn ',')).map JsonValue.array
      else none
  | _ => readDocument documents text

def itemsJson (documents : List (String × JsonValue)) : SerdeJson where
  fromSlice := fun body => (String.fromUTF8? body).bind (readItems documents)
  print := fun _ => ""

variable {documents : List (String × JsonValue)}

theorem fromStr_itemsJson (text : String) :
    (itemsJson documents).fromStr text = readItems documents text := by
  show (String.fromUTF8? text.toUTF8).bind (readItems documents) = _
  rw [fromUTF8?_toUTF8, Option.bind_some]

theorem toList_bracketed (text : String) :
    ("[" ++ text ++ "]").toList = '[' :: (text.toList ++ [']']) := by
  rw [String.toList_append, String.toList_append]
  rfl

theorem bracketed_ne {text : String} (nonempty : text ≠ "") : "[" ++ text ++ "]" ≠ "[]" := by
  intro same
  have chars := congrArg String.toList same
  rw [toList_bracketed] at chars
  exact nonempty (String.toList_inj.1 (List.append_cancel_right (List.cons.inj chars).2))

theorem readItems_bracket {text : String} {items : List Char}
    (chars : text.toList = '[' :: (items ++ [']'])) :
    readItems documents text = (readDocuments documents (items.splitOn ',')).map .array := by
  unfold readItems
  rw [chars]
  simp only [List.getLast?_concat, if_true, List.dropLast_concat]

theorem length_readDocuments {items : List (List Char)} {values : List JsonValue}
    (read : readDocuments documents items = some values) : values.length = items.length := by
  induction items generalizing values with
  | nil =>
      cases read
      rfl
  | cons item items ih =>
      obtain ⟨value, _, rest⟩ := Option.bind_eq_some_iff.1 read
      obtain ⟨later, found, rfl⟩ := Option.map_eq_some_iff.1 rest
      rw [List.length_cons, List.length_cons, ih found]

theorem splitOn_of_free {item : List Char} (free : ',' ∉ item) : item.splitOn ',' = [item] := by
  have single : ([','].intercalate [item]).splitOn ',' = [item] := by
    apply List.splitOn_intercalate
    · intro part member
      rw [List.mem_singleton.1 member]
      exact free
    · exact List.cons_ne_nil _ _
  rw [List.intercalate_singleton] at single
  exact single

/-- What is one item has no comma. -/
theorem readDocument_of_item {text : String} {value : JsonValue}
    (item : readDocuments documents (text.toList.splitOn ',') = some [value]) :
    ',' ∉ text.toList ∧ readDocument documents text = some value := by
  have free : ',' ∉ text.toList := by
    intro member
    obtain ⟨first, rest, chars, free⟩ := List.eq_append_cons_of_mem member
    rw [chars, List.splitOn_append_cons_self_of_not_mem free] at item
    have count := length_readDocuments item
    rw [List.length_singleton, List.length_cons] at count
    have none : rest.splitOn ',' = [] := List.length_eq_zero_iff.1 (by omega)
    exact List.splitOn_ne_nil ',' rest none
  refine ⟨free, ?_⟩
  rw [splitOn_of_free free] at item
  obtain ⟨value', read, rest⟩ := Option.bind_eq_some_iff.1 item
  rw [String.ofList_toList] at read
  cases rest
  exact read

section

variable (reads : ∀ text : String, text ≠ "[]" → json.fromStr text = readItems documents text)
include reads

theorem reads_bracketed {text : String} {value : JsonValue} (nonempty : text ≠ "")
    (free : ',' ∉ text.toList) (document : readDocument documents text = some value) :
    json.fromStr ("[" ++ text ++ "]") = some (.array [value]) := by
  rw [reads _ (bracketed_ne nonempty), readItems_bracket (toList_bracketed text),
    splitOn_of_free free, readDocuments, String.ofList_toList, document]
  rfl

theorem WireMessage.document (message : WireMessage json) :
    ',' ∉ message.text.toList ∧ readDocument documents message.text = some message.value := by
  have read := message.reads.2
  rw [reads _ (bracketed_ne message.nonempty), readItems_bracket (toList_bracketed _)] at read
  obtain ⟨values, items, same⟩ := Option.map_eq_some_iff.1 read
  cases same
  exact readDocument_of_item items

theorem readDocuments_messages (messages : List (WireMessage json)) :
    readDocuments documents ((messages.map WireMessage.text).map String.toList) =
      some (messages.map WireMessage.value) := by
  induction messages with
  | nil => rfl
  | cons message messages ih =>
      rw [List.map_cons, List.map_cons, readDocuments, ih, String.ofList_toList,
        (message.document reads).2]
      rfl

theorem readsArrays_of_reads : ReadsArrays json := by
  intro messages nonempty
  have free : ∀ part ∈ (messages.map WireMessage.text).map String.toList, ',' ∉ part := by
    intro part member
    obtain ⟨text, inTexts, rfl⟩ := List.mem_map.1 member
    obtain ⟨message, _, rfl⟩ := List.mem_map.1 inTexts
    exact (message.document reads).1
  have some : (messages.map WireMessage.text).map String.toList ≠ [] := by
    rw [Ne, List.map_eq_nil_iff, List.map_eq_nil_iff]
    exact nonempty
  rw [reads _ (batch_ne_brackets nonempty), readItems_bracket (toList_batch _),
    List.splitOn_intercalate ',' free some, readDocuments_messages reads]
  rfl

end

theorem readsArrays_itemsJson : ReadsArrays (itemsJson documents) :=
  readsArrays_of_reads fun text _ => fromStr_itemsJson text

/-! ### Answers of an upstream -/

/-- The documents of the answers below. -/
def answers : List (String × JsonValue) :=
  [("\x7b\"result\":\x7b\"structuredContent\":\x7b\"status\":200\x7d\x7d\x7d",
      .object [("result", .object [("structuredContent",
        .object [("status", .number (.posInt 200))])])]),
    ("\x7b\"result\":\"ok\"\x7d", .object [("result", .string "ok")]),
    ("\x7b\"result\":\"deactivated\"\x7d", .object [("result", .string "deactivated")]),
    ("\x7b\"error\":\"unknown tool\"\x7d", .object [("error", .string "unknown tool")]),
    ("\x7b\"result\":\x7b\"structuredContent\":\x7b\"status\":401\x7d\x7d\x7d",
      .object [("result", .object [("structuredContent",
        .object [("status", .number (.posInt 401))])])]),
    ("\x7b\"error\":\"account deactivated\"\x7d",
      .object [("error", .string "account deactivated")])]

theorem reads_answers {text : String} {value : JsonValue}
    (free : ',' ∉ text.toList) (read : readItems answers text = some value)
    (document : readDocument answers text = some value) : Reads (itemsJson answers) text value := by
  have reads (text : String) (_ : text ≠ "[]") := @fromStr_itemsJson answers text
  refine ⟨?_, reads_bracketed reads ?_ free document⟩
  · rw [fromStr_itemsJson]
    exact read
  · rintro rfl
    cases document

theorem readsSuccesses_answers : ReadsSuccesses (itemsJson answers) where
  coded := reads_answers (by decide) rfl rfl
  plain := reads_answers (by decide) rfl rfl
  telling := reads_answers (by decide) rfl rfl

/-- An answer of the table. -/
def answer (text : String) (value : JsonValue) (nonempty : text ≠ "") (oneLine : '\n' ∉ text.toList)
    (start : text.toList.dropWhile isWhiteSpace = text.toList)
    (finish : text.toList.rdropWhile isWhiteSpace = text.toList) (free : ',' ∉ text.toList)
    (read : readItems answers text = some value)
    (document : readDocument answers text = some value) : WireMessage (itemsJson answers) where
  text := text
  value := value
  nonempty := nonempty
  oneLine := oneLine
  trimmed := ⟨start, finish⟩
  reads := reads_answers free read document

/-- An error that says nothing about the key. -/
def unknownTool : WireMessage (itemsJson answers) :=
  answer "\x7b\"error\":\"unknown tool\"\x7d" _ (by decide) (by decide) (by decide) (by decide)
    (by decide) rfl rfl

def plainAnswer : WireMessage (itemsJson answers) :=
  answer "\x7b\"result\":\"ok\"\x7d" _ (by decide) (by decide) (by decide) (by decide)
    (by decide) rfl rfl

/-- A search result with the word. -/
def tellingAnswer : WireMessage (itemsJson answers) :=
  answer "\x7b\"result\":\"deactivated\"\x7d" _ (by decide) (by decide) (by decide) (by decide)
    (by decide) rfl rfl

/-- An error with the code of a key that is turned down. -/
def rejectedKey : WireMessage (itemsJson answers) :=
  answer "\x7b\"result\":\x7b\"structuredContent\":\x7b\"status\":401\x7d\x7d\x7d" _ (by decide)
    (by decide) (by decide) (by decide) (by decide) rfl rfl

/-- An error that says what has become of the account. -/
def deactivatedAccount : WireMessage (itemsJson answers) :=
  answer "\x7b\"error\":\"account deactivated\"\x7d" _ (by decide) (by decide) (by decide)
    (by decide) (by decide) rfl rfl

def deactivatedBatch : List (WireMessage (itemsJson answers)) :=
  [rejectedKey, deactivatedAccount, plainAnswer]

theorem outcomes_deactivatedBatch :
    rejectedKey.outcome = some .error ∧ deactivatedAccount.outcome = some .error ∧
      plainAnswer.outcome = some .success := ⟨rfl, rfl, rfl⟩

/-- One code denies the key, no other is reported, and the word of the reason is in an error. -/
theorem free_deactivatedBatch :
    FreeOfOrder deactivatedBatch ∧ FreeOfSuccesses deactivatedBatch := by
  obtain ⟨rejected, deactivated, _⟩ := outcomes_deactivatedBatch
  constructor
  · right
    rintro ⟨_, message, member, other⟩
    simp only [deactivatedBatch, List.mem_cons, List.not_mem_nil, or_false] at member
    rcases member with rfl | rfl | rfl
    · cases other
    · cases other
    · cases other
  · intro before after success same succeeded
    rcases before with _ | ⟨first, _ | ⟨second, _ | ⟨third, rest⟩⟩⟩
    · cases same
      rw [rejected] at succeeded
      cases succeeded
    · cases same
      rw [deactivated] at succeeded
      cases succeeded
    · cases same
      exact Or.inr ⟨rfl, deactivatedAccount, by simp, by decide +kernel⟩
    · have none : [] = rest ++ success :: after := (List.cons.inj (List.cons.inj
        (List.cons.inj same).2).2).2
      simp at none

/-- The errors quarantine the key, in another order and with another success too. -/
theorem healthVerdict_stable_deactivatedBatch :
    healthVerdict (analyzeAttempt (itemsJson answers) 200
        (BodyFormat.batch.body deactivatedBatch)).keyHealthAction =
          .quarantine "account_deactivated" ∧
      healthVerdict (analyzeAttempt (itemsJson answers) 200
        (BodyFormat.batch.body [plainAnswer, deactivatedAccount, rejectedKey])).keyHealthAction =
          .quarantine "account_deactivated" ∧
      healthVerdict (analyzeAttempt (itemsJson answers) 200 (BodyFormat.batch.body
        [rejectedKey, deactivatedAccount, tellingAnswer])).keyHealthAction =
          .quarantine "account_deactivated" := by
  obtain ⟨rejected, deactivated, plain⟩ := outcomes_deactivatedBatch
  have unexhausted : ∀ message ∈ deactivatedBatch, message.outcome ≠ some .quotaExhausted := by
    simp [deactivatedBatch, rejected, deactivated, plain]
  have failed : ∃ message ∈ deactivatedBatch, message.outcome = some .error :=
    ⟨rejectedKey, List.mem_cons_self, rejected⟩
  have stable := (healthVerdict_stable_iff readsArrays_itemsJson readsSuccesses_answers
    (by decide : isSuccessStatus 200 = true) .batch unexhausted failed).2 free_deactivatedBatch
  have here : healthVerdict (analyzeAttempt (itemsJson answers) 200
      (BodyFormat.batch.body deactivatedBatch)).keyHealthAction =
        .quarantine "account_deactivated" := by
    rw [healthVerdict_analyzeAttempt readsArrays_itemsJson (by decide) .batch unexhausted failed]
    decide +kernel
  have turned : deactivatedBatch.Perm [plainAnswer, deactivatedAccount, rejectedKey] :=
    (List.reverse_perm deactivatedBatch).symm
  have replaced : Rearranged ([rejectedKey, deactivatedAccount] ++ plainAnswer :: [])
      ([rejectedKey, deactivatedAccount] ++ tellingAnswer :: []) := .success plain rfl
  exact ⟨here, (stable _ (.order turned)).trans here, (stable _ replaced).trans here⟩

/-- What a search has found quarantines the key. -/
theorem healthVerdict_dependsOn_success :
    ¬∀ (json : SerdeJson) (status : Nat) (format : BodyFormat)
      (messages messages' : List (WireMessage json)), ReadsArrays json →
      isSuccessStatus status = true →
      (∀ message ∈ messages, message.outcome ≠ some .quotaExhausted) →
      (∃ message ∈ messages, message.outcome = some .error) → Rearranged messages messages' →
      healthVerdict (analyzeAttempt json status (format.body messages')).keyHealthAction =
        healthVerdict (analyzeAttempt json status (format.body messages)).keyHealthAction := by
  intro stable
  have outcomes : unknownTool.outcome = some .error ∧ plainAnswer.outcome = some .success ∧
      tellingAnswer.outcome = some .success := ⟨rfl, rfl, rfl⟩
  have unexhausted (success : WireMessage (itemsJson answers))
      (succeeded : success.outcome = some .success) :
      ∀ message ∈ [unknownTool, success], message.outcome ≠ some .quotaExhausted := by
    simp [outcomes.1, succeeded]
  have failed (success : WireMessage (itemsJson answers)) :
      ∃ message ∈ [unknownTool, success], message.outcome = some .error :=
    ⟨unknownTool, List.mem_cons_self, outcomes.1⟩
  have rearranged : Rearranged ([unknownTool] ++ plainAnswer :: [])
      ([unknownTool] ++ tellingAnswer :: []) := .success outcomes.2.1 outcomes.2.2
  have same := stable (itemsJson answers) 200 .batch [unknownTool, plainAnswer]
    [unknownTool, tellingAnswer] readsArrays_itemsJson (by decide)
    (unexhausted plainAnswer outcomes.2.1) (failed plainAnswer) rearranged
  rw [healthVerdict_analyzeAttempt readsArrays_itemsJson (by decide) .batch
      (unexhausted plainAnswer outcomes.2.1) (failed plainAnswer),
    healthVerdict_analyzeAttempt readsArrays_itemsJson (by decide) .batch
      (unexhausted tellingAnswer outcomes.2.2) (failed tellingAnswer)] at same
  exact absurd same (by decide)

end TavilyHikari.Analysis
