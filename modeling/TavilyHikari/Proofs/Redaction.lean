/-
Module: TavilyHikari.Proofs.Redaction
Purpose: What redaction hides and what it keeps: two documents are logged alike exactly where
  they differ in nothing but the values of API keys, and to redact again changes nothing in a
  document, nor in its text where the printed document is read back as it was.
Trusted boundary: none
Main exports: SameButKeys, KeysHidden, redactApiKeyFields_eq_iff, RedactsKeysOnly,
  redactsKeysOnly_of_readsBack
-/
import TavilyHikari.Analysis.Redaction

namespace TavilyHikari.Analysis

open Library

/-! ### Documents that differ in keys -/

mutual

/-- The documents differ in nothing but the values of API keys, at any depth. -/
inductive SameButKeys : JsonValue → JsonValue → Prop where
  | null : SameButKeys .null .null
  | bool (value : Bool) : SameButKeys (.bool value) (.bool value)
  | number (value : JsonNumber) : SameButKeys (.number value) (.number value)
  | string (value : String) : SameButKeys (.string value) (.string value)
  | array {one two : List JsonValue} (items : SameItems one two) :
      SameButKeys (.array one) (.array two)
  | object {one two : List (String × JsonValue)} (members : SameMembers one two) :
      SameButKeys (.object one) (.object two)

inductive SameItems : List JsonValue → List JsonValue → Prop where
  | nil : SameItems [] []
  | cons {one two : JsonValue} {restOne restTwo : List JsonValue} (item : SameButKeys one two)
      (rest : SameItems restOne restTwo) : SameItems (one :: restOne) (two :: restTwo)

inductive SameMembers : List (String × JsonValue) → List (String × JsonValue) → Prop where
  | nil : SameMembers [] []
  | key {name : String} (isKey : isApiKeyName name = true) (one two : JsonValue)
      {restOne restTwo : List (String × JsonValue)} (rest : SameMembers restOne restTwo) :
      SameMembers ((name, one) :: restOne) ((name, two) :: restTwo)
  | member {name : String} (other : isApiKeyName name = false) {one two : JsonValue}
      {restOne restTwo : List (String × JsonValue)} (same : SameButKeys one two)
      (rest : SameMembers restOne restTwo) :
      SameMembers ((name, one) :: restOne) ((name, two) :: restTwo)

end

mutual

/-- Every API key in the document is redacted. -/
inductive KeysHidden : JsonValue → Prop where
  | null : KeysHidden .null
  | bool (value : Bool) : KeysHidden (.bool value)
  | number (value : JsonNumber) : KeysHidden (.number value)
  | string (value : String) : KeysHidden (.string value)
  | array {items : List JsonValue} (hidden : KeysHiddenItems items) : KeysHidden (.array items)
  | object {members : List (String × JsonValue)} (hidden : KeysHiddenMembers members) :
      KeysHidden (.object members)

inductive KeysHiddenItems : List JsonValue → Prop where
  | nil : KeysHiddenItems []
  | cons {item : JsonValue} {rest : List JsonValue} (hidden : KeysHidden item)
      (others : KeysHiddenItems rest) : KeysHiddenItems (item :: rest)

inductive KeysHiddenMembers : List (String × JsonValue) → Prop where
  | nil : KeysHiddenMembers []
  | key {name : String} (isKey : isApiKeyName name = true) {rest : List (String × JsonValue)}
      (others : KeysHiddenMembers rest) : KeysHiddenMembers ((name, redactedText) :: rest)
  | member {name : String} (other : isApiKeyName name = false) {value : JsonValue}
      {rest : List (String × JsonValue)} (hidden : KeysHidden value)
      (others : KeysHiddenMembers rest) : KeysHiddenMembers ((name, value) :: rest)

end

/-! ### Redacted documents -/

mutual

/-- Documents that differ in the values of key fields only are redacted to the same document. -/
theorem redactApiKeyFields_of_same {one two : JsonValue} (same : SameButKeys one two) :
    redactApiKeyFields one = redactApiKeyFields two := by
  cases same with
  | null => rfl
  | bool value => rfl
  | number value => rfl
  | string value => rfl
  | array items => rw [redactApiKeyFields, redactApiKeyFields, redactItems_of_same items]
  | object members => rw [redactApiKeyFields, redactApiKeyFields, redactMembers_of_same members]

theorem redactItems_of_same {one two : List JsonValue} (same : SameItems one two) :
    redactItems one = redactItems two := by
  cases same with
  | nil => rfl
  | cons item rest =>
      rw [redactItems, redactItems, redactApiKeyFields_of_same item, redactItems_of_same rest]

theorem redactMembers_of_same {one two : List (String × JsonValue)} (same : SameMembers one two) :
    redactMembers one = redactMembers two := by
  cases same with
  | nil => rfl
  | key isKey one two rest =>
      rw [redactMembers, redactMembers, redactMember, redactMember, if_pos isKey, if_pos isKey,
        redactMembers_of_same rest]
  | member other item rest =>
      rw [redactMembers, redactMembers, redactMember, redactMember, redactApiKeyFields_of_same item,
        redactMembers_of_same rest]

end

mutual

/-- Documents with the same redaction differ in the values of key fields only. -/
theorem same_of_redactApiKeyFields {one two : JsonValue}
    (same : redactApiKeyFields one = redactApiKeyFields two) : SameButKeys one two := by
  cases one with
  | null =>
      cases two with
      | null => exact .null
      | _ => cases same
  | bool value =>
      cases two with
      | bool other =>
          cases same
          exact .bool value
      | _ => cases same
  | number value =>
      cases two with
      | number other =>
          cases same
          exact .number value
      | _ => cases same
  | string value =>
      cases two with
      | string other =>
          cases same
          exact .string value
      | _ => cases same
  | array items =>
      cases two with
      | array others => exact .array (same_of_redactItems (JsonValue.array.inj same))
      | _ => cases same
  | object members =>
      cases two with
      | object others => exact .object (same_of_redactMembers (JsonValue.object.inj same))
      | _ => cases same

theorem same_of_redactItems {one two : List JsonValue} (same : redactItems one = redactItems two) :
    SameItems one two := by
  cases one with
  | nil =>
      cases two with
      | nil => exact .nil
      | cons item rest => cases same
  | cons item rest =>
      cases two with
      | nil => cases same
      | cons other others =>
          obtain ⟨first, later⟩ := List.cons.inj same
          exact .cons (same_of_redactApiKeyFields first) (same_of_redactItems later)

theorem same_of_redactMembers {one two : List (String × JsonValue)}
    (same : redactMembers one = redactMembers two) : SameMembers one two := by
  cases one with
  | nil =>
      cases two with
      | nil => exact .nil
      | cons member rest => cases same
  | cons member rest =>
      obtain ⟨name, value⟩ := member
      cases two with
      | nil => cases same
      | cons other others =>
          obtain ⟨otherName, otherValue⟩ := other
          obtain ⟨first, later⟩ := List.cons.inj same
          obtain ⟨names, values⟩ := Prod.mk.inj first
          subst names
          cases isKey : isApiKeyName name with
          | true => exact .key isKey value otherValue (same_of_redactMembers later)
          | false =>
              simp only [isKey, Bool.false_eq_true, if_false] at values
              exact .member isKey (same_of_redactApiKeyFields values) (same_of_redactMembers later)

end

/-- Redaction hides the API keys and nothing else. -/
theorem redactApiKeyFields_eq_iff {one two : JsonValue} :
    redactApiKeyFields one = redactApiKeyFields two ↔ SameButKeys one two :=
  ⟨same_of_redactApiKeyFields, redactApiKeyFields_of_same⟩

mutual

/-- A redacted document shows no key. -/
theorem keysHidden_redactApiKeyFields (value : JsonValue) :
    KeysHidden (redactApiKeyFields value) := by
  cases value with
  | null => exact .null
  | bool value => exact .bool value
  | number value => exact .number value
  | string value => exact .string value
  | array items => exact .array (keysHidden_redactItems items)
  | object members => exact .object (keysHidden_redactMembers members)

theorem keysHidden_redactItems (items : List JsonValue) : KeysHiddenItems (redactItems items) := by
  cases items with
  | nil => exact .nil
  | cons item rest =>
      exact .cons (keysHidden_redactApiKeyFields item) (keysHidden_redactItems rest)

theorem keysHidden_redactMembers (members : List (String × JsonValue)) :
    KeysHiddenMembers (redactMembers members) := by
  cases members with
  | nil => exact .nil
  | cons member rest =>
      obtain ⟨name, value⟩ := member
      rw [redactMembers, redactMember]
      cases isKey : isApiKeyName name with
      | true => exact .key isKey (keysHidden_redactMembers rest)
      | false =>
          exact .member isKey (keysHidden_redactApiKeyFields value) (keysHidden_redactMembers rest)

end

mutual

/-- A document that shows no key is left as it is. -/
theorem redactApiKeyFields_of_hidden {value : JsonValue} (hidden : KeysHidden value) :
    redactApiKeyFields value = value := by
  cases hidden with
  | null => rfl
  | bool value => rfl
  | number value => rfl
  | string value => rfl
  | array items => rw [redactApiKeyFields, redactItems_of_hidden items]
  | object members => rw [redactApiKeyFields, redactMembers_of_hidden members]

theorem redactItems_of_hidden {items : List JsonValue} (hidden : KeysHiddenItems items) :
    redactItems items = items := by
  cases hidden with
  | nil => rfl
  | cons item rest =>
      rw [redactItems, redactApiKeyFields_of_hidden item, redactItems_of_hidden rest]

theorem redactMembers_of_hidden {members : List (String × JsonValue)}
    (hidden : KeysHiddenMembers members) : redactMembers members = members := by
  cases hidden with
  | nil => rfl
  | key isKey rest => rw [redactMembers, redactMember, if_pos isKey, redactMembers_of_hidden rest]
  | member other value rest =>
      rw [redactMembers, redactMember, redactApiKeyFields_of_hidden value,
        redactMembers_of_hidden rest, other, if_neg Bool.false_ne_true]

end

/-- To redact twice is to redact once. -/
theorem redactApiKeyFields_idem (value : JsonValue) :
    redactApiKeyFields (redactApiKeyFields value) = redactApiKeyFields value :=
  redactApiKeyFields_of_hidden (keysHidden_redactApiKeyFields value)

/-- All that is not the value of an API key is kept. -/
theorem same_redactApiKeyFields (value : JsonValue) :
    SameButKeys value (redactApiKeyFields value) :=
  redactApiKeyFields_eq_iff.1 (redactApiKeyFields_idem value).symm

/-! ### Redacted texts -/

variable {json : SerdeJson}

/-- The document is read back from what is printed of it. -/
def ReadsBack (json : SerdeJson) (value : JsonValue) : Prop :=
  json.fromSlice (json.print value).toUTF8 = some value

/-- Texts of documents that differ in API keys are logged alike, as a document that is the one
received but for its API keys, which are hidden; what is no document is not logged; and where
the redacted document is one of these, to redact its text again changes nothing. -/
structure RedactsKeysOnly (json : SerdeJson) (again : JsonValue → Prop) : Prop where
  alike : ∀ one two valueOne valueTwo, json.fromSlice one = some valueOne →
    json.fromSlice two = some valueTwo → SameButKeys valueOne valueTwo →
    redactApiKeyBytes json one = redactApiKeyBytes json two
  kept : ∀ bytes value, json.fromSlice bytes = some value →
    ∃ redacted, redactApiKeyBytes json bytes = (json.print redacted).toUTF8 ∧
      SameButKeys value redacted ∧ KeysHidden redacted
  unparsed : ∀ bytes, json.fromSlice bytes = none → redactApiKeyBytes json bytes = .empty
  idempotent : ∀ bytes, (∀ value, json.fromSlice bytes = some value →
      again (redactApiKeyFields value)) →
    redactApiKeyBytes json (redactApiKeyBytes json bytes) = redactApiKeyBytes json bytes

/-- A body that can be read is written back redacted. -/
theorem redactApiKeyBytes_of_parsed (noText : json.fromSlice .empty = none) {bytes : ByteArray}
    {value : JsonValue} (parsed : json.fromSlice bytes = some value) :
    redactApiKeyBytes json bytes = (json.print (redactApiKeyFields value)).toUTF8 := by
  unfold redactApiKeyBytes
  rw [parsed, if_neg]
  intro empty
  have none : bytes = .empty := by
    apply ByteArray.size_eq_zero_iff.1
    simpa [ByteArray.isEmpty] using empty
  rw [none, noText] at parsed
  cases parsed

/-- A body that cannot be read as JSON is dropped. -/
theorem redactApiKeyBytes_of_unparsed {bytes : ByteArray} (none : json.fromSlice bytes = none) :
    redactApiKeyBytes json bytes = .empty := by
  unfold redactApiKeyBytes
  rw [none]
  split <;> rfl

/-- **Redaction.** It hides the API keys and nothing else, and where the redacted document is
read back from its print it is idempotent. -/
theorem redactsKeysOnly_of_readsBack (noText : json.fromSlice .empty = none) :
    RedactsKeysOnly json (ReadsBack json) where
  alike one two valueOne valueTwo parsedOne parsedTwo same := by
    rw [redactApiKeyBytes_of_parsed noText parsedOne, redactApiKeyBytes_of_parsed noText parsedTwo,
      redactApiKeyFields_of_same same]
  kept bytes value parsed :=
    ⟨redactApiKeyFields value, redactApiKeyBytes_of_parsed noText parsed,
      same_redactApiKeyFields value, keysHidden_redactApiKeyFields value⟩
  unparsed _ none := redactApiKeyBytes_of_unparsed none
  idempotent bytes again := by
    cases parsed : json.fromSlice bytes with
    | none => rw [redactApiKeyBytes_of_unparsed parsed, redactApiKeyBytes_of_unparsed noText]
    | some value =>
        rw [redactApiKeyBytes_of_parsed noText parsed,
          redactApiKeyBytes_of_parsed noText (again value parsed), redactApiKeyFields_idem]

/-! ### A document with a key and a document with a float -/

/-- `{"api_key":"tvly-secret"}`. -/
def keyText : String := "\x7b\"api_key\":\"tvly-secret\"\x7d"

def hiddenText : String := "\x7b\"api_key\":\"***redacted***\"\x7d"

def keyDocument : JsonValue := .object [("api_key", .string "tvly-secret")]

def hiddenDocument : JsonValue := .object [("api_key", redactedText)]

def keyDocuments : List (String × JsonValue) :=
  [(keyText, keyDocument), (hiddenText, hiddenDocument)]

def keyJson : SerdeJson where
  fromSlice := (SerdeJson.ofDocuments keyDocuments).fromSlice
  print _ := hiddenText

theorem fromSlice_keyText : keyJson.fromSlice keyText.toUTF8 = some keyDocument :=
  (SerdeJson.fromSlice_ofDocuments keyDocuments keyText).trans rfl

theorem readsBack_keyDocument : ReadsBack keyJson (redactApiKeyFields keyDocument) :=
  (SerdeJson.fromSlice_ofDocuments keyDocuments hiddenText).trans rfl

theorem redactsKeysOnly_of_readsBack_key :
    redactApiKeyBytes keyJson (redactApiKeyBytes keyJson keyText.toUTF8) =
      redactApiKeyBytes keyJson keyText.toUTF8 := by
  have noText : keyJson.fromSlice .empty = none :=
    (SerdeJson.fromSlice_ofDocuments keyDocuments "").trans rfl
  apply (redactsKeysOnly_of_readsBack noText).idempotent
  intro value parsed
  cases Option.some.inj (fromSlice_keyText.symm.trans parsed)
  exact readsBack_keyDocument

/-- A decimal fraction as the parser reads it by default: its digits as a float, divided by a
power of ten. -/
def f64FromParts (significand fraction : Nat) : Float64 :=
  match Float64.round false significand 1 with
  | .finite negative mantissa exponent =>
      .round negative (mantissa * 2 ^ exponent.toNat)
        (2 ^ (-exponent).toNat * 10 ^ fraction)
  | other => other

def timeDocument (time : Float64) : JsonValue := .object [("response_time", .number (.float time))]

def timeText (time : String) : String := "\x7b\"response_time\":" ++ time ++ "\x7d"

/-- The digits of the first time are read exactly, those of its shortest print are not: they
have one bit more than a float. -/
def firstTime : Float64 := f64FromParts 12382330550026186 14

def secondTime : Float64 := f64FromParts 12382330550026187 14

example : parseF64 "123.82330550026187" = some firstTime := by decide +kernel

def timeDocuments : List (String × JsonValue) :=
  [(timeText "123.82330550026186", timeDocument firstTime),
    (timeText "123.82330550026187", timeDocument secondTime)]

/-- Without `float_roundtrip`. -/
def floatJson : SerdeJson where
  fromSlice := (SerdeJson.ofDocuments timeDocuments).fromSlice
  print
    | .object [(_, .number (.float time))] =>
        timeText (if time = firstTime then "123.82330550026187" else "123.82330550026188")
    | _ => "null"

theorem redactApiKeyFields_time (time : Float64) :
    redactApiKeyFields (timeDocument time) = timeDocument time :=
  redactApiKeyFields_of_hidden (.object (.member (by decide) (.number _) .nil))

/-- A time that is logged, read and logged again is another one. -/
theorem redaction_movesFloat : ¬RedactsKeysOnly floatJson fun _ => True := by
  intro only
  have noText : floatJson.fromSlice .empty = none :=
    (SerdeJson.fromSlice_ofDocuments timeDocuments "").trans rfl
  have first : floatJson.fromSlice (timeText "123.82330550026186").toUTF8 =
      some (timeDocument firstTime) :=
    (SerdeJson.fromSlice_ofDocuments timeDocuments (timeText "123.82330550026186")).trans rfl
  have second : floatJson.fromSlice (timeText "123.82330550026187").toUTF8 =
      some (timeDocument secondTime) :=
    (SerdeJson.fromSlice_ofDocuments timeDocuments (timeText "123.82330550026187")).trans rfl
  have printFirst : floatJson.print (timeDocument firstTime) = timeText "123.82330550026187" := rfl
  have printSecond : floatJson.print (timeDocument secondTime) =
      timeText "123.82330550026188" := by
    have moved : secondTime ≠ firstTime := by decide +kernel
    simp only [floatJson, timeDocument, if_neg moved]
  have again := only.idempotent (timeText "123.82330550026186").toUTF8 (fun _ _ => trivial)
  rw [redactApiKeyBytes_of_parsed noText first, redactApiKeyFields_time, printFirst,
    redactApiKeyBytes_of_parsed noText second, redactApiKeyFields_time, printSecond] at again
  revert again
  decide

end TavilyHikari.Analysis
