/-
Module: TavilyHikari.Library.Json
Purpose: JSON values as `serde_json` represents them, and the accessors that read
  them. Parsing and printing are parameters.
Trusted boundary: human-reviewed spec
Main exports: JsonNumber, JsonValue, SerdeJson, JsonValue.get, JsonValue.asStr,
  JsonValue.asI64
-/
import TavilyHikari.Library.Float64

namespace TavilyHikari.Library

/-- `serde_json::Number`: an unsigned integer, a negative integer, or a finite
binary64 number. -/
inductive JsonNumber where
  | posInt (value : UInt64)
  | negInt (value : Int64)
  | float (value : Float64)
deriving DecidableEq, Repr

namespace JsonNumber

/-- `Number::as_i64`. -/
def asI64 : JsonNumber → Option Int
  | .posInt value => if (value.toNat : Int) ≤ i64Max then some value.toNat else none
  | .negInt value => some value.toInt
  | .float _ => none

/-- `Number::as_f64`. -/
def asF64 : JsonNumber → Float64
  | .posInt value => .ofInt value.toNat
  | .negInt value => .ofInt value.toInt
  | .float value => value

end JsonNumber

/-- `serde_json::Value`. An object lists its members in the order of their keys,
each key once. -/
inductive JsonValue where
  | null
  | bool (value : Bool)
  | number (value : JsonNumber)
  | string (value : String)
  | array (items : List JsonValue)
  | object (members : List (String × JsonValue))
deriving Repr

namespace JsonValue

/-- `Map::get`. -/
def getMember (members : List (String × JsonValue)) (key : String) : Option JsonValue :=
  (members.find? fun member => member.1 = key).map Prod.snd

/-- `Value::get` of a key. -/
def get (value : JsonValue) (key : String) : Option JsonValue :=
  match value with
  | .object members => getMember members key
  | _ => none

def isNull : JsonValue → Bool
  | .null => true
  | _ => false

def asStr : JsonValue → Option String
  | .string value => some value
  | _ => none

def asBool : JsonValue → Option Bool
  | .bool value => some value
  | _ => none

def asI64 : JsonValue → Option Int
  | .number value => value.asI64
  | _ => none

def asArray : JsonValue → Option (List JsonValue)
  | .array items => some items
  | _ => none

/-- `value.get(key).is_some_and(|v| !v.is_null())`. -/
def hasNonNull (value : JsonValue) (key : String) : Bool :=
  (value.get key).any fun member => !member.isNull

end JsonValue

/-- The parser and the printer of `serde_json`. -/
structure SerdeJson where
  /-- `from_slice::<Value>(body).ok()`. -/
  fromSlice : ByteArray → Option JsonValue
  /-- `Value::to_string`. -/
  print : JsonValue → String

/-- `from_str::<Value>(text).ok()`. -/
def SerdeJson.fromStr (json : SerdeJson) (text : String) : Option JsonValue :=
  json.fromSlice text.toUTF8

/-- The parser of the documents of a list, with a printer of integers and plain
texts. -/
def SerdeJson.ofDocuments (documents : List (String × JsonValue)) : SerdeJson where
  fromSlice := fun body =>
    (String.fromUTF8? body).bind fun text =>
      (documents.find? fun document => document.1 = text).map Prod.snd
  print := fun value =>
    match value with
    | .number (.posInt value) => toString value.toNat
    | .string text => "\"" ++ text ++ "\""
    | _ => "null"

/-- `std::str::from_utf8` reads back the bytes of a text. -/
theorem fromUTF8?_toUTF8 (s : String) : String.fromUTF8? s.toUTF8 = some s := by
  have valid : s.toUTF8.IsValidUTF8 := s.isValidUTF8
  simp only [String.fromUTF8?, dif_pos valid]
  rfl

theorem isEmpty_toUTF8 {s : String} (nonempty : s ≠ "") : s.toUTF8.isEmpty = false := by
  rw [Bool.eq_false_iff]
  intro empty
  apply nonempty
  simpa [ByteArray.isEmpty] using empty

theorem SerdeJson.fromSlice_ofDocuments (documents : List (String × JsonValue)) (text : String) :
    (SerdeJson.ofDocuments documents).fromSlice text.toUTF8 =
      (documents.find? fun document => document.1 = text).map Prod.snd := by
  simp only [SerdeJson.ofDocuments, fromUTF8?_toUTF8, Option.bind_some]

/-- Of texts that differ each is read as its own document. -/
theorem SerdeJson.fromSlice_of_mem {documents : List (String × JsonValue)}
    (distinct : (documents.map Prod.fst).Nodup) {text : String} {value : JsonValue}
    (member : (text, value) ∈ documents) :
    (SerdeJson.ofDocuments documents).fromSlice text.toUTF8 = some value := by
  rw [SerdeJson.fromSlice_ofDocuments]
  induction documents with
  | nil => cases member
  | cons first rest ih =>
      rw [List.map_cons, List.nodup_cons] at distinct
      rw [List.find?_cons]
      rcases List.mem_cons.1 member with rfl | later
      · rw [decide_eq_true rfl]
        rfl
      · have different : first.1 ≠ text := by
          rintro rfl
          exact distinct.1 (List.mem_map.2 ⟨_, later, rfl⟩)
        rw [decide_eq_false different]
        exact ih distinct.2 later

end TavilyHikari.Library
