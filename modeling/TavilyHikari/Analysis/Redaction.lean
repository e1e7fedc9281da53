/-
Module: TavilyHikari.Analysis.Redaction
Purpose: The bodies as they are logged (`analysis.rs`): the values of the API keys in a JSON
  document are replaced, at any depth, and what is no JSON is not logged.
Trusted boundary: human-reviewed spec
Main exports: isApiKeyName, redactApiKeyFields, redactApiKeyBytes
-/
import TavilyHikari.Library.Json
import TavilyHikari.Library.Trim

namespace TavilyHikari.Analysis

open Library

/-- `k.eq_ignore_ascii_case("api_key")`. -/
def isApiKeyName (name : String) : Bool := toAsciiLowercase name = "api_key"

def redactedText : JsonValue := .string "***redacted***"

mutual

def redactApiKeyFields : JsonValue → JsonValue
  | .object members => .object (redactMembers members)
  | .array items => .array (redactItems items)
  | .null => .null
  | .bool value => .bool value
  | .number value => .number value
  | .string value => .string value

def redactMembers : List (String × JsonValue) → List (String × JsonValue)
  | [] => []
  | member :: rest => redactMember member :: redactMembers rest

def redactMember : String × JsonValue → String × JsonValue
  | (name, value) =>
      (name, if isApiKeyName name then redactedText else redactApiKeyFields value)

def redactItems : List JsonValue → List JsonValue
  | [] => []
  | item :: rest => redactApiKeyFields item :: redactItems rest

end

/-- `redact_api_key_bytes`; `to_vec` has the bytes of `to_string`. -/
def redactApiKeyBytes (json : SerdeJson) (bytes : ByteArray) : ByteArray :=
  if bytes.isEmpty then .empty
  else
    match json.fromSlice bytes with
    | some value => (json.print (redactApiKeyFields value)).toUTF8
    | none => .empty

end TavilyHikari.Analysis
