/-
Module: TavilyHikari.Analysis.HttpAttempt
Purpose: What the answer of an HTTP endpoint of Tavily says about the attempt, and the credits
  that it names (`analysis.rs`).
Trusted boundary: none
Main exports: analyzeHttpAttempt, extractUsageCreditsFromJsonBytes,
  isSuccessStatus_of_analyzeHttpAttempt
-/
import TavilyHikari.Analysis.Attempt

namespace TavilyHikari.Analysis

open Library

/-- The outcome that an answer names, and the status that counts. The body may have a status of
its own, as a number or as a text. -/
def namedOutcome (json : SerdeJson) (status : Nat) (body : ByteArray) : MessageOutcome × Int :=
  let parsed := json.fromSlice body
  let structured := parsed.bind extractStatusCode
  let structuredOutcome := (parsed.bind extractStatusText).bind classifyStatusText
  let effective := structured.getD status
  match structured with
  | some code =>
      match classifyStatusCode code with
      | .success => (structuredOutcome.getD .success, effective)
      | codeOutcome => (codeOutcome, effective)
  | none => (structuredOutcome.getD (classifyStatusCode effective), effective)

/-- An error of HTTP is never a success. -/
def httpOutcome (json : SerdeJson) (status : Nat) (body : ByteArray) : MessageOutcome × Int :=
  let (outcome, effective) := namedOutcome json status body
  if !isSuccessStatus status ∧ outcome = .success then
    (if effective = 432 then .quotaExhausted else .error, effective)
  else (outcome, effective)

def analyzeHttpAttempt (json : SerdeJson) (status : Nat) (body : ByteArray) : AttemptAnalysis :=
  match httpOutcome json status body with
  | (.success, effective) =>
      { status := .success
        tavilyStatusCode := some effective
        keyHealthAction := .none
        failureKind := none
        keyEffect := .none
        apiKeyId := none }
  | (.error, effective) =>
      { status := .error
        tavilyStatusCode := some effective
        keyHealthAction := quarantineAction (some effective) body
        failureKind :=
          classifyFailureKind "/api/tavily" (some (status : Int)) (some effective) none body
        keyEffect := .none
        apiKeyId := none }
  | (.quotaExhausted, effective) =>
      { status := .quotaExhausted
        tavilyStatusCode := some effective
        keyHealthAction := .markExhausted
        failureKind := none
        keyEffect :=
          { code := "marked_exhausted"
            summary := some "The system automatically marked this key as exhausted" }
        apiKeyId := none }

/-- Only an answer with a status of success is one. -/
theorem isSuccessStatus_of_analyzeHttpAttempt {json : SerdeJson} {status : Nat} {body : ByteArray}
    (success : (analyzeHttpAttempt json status body).status = .success) :
    isSuccessStatus status = true := by
  by_contra failed
  have outcome : (httpOutcome json status body).1 ≠ .success := by
    unfold httpOutcome
    simp only
    split
    case isTrue =>
      simp only
      split
      · exact nofun
      · exact nofun
    case isFalse other => exact fun same => other ⟨by simpa using failed, same⟩
  unfold analyzeHttpAttempt at success
  split at success
  case h_1 effective same => exact outcome (congrArg Prod.fst same)
  case h_2 => cases success
  case h_3 => cases success

/-! ### Credits -/

/-- The most that a message of the stream names. -/
def extractUsageCreditsFromSseBytes (json : SerdeJson) (body : ByteArray) : Option Int :=
  (String.fromUTF8? body).bind fun text =>
    (extractSseJsonMessages json text).foldl (fun best message =>
      match extractUsageCreditsFromValue message with
      | some credits => some (best.elim credits fun current => max current credits)
      | none => best) none

def extractUsageCreditsFromJsonBytes (json : SerdeJson) (body : ByteArray) : Option Int :=
  match json.fromSlice body with
  | some parsed => extractUsageCreditsFromValue parsed
  | none => extractUsageCreditsFromSseBytes json body

end TavilyHikari.Analysis
