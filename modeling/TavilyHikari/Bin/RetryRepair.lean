/-
Module: TavilyHikari.Bin.RetryRepair
Purpose: The tool that hides old logs of attempts that were made again
  (`bin/mcp_request_log_retry_repair.rs`): the two loads, the comparison of bodies, the pairing
  of shadows with finals, and the suppression.
Trusted boundary: human-reviewed spec (the tool is the only writer while it runs)
Main exports: RequestLogRow, RequestLogs, normalizeRequestBodyWithoutIncludeUsage,
  loadShadowLogs, loadPotentialFinalLogs, buildCandidates, suppressRetryShadows, main
-/
import TavilyHikari.Library.JsonValues
import TavilyHikari.Library.MultiMap
import TavilyHikari.Library.Substring
import TavilyHikari.Library.Utf8
import TavilyHikari.Store.RequestLogs

namespace TavilyHikari.Bin

open Library
open Store (AttemptOutcome RequestLogVisibility)

/-- `MAX_RETRY_GAP_SECS`. -/
def maxRetryGapSecs : Int := 10

/-- `FAILURE_KIND_TOOL_ARGUMENT_VALIDATION`. -/
def failureKindToolArgumentValidation : String := "tool_argument_validation"

structure Cli where
  fromTs : Int64
  toTs : Int64
  dryRun : Bool
deriving DecidableEq, Repr

structure RequestLogRow where
  id : Int
  apiKeyId : String
  authTokenId : String
  method : String
  path : String
  query : Option String
  createdAt : Int
  requestBody : ByteArray
  responseBody : ByteArray

structure RetryRepairCandidate where
  shadowLogId : Int
  finalLogId : Int
  tokenId : String
  apiKeyId : String
deriving DecidableEq, Repr

structure RetryRepairReport where
  dryRun : Bool
  fromTs : Int64
  toTs : Int64
  candidateCount : Nat
  affectedTokenCount : Nat
  affectedKeyCount : Nat
  suppressedLogIds : List Int
  finalLogIds : List Int
  rebuiltApiKeyUsageBuckets : Bool
deriving DecidableEq, Repr

/-! ### Bodies -/

@[irreducible] def responseMentionsIncludeUsageRejection (body : ByteArray) : Bool :=
  let normalized := toAsciiLowercase (fromUtf8Lossy body)
  contains normalized "include_usage" && contains normalized "unexpected keyword argument"

theorem responseMentionsIncludeUsageRejection_toUTF8 (text : String) :
    responseMentionsIncludeUsageRejection text.toUTF8 =
      (contains (toAsciiLowercase text) "include_usage" &&
        contains (toAsciiLowercase text) "unexpected keyword argument") := by
  unfold responseMentionsIncludeUsageRejection
  rw [fromUtf8Lossy_toUTF8]

/-- What `scrub` does to the members of an object before it goes on to their values. -/
def removeIncludeUsage (members : List (String × JsonValue)) : List (String × JsonValue) × Bool :=
  let method := ((JsonValue.getMember members "method").bind JsonValue.asStr).getD ""
  if method = "tools/call" then
    match JsonValue.getMember members "params" with
    | some (.object params) =>
        match JsonValue.getMember params "arguments" with
        | some (.object arguments) =>
            if (JsonValue.getMember arguments "include_usage").isSome then
              let arguments := JsonValue.removeMember "include_usage" arguments
              let params := JsonValue.setMember "arguments" (.object arguments) params
              (JsonValue.setMember "params" (.object params) members, true)
            else (members, false)
        | _ => (members, false)
    | _ => (members, false)
  else (members, false)

theorem sizeOf_removeIncludeUsage_le (members : List (String × JsonValue)) :
    sizeOf (removeIncludeUsage members).1 ≤ sizeOf members := by
  unfold removeIncludeUsage
  simp only
  split
  · split
    · rename_i params paramsFound
      split
      · rename_i arguments argumentsFound
        split
        · have lessArguments := JsonValue.sizeOf_removeMember_le "include_usage" arguments
          have lessParams : sizeOf (JsonValue.setMember "arguments"
              (.object (JsonValue.removeMember "include_usage" arguments)) params) ≤
              sizeOf params := by
            apply JsonValue.sizeOf_setMember_le argumentsFound
            simp only [JsonValue.object.sizeOf_spec]
            omega
          apply JsonValue.sizeOf_setMember_le paramsFound
          simp only [JsonValue.object.sizeOf_spec]
          omega
        · exact Nat.le_refl _
      · exact Nat.le_refl _
    · exact Nat.le_refl _
  · exact Nat.le_refl _

mutual

def scrub (value : JsonValue) (removed : Bool) : JsonValue × Bool :=
  match value with
  | .object members =>
      let (scrubbed, removed) :=
        scrubMembers (removeIncludeUsage members).1 (removed || (removeIncludeUsage members).2)
      (.object scrubbed, removed)
  | .array items =>
      let (scrubbed, removed) := scrubItems items removed
      (.array scrubbed, removed)
  | value => (value, removed)
termination_by sizeOf value
decreasing_by
  · have smaller := sizeOf_removeIncludeUsage_le members
    simp only [JsonValue.object.sizeOf_spec]
    omega
  · simp only [JsonValue.array.sizeOf_spec]
    omega

def scrubMembers (members : List (String × JsonValue)) (removed : Bool) :
    List (String × JsonValue) × Bool :=
  match members with
  | [] => ([], removed)
  | (name, nested) :: rest =>
      let (nested, removed) := scrub nested removed
      let (rest, removed) := scrubMembers rest removed
      ((name, nested) :: rest, removed)
termination_by sizeOf members

def scrubItems (items : List JsonValue) (removed : Bool) : List JsonValue × Bool :=
  match items with
  | [] => ([], removed)
  | nested :: rest =>
      let (nested, removed) := scrub nested removed
      let (rest, removed) := scrubItems rest removed
      (nested :: rest, removed)
termination_by sizeOf items

end

def normalizeRequestBodyWithoutIncludeUsage (json : SerdeJson) (bytes : ByteArray) :
    Option (JsonValue × Bool) := do
  let value ← json.fromSlice bytes
  some (scrub value false)

/-! ### Loads -/

/-- The columns of `request_logs` that the tool reads or writes, under the id. -/
structure RequestLogColumns where
  apiKeyId : Option String
  authTokenId : Option String
  method : String
  path : String
  query : Option String
  resultStatus : AttemptOutcome
  failureKind : Option String
  requestBody : Option ByteArray
  responseBody : Option ByteArray
  visibility : RequestLogVisibility
  createdAt : Int

abbrev RequestLogs := KeyedTable Int RequestLogColumns

/-- `ORDER BY auth_token_id ASC, created_at ASC, id ASC`. -/
def loadOrder (a b : Int × RequestLogColumns) : Prop :=
  let aToken := a.2.authTokenId.getD ""
  let bToken := b.2.authTokenId.getD ""
  aToken < bToken ∨ aToken = bToken ∧
    (a.2.createdAt < b.2.createdAt ∨ a.2.createdAt = b.2.createdAt ∧ a.1 ≤ b.1)

instance : DecidableRel loadOrder := fun _ _ => by
  unfold loadOrder
  infer_instance

/-- The row of a log, `none` where a text that it needs is NULL. -/
def requestLogRow (id : Int) (columns : RequestLogColumns) : Option RequestLogRow := do
  let apiKeyId ← columns.apiKeyId
  let authTokenId ← columns.authTokenId
  some
    { id, apiKeyId, authTokenId
      method := columns.method
      path := columns.path
      query := columns.query
      createdAt := columns.createdAt
      requestBody := columns.requestBody.getD .empty
      responseBody := columns.responseBody.getD .empty }

/-- The rows that a condition selects, in the order of the loads. -/
def loadLogs (chosen : RequestLogColumns → Bool) (logs : RequestLogs) :
    Option (List RequestLogRow) :=
  ((logs.rows.filter fun row => chosen row.2).insertionSort loadOrder).mapM
    fun row => requestLogRow row.1 row.2

def isPotentialFinal (fromTs toTs : Int) (columns : RequestLogColumns) : Bool :=
  columns.visibility = .visible && columns.authTokenId.isSome && likePrefix "/mcp" columns.path &&
    fromTs ≤ columns.createdAt && columns.createdAt ≤ saturatingAdd toTs maxRetryGapSecs

def isShadow (fromTs toTs : Int) (columns : RequestLogColumns) : Bool :=
  columns.visibility = .visible && columns.resultStatus = .error &&
    columns.failureKind = some failureKindToolArgumentValidation &&
    columns.authTokenId.isSome && likePrefix "/mcp" columns.path &&
    fromTs ≤ columns.createdAt && columns.createdAt ≤ toTs

def loadShadowLogs (logs : RequestLogs) (fromTs toTs : Int) : Option (List RequestLogRow) :=
  loadLogs (isShadow fromTs toTs) logs

def loadPotentialFinalLogs (logs : RequestLogs) (fromTs toTs : Int) :
    Option (List RequestLogRow) :=
  loadLogs (isPotentialFinal fromTs toTs) logs

/-! ### Pairing -/

/-- Token, method, path and query. -/
abbrev AttemptKey := String × String × String × Option String

def RequestLogRow.key (row : RequestLogRow) : AttemptKey :=
  (row.authTokenId, row.method, row.path, row.query)

/-- The order of `sort_by_key(|row| (row.created_at, row.id))`. -/
def attemptOrder (one two : RequestLogRow) : Prop :=
  one.createdAt < two.createdAt ∨ one.createdAt = two.createdAt ∧ one.id ≤ two.id

instance : DecidableRel attemptOrder := fun _ _ => by
  unfold attemptOrder
  infer_instance

def finalsByKey (finals : List RequestLogRow) : MultiMap AttemptKey RequestLogRow :=
  finals.foldl (fun rows row => rows.append row.key row) .empty

/-- `finals_by_key.get(&key)` after every list was sorted. -/
def finalRows (finals : List RequestLogRow) (key : AttemptKey) : List RequestLogRow :=
  ((finalsByKey finals).getAll key).insertionSort attemptOrder

/-- The test of the search for the final of a shadow. -/
def isFinalOf (json : SerdeJson) (consumedFinalIds : List Int) (shadow : RequestLogRow)
    (normalizedShadowBody : JsonValue) (candidate : RequestLogRow) : Bool :=
  if candidate.id = shadow.id ∨ candidate.id ∈ consumedFinalIds then false
  else if candidate.createdAt < shadow.createdAt then false
  else if saturatingSub candidate.createdAt shadow.createdAt > maxRetryGapSecs then false
  else if candidate.id < shadow.id ∧ candidate.createdAt = shadow.createdAt then false
  else
    match normalizeRequestBodyWithoutIncludeUsage json candidate.requestBody with
    | none => false
    | some (normalizedCandidateBody, _) => normalizedCandidateBody.same normalizedShadowBody

/-- The body of a shadow that the tool looks for a final of. -/
def normalizedShadowBody (json : SerdeJson) (shadow : RequestLogRow) : Option JsonValue :=
  if responseMentionsIncludeUsageRejection shadow.responseBody then
    match normalizeRequestBodyWithoutIncludeUsage json shadow.requestBody with
    | some (body, true) => some body
    | _ => none
  else none

/-- The candidate of a shadow with its final. -/
def candidateOf (shadow final : RequestLogRow) : RetryRepairCandidate where
  shadowLogId := shadow.id
  finalLogId := final.id
  tokenId := shadow.authTokenId
  apiKeyId := shadow.apiKeyId

/-- The ids of the finals that are taken, and the candidates. -/
structure Pairing where
  consumedFinalIds : List Int
  candidates : List RetryRepairCandidate

def Pairing.empty : Pairing where
  consumedFinalIds := []
  candidates := []

/-- One round of the loop over the shadows. -/
def pairShadow (json : SerdeJson) (finals : List RequestLogRow) (pairing : Pairing)
    (shadow : RequestLogRow) : Pairing :=
  match normalizedShadowBody json shadow with
  | none => pairing
  | some body =>
      match (finalRows finals shadow.key).find?
          (isFinalOf json pairing.consumedFinalIds shadow body) with
      | none => pairing
      | some final =>
          { consumedFinalIds := final.id :: pairing.consumedFinalIds
            candidates := pairing.candidates ++ [candidateOf shadow final] }

def buildCandidates (json : SerdeJson) (shadows finals : List RequestLogRow) :
    List RetryRepairCandidate :=
  (shadows.foldl (pairShadow json finals) .empty).candidates

/-! ### Suppression -/

/-- The suppressed ids and the table. -/
structure Suppression where
  suppressed : List Int
  logs : RequestLogs

def suppressRetryShadow (state : Suppression) (candidate : RetryRepairCandidate) : Suppression :=
  let chosen (id : Int) (columns : RequestLogColumns) : Bool :=
    id = candidate.shadowLogId && columns.visibility = .visible
  { suppressed :=
      if state.logs.existsWhere chosen then state.suppressed ++ [candidate.shadowLogId]
      else state.suppressed
    logs := state.logs.updateWhere chosen fun columns =>
      { columns with visibility := .suppressedRetryShadow } }

def suppressRetryShadows (logs : RequestLogs) (candidates : List RetryRepairCandidate) :
    Suppression :=
  candidates.foldl suppressRetryShadow { suppressed := [], logs }

def buildReport (cli : Cli) (candidates : List RetryRepairCandidate)
    (suppressedLogIds : List Int) (rebuiltApiKeyUsageBuckets : Bool) : RetryRepairReport where
  dryRun := cli.dryRun
  fromTs := cli.fromTs
  toTs := cli.toTs
  candidateCount := candidates.length
  affectedTokenCount := (candidates.map (·.tokenId)).dedup.length
  affectedKeyCount := (candidates.map (·.apiKeyId)).dedup.length
  suppressedLogIds
  finalLogIds := ((candidates.map (·.finalLogId)).insertionSort (· ≤ ·)).dedup
  rebuiltApiKeyUsageBuckets

/-- A run of the tool, `none` where it ends with an error. The buckets, which it rebuilds where
a log was suppressed, are another table. -/
def main (json : SerdeJson) (cli : Cli) (logs : RequestLogs) :
    Option (RetryRepairReport × RequestLogs) := do
  if cli.fromTs.toInt > cli.toTs.toInt then none
  else
    let shadows ← loadShadowLogs logs cli.fromTs.toInt cli.toTs.toInt
    let finals ← loadPotentialFinalLogs logs cli.fromTs.toInt cli.toTs.toInt
    let candidates := buildCandidates json shadows finals
    if cli.dryRun then some (buildReport cli candidates [] false, logs)
    else
      let state := suppressRetryShadows logs candidates
      some (buildReport cli candidates state.suppressed !state.suppressed.isEmpty, state.logs)

end TavilyHikari.Bin
