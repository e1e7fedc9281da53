/-
Module: TavilyHikari.Store.TokenLogs
Purpose: The recent requests of a token, a page at a time (`store/mod.rs`): the latest ones, or
  the latest ones with ids below that of a row seen before.
Trusted boundary: the JSON of request kinds is a parameter
Main exports: TokenLogRow, TokenLogRecord, fetchTokenLogs, walkTokenLogs
-/
import TavilyHikari.Analysis.StoredRequestKind
import TavilyHikari.Library.AutoIncrement

namespace TavilyHikari.Store

open Library
open Analysis

/-- The columns of `auth_token_logs` that the pages read, without the id. -/
structure TokenLogRow where
  tokenId : String
  apiKeyId : Option String
  method : String
  path : String
  query : Option String
  httpStatus : Option Int
  mcpStatus : Option Int
  businessCredits : Option Int
  billingState : String
  requestKindKey : Option String
  requestKindLabel : Option String
  requestKindDetail : Option String
  countsBusinessQuota : Int
  resultStatus : String
  errorMessage : Option String
  failureKind : Option String
  keyEffectCode : String
  keyEffectSummary : Option String
  createdAt : Int
deriving DecidableEq, Repr

structure TokenLogRecord where
  id : Int
  keyId : Option String
  method : String
  path : String
  query : Option String
  httpStatus : Option Int
  mcpStatus : Option Int
  businessCredits : Option Int
  requestKindKey : String
  requestKindLabel : String
  requestKindDetail : Option String
  countsBusinessQuota : Bool
  resultStatus : String
  errorMessage : Option String
  failureKind : Option String
  keyEffectCode : String
  keyEffectSummary : Option String
  createdAt : Int
deriving DecidableEq, Repr

abbrev TokenLogs := AutoIncrement TokenLogRow

variable (json : SerdeJson)

def mapTokenLogRow (entry : Int × TokenLogRow) : TokenLogRecord :=
  let row := entry.2
  let requestKind := finalizeTokenRequestKind json row.path row.requestKindKey
    row.requestKindLabel row.requestKindDetail
  { id := entry.1
    keyId := row.apiKeyId
    method := row.method
    path := row.path
    query := row.query
    httpStatus := row.httpStatus
    mcpStatus := row.mcpStatus
    businessCredits := if row.billingState = "charged" then row.businessCredits else none
    requestKindKey := requestKind.key
    requestKindLabel := requestKind.label
    requestKindDetail := requestKind.detail
    countsBusinessQuota := row.countsBusinessQuota ≠ 0
    resultStatus := row.resultStatus
    errorMessage := row.errorMessage
    failureKind := row.failureKind
    keyEffectCode := row.keyEffectCode
    keyEffectSummary := row.keyEffectSummary
    createdAt := row.createdAt }

/-- `ORDER BY created_at DESC, id DESC`. -/
def latestFirst (one two : Int × TokenLogRow) : Prop :=
  two.2.createdAt < one.2.createdAt ∨ one.2.createdAt = two.2.createdAt ∧ two.1 ≤ one.1

instance : DecidableRel latestFirst := fun one two =>
  inferInstanceAs (Decidable (two.2.createdAt < one.2.createdAt ∨
    one.2.createdAt = two.2.createdAt ∧ two.1 ≤ one.1))

/-- `SELECT ... WHERE p ORDER BY created_at DESC, id DESC`. -/
def selectTokenLogs (p : Int × TokenLogRow → Bool) (logs : TokenLogs) :
    List (Int × TokenLogRow) :=
  (logs.table.rows.filter p).insertionSort latestFirst

/-- `limit.clamp(1, 500)`. -/
def clampLimit (limit : Nat) : Nat := min (max limit 1) 500

def fetchTokenLogs (tokenId : String) (limit : Nat) (beforeId : Option Int) (logs : TokenLogs) :
    List TokenLogRecord :=
  let rows :=
    match beforeId with
    | some bid => selectTokenLogs (fun row => row.2.tokenId = tokenId && row.1 < bid) logs
    | none => selectTokenLogs (fun row => row.2.tokenId = tokenId) logs
  (rows.take (clampLimit limit)).map (mapTokenLogRow json)

/-- The records of so many calls, each with the id of the last record before, until there are
none. -/
def walkTokenLogs (tokenId : String) (limit : Nat) (logs : TokenLogs) :
    Nat → Option Int → List TokenLogRecord
  | 0, _ => []
  | calls + 1, beforeId =>
      let page := fetchTokenLogs json tokenId limit beforeId logs
      match page.getLast? with
      | none => []
      | some last => page ++ walkTokenLogs tokenId limit logs calls (some last.id)

end TavilyHikari.Store
