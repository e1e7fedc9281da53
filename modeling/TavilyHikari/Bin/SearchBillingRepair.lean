/-
Module: TavilyHikari.Bin.SearchBillingRepair
Purpose: The tool that bills old MCP searches that were never charged
  (`bin/mcp_search_billing_repair.rs`): the two loads, the pairing of the token log with the
  request log, and the repair of one candidate after another beside everybody else who charges.
Trusted boundary: human-reviewed spec (statements that fail, lost locks and crashes are answers
  of the actions; INTEGER columns are unbounded integers)
Main exports: expectedSearchCreditsFromRequestBody, loadCandidates, buildCandidates, RepairRun,
  RepairState, RepairAction, repairSystem
-/
import TavilyHikari.Library.Json
import TavilyHikari.Library.MultiMap
import TavilyHikari.Library.Trim
import TavilyHikari.Store.BillingLedgerSystem

namespace TavilyHikari.Bin.SearchBilling

open Library Store

/-- `BILLING_STATE_NONE`. -/
def billingStateNone : String := "none"

/-- `MAX_LOG_SKEW_SECS`. -/
def maxLogSkewSecs : Int := 30

structure SearchAuthLog where
  id : Int
  tokenId : String
  createdAt : Int
  businessCredits : Option Int
  billingState : String
deriving DecidableEq, Repr

structure SearchRequestLog where
  id : Int
  tokenId : String
  createdAt : Int
  credits : Int
deriving DecidableEq, Repr

structure RepairCandidate where
  authLogId : Int
  requestLogId : Int
  tokenId : String
  createdAt : Int
  credits : Int
deriving DecidableEq, Repr

structure RepairSkippedToken where
  tokenId : String
  authLogCount : Nat
  requestLogCount : Nat
  reason : String
deriving DecidableEq, Repr

/-! ### Loads -/

/-- The credits of a search that is called as a tool, `none` for any other body. -/
def expectedSearchCreditsFromRequestBody (json : SerdeJson) (bytes : ByteArray) : Option Int := do
  let payload ← json.fromSlice bytes
  if (payload.get "method").bind JsonValue.asStr = some "tools/call" then
    let params ← payload.get "params"
    let name ← (params.get "name").bind JsonValue.asStr
    let toolName := replaceChar '_' '-' (toAsciiLowercase (trim name))
    if toolName = "tavily-search" then
      let searchDepth :=
        (((params.get "arguments").bind fun arguments => arguments.get "search_depth").bind
          JsonValue.asStr).getD ""
      some (if toAsciiLowercase searchDepth = "advanced" then 2 else 1)
    else none
  else none

/-- The columns of `request_logs` that the tool reads, under the id. -/
structure SearchRequestColumns where
  resultStatus : String
  statusCode : Option Int
  path : String
  authTokenId : Option String
  createdAt : Int
  requestBody : Option ByteArray

/-- What the tool reads beside the token log. -/
structure RepairSources where
  json : SerdeJson
  /-- `auth_token_logs.request_kind_key`. -/
  requestKindKey : Int → Option String
  requestLogs : KeyedTable Int SearchRequestColumns
  /-- The bytes that the driver reads for a NULL body, `none` if it refuses to. -/
  nullBody : Option ByteArray

/-- `--from-ts`, `--to-ts` and `--token-id`. -/
structure RepairScope where
  fromTs : Int
  toTs : Int
  tokenId : Option String
deriving DecidableEq, Repr

/-- `created_at >= ? AND created_at <= ? AND (? IS NULL OR token_id = ?)`. -/
def RepairScope.selects (scope : RepairScope) (tokenId : String) (createdAt : Int) : Bool :=
  scope.fromTs ≤ createdAt && createdAt ≤ scope.toTs &&
    scope.tokenId.all fun wanted => tokenId = wanted

/-- `ORDER BY token_id ASC, created_at ASC, id ASC`, of a token, a time and an id. -/
def loadOrder {α : Type} (tokenId : α → String) (createdAt id : α → Int) (one two : α) : Prop :=
  tokenId one < tokenId two ∨ tokenId one = tokenId two ∧
    (createdAt one < createdAt two ∨ createdAt one = createdAt two ∧ id one ≤ id two)

instance {α : Type} (tokenId : α → String) (createdAt id : α → Int) :
    DecidableRel (loadOrder tokenId createdAt id) := fun _ _ => by
  unfold loadOrder
  infer_instance

def searchAuthLog (id : Int) (row : AuthTokenLog) : SearchAuthLog where
  id := id
  tokenId := row.tokenId
  createdAt := row.createdAt.secs
  businessCredits := row.businessCredits
  billingState := row.billingState

def loadSearchAuthLogs (sources : RepairSources) (scope : RepairScope) (db : BillingDb) :
    List SearchAuthLog :=
  let chosen := db.authTokenLogs.table.rows.filter fun row =>
    sources.requestKindKey row.1 = some "mcp:search" && row.2.resultStatus = "success" &&
      row.2.httpStatus = some 200 && scope.selects row.2.tokenId row.2.createdAt.secs
  (chosen.map fun row => searchAuthLog row.1 row.2).insertionSort
    (loadOrder SearchAuthLog.tokenId SearchAuthLog.createdAt SearchAuthLog.id)

/-- A log of the request log: its body has to be read, and names a search or not. -/
def searchRequestLog (sources : RepairSources) (id : Int) (columns : SearchRequestColumns) :
    Option (Option SearchRequestLog) := do
  let requestBody ← columns.requestBody.or sources.nullBody
  some <| (expectedSearchCreditsFromRequestBody sources.json requestBody).map fun credits =>
    { id, tokenId := columns.authTokenId.getD "", createdAt := columns.createdAt, credits }

/-- `none` where the body of a chosen row cannot be read. -/
def loadSearchRequestLogs (sources : RepairSources) (scope : RepairScope) :
    Option (List SearchRequestLog) :=
  let chosen := sources.requestLogs.rows.filter fun row =>
    row.2.resultStatus = "success" && row.2.statusCode = some 200 &&
      likePrefix "/mcp" row.2.path && row.2.authTokenId.isSome &&
      scope.selects (row.2.authTokenId.getD "") row.2.createdAt
  let sorted := chosen.insertionSort
    (loadOrder (fun row => row.2.authTokenId.getD "") (fun row => row.2.createdAt) Prod.fst)
  (sorted.mapM fun row => searchRequestLog sources row.1 row.2).map List.reduceOption

/-! ### Pairing -/

/-- The order of `sort_by_key(|entry| (entry.created_at, entry.id))`. -/
def entryOrder {α : Type} (createdAt id : α → Int) (one two : α) : Prop :=
  createdAt one < createdAt two ∨ createdAt one = createdAt two ∧ id one ≤ id two

instance {α : Type} (createdAt id : α → Int) : DecidableRel (entryOrder createdAt id) :=
  fun _ _ => by
    unfold entryOrder
    infer_instance

def authByToken (authLogs : List SearchAuthLog) : MultiMap String SearchAuthLog :=
  authLogs.foldl (fun logs log => logs.append log.tokenId log) .empty

def requestByToken (requestLogs : List SearchRequestLog) : MultiMap String SearchRequestLog :=
  requestLogs.foldl (fun logs log => logs.append log.tokenId log) .empty

/-- The set of the tokens of both maps, in its order. -/
def tokenIds (authLogs : List SearchAuthLog) (requestLogs : List SearchRequestLog) :
    List String :=
  ((authByToken authLogs).table.rows.map Prod.fst ++
    (requestByToken requestLogs).table.rows.map Prod.fst).dedup.insertionSort (· ≤ ·)

def sortedAuthEntries (authLogs : List SearchAuthLog) (tokenId : String) : List SearchAuthLog :=
  ((authByToken authLogs).getAll tokenId).insertionSort
    (entryOrder SearchAuthLog.createdAt SearchAuthLog.id)

def sortedRequestEntries (requestLogs : List SearchRequestLog) (tokenId : String) :
    List SearchRequestLog :=
  ((requestByToken requestLogs).getAll tokenId).insertionSort
    (entryOrder SearchRequestLog.createdAt SearchRequestLog.id)

/-- Nobody has billed the log yet. -/
def SearchAuthLog.Unbilled (log : SearchAuthLog) : Prop :=
  log.businessCredits = none ∧ log.billingState = billingStateNone

instance (log : SearchAuthLog) : Decidable log.Unbilled := inferInstanceAs (Decidable (_ ∧ _))

def repairCandidate (tokenId : String) (pair : SearchAuthLog × SearchRequestLog) :
    RepairCandidate where
  authLogId := pair.1.id
  requestLogId := pair.2.id
  tokenId := tokenId
  createdAt := pair.1.createdAt
  credits := pair.2.credits

/-- How far apart two logs are. -/
def skew (pair : SearchAuthLog × SearchRequestLog) : Int := |pair.1.createdAt - pair.2.createdAt|

def skewReason (authLogId requestLogId skew : Int) : String :=
  s!"paired log skew too large for auth_log_id={authLogId} request_log_id={requestLogId} ({skew}s)"

/-- The loop over the pairs of a token, with the reason at which it ends. -/
def tokenCandidates (tokenId : String) :
    List (SearchAuthLog × SearchRequestLog) → Except String (List RepairCandidate)
  | [] => .ok []
  | pair :: rest =>
      if skew pair > maxLogSkewSecs then .error (skewReason pair.1.id pair.2.id (skew pair))
      else
        (tokenCandidates tokenId rest).map fun candidates =>
          if pair.1.Unbilled then repairCandidate tokenId pair :: candidates else candidates

/-- The candidates of a token, or why it is skipped. -/
def pairTokenLogs (tokenId : String) (authEntries : List SearchAuthLog)
    (requestEntries : List SearchRequestLog) : Except RepairSkippedToken (List RepairCandidate) :=
  let skipped (reason : String) : RepairSkippedToken :=
    { tokenId, authLogCount := authEntries.length, requestLogCount := requestEntries.length
      reason }
  if authEntries.length ≠ requestEntries.length then
    .error (skipped "search auth/request log counts differ")
  else (tokenCandidates tokenId (authEntries.zip requestEntries)).mapError skipped

/-- The loop over the tokens. -/
def pairTokens (pairToken : String → Except RepairSkippedToken (List RepairCandidate)) :
    List String → List RepairCandidate × List RepairSkippedToken
  | [] => ([], [])
  | tokenId :: rest =>
      let (candidates, skippedTokens) := pairTokens pairToken rest
      match pairToken tokenId with
      | .ok paired => (paired ++ candidates, skippedTokens)
      | .error skipped => (candidates, skipped :: skippedTokens)

def buildCandidates (authLogs : List SearchAuthLog) (requestLogs : List SearchRequestLog) :
    List RepairCandidate × List RepairSkippedToken :=
  pairTokens
    (fun tokenId =>
      pairTokenLogs tokenId (sortedAuthEntries authLogs tokenId)
        (sortedRequestEntries requestLogs tokenId))
    (tokenIds authLogs requestLogs)

def loadCandidates (sources : RepairSources) (scope : RepairScope) (db : BillingDb) :
    Option (List RepairCandidate × List RepairSkippedToken) :=
  (loadSearchRequestLogs sources scope).map
    (buildCandidates (loadSearchAuthLogs sources scope db))

/-! ### Repair -/

/-- The row after the `UPDATE` of `repair_candidates`. -/
def billedRow (credits : Int) (billingSubject : String) (row : AuthTokenLog) : AuthTokenLog :=
  { row with
    businessCredits := some credits
    billingState := billingStatePending
    billingSubject := some billingSubject }

/-- `business_credits IS NULL AND COALESCE(billing_state, 'none') = 'none'`. -/
def Unbilled (row : AuthTokenLog) : Prop :=
  row.businessCredits = none ∧ row.billingState = billingStateNone

instance (row : AuthTokenLog) : Decidable (Unbilled row) := inferInstanceAs (Decidable (_ ∧ _))

/-- The `UPDATE`, and whether it affected a row. -/
def markPending (db : BillingDb) (candidate : RepairCandidate) (billingSubject : String) :
    Bool × BillingDb :=
  match db.authTokenLogs.find candidate.authLogId with
  | some row =>
      if Unbilled row then
        (true,
          { db with
            authTokenLogs :=
              db.authTokenLogs.modify candidate.authLogId
                (billedRow candidate.credits billingSubject) })
      else (false, db)
  | none => (false, db)

def claimMissMessage (logId : Int) : String :=
  s!"pending billing claim miss for auth_token_logs.id={logId} during repair"

def lockLostMessage (logId : Int) (err : String) : String :=
  s!"quota subject lock lost before settling repaired auth_token_logs.id={logId}: {err}"

/-- Where the loop over the candidates is. -/
inductive RepairPhase where
  /-- Before the next candidate is locked. -/
  | next
  /-- The subject of the candidate is locked. -/
  | locked (candidate : RepairCandidate) (subject : QuotaSubject)
  /-- The row of the candidate is pending. -/
  | marked (candidate : RepairCandidate)
  /-- The lock was still live, and so many attempts to settle came too early. -/
  | settling (candidate : RepairCandidate) (attempts : Nat)
  | done
  | failed
deriving DecidableEq, Repr

/-- A row that a tool has made pending. -/
structure RepairMark where
  candidate : RepairCandidate
  subject : QuotaSubject
deriving DecidableEq, Repr

/-- One run of `repair_candidates`. -/
structure RepairRun where
  candidates : List RepairCandidate
  /-- Those that the loop has not come past yet. -/
  remaining : List RepairCandidate
  phase : RepairPhase
  /-- The rows it has made pending; the code keeps no such list. -/
  marks : List RepairMark
  repairedLogIds : List Int
deriving DecidableEq, Repr

namespace RepairRun

def start (candidates : List RepairCandidate) : RepairRun where
  candidates := candidates
  remaining := candidates
  phase := .next
  marks := []
  repairedLogIds := []

/-- What `lock_token_billing` and `ensure_live` answer for the next candidate. -/
def lock (run : RepairRun) (answer : Option QuotaSubject) : Option RepairRun :=
  match run.phase, run.remaining, answer with
  | .next, [], _ => some { run with phase := .done }
  | .next, candidate :: _, some subject => some { run with phase := .locked candidate subject }
  | .next, _ :: _, none => some { run with phase := .failed }
  | _, _, _ => none

/-- The loop goes on with the candidate after this one. -/
def pass (run : RepairRun) : RepairRun :=
  { run with remaining := run.remaining.tail, phase := .next }

/-- The `UPDATE` of the locked candidate; it fails without effect unless `healthy`. -/
def mark (run : RepairRun) (healthy : Bool) (db : BillingDb) : Option (RepairRun × BillingDb) :=
  match run.phase with
  | .locked candidate subject =>
      if healthy then
        match markPending db candidate subject.billingSubject with
        | (true, db') =>
            some ({ run with
              phase := .marked candidate
              marks := run.marks ++ [{ candidate, subject }] }, db')
        | (false, db') => some (run.pass, db')
      else some ({ run with phase := .failed }, db)
  | _ => none

/-- What `annotate_pending_billing_attempt` leaves behind, if its statement goes through. -/
def annotate (annotated : Bool) (logId : Int) (message : String) (db : BillingDb) : BillingDb :=
  if annotated then annotatePendingBillingLog db logId message else db

/-- The second `ensure_live`, with the error of a lock that was lost. -/
def checkLive (run : RepairRun) (lost : Option String) (annotated : Bool) (db : BillingDb) :
    Option (RepairRun × BillingDb) :=
  match run.phase with
  | .marked candidate =>
      match lost with
      | none => some ({ run with phase := .settling candidate 0 }, db)
      | some err =>
          some ({ run with phase := .failed },
            annotate annotated candidate.authLogId (lockLostMessage candidate.authLogId err) db)
  | _ => none

/-- The candidate is repaired. -/
def repaired (run : RepairRun) (candidate : RepairCandidate) : RepairRun :=
  { run.pass with repairedLogIds := run.repairedLogIds ++ [candidate.authLogId] }

/-- One attempt of `settle_repaired_log`. -/
def settle (env : BillingEnv) (run : RepairRun) (healthy : Option Nat) (annotated : Bool)
    (db : BillingDb) : Option (RepairRun × BillingDb) :=
  match run.phase with
  | .settling candidate attempts =>
      match applyPendingBillingLog env candidate.authLogId healthy db with
      | (.error _, db') => some ({ run with phase := .failed }, db')
      | (.ok .charged, db') => some (run.repaired candidate, db')
      | (.ok .alreadySettled, db') => some (run.repaired candidate, db')
      | (.ok .retryLater, db') =>
          if attempts = 0 then some ({ run with phase := .settling candidate 1 }, db')
          else
            some ({ run with phase := .failed },
              annotate annotated candidate.authLogId (claimMissMessage candidate.authLogId) db')
  | _ => none

/-- The process ends wherever it is. -/
def crash (run : RepairRun) : RepairRun := { run with phase := .failed }

end RepairRun

/-! ### The tool beside the server -/

/-- The ledger, and every run of the tool there has been. -/
structure RepairState where
  ledger : LedgerState
  runs : List RepairRun

inductive RepairAction where
  /-- Whoever records, settles, replays or annotates a charge. -/
  | ledger (action : LedgerAction)
  /-- `insert_token_log`: a row without billing. -/
  | log (row : AuthTokenLog)
  /-- A tool has loaded its candidates. -/
  | start (sources : RepairSources) (scope : RepairScope)
  | lock (run : Nat) (answer : Option QuotaSubject)
  | mark (run : Nat) (healthy : Bool)
  | checkLive (run : Nat) (lost : Option String) (annotated : Bool)
  | settle (run : Nat) (healthy : Option Nat) (annotated : Bool)
  | crash (run : Nat)

namespace RepairState

/-- The row that `insert_token_log` writes: the columns of billing keep their defaults. -/
def loggedRow (row : AuthTokenLog) (now : UtcTimestamp) : AuthTokenLog :=
  { row with
    businessCredits := none
    billingSubject := none
    billingState := billingStateNone
    apiKeyId := none
    createdAt := now }

def withDb (s : RepairState) (db : BillingDb) : RepairState :=
  { s with ledger := { s.ledger with db } }

/-- A step of one run of the tool. -/
def stepRun (s : RepairState) (index : Nat)
    (move : RepairRun → BillingDb → Option (RepairRun × BillingDb)) : Option RepairState := do
  let run ← s.runs[index]?
  let (run, db) ← move run s.ledger.db
  some { s.withDb db with runs := s.runs.set index run }

def step (localDayBucketStartUtcTs : Int → Int) (s : RepairState) :
    RepairAction → Option RepairState
  | .ledger action =>
      (s.ledger.step localDayBucketStartUtcTs action).map fun ledger => { s with ledger }
  | .log row =>
      some (s.withDb
        { s.ledger.db with
          authTokenLogs := s.ledger.db.authTokenLogs.insert (loggedRow row s.ledger.clock) })
  | .start sources scope =>
      (loadCandidates sources scope s.ledger.db).map fun loaded =>
        { s with runs := s.runs ++ [RepairRun.start loaded.1] }
  | .lock index answer =>
      s.stepRun index fun run db => (run.lock answer).map fun run => (run, db)
  | .mark index healthy => s.stepRun index fun run => run.mark healthy
  | .checkLive index lost annotated =>
      s.stepRun index fun run => run.checkLive lost annotated
  | .settle index healthy annotated =>
      let env := { now := s.ledger.clock, localDayBucketStartUtcTs }
      s.stepRun index fun run => run.settle env healthy annotated
  | .crash index => s.stepRun index fun run db => some (run.crash, db)

end RepairState

def repairSystem (localDayBucketStartUtcTs : Int → Int) :
    TransitionSystem RepairState RepairAction where
  step := RepairState.step localDayBucketStartUtcTs

end TavilyHikari.Bin.SearchBilling
