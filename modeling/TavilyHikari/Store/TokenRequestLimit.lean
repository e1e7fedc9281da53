/-
Module: TavilyHikari.Store.TokenRequestLimit
Purpose: The hourly limit of raw requests (`TokenRequestLimit::check` and `maybe_cleanup` in
  `tavily_proxy/mod.rs`): concurrent checks, cut at their statements, over the minute
  buckets of the tokens and the accounts.
Trusted boundary: human-reviewed spec
Main exports: TokenHourlyRequestVerdict, RequestCheck, RequestLimitState, requestLimitSystem
-/
import Mathlib.Logic.Function.Basic
import TavilyHikari.Library.TransitionSystem
import TavilyHikari.Store.UsageBuckets

namespace TavilyHikari.Store

open Library

/-! ### Verdicts -/

structure TokenHourlyRequestVerdict where
  allowed : Bool
  hourlyUsed : Int
  hourlyLimit : Int
deriving DecidableEq, Repr

def TokenHourlyRequestVerdict.new (hourlyUsedRaw hourlyLimit : Int) :
    TokenHourlyRequestVerdict :=
  let hourlyLimit := max hourlyLimit 0
  let hourlyUsedRaw := max hourlyUsedRaw 0
  { allowed := hourlyLimit > 0 && hourlyUsedRaw ≤ hourlyLimit
    hourlyUsed := min hourlyUsedRaw hourlyLimit
    hourlyLimit }

/-! ### Cleanup -/

def bucketRetentionSecs : Int := 2 * 24 * 3600

def cleanupIntervalSecs : Int := 600

/-- `delete_old_usage_buckets`, on the table of the tokens. -/
def deleteOldTokenRequestBuckets (threshold : Int) (buckets : UsageBuckets) : UsageBuckets :=
  buckets.deleteWhere fun key _ =>
    (match key.subject with | .token _ => true | .account _ => false) &&
      key.granularity = .requestMinute && key.bucketStart < threshold

/-- `delete_old_account_usage_buckets`. -/
def deleteOldAccountRequestBuckets (threshold : Int) (buckets : UsageBuckets) : UsageBuckets :=
  buckets.deleteWhere fun key _ =>
    (match key.subject with | .token _ => false | .account _ => true) &&
      key.granularity = .requestMinute && key.bucketStart < threshold

/-! ### Checks -/

/-- Where a check is, between its statements. -/
inductive CheckPhase where
  | started
  | resolved (subject : QuotaSubject)
  | incremented (subject : QuotaSubject)
  | judged (subject : QuotaSubject) (verdict : TokenHourlyRequestVerdict)
  | pruningTokens (subject : QuotaSubject) (verdict : TokenHourlyRequestVerdict)
  | pruningAccounts (subject : QuotaSubject) (verdict : TokenHourlyRequestVerdict)
  | answered (subject : QuotaSubject) (verdict : TokenHourlyRequestVerdict)
  | failed
deriving DecidableEq, Repr

/-- A call of `check`, with the time it has read at its start. -/
structure RequestCheck where
  tokenId : String
  nowTs : Int
  phase : CheckPhase
deriving DecidableEq, Repr

/-- The state of the limiter. `bindings` are the users that tokens are bound to. -/
structure RequestLimitState where
  bindings : String → Option String
  buckets : UsageBuckets
  lastPruned : Int
  clock : Int
  checks : List RequestCheck

inductive RequestLimitAction where
  | tick (secs : Nat)
  | bind (tokenId : String) (userId : Option String)
  | check (tokenId : String)
  | advance (call : Nat)
  | abandon (call : Nat)
deriving DecidableEq, Repr

namespace RequestLimitState

def initial (bindings : String → Option String) (buckets : UsageBuckets) (clock : Int) :
    RequestLimitState where
  bindings := bindings
  buckets := buckets
  lastPruned := 0
  clock := clock
  checks := []

/-- The subject of a token: the user it is bound to, or the token itself. -/
def subjectOf (s : RequestLimitState) (tokenId : String) : QuotaSubject :=
  match s.bindings tokenId with
  | some userId => .account userId
  | none => .token tokenId

def setPhase (s : RequestLimitState) (call : Nat) (check : RequestCheck) (phase : CheckPhase) :
    RequestLimitState :=
  { s with checks := s.checks.set call { check with phase } }

/-- `sum_usage_buckets` or `sum_account_usage_buckets`, and the verdict. -/
def verdict (s : RequestLimitState) (limits : QuotaSubject → Int) (subject : QuotaSubject)
    (now : Int) : TokenHourlyRequestVerdict :=
  .new (sumUsageBuckets s.buckets subject .requestMinute (hourWindowStart now)) (limits subject)

end RequestLimitState

/-- An account without a positive limit is not counted. -/
def countsRequests (limits : QuotaSubject → Int) : QuotaSubject → Bool
  | .token _ => true
  | .account userId => 0 < limits (.account userId)

/-- The next statement of a check. -/
def advanceCheck (limits : QuotaSubject → Int) (s : RequestLimitState) (call : Nat)
    (check : RequestCheck) : Option RequestLimitState :=
  match check.phase with
  | .started => some (s.setPhase call check (.resolved (s.subjectOf check.tokenId)))
  | .resolved subject =>
      if countsRequests limits subject then
        some ({ s with
          buckets := incrementUsageBucketBy s.buckets subject (minuteBucket check.nowTs)
            .requestMinute 1 }.setPhase call check (.incremented subject))
      else
        some (s.setPhase call check (.judged subject (s.verdict limits subject check.nowTs)))
  | .incremented subject =>
      some (s.setPhase call check (.judged subject (s.verdict limits subject check.nowTs)))
  | .judged subject verdict =>
      if check.nowTs - s.lastPruned < cleanupIntervalSecs then
        some (s.setPhase call check (.answered subject verdict))
      else
        some ({ s with lastPruned := check.nowTs }.setPhase call check
          (.pruningTokens subject verdict))
  | .pruningTokens subject verdict =>
      some ({ s with
        buckets := deleteOldTokenRequestBuckets (check.nowTs - bucketRetentionSecs)
          s.buckets }.setPhase call check (.pruningAccounts subject verdict))
  | .pruningAccounts subject verdict =>
      some ({ s with
        buckets := deleteOldAccountRequestBuckets (check.nowTs - bucketRetentionSecs)
          s.buckets }.setPhase call check (.answered subject verdict))
  | .answered _ _ => none
  | .failed => none

/-- The steps, for constant limits. A statement that fails ends its check with an error. -/
def requestLimitStep (limits : QuotaSubject → Int) (s : RequestLimitState) :
    RequestLimitAction → Option RequestLimitState
  | .tick secs => some { s with clock := s.clock + secs }
  | .bind tokenId userId => some { s with bindings := Function.update s.bindings tokenId userId }
  | .check tokenId =>
      some { s with checks := s.checks ++ [{ tokenId, nowTs := s.clock, phase := .started }] }
  | .advance call =>
      match s.checks[call]? with
      | some check => advanceCheck limits s call check
      | none => none
  | .abandon call =>
      match s.checks[call]? with
      | some check =>
          match check.phase with
          | .answered _ _ => none
          | _ => some (s.setPhase call check .failed)
      | none => none

def requestLimitSystem (limits : QuotaSubject → Int) :
    TransitionSystem RequestLimitState RequestLimitAction where
  step := requestLimitStep limits

/-! ### Answers -/

/-- The check has answered that a request of the subject is allowed. -/
def RequestCheck.answeredAllowed (subject : QuotaSubject) (check : RequestCheck) : Bool :=
  match check.phase with
  | .answered owner verdict => owner = subject && verdict.allowed
  | _ => false

/-- The minute bucket of the check is one of the 60 that begin with `first`. -/
def RequestCheck.inWindow (first : Int) (check : RequestCheck) : Bool :=
  first ≤ minuteBucket check.nowTs && minuteBucket check.nowTs ≤ first + 59 * secsPerMinute

/-- How many calls for the subject, with their bucket in the window, were answered allowed. -/
def RequestLimitState.allowedIn (s : RequestLimitState) (subject : QuotaSubject) (first : Int) :
    Nat :=
  s.checks.countP fun check => check.answeredAllowed subject && check.inWindow first

end TavilyHikari.Store
