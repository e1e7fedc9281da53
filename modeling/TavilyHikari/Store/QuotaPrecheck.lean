/-
Module: TavilyHikari.Store.QuotaPrecheck
Purpose: The verdict on the usage of a billing subject against its limits, and the
  decision of the precheck before a billable request goes upstream (`models.rs`,
  `server/handlers/tavily.rs`, `server/proxy.rs`).
Trusted boundary: none
Main exports: QuotaWindow, QuotaLimits, TokenQuotaVerdict, quotaExhaustedNow,
  effectiveWindow, projectedWindow, quotaWouldExceed, reservedBillableCredits, precheckBlocks,
  within_limits_of_not_precheckBlocks
-/
import TavilyHikari.Library.Int64
import TavilyHikari.Store.MonthlyQuota
import TavilyHikari.Store.UsageBuckets

namespace TavilyHikari.Store

open Library

inductive QuotaWindow where
  | hour
  | day
  | month
deriving DecidableEq, Repr

def QuotaWindow.asStr : QuotaWindow → String
  | .hour => "hour"
  | .day => "day"
  | .month => "month"

/-- The limits of a subject: those of the account, or the ones of all tokens. -/
structure QuotaLimits where
  hourlyLimit : Int
  dailyLimit : Int
  monthlyLimit : Int
deriving DecidableEq, Repr

def QuotaLimits.limit (limits : QuotaLimits) : QuotaWindow → Int
  | .hour => limits.hourlyLimit
  | .day => limits.dailyLimit
  | .month => limits.monthlyLimit

structure TokenQuotaVerdict where
  allowed : Bool
  exceededWindow : Option QuotaWindow
  hourlyUsed : Int
  hourlyLimit : Int
  dailyUsed : Int
  dailyLimit : Int
  monthlyUsed : Int
  monthlyLimit : Int
deriving DecidableEq, Repr

/-- `TokenQuotaVerdict::new`. What it shows as used never passes the limit. -/
def TokenQuotaVerdict.new (hourlyUsedRaw hourlyLimit dailyUsedRaw dailyLimit monthlyUsedRaw
    monthlyLimit : Int) : TokenQuotaVerdict :=
  let hourlyLimit := max hourlyLimit 0
  let dailyLimit := max dailyLimit 0
  let monthlyLimit := max monthlyLimit 0
  let hourlyUsedRaw := max hourlyUsedRaw 0
  let dailyUsedRaw := max dailyUsedRaw 0
  let monthlyUsedRaw := max monthlyUsedRaw 0
  let hourExceeded : Bool := hourlyLimit = 0 || hourlyUsedRaw > hourlyLimit
  let dayExceeded : Bool := dailyLimit = 0 || dailyUsedRaw > dailyLimit
  let monthExceeded : Bool := monthlyLimit = 0 || monthlyUsedRaw > monthlyLimit
  { allowed := !hourExceeded && !dayExceeded && !monthExceeded
    exceededWindow :=
      if monthExceeded then some .month
      else if dayExceeded then some .day
      else if hourExceeded then some .hour
      else none
    hourlyUsed := min hourlyUsedRaw hourlyLimit
    hourlyLimit
    dailyUsed := min dailyUsedRaw dailyLimit
    dailyLimit
    monthlyUsed := min monthlyUsedRaw monthlyLimit
    monthlyLimit }

namespace TokenQuotaVerdict

/-- The window that is exceeded, or else the longest one that is used up. -/
def effectiveWindow (verdict : TokenQuotaVerdict) : Option QuotaWindow :=
  match verdict.exceededWindow with
  | some window => some window
  | none =>
      if verdict.monthlyUsed ≥ verdict.monthlyLimit then some .month
      else if verdict.dailyUsed ≥ verdict.dailyLimit then some .day
      else if verdict.hourlyUsed ≥ verdict.hourlyLimit then some .hour
      else none

def projectedWindow (verdict : TokenQuotaVerdict) (delta : Int) : Option QuotaWindow :=
  match verdict.effectiveWindow with
  | some window => some window
  | none =>
      if 0 < delta then
        if saturatingAdd verdict.monthlyUsed delta > verdict.monthlyLimit then some .month
        else if saturatingAdd verdict.dailyUsed delta > verdict.dailyLimit then some .day
        else if saturatingAdd verdict.hourlyUsed delta > verdict.hourlyLimit then some .hour
        else none
      else none

def windowName (verdict : TokenQuotaVerdict) : Option String :=
  verdict.effectiveWindow.map QuotaWindow.asStr

def windowNameForDelta (verdict : TokenQuotaVerdict) (delta : Int) : Option String :=
  (verdict.projectedWindow delta).map QuotaWindow.asStr

end TokenQuotaVerdict

/-- The limit and the usage that are quoted to the client. -/
def quotaWindowStats (verdict : TokenQuotaVerdict) (projectedDelta : Int) : Int × Int :=
  let window := (verdict.windowNameForDelta projectedDelta).getD "hour"
  if window = "month" then (verdict.monthlyLimit, verdict.monthlyUsed)
  else if window = "day" then (verdict.dailyLimit, verdict.dailyUsed)
  else (verdict.hourlyLimit, verdict.hourlyUsed)

def buildQuotaErrorMessage (verdict : TokenQuotaVerdict) (projectedDelta : Option Int) : String :=
  let delta := projectedDelta.getD 0
  let (limit, used) := quotaWindowStats verdict delta
  let window := (verdict.windowNameForDelta delta).getD "unknown"
  "token quota exceeded on " ++ window ++ " window (limit " ++ toString limit ++ ", used " ++
    toString used ++ ")"

def quotaExhaustedNow (verdict : TokenQuotaVerdict) : Bool :=
  verdict.hourlyUsed ≥ verdict.hourlyLimit ||
    verdict.dailyUsed ≥ verdict.dailyLimit ||
    verdict.monthlyUsed ≥ verdict.monthlyLimit

def quotaWouldExceed (verdict : TokenQuotaVerdict) (delta : Int) : Bool :=
  if delta ≤ 0 then false
  else
    saturatingAdd verdict.hourlyUsed delta > verdict.hourlyLimit ||
      saturatingAdd verdict.dailyUsed delta > verdict.dailyLimit ||
      saturatingAdd verdict.monthlyUsed delta > verdict.monthlyLimit

/-- `reserved_billable_credits`, from the sum over the calls of the request. -/
def reservedBillableCredits (reservedBillableTotal : Int) : Option Int :=
  if reservedBillableTotal > 0 then some reservedBillableTotal else none

/-- What a request counts as reserved: one credit when it reserves none. -/
def reservation (reservedBillableTotal : Int) : Int :=
  (reservedBillableCredits reservedBillableTotal).getD 1

/-- `blocked` in `proxy_handler`. -/
def precheckBlocks (verdict : TokenQuotaVerdict) (reservedBillableTotal : Int) : Bool :=
  match reservedBillableCredits reservedBillableTotal with
  | some expected => quotaWouldExceed verdict expected
  | none => quotaExhaustedNow verdict

/-! ### What a passed precheck says -/

theorem reservation_pos (reservedBillableTotal : Int) : 0 < reservation reservedBillableTotal := by
  simp only [reservation, reservedBillableCredits]
  split <;> simp_all

/-- One window: the usage shown and the reservation stay within the limit only if
the usage itself does. -/
theorem raw_add_le_of_shown {raw limit delta : Int} (positive : 0 < delta)
    (within : min (max raw 0) (max limit 0) + delta ≤ max limit 0) : raw + delta ≤ limit := by
  omega

/-- A precheck that does not block leaves room for the reservation in every
window, as long as no limit is the largest integer. -/
theorem within_limits_of_not_precheckBlocks {limits : QuotaLimits}
    {reservedBillableTotal : Int} (used : QuotaWindow → Int)
    (below : ∀ window, limits.limit window < i64Max)
    (passes : precheckBlocks
      (.new (used .hour) limits.hourlyLimit (used .day) limits.dailyLimit (used .month)
        limits.monthlyLimit) reservedBillableTotal = false) (window : QuotaWindow) :
    used window + reservation reservedBillableTotal ≤ limits.limit window := by
  have positive := reservation_pos reservedBillableTotal
  have hour := below .hour
  have day := below .day
  have month := below .month
  simp only [QuotaLimits.limit] at hour day month
  have bounds : ∀ {limit : Int}, limit < i64Max → i64Min ≤ max limit 0 ∧ max limit 0 < i64Max := by
    intro limit upper
    simp only [i64Min, i64Max] at upper ⊢
    omega
  have shown :
      min (max (used .hour) 0) (max limits.hourlyLimit 0) + reservation reservedBillableTotal ≤
          max limits.hourlyLimit 0 ∧
        min (max (used .day) 0) (max limits.dailyLimit 0) + reservation reservedBillableTotal ≤
          max limits.dailyLimit 0 ∧
        min (max (used .month) 0) (max limits.monthlyLimit 0) +
            reservation reservedBillableTotal ≤ max limits.monthlyLimit 0 := by
    simp only [precheckBlocks, reservation] at passes positive ⊢
    cases reserved : reservedBillableCredits reservedBillableTotal with
    | some expected =>
        simp only [reserved, Option.getD_some] at passes positive ⊢
        simp only [quotaWouldExceed, if_neg (Int.not_le.2 positive), TokenQuotaVerdict.new,
          Bool.or_eq_false_iff, decide_eq_false_iff_not, gt_iff_lt, Int.not_lt] at passes
        rw [saturatingAdd_le_iff (bounds hour).1 (bounds hour).2,
          saturatingAdd_le_iff (bounds day).1 (bounds day).2,
          saturatingAdd_le_iff (bounds month).1 (bounds month).2] at passes
        exact ⟨passes.1.1, passes.1.2, passes.2⟩
    | none =>
        simp only [reserved, Option.getD_none] at passes ⊢
        simp only [quotaExhaustedNow, TokenQuotaVerdict.new, Bool.or_eq_false_iff,
          decide_eq_false_iff_not, ge_iff_le, Int.not_le] at passes
        exact ⟨passes.1.1, passes.1.2, passes.2⟩
  obtain ⟨hourly, daily, monthly⟩ := shown
  cases window with
  | hour => exact raw_add_le_of_shown positive hourly
  | day => exact raw_add_le_of_shown positive daily
  | month => exact raw_add_le_of_shown positive monthly

end TavilyHikari.Store
