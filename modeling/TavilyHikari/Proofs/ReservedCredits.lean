/-
Module: TavilyHikari.Proofs.ReservedCredits
Purpose: Which calls reserve what their options ask for: all but those whose number of pages or
  URLs is so close to the end of the range that rounding it up overflows. One below the end both
  sums of the rounding wrap, and the reservation is the right one by accident.
Trusted boundary: none
Main exports: TavilyCall, ReservedRight, ReservationSound, InBounds, InBoundsWrapped,
  reservedCredits_sound_iff
-/
import TavilyHikari.Server.TavilyCredits
import TavilyHikari.Store.QuotaPrecheck

namespace TavilyHikari.Server

open Library

/-! ### Kinds of calls -/

/-- What a tool name or a path of the HTTP interface asks for. -/
inductive TavilyCall where
  | search
  | extract
  | crawl
  | map
  | research
  | other
deriving DecidableEq, Repr

namespace TavilyCall

def ofTool (tool : String) : TavilyCall :=
  if tool = "tavily-search" then .search
  else if tool = "tavily-extract" then .extract
  else if tool = "tavily-crawl" then .crawl
  else if tool = "tavily-map" then .map
  else if tool = "tavily-research" then .research
  else .other

def ofPath (upstreamPath : String) : TavilyCall :=
  if upstreamPath = "/search" then .search
  else if upstreamPath = "/extract" then .extract
  else if upstreamPath = "/crawl" then .crawl
  else if upstreamPath = "/map" then .map
  else if upstreamPath = "/research" then .research
  else .other

def credits : TavilyCall → JsonValue → Int
  | .search => tavilySearchExpectedCredits
  | .extract => tavilyExtractExpectedCredits
  | .crawl => tavilyCrawlExpectedCredits
  | .map => tavilyMapExpectedCredits
  | .research => tavilyResearchMinCredits
  | .other => fun _ => 1

end TavilyCall

theorem tavilyMcpReservedCredits_eq (tool : String) :
    tavilyMcpReservedCredits tool = (TavilyCall.ofTool tool).credits := by
  funext options
  unfold tavilyMcpReservedCredits TavilyCall.ofTool
  repeat' split
  all_goals rfl

theorem tavilyHttpReservedCredits_eq (upstreamPath : String) :
    tavilyHttpReservedCredits upstreamPath = (TavilyCall.ofPath upstreamPath).credits := by
  funext options
  unfold tavilyHttpReservedCredits TavilyCall.ofPath
  repeat' split
  all_goals rfl

/-! ### What a reservation is to be -/

/-- The credits of a chunk of mapped pages. -/
def mapFactor (options : JsonValue) : Int := if tavilyHasInstructions options then 2 else 1

/-- The chunks that hold so many items. -/
def chunkCount (items chunkSize : Int) : Int := (items + chunkSize - 1) / chunkSize

/-- The credits of a call whose chunks are counted in some build. -/
def creditsBy (chunked : Nat → Int → Int → Option Int) (call : TavilyCall) (options : JsonValue) :
    Option Int :=
  let pages := (tavilyRequestedLimit options 50).toNat
  match call with
  | .extract => chunked (tavilyRequestedUrlCount options) 5 (tavilyExtractDepthCredits options)
  | .map => chunked pages 10 (mapFactor options)
  | .crawl => do
      let mapped ← chunked pages 10 (mapFactor options)
      let extracted ← chunked pages 5 (tavilyExtractDepthCredits options)
      return saturatingAdd mapped extracted
  | call => some (call.credits options)

/-- No sum of the call overflows: a build with overflow checks does not panic, and has the same
credits. -/
def NoOverflow (call : TavilyCall) (options : JsonValue) : Prop :=
  creditsBy checkedChunkedCredits call options = some (call.credits options)

/-- The exact credits of the calls that are charged by the page. -/
def exactCredits (call : TavilyCall) (options : JsonValue) : Option Int :=
  let limit := tavilyRequestedLimit options 50
  match call with
  | .map => some (chunkCount limit 10 * mapFactor options)
  | .crawl =>
      some (chunkCount limit 10 * mapFactor options +
        chunkCount limit 5 * tavilyExtractDepthCredits options)
  | _ => none

/-- The options ask for the same, for another number of pages maybe. -/
def SameButLimit (options other : JsonValue) : Prop :=
  mapFactor options = mapFactor other ∧
    tavilyExtractDepthCredits options = tavilyExtractDepthCredits other

/-- A reservation of at least one credit; by the page it is the exact number, and no smaller limit
reserves more. -/
structure ReservedRight (call : TavilyCall) (credits : JsonValue → Int) (options : JsonValue) :
    Prop where
  positive : 1 ≤ credits options
  exact : ∀ exact, exactCredits call options = some exact → credits options = saturate exact
  monotone : ∀ smaller, (exactCredits call options).isSome = true → SameButLimit smaller options →
    tavilyRequestedLimit smaller 50 ≤ tavilyRequestedLimit options 50 →
      credits smaller ≤ credits options

/-- And it is made without an overflow. -/
structure ReservationSound (call : TavilyCall) (credits : JsonValue → Int)
    (options : JsonValue) : Prop extends ReservedRight call credits options where
  noOverflow : NoOverflow call options

/-- The limit of a map or a crawl, and the URLs of an extract, stay a chunk below the end of the
range. -/
def InBounds (call : TavilyCall) (options : JsonValue) : Prop :=
  match call with
  | .extract => tavilyRequestedUrlCount options ≤ i64Max - 5
  | .crawl => tavilyRequestedLimit options 50 ≤ i64Max - 10
  | .map => tavilyRequestedLimit options 50 ≤ i64Max - 10
  | _ => True

/-- The same, where only what comes out in a release build counts: one more is in bounds. -/
def InBoundsWrapped (call : TavilyCall) (options : JsonValue) : Prop :=
  match call with
  | .extract => tavilyRequestedUrlCount options ≤ i64Max - 4
  | .crawl => tavilyRequestedLimit options 50 ≤ i64Max - 9
  | .map => tavilyRequestedLimit options 50 ≤ i64Max - 9
  | _ => True

/-! ### Options -/

theorem asI64_le {number : JsonNumber} {count : Int} (read : number.asI64 = some count) :
    count ≤ i64Max := by
  cases number with
  | posInt value =>
      obtain ⟨small, same⟩ := Option.ite_none_right_eq_some.1 read
      cases same
      exact small
  | negInt value =>
      cases read
      have small := value.toInt_lt
      simp only [i64Max]
      omega
  | float value => cases read

theorem parsePositiveCreditCount_bounds {value : JsonValue} {count : Int}
    (parsed : parsePositiveCreditCount value = some count) : 1 ≤ count ∧ count ≤ i64Max := by
  unfold parsePositiveCreditCount at parsed
  obtain ⟨known, positive⟩ := Option.filter_eq_some_iff.1 parsed
  have lower : 1 ≤ count := of_decide_eq_true positive
  refine ⟨lower, ?_⟩
  split at known
  · rename_i number
    split at known
    · rename_i small
      cases known
      exact asI64_le small
    · exact of_decide_eq_true (Option.filter_eq_some_iff.1 known).2
  · rename_i raw
    obtain ⟨parsed, _, same⟩ := Option.bind_eq_some_iff.1 known
    split at same
    · cases same
      exact (saturate_bounds _).2
    · cases same
  · cases known

theorem tavilyRequestedLimit_bounds (options : JsonValue) :
    1 ≤ tavilyRequestedLimit options 50 ∧ tavilyRequestedLimit options 50 ≤ i64Max := by
  unfold tavilyRequestedLimit
  cases requested : (options.get "limit").bind parsePositiveCreditCount with
  | none =>
      rw [Option.getD_none]
      decide
  | some count =>
      obtain ⟨_, _, parsed⟩ := Option.bind_eq_some_iff.1 requested
      exact parsePositiveCreditCount_bounds parsed

theorem tavilyExtractDepthCredits_bounds (options : JsonValue) :
    1 ≤ tavilyExtractDepthCredits options ∧ tavilyExtractDepthCredits options ≤ 2 := by
  unfold tavilyExtractDepthCredits
  simp only
  generalize normalizedOption _ = depth
  split
  · exact ⟨by decide, by decide⟩
  · exact ⟨by decide, by decide⟩

theorem mapFactor_bounds (options : JsonValue) : 1 ≤ mapFactor options ∧ mapFactor options ≤ 2 := by
  unfold mapFactor
  split
  · decide
  · decide

theorem tavilyRequestedUrlCount_pos (options : JsonValue) : 1 ≤ tavilyRequestedUrlCount options := by
  unfold tavilyRequestedUrlCount
  simp only
  split
  · rename_i count counted
    exact of_decide_eq_true (Option.filter_eq_some_iff.1 counted).2
  · exact le_rfl

/-! ### Chunks -/

/-- The items are rounded up without a mistake as long as the last sum is in the range: where only
the first one is not, it wraps to the other end and the second one wraps back. -/
theorem chunkedCredits_eq {items : Nat} {chunkSize creditsPerChunk : Int} (nonzero : 1 ≤ items)
    (chunked : 1 ≤ chunkSize) (costs : 1 ≤ creditsPerChunk)
    (fits : (items : Int) ≤ i64Max - (chunkSize - 1)) :
    chunkedCredits items chunkSize creditsPerChunk =
      saturate (chunkCount items chunkSize * creditsPerChunk) := by
  have rounded : wrapI64 (wrapI64 (items + chunkSize) - 1) = items + chunkSize - 1 := by
    simp only [wrapI64, i64Min, i64Max] at *
    omega
  unfold chunkedCredits
  rw [if_neg (by omega)]
  simp only
  rw [if_pos (by omega), Int.max_eq_left chunked, rounded, Int.tdiv_eq_ediv_of_nonneg (by omega),
    chunkCount]

/-- Past that the rounded number of items is negative. -/
theorem chunkedCredits_of_past {items : Nat} {chunkSize creditsPerChunk : Int}
    (chunked : 2 ≤ chunkSize) (short : chunkSize ≤ i64Max) (costs : 1 ≤ creditsPerChunk)
    (past : i64Max - (chunkSize - 1) < items) :
    chunkedCredits items chunkSize creditsPerChunk ≤ 0 := by
  unfold chunkedCredits
  rw [if_neg (by omega)]
  simp only
  rw [Int.max_eq_left (by omega)]
  generalize counted : (if (items : Int) ≤ i64Max then (items : Int) else i64Max) = count
  have bounds : i64Max - (chunkSize - 1) < count ∧ count ≤ i64Max := by
    rw [← counted]
    split
    · omega
    · simp only [i64Max] at *
      omega
  have first := wrapI64_of_past (a := count + chunkSize) (by omega) (by omega)
  have second : wrapI64 (wrapI64 (count + chunkSize) - 1) =
      count + chunkSize - 1 - 18446744073709551616 := by
    rw [first, wrapI64_of_bounds (by simp only [i64Min, i64Max] at *; omega)
      (by simp only [i64Max] at *; omega)]
    omega
  have negative : count + chunkSize - 1 - 18446744073709551616 ≤ 0 := by
    simp only [i64Max] at *
    omega
  have chunks : (count + chunkSize - 1 - 18446744073709551616).tdiv chunkSize ≤ 0 :=
    (Int.tdiv_le_tdiv (by omega) negative).trans_eq (Int.zero_tdiv chunkSize)
  rw [second]
  have charged := Int.mul_nonpos_of_nonpos_of_nonneg chunks (Int.le_trans (by decide) costs)
  simp only [saturate, i64Min, i64Max]
  omega

/-- With overflow checks the items have to stay a whole chunk below the end. -/
theorem isSome_checkedChunkedCredits {items : Nat} {chunkSize creditsPerChunk : Int}
    (nonzero : 1 ≤ items) (chunked : 1 ≤ chunkSize) (costs : 1 ≤ creditsPerChunk) :
    (checkedChunkedCredits items chunkSize creditsPerChunk).isSome = true ↔
      (items : Int) ≤ i64Max - chunkSize := by
  unfold checkedChunkedCredits
  rw [if_neg (by omega)]
  simp only [Int.max_eq_left chunked]
  generalize counted : (if (items : Int) ≤ i64Max then (items : Int) else i64Max) = count
  have bounds : 1 ≤ count ∧ (count ≤ i64Max - chunkSize ↔ (items : Int) ≤ i64Max - chunkSize) := by
    rw [← counted]
    split
    · omega
    · exact ⟨by decide, by omega⟩
  rw [← bounds.2]
  constructor
  · intro checked
    by_contra past
    have fails : checkI64 (count + chunkSize) = none := if_neg (by omega)
    rw [fails] at checked
    cases checked
  · intro fits
    have first : checkI64 (count + chunkSize) = some (count + chunkSize) :=
      if_pos ⟨by simp only [i64Min]; omega, by omega⟩
    have second : checkI64 (count + chunkSize - 1) = some (count + chunkSize - 1) :=
      if_pos ⟨by simp only [i64Min]; omega, by omega⟩
    simp only [first, second, Option.bind_eq_bind, Option.bind_some, Option.pure_def,
      Option.isSome_some]

/-- Where no sum overflows, both builds have the same credits. -/
theorem chunkedCredits_of_checked {items : Nat} {chunkSize creditsPerChunk credits : Int}
    (checked : checkedChunkedCredits items chunkSize creditsPerChunk = some credits) :
    chunkedCredits items chunkSize creditsPerChunk = credits := by
  unfold checkedChunkedCredits at checked
  unfold chunkedCredits
  by_cases nothing : items = 0 ∨ creditsPerChunk ≤ 0
  · rw [if_pos nothing] at checked ⊢
    exact Option.some.inj checked
  · rw [if_neg nothing] at checked ⊢
    obtain ⟨sum, first, checked⟩ := Option.bind_eq_some_iff.1 checked
    obtain ⟨rounded, second, checked⟩ := Option.bind_eq_some_iff.1 checked
    simp only
    rw [wrapI64_of_checkI64 first, wrapI64_of_checkI64 second]
    exact Option.some.inj checked

theorem chunkCount_bounds {items chunkSize : Int} (nonzero : 1 ≤ items) (chunked : 1 ≤ chunkSize) :
    1 ≤ chunkCount items chunkSize := by
  unfold chunkCount
  rw [Int.le_ediv_iff_mul_le (by omega)]
  omega

theorem chunkCount_mono {items more chunkSize : Int} (chunked : 1 ≤ chunkSize)
    (le : items ≤ more) : chunkCount items chunkSize ≤ chunkCount more chunkSize := by
  unfold chunkCount
  exact Int.ediv_le_ediv (by omega) (by omega)

theorem saturate_mono {a b : Int} (le : a ≤ b) : saturate a ≤ saturate b := by
  simp only [saturate]
  omega

theorem one_le_saturate {a : Int} (positive : 1 ≤ a) : 1 ≤ saturate a := by
  simp only [saturate, i64Min, i64Max]
  omega

/-- Saturating twice is saturating once, where nothing is negative. -/
theorem saturatingAdd_saturate {a b : Int} (first : 0 ≤ a) (second : 0 ≤ b) :
    saturatingAdd (saturate a) (saturate b) = saturate (a + b) := by
  simp only [saturatingAdd, saturate, i64Min, i64Max]
  omega

/-! ### The calls -/

/-- The release build counts the credits of the model. -/
theorem creditsBy_chunkedCredits (call : TavilyCall) (options : JsonValue) :
    creditsBy (fun items chunkSize creditsPerChunk =>
      some (chunkedCredits items chunkSize creditsPerChunk)) call options =
        some (call.credits options) := by
  cases call <;> rfl

/-- Where no sum overflows, the checked build has the credits of the model. -/
theorem credits_of_checked {call : TavilyCall} {options : JsonValue} {credits : Int}
    (checked : creditsBy checkedChunkedCredits call options = some credits) :
    call.credits options = credits := by
  rw [← Option.some.injEq, ← creditsBy_chunkedCredits]
  cases call with
  | extract => exact congrArg some (chunkedCredits_of_checked checked)
  | map => exact congrArg some (chunkedCredits_of_checked checked)
  | crawl =>
      obtain ⟨mapped, first, checked⟩ := Option.bind_eq_some_iff.1 checked
      obtain ⟨extracted, second, checked⟩ := Option.bind_eq_some_iff.1 checked
      simp only [creditsBy, chunkedCredits_of_checked first, chunkedCredits_of_checked second]
      exact checked
  | search => exact checked
  | research => exact checked
  | other => exact checked

theorem noOverflow_iff_isSome (call : TavilyCall) (options : JsonValue) :
    NoOverflow call options ↔ (creditsBy checkedChunkedCredits call options).isSome = true := by
  constructor
  · intro same
    rw [same]
    rfl
  · intro checked
    obtain ⟨credits, counted⟩ := Option.isSome_iff_exists.1 checked
    rw [NoOverflow, counted, credits_of_checked counted]

theorem noOverflow_iff (call : TavilyCall) (options : JsonValue) :
    NoOverflow call options ↔ InBounds call options := by
  rw [noOverflow_iff_isSome]
  have limit := tavilyRequestedLimit_bounds options
  have factor := mapFactor_bounds options
  have depth := tavilyExtractDepthCredits_bounds options
  have tens : (checkedChunkedCredits (tavilyRequestedLimit options 50).toNat 10
      (mapFactor options)).isSome = true ↔ tavilyRequestedLimit options 50 ≤ i64Max - 10 := by
    rw [isSome_checkedChunkedCredits (by omega) (by decide) factor.1]
    omega
  have fives : (checkedChunkedCredits (tavilyRequestedLimit options 50).toNat 5
      (tavilyExtractDepthCredits options)).isSome = true ↔
        tavilyRequestedLimit options 50 ≤ i64Max - 5 := by
    rw [isSome_checkedChunkedCredits (by omega) (by decide) depth.1]
    omega
  cases call with
  | extract =>
      exact isSome_checkedChunkedCredits (tavilyRequestedUrlCount_pos options) (by decide) depth.1
  | crawl =>
      change (creditsBy checkedChunkedCredits .crawl options).isSome = true ↔
        tavilyRequestedLimit options 50 ≤ i64Max - 10
      rw [← tens, creditsBy]
      constructor
      · intro checked
        obtain ⟨credits, checked⟩ := Option.isSome_iff_exists.1 checked
        obtain ⟨mapped, first, _⟩ := Option.bind_eq_some_iff.1 checked
        exact Option.isSome_iff_exists.2 ⟨mapped, first⟩
      · intro checked
        have bounded := tens.1 checked
        have later := fives.2 (by omega)
        obtain ⟨mapped, first⟩ := Option.isSome_iff_exists.1 checked
        obtain ⟨extracted, second⟩ := Option.isSome_iff_exists.1 later
        simp only [first, second, Option.bind_eq_bind, Option.bind_some, Option.pure_def,
          Option.isSome_some]
  | map => exact tens
  | search => exact iff_of_true rfl trivial
  | research => exact iff_of_true rfl trivial
  | other => exact iff_of_true rfl trivial

/-- The chunks of the requested pages. -/
theorem chunkedCredits_limit {options : JsonValue} {chunkSize creditsPerChunk : Int}
    (chunked : 1 ≤ chunkSize) (costs : 1 ≤ creditsPerChunk)
    (fits : tavilyRequestedLimit options 50 ≤ i64Max - (chunkSize - 1)) :
    chunkedCredits (tavilyRequestedLimit options 50).toNat chunkSize creditsPerChunk =
      saturate (chunkCount (tavilyRequestedLimit options 50) chunkSize * creditsPerChunk) := by
  have limit := tavilyRequestedLimit_bounds options
  have pages : ((tavilyRequestedLimit options 50).toNat : Int) = tavilyRequestedLimit options 50 :=
    Int.toNat_of_nonneg (by omega)
  rw [chunkedCredits_eq (by omega) chunked costs (by omega), pages]

/-- By the page a call reserves the exact credits, stopped at the end of the range. -/
theorem credits_eq_saturate {call : TavilyCall} {options : JsonValue} {exact : Int}
    (charged : exactCredits call options = some exact)
    (fits : tavilyRequestedLimit options 50 ≤ i64Max - 9) :
    call.credits options = saturate exact := by
  have limit := tavilyRequestedLimit_bounds options
  have factor := mapFactor_bounds options
  have depth := tavilyExtractDepthCredits_bounds options
  have mapped : mappingCredits options (tavilyRequestedLimit options 50).toNat =
      saturate (chunkCount (tavilyRequestedLimit options 50) 10 * mapFactor options) :=
    chunkedCredits_limit (by decide) factor.1 fits
  cases call with
  | map =>
      cases charged
      exact mapped
  | crawl =>
      cases charged
      change saturatingAdd (mappingCredits options (tavilyRequestedLimit options 50).toNat)
        (chunkedCredits (tavilyRequestedLimit options 50).toNat 5
          (tavilyExtractDepthCredits options)) = _
      rw [mapped, chunkedCredits_limit (by decide) depth.1 (by omega)]
      have tens := @chunkCount_bounds _ 10 limit.1 (by decide)
      have fives := @chunkCount_bounds _ 5 limit.1 (by decide)
      exact saturatingAdd_saturate (mul_nonneg (by omega) (by omega))
        (mul_nonneg (by omega) (by omega))
  | search => cases charged
  | extract => cases charged
  | research => cases charged
  | other => cases charged

theorem one_le_exactCredits {call : TavilyCall} {options : JsonValue} {exact : Int}
    (charged : exactCredits call options = some exact) : 1 ≤ exact := by
  have limit := tavilyRequestedLimit_bounds options
  have tens := @chunkCount_bounds _ 10 limit.1 (by decide)
  have fives := @chunkCount_bounds _ 5 limit.1 (by decide)
  have mapped : 1 ≤ chunkCount (tavilyRequestedLimit options 50) 10 * mapFactor options :=
    one_le_mul_of_one_le_of_one_le tens (mapFactor_bounds options).1
  have extracted : 1 ≤ chunkCount (tavilyRequestedLimit options 50) 5 *
      tavilyExtractDepthCredits options :=
    one_le_mul_of_one_le_of_one_le fives (tavilyExtractDepthCredits_bounds options).1
  cases call with
  | map =>
      cases charged
      exact mapped
  | crawl =>
      cases charged
      omega
  | search => cases charged
  | extract => cases charged
  | research => cases charged
  | other => cases charged

/-- A smaller limit does not cost more. -/
theorem exactCredits_mono {call : TavilyCall} {options smaller : JsonValue} {exact less : Int}
    (same : SameButLimit smaller options)
    (le : tavilyRequestedLimit smaller 50 ≤ tavilyRequestedLimit options 50)
    (charged : exactCredits call options = some exact)
    (chargedLess : exactCredits call smaller = some less) : less ≤ exact := by
  have factor := mapFactor_bounds options
  have depth := tavilyExtractDepthCredits_bounds options
  have mapped : chunkCount (tavilyRequestedLimit smaller 50) 10 * mapFactor smaller ≤
      chunkCount (tavilyRequestedLimit options 50) 10 * mapFactor options := by
    rw [same.1]
    exact mul_le_mul_of_nonneg_right (chunkCount_mono (by decide) le) (by omega)
  have extracted : chunkCount (tavilyRequestedLimit smaller 50) 5 *
        tavilyExtractDepthCredits smaller ≤
      chunkCount (tavilyRequestedLimit options 50) 5 * tavilyExtractDepthCredits options := by
    rw [same.2]
    exact mul_le_mul_of_nonneg_right (chunkCount_mono (by decide) le) (by omega)
  cases call with
  | map =>
      cases charged
      cases chargedLess
      exact mapped
  | crawl =>
      cases charged
      cases chargedLess
      omega
  | search => cases charged
  | extract => cases charged
  | research => cases charged
  | other => cases charged

theorem limit_of_inBoundsWrapped {call : TavilyCall} {options : JsonValue}
    (bounded : InBoundsWrapped call options) {exact : Int}
    (charged : exactCredits call options = some exact) :
    tavilyRequestedLimit options 50 ≤ i64Max - 9 := by
  cases call with
  | map => exact bounded
  | crawl => exact bounded
  | search => cases charged
  | extract => cases charged
  | research => cases charged
  | other => cases charged

theorem InBounds.wrapped {call : TavilyCall} {options : JsonValue}
    (bounded : InBounds call options) : InBoundsWrapped call options := by
  cases call with
  | map => exact Int.le_trans bounded (by decide)
  | crawl => exact Int.le_trans bounded (by decide)
  | extract => exact Int.le_trans bounded (by decide)
  | search => trivial
  | research => trivial
  | other => trivial

theorem exactCredits_isSome_congr (call : TavilyCall) (options other : JsonValue) :
    (exactCredits call options).isSome = (exactCredits call other).isSome := by
  cases call <;> rfl

theorem one_le_credits {call : TavilyCall} {options : JsonValue}
    (bounded : InBoundsWrapped call options) : 1 ≤ call.credits options := by
  cases charged : exactCredits call options with
  | some exact =>
      rw [credits_eq_saturate charged (limit_of_inBoundsWrapped bounded charged)]
      exact one_le_saturate (one_le_exactCredits charged)
  | none =>
      cases call with
      | search => exact tavilySearchExpectedCredits_pos options
      | research => exact tavilyResearchMinCredits_pos options
      | other => exact le_rfl
      | map => cases charged
      | crawl => cases charged
      | extract =>
          have count := tavilyRequestedUrlCount_pos options
          have depth := tavilyExtractDepthCredits_bounds options
          change 1 ≤ chunkedCredits (tavilyRequestedUrlCount options) 5
            (tavilyExtractDepthCredits options)
          rw [chunkedCredits_eq count (by decide) depth.1 bounded]
          apply one_le_saturate
          exact one_le_mul_of_one_le_of_one_le (chunkCount_bounds (by omega) (by decide)) depth.1

/-- Past the end a mapping reserves nothing. -/
theorem mapped_of_past {options : JsonValue}
    (past : i64Max - 9 < tavilyRequestedLimit options 50) :
    mappingCredits options (tavilyRequestedLimit options 50).toNat ≤ 0 := by
  have limit := tavilyRequestedLimit_bounds options
  exact chunkedCredits_of_past (by decide) (by decide) (mapFactor_bounds options).1 (by omega)

/-- The pages of a crawl make up for it, but not for all of it. -/
theorem crawled_of_past {options : JsonValue}
    (past : i64Max - 9 < tavilyRequestedLimit options 50) {exact : Int}
    (charged : exactCredits .crawl options = some exact) :
    tavilyCrawlExpectedCredits options < saturate exact := by
  have limit := tavilyRequestedLimit_bounds options
  have factor := mapFactor_bounds options
  have depth := tavilyExtractDepthCredits_bounds options
  let pages := tavilyRequestedLimit options 50
  have mapped : mappingCredits options pages.toNat ≤ 0 := mapped_of_past past
  have tens : chunkCount pages 10 ≤ 1000000000000000000 ∧ 1 ≤ chunkCount pages 10 := by
    simp only [pages, chunkCount, i64Max] at *
    omega
  have fives : chunkCount pages 5 ≤ 2000000000000000000 ∧ 1 ≤ chunkCount pages 5 := by
    simp only [pages, chunkCount, i64Max] at *
    omega
  have extracted : chunkedCredits pages.toNat 5 (tavilyExtractDepthCredits options) ≤
      chunkCount pages 5 * tavilyExtractDepthCredits options := by
    rcases le_or_gt pages (i64Max - 4) with fits | late
    · rw [chunkedCredits_limit (by decide) depth.1 fits]
      have cost : chunkCount pages 5 * tavilyExtractDepthCredits options ≤ i64Max := by
        rcases (by omega : tavilyExtractDepthCredits options = 1 ∨
          tavilyExtractDepthCredits options = 2) with one | two
        · rw [one, i64Max]
          omega
        · rw [two, i64Max]
          omega
      rw [saturate_of_bounds (Int.le_trans (by decide) (mul_nonneg (by omega) (by omega))) cost]
    · refine Int.le_trans (chunkedCredits_of_past (by decide) (by decide) depth.1 ?_)
        (mul_nonneg (by omega) (by omega))
      simp only [pages] at *
      omega
  cases charged
  change saturatingAdd (mappingCredits options pages.toNat)
    (chunkedCredits pages.toNat 5 (tavilyExtractDepthCredits options)) <
      saturate (chunkCount pages 10 * mapFactor options +
        chunkCount pages 5 * tavilyExtractDepthCredits options)
  have first : 1 ≤ chunkCount pages 10 * mapFactor options ∧
      chunkCount pages 10 * mapFactor options ≤ 2000000000000000000 := by
    rcases (by omega : mapFactor options = 1 ∨ mapFactor options = 2) with one | two
    · rw [one]
      omega
    · rw [two]
      omega
  have second : 1 ≤ chunkCount pages 5 * tavilyExtractDepthCredits options ∧
      chunkCount pages 5 * tavilyExtractDepthCredits options ≤ 4000000000000000000 := by
    rcases (by omega : tavilyExtractDepthCredits options = 1 ∨
      tavilyExtractDepthCredits options = 2) with one | two
    · rw [one]
      omega
    · rw [two]
      omega
  simp only [saturatingAdd, saturate, i64Min, i64Max]
  omega

/-- In a release build the reservation is right up to one more than where a sum overflows. -/
theorem reservedRight_iff (call : TavilyCall) (options : JsonValue) :
    ReservedRight call call.credits options ↔ InBoundsWrapped call options := by
  constructor
  · intro right
    cases call with
    | map =>
        by_contra past
        have positive := right.positive
        exact absurd (mapped_of_past (Int.not_le.1 past)) (Int.not_le.2 positive)
    | crawl =>
        by_contra past
        exact absurd (right.exact _ rfl) (Int.ne_of_lt (crawled_of_past (Int.not_le.1 past) rfl))
    | extract =>
        by_contra past
        have positive := right.positive
        have depth := tavilyExtractDepthCredits_bounds options
        refine absurd (chunkedCredits_of_past (by decide) (by decide) depth.1 ?_)
          (Int.not_le.2 positive)
        exact Int.not_le.1 past
    | search => trivial
    | research => trivial
    | other => trivial
  · intro bounded
    refine ⟨one_le_credits bounded, ?_, ?_⟩
    · intro exact charged
      exact credits_eq_saturate charged (limit_of_inBoundsWrapped bounded charged)
    · intro smaller isCharged same le
      obtain ⟨exact, charged⟩ := Option.isSome_iff_exists.1 isCharged
      rw [exactCredits_isSome_congr call options smaller] at isCharged
      obtain ⟨less, chargedLess⟩ := Option.isSome_iff_exists.1 isCharged
      have fits := limit_of_inBoundsWrapped bounded charged
      rw [credits_eq_saturate charged fits, credits_eq_saturate chargedLess (le.trans fits)]
      exact saturate_mono (exactCredits_mono same le charged chargedLess)

theorem reservationSound_iff (call : TavilyCall) (options : JsonValue) :
    ReservationSound call call.credits options ↔ InBounds call options := by
  constructor
  · intro sound
    exact (noOverflow_iff call options).1 sound.noOverflow
  · intro bounded
    exact ⟨(reservedRight_iff call options).2 bounded.wrapped,
      (noOverflow_iff call options).2 bounded⟩

/-- For every tool and every path the reservation is sound if and only if the call is in bounds;
the credits that a release build reserves are right for one more page or URL. -/
theorem reservedCredits_sound_iff (options : JsonValue) :
    (∀ tool,
      (ReservationSound (.ofTool tool) (tavilyMcpReservedCredits tool) options ↔
        InBounds (.ofTool tool) options) ∧
      (ReservedRight (.ofTool tool) (tavilyMcpReservedCredits tool) options ↔
        InBoundsWrapped (.ofTool tool) options)) ∧
      ∀ upstreamPath,
        (ReservationSound (.ofPath upstreamPath) (tavilyHttpReservedCredits upstreamPath) options ↔
          InBounds (.ofPath upstreamPath) options) ∧
        (ReservedRight (.ofPath upstreamPath) (tavilyHttpReservedCredits upstreamPath) options ↔
          InBoundsWrapped (.ofPath upstreamPath) options) := by
  constructor
  · intro tool
    rw [tavilyMcpReservedCredits_eq]
    exact ⟨reservationSound_iff (.ofTool tool) options, reservedRight_iff (.ofTool tool) options⟩
  · intro upstreamPath
    rw [tavilyHttpReservedCredits_eq]
    exact ⟨reservationSound_iff (.ofPath upstreamPath) options,
      reservedRight_iff (.ofPath upstreamPath) options⟩

/-- A limit of `i64::MAX` reserves a negative number of credits, which no quota refuses. -/
theorem reservedCredits_negative :
    let options := JsonValue.object [("limit", .number (.posInt 9223372036854775807))]
    tavilyMcpReservedCredits "tavily-map" options = -922337203685477580 ∧
      tavilyHttpReservedCredits "/map" options = -922337203685477580 ∧
      Store.quotaWouldExceed (.new 1 1 1 1 1 1) (tavilyHttpReservedCredits "/map" options) = false ∧
      ¬ReservationSound .map (tavilyHttpReservedCredits "/map") options := by
  intro options
  have reserved : tavilyHttpReservedCredits "/map" options = -922337203685477580 := by
    decide +kernel
  refine ⟨by decide +kernel, reserved, ?_, ?_⟩
  · rw [reserved]
    decide
  · intro sound
    have positive := sound.positive
    rw [reserved] at positive
    exact absurd positive (by decide)

end TavilyHikari.Server
