/-
Module: TavilyHikari.Server.TavilyCredits
Purpose: What a Tavily call is expected to cost, from its options
  (`server/handlers/tavily.rs`).
Trusted boundary: human-reviewed spec (an overflow wraps, as in a release build; the sums are
  there with overflow checks too)
Main exports: tavilySearchExpectedCredits, tavilyResearchMinCredits,
  tavilyMcpReservedCredits, tavilyHttpReservedCredits
-/
import TavilyHikari.Library.Json
import TavilyHikari.Library.Trim

namespace TavilyHikari.Server

open Library

/-- An option that is a text, trimmed and in lower case, empty without one. -/
def normalizedOption (value : Option JsonValue) : String :=
  toAsciiLowercase (trim ((value.bind JsonValue.asStr).getD ""))

def tavilySearchExpectedCredits (options : JsonValue) : Int :=
  if normalizedOption (options.get "search_depth") = "advanced" then 2 else 1

/-- `Number::as_u64`. -/
def asU64 : JsonNumber → Option Int
  | .posInt value => some value.toNat
  | _ => none

/-- A number or a text, if it is positive. -/
def parsePositiveCreditCount (value : JsonValue) : Option Int :=
  let count : Option Int :=
    match value with
    | .number number =>
        match number.asI64 with
        | some count => some count
        | none => (asU64 number).filter fun count => count ≤ i64Max
    | .string raw =>
        (parseF64 (trim raw)).bind fun parsed =>
          match parsed with
          | .finite _ _ _ => some parsed.ceilToI64
          | _ => none
    | _ => none
  count.filter fun value => value > 0

/-- `non_empty_str`. -/
def nonEmptyStr (value : JsonValue) : Option String :=
  (value.asStr.map trim).filter fun text => !text.isEmpty

/-- So many credits for each chunk that is begun. -/
def chunkedCredits (items : Nat) (chunkSize : Int) (creditsPerChunk : Int) : Int :=
  if items = 0 ∨ creditsPerChunk ≤ 0 then 0
  else
    let items := if (items : Int) ≤ i64Max then (items : Int) else i64Max
    let chunkSize := max chunkSize 1
    let rounded := wrapI64 (wrapI64 (items + chunkSize) - 1)
    saturate (rounded.tdiv chunkSize * creditsPerChunk)

/-- `chunked_credits` in a build with overflow checks, `none` where it panics. -/
def checkedChunkedCredits (items : Nat) (chunkSize : Int) (creditsPerChunk : Int) : Option Int :=
  if items = 0 ∨ creditsPerChunk ≤ 0 then some 0
  else do
    let items := if (items : Int) ≤ i64Max then (items : Int) else i64Max
    let chunkSize := max chunkSize 1
    let sum ← checkI64 (items + chunkSize)
    let rounded ← checkI64 (sum - 1)
    return saturate (rounded.tdiv chunkSize * creditsPerChunk)

def tavilyExtractDepthCredits (options : JsonValue) : Int :=
  let depth :=
    match options.get "extract_depth" with
    | some depth => some depth
    | none => options.get "depth"
  if normalizedOption depth = "advanced" then 2 else 1

def tavilyRequestedUrlCount (options : JsonValue) : Nat :=
  let fromUrls : Option Nat :=
    (options.get "urls").bind fun value =>
      match value with
      | .array items => some (items.filter fun item => (nonEmptyStr item).isSome).length
      | .string raw => some (if (trim raw).isEmpty then 0 else 1)
      | _ => none
  match fromUrls.filter fun count => count > 0 with
  | some count => count
  | none => 1

/-- The number of pages that is asked for. -/
def tavilyRequestedLimit (options : JsonValue) (default : Int) : Int :=
  ((options.get "limit").bind parsePositiveCreditCount).getD default

def tavilyHasInstructions (options : JsonValue) : Bool :=
  ((options.get "instructions").bind nonEmptyStr).isSome

def tavilyExtractExpectedCredits (options : JsonValue) : Int :=
  chunkedCredits (tavilyRequestedUrlCount options) 5 (tavilyExtractDepthCredits options)

/-- The credits of a mapping of `pages` pages. -/
def mappingCredits (options : JsonValue) (pages : Nat) : Int :=
  chunkedCredits pages 10 (if tavilyHasInstructions options then 2 else 1)

def tavilyMapExpectedCredits (options : JsonValue) : Int :=
  mappingCredits options (tavilyRequestedLimit options 50).toNat

def tavilyCrawlExpectedCredits (options : JsonValue) : Int :=
  let pages := (tavilyRequestedLimit options 50).toNat
  saturatingAdd (mappingCredits options pages)
    (chunkedCredits pages 5 (tavilyExtractDepthCredits options))

def tavilyResearchMinCredits (options : JsonValue) : Int :=
  if normalizedOption (options.get "model") = "pro" then 15 else 4

/-- What a call of a tool over MCP reserves before the upstream is asked. -/
def tavilyMcpReservedCredits (tool : String) (options : JsonValue) : Int :=
  if tool = "tavily-search" then tavilySearchExpectedCredits options
  else if tool = "tavily-extract" then tavilyExtractExpectedCredits options
  else if tool = "tavily-crawl" then tavilyCrawlExpectedCredits options
  else if tool = "tavily-map" then tavilyMapExpectedCredits options
  else if tool = "tavily-research" then tavilyResearchMinCredits options
  else 1

/-- What a request of the HTTP interface reserves before the upstream is asked. -/
def tavilyHttpReservedCredits (upstreamPath : String) (options : JsonValue) : Int :=
  if upstreamPath = "/search" then tavilySearchExpectedCredits options
  else if upstreamPath = "/extract" then tavilyExtractExpectedCredits options
  else if upstreamPath = "/crawl" then tavilyCrawlExpectedCredits options
  else if upstreamPath = "/map" then tavilyMapExpectedCredits options
  else if upstreamPath = "/research" then tavilyResearchMinCredits options
  else 1

/-- A search costs one credit, or two when it is advanced. -/
theorem tavilySearchExpectedCredits_pos (options : JsonValue) :
    0 < tavilySearchExpectedCredits options := by
  unfold tavilySearchExpectedCredits
  split
  · decide
  · decide

theorem tavilyResearchMinCredits_pos (options : JsonValue) :
    0 < tavilyResearchMinCredits options := by
  unfold tavilyResearchMinCredits
  split
  · decide
  · decide

end TavilyHikari.Server
