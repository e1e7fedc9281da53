/-
Module: TavilyHikari.Library.Float64
Purpose: The binary64 numbers as far as reading them from text and rounding them up
  to an integer goes.
Trusted boundary: human-reviewed spec (round to nearest, ties to even; the grammar
  of `f64::from_str`; saturating `as i64`)
Main exports: Float64, Float64.round, Float64.ofInt, Float64.ceilToI64, parseF64
-/
import TavilyHikari.Library.Int64
import TavilyHikari.Library.Text

namespace TavilyHikari.Library

/-- A binary64 number. A finite one is its mantissa times two to the exponent, with
its sign. -/
inductive Float64 where
  | nan
  | infinite (negative : Bool)
  | finite (negative : Bool) (mantissa : Nat) (exponent : Int)
deriving DecidableEq, Repr

namespace Float64

/-- `num / den` to the nearest integer, ties to the even one. -/
def roundHalfEven (num den : Nat) : Nat :=
  let quotient := num / den
  let rest := num % den
  if 2 * rest < den then quotient
  else if 2 * rest > den then quotient + 1
  else if quotient % 2 = 0 then quotient
  else quotient + 1

/-- `num / den` in units of two to the exponent, as a fraction. -/
def inUnits (num den : Nat) (exponent : Int) : Nat × Nat :=
  if exponent ≥ 0 then (num, den * 2 ^ exponent.toNat)
  else (num * 2 ^ (-exponent).toNat, den)

/-- The nearest number to `num / den`. -/
def round (negative : Bool) (num den : Nat) : Float64 :=
  if num = 0 then .finite negative 0 0
  else
    -- The exponent at which the mantissa has 53 bits, unless that is too small.
    let guess : Int := (Nat.log2 num : Int) - Nat.log2 den - 52
    let (guessNum, guessDen) := inUnits num den guess
    let normal := if guessNum / guessDen < 2 ^ 52 then guess - 1 else guess
    let exponent := max normal (-1074)
    let (unitNum, unitDen) := inUnits num den exponent
    let mantissa := roundHalfEven unitNum unitDen
    let (mantissa, exponent) :=
      if mantissa = 2 ^ 53 then (2 ^ 52, exponent + 1) else (mantissa, exponent)
    if exponent > 971 then .infinite negative else .finite negative mantissa exponent

/-- `i64 as f64` and `u64 as f64`. -/
def ofInt (value : Int) : Float64 := round (value < 0) value.natAbs 1

/-- `ceil` of a finite number. -/
def ceilFinite (negative : Bool) (mantissa : Nat) (exponent : Int) : Int :=
  if exponent ≥ 0 then
    let value : Int := mantissa * 2 ^ exponent.toNat
    if negative then -value else value
  else
    let unit : Nat := 2 ^ (-exponent).toNat
    if negative then -((mantissa / unit : Nat) : Int)
    else ((mantissa + unit - 1) / unit : Nat)

/-- `x.ceil() as i64`. -/
def ceilToI64 : Float64 → Int
  | .nan => 0
  | .infinite negative => if negative then i64Min else i64Max
  | .finite negative mantissa exponent => saturate (ceilFinite negative mantissa exponent)

end Float64

/-- A run of digits at the start of a text, and what follows it. -/
def spanDigits (text : List Char) : List Char × List Char :=
  (text.takeWhile Char.isDigit, text.dropWhile Char.isDigit)

/-- The exponent part of a number, as the whole rest of a text. -/
def parseExponent (text : List Char) : Option Int :=
  match text with
  | [] => some 0
  | e :: rest =>
      if e.toLower = 'e' then
        match rest with
        | '-' :: digits => (digitsValue digits).map fun value => -(value : Int)
        | '+' :: digits => (digitsValue digits).map Int.ofNat
        | digits => (digitsValue digits).map Int.ofNat
      else none

/-- An unsigned number of `f64::from_str`. -/
def parseUnsignedF64 (negative : Bool) (text : List Char) : Option Float64 :=
  let lower := text.map Char.toLower
  if lower = "inf".toList ∨ lower = "infinity".toList then some (.infinite negative)
  else if lower = "nan".toList then some .nan
  else
    let (whole, rest) := spanDigits text
    let (fraction, rest) :=
      match rest with
      | '.' :: rest => spanDigits rest
      | rest => ([], rest)
    if whole.isEmpty && fraction.isEmpty then none
    else
      (parseExponent rest).map fun exponent : Int =>
        let digits := Nat.ofDigitChars 10 (whole ++ fraction) 0
        let power := exponent - fraction.length
        if power ≥ 0 then .round negative (digits * 10 ^ power.toNat) 1
        else .round negative digits (10 ^ (-power).toNat)

/-- `str::parse::<f64>().ok()`. -/
def parseF64 (raw : String) : Option Float64 :=
  match raw.toList with
  | '-' :: rest => parseUnsignedF64 true rest
  | '+' :: rest => parseUnsignedF64 false rest
  | rest => parseUnsignedF64 false rest

example : (parseF64 "2.5e1").map Float64.ceilToI64 = some 25 := by decide

end TavilyHikari.Library
