/-
Module: TavilyHikari.Library.Base64
Purpose: Base64 in its two alphabets, with and without padding: no text is an encoding of
  different bytes, whichever of them it is read in.
Trusted boundary: human-reviewed spec
Main exports: Base64Config, Base64Config.encode, Base64Config.decode, encode_injective,
  decode_eq_some_iff
-/
import Mathlib.Data.List.Basic

namespace TavilyHikari.Library

/-- The bytes in groups of six bits; a last group is filled up with zeros. -/
def sextets : List UInt8 → List Nat
  | [] => []
  | [a] => [a.toNat / 4, a.toNat % 4 * 16]
  | [a, b] => [a.toNat / 4, a.toNat % 4 * 16 + b.toNat / 16, b.toNat % 16 * 4]
  | a :: b :: c :: rest =>
      a.toNat / 4 :: (a.toNat % 4 * 16 + b.toNat / 16) :: (b.toNat % 16 * 4 + c.toNat / 64) ::
        c.toNat % 64 :: sextets rest

/-- The bytes of groups of six bits, without the bits that are left. -/
def bytesOfSextets : List Nat → List UInt8
  | a :: b :: c :: d :: rest =>
      UInt8.ofNat (a * 4 + b / 16) :: UInt8.ofNat (b % 16 * 16 + c / 4) ::
        UInt8.ofNat (c % 4 * 64 + d) :: bytesOfSextets rest
  | [a, b, c] => [UInt8.ofNat (a * 4 + b / 16), UInt8.ofNat (b % 16 * 16 + c / 4)]
  | [a, b] => [UInt8.ofNat (a * 4 + b / 16)]
  | _ => []

theorem sextets_lt {bytes : List UInt8} : ∀ n ∈ sextets bytes, n < 64 := by
  fun_induction sextets bytes with
  | case1 => simp
  | case2 a =>
      have small := a.toNat_lt
      simp only [List.mem_cons, List.not_mem_nil, or_false]
      omega
  | case3 a b =>
      have small := a.toNat_lt
      have small' := b.toNat_lt
      simp only [List.mem_cons, List.not_mem_nil, or_false]
      omega
  | case4 a b c rest ih =>
      have small := a.toNat_lt
      have small' := b.toNat_lt
      have small'' := c.toNat_lt
      intro n member
      simp only [List.mem_cons] at member
      rcases member with rfl | rfl | rfl | rfl | later
      · omega
      · omega
      · omega
      · omega
      · exact ih n later

theorem ofNat_of_eq {n : Nat} {a : UInt8} (same : n = a.toNat) : UInt8.ofNat n = a := by
  rw [same, UInt8.ofNat_toNat]

/-- The bytes are read back from their groups. -/
theorem bytesOfSextets_sextets (bytes : List UInt8) : bytesOfSextets (sextets bytes) = bytes := by
  have first (a : UInt8) (n : Nat) (small : n < 256) :
      UInt8.ofNat (a.toNat / 4 * 4 + (a.toNat % 4 * 16 + n / 16) / 16) = a :=
    ofNat_of_eq (by omega)
  have second (a b : UInt8) (n : Nat) (small : n < 256) :
      UInt8.ofNat ((a.toNat % 4 * 16 + b.toNat / 16) % 16 * 16 +
        (b.toNat % 16 * 4 + n / 64) / 4) = b := by
    have bound := b.toNat_lt
    exact ofNat_of_eq (by omega)
  fun_induction sextets bytes with
  | case1 => rfl
  | case2 a =>
      have only := first a 0 (by decide)
      simp only [Nat.zero_div, Nat.add_zero] at only
      rw [bytesOfSextets, only]
  | case3 a b =>
      have last := second a b 0 (by decide)
      simp only [Nat.zero_div, Nat.add_zero] at last
      rw [bytesOfSextets, first a b.toNat b.toNat_lt, last]
  | case4 a b c rest ih =>
      have third : UInt8.ofNat ((b.toNat % 16 * 4 + c.toNat / 64) % 4 * 64 + c.toNat % 64) = c := by
        have bound := c.toNat_lt
        exact ofNat_of_eq (by omega)
      rw [bytesOfSextets, ih, first a b.toNat b.toNat_lt, second a b c.toNat c.toNat_lt, third]

/-! ### Alphabets -/

/-- Which alphabet is written, and whether the last group is padded. -/
structure Base64Config where
  urlSafe : Bool
  padded : Bool
deriving DecidableEq, Repr

def sextetChar (urlSafe : Bool) (n : Nat) : Char :=
  if n < 26 then Char.ofNat (65 + n)
  else if n < 52 then Char.ofNat (71 + n)
  else if n < 62 then Char.ofNat (n - 4)
  else if n = 62 then if urlSafe then '-' else '+'
  else if urlSafe then '_' else '/'

/-- The group that a character of either alphabet stands for. -/
def sextetValue (c : Char) : Option Nat :=
  if 65 ≤ c.toNat ∧ c.toNat ≤ 90 then some (c.toNat - 65)
  else if 97 ≤ c.toNat ∧ c.toNat ≤ 122 then some (c.toNat - 71)
  else if 48 ≤ c.toNat ∧ c.toNat ≤ 57 then some (c.toNat + 4)
  else if c = '+' ∨ c = '-' then some 62
  else if c = '/' ∨ c = '_' then some 63
  else none

theorem sextetValue_sextetChar {n : Nat} (small : n < 64) (urlSafe : Bool) :
    sextetValue (sextetChar urlSafe n) = some n := by
  have all : ∀ urlSafe, ∀ n < 64, sextetValue (sextetChar urlSafe n) = some n := by
    decide
  exact all urlSafe n small

namespace Base64Config

def padding (config : Base64Config) (count : Nat) : List Char :=
  if config.padded then List.replicate ((4 - count % 4) % 4) '=' else []

def encode (config : Base64Config) (bytes : List UInt8) : List Char :=
  (sextets bytes).map (sextetChar config.urlSafe) ++ config.padding (sextets bytes).length

/-- The characters of an encoding give its groups, in whichever alphabet it is. -/
theorem filterMap_encode (config : Base64Config) (bytes : List UInt8) :
    (config.encode bytes).filterMap sextetValue = sextets bytes := by
  have digits : ((sextets bytes).map (sextetChar config.urlSafe)).filterMap sextetValue =
      sextets bytes := by
    rw [List.filterMap_map]
    conv_rhs => rw [← List.filterMap_some (l := sextets bytes)]
    apply List.filterMap_congr
    intro n member
    exact sextetValue_sextetChar (sextets_lt n member) config.urlSafe
  have rest : (config.padding (sextets bytes).length).filterMap sextetValue = [] := by
    unfold padding
    split
    · rw [List.filterMap_replicate]
      rfl
    · rfl
  rw [encode, List.filterMap_append, digits, rest, List.append_nil]

/-- A text encodes the same bytes in every alphabet that it is an encoding in. -/
theorem encode_injective {config config' : Base64Config} {bytes bytes' : List UInt8}
    (same : config.encode bytes = config'.encode bytes') : bytes = bytes' := by
  have groups := congrArg (List.filterMap sextetValue) same
  rw [filterMap_encode, filterMap_encode] at groups
  rw [← bytesOfSextets_sextets bytes, groups, bytesOfSextets_sextets]

theorem encode_eq_nil_iff {config : Base64Config} {bytes : List UInt8} :
    config.encode bytes = [] ↔ bytes = [] := by
  have none : config.encode [] = [] := by
    obtain ⟨urlSafe, padded⟩ := config
    cases padded <;> rfl
  constructor
  · intro empty
    exact encode_injective (empty.trans none.symm)
  · rintro rfl
    exact none

/-- What an encoding is written with. -/
theorem mem_encode {config : Base64Config} {bytes : List UInt8} {c : Char}
    (member : c ∈ config.encode bytes) :
    c = '=' ∨ ∃ n < 64, c = sextetChar config.urlSafe n := by
  rcases List.mem_append.1 member with digit | pad
  · obtain ⟨n, among, rfl⟩ := List.mem_map.1 digit
    exact .inr ⟨n, sextets_lt n among, rfl⟩
  · unfold padding at pad
    split at pad
    · exact .inl (List.eq_of_mem_replicate pad)
    · cases pad

/-- Reading a text that is exactly an encoding. -/
def decode (config : Base64Config) (text : List Char) : Option (List UInt8) :=
  let bytes := bytesOfSextets (text.filterMap sextetValue)
  if config.encode bytes = text then some bytes else none

theorem decode_eq_some_iff {config : Base64Config} {text : List Char} {bytes : List UInt8} :
    config.decode text = some bytes ↔ text = config.encode bytes := by
  constructor
  · intro read
    unfold decode at read
    simp only at read
    split_ifs at read with same
    cases read
    exact same.symm
  · rintro rfl
    unfold decode
    simp only [filterMap_encode, bytesOfSextets_sextets, if_true]

end Base64Config

end TavilyHikari.Library
