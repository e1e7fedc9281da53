/-
Module: TavilyHikari.Library.PercentEncoding
Purpose: Percent-encoding of user info, and decoding that takes what is no escape as it stands:
  what it reads of an encoded text, and which texts it leaves as they are.
Trusted boundary: human-reviewed spec (`userinfo percent-encode set` of the URL standard)
Main exports: percentDecodeBytes, percentDecodeOnceLossy, EscapeFree, PercentEncodes,
  userinfoEncode, percentDecodeOnceLossy_eq_self_iff, percentDecodeOnceLossy_of_encodes
-/
import TavilyHikari.Library.Utf8

namespace TavilyHikari.Library

/-! ### Decoding -/

def decodeHexNibble (value : UInt8) : Option UInt8 :=
  if 0x30 ≤ value && value ≤ 0x39 then some (value - 0x30)
  else if 0x61 ≤ value && value ≤ 0x66 then some (value - 0x61 + 10)
  else if 0x41 ≤ value && value ≤ 0x46 then some (value - 0x41 + 10)
  else none

/-- Every `%` with two hexadecimal digits after it becomes a byte, from the left. -/
def percentDecodeBytes : List UInt8 → List UInt8
  | first :: second :: third :: rest =>
      if first = 0x25 then
        match decodeHexNibble second, decodeHexNibble third with
        | some hi, some lo => (hi <<< 4 ||| lo) :: percentDecodeBytes rest
        | _, _ => first :: percentDecodeBytes (second :: third :: rest)
      else first :: percentDecodeBytes (second :: third :: rest)
  | bytes => bytes

def percentDecodeOnceLossy (input : String) : String :=
  fromUtf8Lossy ⟨(percentDecodeBytes input.toUTF8.data.toList).toArray⟩

theorem decodeHexNibble_ascii {value nibble : UInt8} (digit : decodeHexNibble value = some nibble) :
    isAsciiByte value = true := by
  apply decide_eq_true
  unfold decodeHexNibble at digit
  simp only [UInt8.le_iff_toNat_le, UInt8.reduceToNat, Bool.and_eq_true, decide_eq_true_eq] at digit
  split_ifs at digit <;> omega

theorem percentDecodeBytes_cons {first : UInt8} (other : first ≠ 0x25) (rest : List UInt8) :
    percentDecodeBytes (first :: rest) = first :: percentDecodeBytes rest := by
  rcases rest with _ | ⟨second, _ | ⟨third, rest⟩⟩
  · rfl
  · rfl
  · rw [percentDecodeBytes, if_neg other]

theorem percentDecodeBytes_escape {second third hi lo : UInt8}
    (left : decodeHexNibble second = some hi) (right : decodeHexNibble third = some lo)
    (rest : List UInt8) : percentDecodeBytes (0x25 :: second :: third :: rest) =
      (hi <<< 4 ||| lo) :: percentDecodeBytes rest := by
  rw [percentDecodeBytes, if_pos rfl, left, right]

/-! ### Texts that decoding leaves as they are -/

/-- A `%` before two hexadecimal digits. -/
def HasEscape (bytes : List UInt8) : Prop :=
  ∃ before second third after, bytes = before ++ 0x25 :: second :: third :: after ∧
    (decodeHexNibble second).isSome ∧ (decodeHexNibble third).isSome

def EscapeFree (text : String) : Prop := ¬HasEscape text.toUTF8.data.toList

theorem hasEscape_cons {first : UInt8} {rest : List UInt8} :
    HasEscape (first :: rest) ↔
      (∃ second third after, first = 0x25 ∧ rest = second :: third :: after ∧
        (decodeHexNibble second).isSome ∧ (decodeHexNibble third).isSome) ∨ HasEscape rest := by
  constructor
  · rintro ⟨before, second, third, after, same, digits⟩
    cases before with
    | nil =>
        obtain ⟨rfl, rfl⟩ := List.cons.inj same
        exact .inl ⟨second, third, after, rfl, rfl, digits⟩
    | cons _ before =>
        obtain ⟨rfl, rfl⟩ := List.cons.inj same
        exact .inr ⟨before, second, third, after, rfl, digits⟩
  · rintro (⟨second, third, after, rfl, rfl, digits⟩ | ⟨before, second, third, after, rfl, digits⟩)
    · exact ⟨[], second, third, after, rfl, digits⟩
    · exact ⟨first :: before, second, third, after, rfl, digits⟩

/-- What decoding does to a text: nothing, or it has fewer bytes of ASCII. -/
theorem percentDecodeBytes_cases (bytes : List UInt8) :
    (¬HasEscape bytes ∧ percentDecodeBytes bytes = bytes) ∨
      (HasEscape bytes ∧
        (percentDecodeBytes bytes).countP isAsciiByte < bytes.countP isAsciiByte) := by
  have step (first : UInt8) (rest : List UInt8)
      (plain : ¬∃ second third after, first = 0x25 ∧ rest = second :: third :: after ∧
        (decodeHexNibble second).isSome ∧ (decodeHexNibble third).isSome)
      (ih : (¬HasEscape rest ∧ percentDecodeBytes rest = rest) ∨ (HasEscape rest ∧
        (percentDecodeBytes rest).countP isAsciiByte < rest.countP isAsciiByte)) :
      (¬HasEscape (first :: rest) ∧ first :: percentDecodeBytes rest = first :: rest) ∨
        (HasEscape (first :: rest) ∧ (first :: percentDecodeBytes rest).countP isAsciiByte <
          (first :: rest).countP isAsciiByte) := by
    rw [hasEscape_cons, or_iff_right plain]
    rcases ih with ⟨none, same⟩ | ⟨some, fewer⟩
    · exact .inl ⟨none, by rw [same]⟩
    · refine .inr ⟨some, ?_⟩
      rw [List.countP_cons, List.countP_cons]
      omega
  fun_induction percentDecodeBytes bytes with
  | case1 second third rest hi lo right left ih =>
      have escape : HasEscape (0x25 :: second :: third :: rest) :=
        ⟨[], second, third, rest, rfl, by rw [left]; rfl, by rw [right]; rfl⟩
      refine .inr ⟨escape, ?_⟩
      have fewer : (percentDecodeBytes rest).countP isAsciiByte ≤ rest.countP isAsciiByte := by
        rcases ih with ⟨-, same⟩ | ⟨-, fewer⟩
        · rw [same]
        · exact Nat.le_of_lt fewer
      have percent : isAsciiByte 0x25 = true := by decide
      simp only [List.countP_cons, percent, decodeHexNibble_ascii left, decodeHexNibble_ascii right,
        if_true]
      split <;> omega
  | case2 second third rest plain ih =>
      apply step _ _ _ ih
      rintro ⟨hi, lo, after, -, same, left, right⟩
      obtain ⟨rfl, more⟩ := List.cons.inj same
      obtain ⟨rfl, -⟩ := List.cons.inj more
      obtain ⟨x, first⟩ := Option.isSome_iff_exists.1 left
      obtain ⟨y, second⟩ := Option.isSome_iff_exists.1 right
      exact plain x y first second
  | case3 first second third rest other ih =>
      apply step _ _ _ ih
      rintro ⟨_, _, _, same, -⟩
      exact other same
  | case4 bytes short =>
      refine .inl ⟨?_, rfl⟩
      rintro ⟨before, second, third, after, same, -⟩
      rcases before with _ | ⟨x, _ | ⟨y, _ | ⟨z, before⟩⟩⟩
      · exact short _ _ _ _ same
      · exact short _ _ _ _ same
      · exact short _ _ _ _ same
      · exact short _ _ _ _ same

theorem fromUtf8Lossy_bytes (s : String) : fromUtf8Lossy ⟨s.toUTF8.data.toList.toArray⟩ = s := by
  rw [Array.toArray_toList]
  exact fromUtf8Lossy_toUTF8 s

/-- Decoding leaves exactly the texts without an escape as they are. -/
theorem percentDecodeOnceLossy_eq_self_iff {text : String} :
    percentDecodeOnceLossy text = text ↔ EscapeFree text := by
  rcases percentDecodeBytes_cases text.toUTF8.data.toList with ⟨none, same⟩ | ⟨some, fewer⟩
  · refine iff_of_true ?_ none
    rw [percentDecodeOnceLossy, same, fromUtf8Lossy_bytes]
  · refine iff_of_false ?_ (fun free => free some)
    intro kept
    have counted : text.toList.countP isAsciiChar =
        (percentDecodeBytes text.toUTF8.data.toList).countP isAsciiByte := by
      conv_lhs => rw [← kept]
      exact countP_fromUtf8Lossy _
    rw [← countP_toUTF8] at counted
    omega

/-! ### Encoding -/

/-- The characters of a user info that are not encoded, among them `%`. -/
def keptInUserinfo (c : Char) : Bool :=
  0x20 < c.toNat && c.toNat < 0x7F &&
    c.toNat ∉ [0x22, 0x23, 0x2F, 0x3A, 0x3B, 0x3C, 0x3D, 0x3E, 0x3F, 0x40, 0x5B, 0x5C, 0x5D, 0x5E,
      0x60, 0x7B, 0x7C, 0x7D]

def hexDigit (nibble : UInt8) : Char :=
  if nibble < 10 then Char.ofNat (48 + nibble.toNat) else Char.ofNat (55 + nibble.toNat)

def percentEncodeByte (byte : UInt8) : List Char :=
  ['%', hexDigit (byte >>> 4), hexDigit (byte &&& 0x0F)]

/-- How the URL standard writes a text as user info. -/
def userinfoEncode (text : String) : String :=
  String.ofList (text.toList.flatMap fun c =>
    if keptInUserinfo c then [c] else (String.utf8EncodeChar c).flatMap percentEncodeByte)

/-- The characters encode the bytes: every byte as an escape, or, where it is one that is kept
and no `%`, as itself. -/
inductive PercentEncodes : List UInt8 → List Char → Prop where
  | nil : PercentEncodes [] []
  | literal {bytes : List UInt8} {chars : List Char} (c : Char) (kept : keptInUserinfo c = true)
      (plain : c ≠ '%') (rest : PercentEncodes bytes chars) :
      PercentEncodes (UInt8.ofNat c.toNat :: bytes) (c :: chars)
  | escape {bytes : List UInt8} {chars : List Char} (second third : Char) (hi lo : UInt8)
      (ascii : isAsciiChar second = true ∧ isAsciiChar third = true)
      (left : decodeHexNibble (UInt8.ofNat second.toNat) = some hi)
      (right : decodeHexNibble (UInt8.ofNat third.toNat) = some lo)
      (rest : PercentEncodes bytes chars) :
      PercentEncodes ((hi <<< 4 ||| lo) :: bytes) ('%' :: second :: third :: chars)

theorem utf8EncodeChar_ascii {c : Char} (ascii : isAsciiChar c = true) :
    String.utf8EncodeChar c = [UInt8.ofNat c.toNat] := by
  have low : c.toNat < 128 := of_decide_eq_true ascii
  rcases utf8EncodeChar_cases c with ⟨-, one⟩ | ⟨beyond, -⟩
  · exact one
  · omega

theorem keptInUserinfo_ascii {c : Char} (kept : keptInUserinfo c = true) :
    isAsciiChar c = true := by
  simp only [keptInUserinfo, Bool.and_eq_true, decide_eq_true_eq] at kept
  exact decide_eq_true (by omega)

theorem ofNat_ne_percent {c : Char} (ascii : isAsciiChar c = true) (plain : c ≠ '%') :
    UInt8.ofNat c.toNat ≠ 0x25 := by
  have low : c.toNat < 128 := of_decide_eq_true ascii
  intro same
  have value := congrArg UInt8.toNat same
  rw [UInt8.toNat_ofNat', Nat.mod_eq_of_lt (by omega)] at value
  apply plain
  rw [← Char.ofNat_toNat c, value]
  rfl

/-- Decoding reads the bytes that are encoded. -/
theorem PercentEncodes.decode {bytes : List UInt8} {chars : List Char}
    (encodes : PercentEncodes bytes chars) :
    percentDecodeBytes (chars.flatMap String.utf8EncodeChar) = bytes := by
  induction encodes with
  | nil => rfl
  | literal c kept plain rest ih =>
      have ascii := keptInUserinfo_ascii kept
      rw [List.flatMap_cons, utf8EncodeChar_ascii ascii, List.singleton_append,
        percentDecodeBytes_cons (ofNat_ne_percent ascii plain), ih]
  | escape second third hi lo ascii left right rest ih =>
      have percent : String.utf8EncodeChar '%' = [0x25] := by decide
      rw [List.flatMap_cons, List.flatMap_cons, List.flatMap_cons, percent,
        utf8EncodeChar_ascii ascii.1, utf8EncodeChar_ascii ascii.2, List.singleton_append,
        List.singleton_append, List.singleton_append, percentDecodeBytes_escape left right, ih]

/-- An encoded text is decoded to the text. -/
theorem percentDecodeOnceLossy_of_encodes {text written : String}
    (encodes : PercentEncodes text.toUTF8.data.toList written.toList) :
    percentDecodeOnceLossy written = text := by
  rw [percentDecodeOnceLossy, bytes_toUTF8, encodes.decode, fromUtf8Lossy_bytes]

theorem PercentEncodes.kept {bytes : List UInt8} {chars : List Char}
    (encodes : PercentEncodes bytes chars) : ∀ c ∈ chars, keptInUserinfo c = true := by
  have digit {c : Char} {nibble : UInt8} (ascii : isAsciiChar c = true)
      (read : decodeHexNibble (UInt8.ofNat c.toNat) = some nibble) : keptInUserinfo c = true := by
    have all : ∀ n < 128, (decodeHexNibble (UInt8.ofNat n)).isSome = true →
        keptInUserinfo (Char.ofNat n) = true := by
      decide
    have kept := all c.toNat (of_decide_eq_true ascii) (by rw [read]; rfl)
    rwa [Char.ofNat_toNat] at kept
  induction encodes with
  | nil => exact fun c none => absurd none List.not_mem_nil
  | literal c kept plain rest ih => exact List.forall_mem_cons.2 ⟨kept, ih⟩
  | escape second third hi lo ascii left right rest ih =>
      rw [List.forall_mem_cons, List.forall_mem_cons, List.forall_mem_cons]
      exact ⟨by decide, digit ascii.1 left, digit ascii.2 right, ih⟩

/-- A text that is encoded already is written as it is. -/
theorem userinfoEncode_of_encodes {bytes : List UInt8} {written : String}
    (encodes : PercentEncodes bytes written.toList) : userinfoEncode written = written := by
  have same : (written.toList.flatMap fun c =>
      if keptInUserinfo c then [c] else (String.utf8EncodeChar c).flatMap percentEncodeByte) =
        written.toList.flatMap fun c => [c] :=
    List.flatMap_congr fun c member => by rw [if_pos (encodes.kept c member)]
  rw [userinfoEncode, same, List.flatMap_singleton', String.ofList_toList]

/-- Bytes that are escaped all. -/
theorem percentEncodes_bytes {bytes : List UInt8} {chars : List Char}
    (rest : PercentEncodes bytes chars) (escaped : List UInt8) :
    PercentEncodes (escaped ++ bytes) (escaped.flatMap percentEncodeByte ++ chars) := by
  have nibbles : ∀ n < 256, isAsciiChar (hexDigit (UInt8.ofNat n >>> 4)) = true ∧
      isAsciiChar (hexDigit (UInt8.ofNat n &&& 0x0F)) = true ∧
      decodeHexNibble (UInt8.ofNat (hexDigit (UInt8.ofNat n >>> 4)).toNat) =
        some (UInt8.ofNat n >>> 4) ∧
      decodeHexNibble (UInt8.ofNat (hexDigit (UInt8.ofNat n &&& 0x0F)).toNat) =
        some (UInt8.ofNat n &&& 0x0F) ∧
      (UInt8.ofNat n >>> 4) <<< 4 ||| (UInt8.ofNat n &&& 0x0F) = UInt8.ofNat n := by
    decide +kernel
  induction escaped with
  | nil => exact rest
  | cons byte escaped ih =>
      obtain ⟨first, second, left, right, whole⟩ := nibbles byte.toNat byte.toNat_lt
      rw [UInt8.ofNat_toNat] at first second left right whole
      have more := PercentEncodes.escape _ _ _ _ ⟨first, second⟩ left right ih
      rw [whole] at more
      exact more

/-- User info without a `%` is encoded as the standard says. -/
theorem percentEncodes_userinfoEncode {text : String} (free : '%' ∉ text.toList) :
    PercentEncodes text.toUTF8.data.toList (userinfoEncode text).toList := by
  rw [bytes_toUTF8, userinfoEncode, String.toList_ofList]
  generalize text.toList = chars at free
  induction chars with
  | nil => exact PercentEncodes.nil
  | cons c chars ih =>
      rw [List.mem_cons, not_or] at free
      rw [List.flatMap_cons, List.flatMap_cons]
      by_cases kept : keptInUserinfo c = true
      · rw [if_pos kept, utf8EncodeChar_ascii (keptInUserinfo_ascii kept)]
        exact PercentEncodes.literal c kept (Ne.symm free.1) (ih free.2)
      · rw [if_neg kept]
        exact percentEncodes_bytes (ih free.2) _

theorem escapeFree_of_free {text : String} (free : '%' ∉ text.toList) : EscapeFree text := by
  rintro ⟨before, second, third, after, same, -⟩
  have member : (0x25 : UInt8) ∈ text.toUTF8.data.toList := by
    rw [same]
    exact List.mem_append_right _ List.mem_cons_self
  rw [bytes_toUTF8] at member
  obtain ⟨c, among, byte⟩ := List.mem_flatMap.1 member
  rcases utf8EncodeChar_cases c with ⟨ascii, one⟩ | ⟨-, beyond⟩
  · rw [one, List.mem_singleton] at byte
    refine ofNat_ne_percent (decide_eq_true ascii) ?_ byte.symm
    rintro rfl
    exact free among
  · exact absurd (beyond _ byte) (by decide)

end TavilyHikari.Library
