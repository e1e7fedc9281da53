/-
Module: TavilyHikari.Library.Utf8
Purpose: Bytes read as UTF-8 where they may be broken, as the standard library of Rust reads
  them: every longest broken piece becomes one replacement character.
Trusted boundary: human-reviewed spec (`Utf8Chunks`)
Main exports: fromUtf8Lossy, fromUtf8Lossy_toUTF8, bytes_toUTF8, countP_toUTF8,
  countP_fromUtf8Lossy
-/
import Mathlib.Data.List.Forall2
import TavilyHikari.Library.Json

namespace TavilyHikari.Library

def isContinuation (byte : UInt8) : Bool := 128 ≤ byte && byte ≤ 191

/-- What the second byte after this one may be, for a character of three or of four bytes. -/
def secondByte (first second : UInt8) : Bool :=
  if first = 0xE0 then 0xA0 ≤ second && second ≤ 0xBF
  else if first = 0xED then 0x80 ≤ second && second ≤ 0x9F
  else if first = 0xF0 then 0x90 ≤ second && second ≤ 0xBF
  else if first = 0xF4 then 0x80 ≤ second && second ≤ 0x8F
  else isContinuation second

/-- The tests of the bytes after the first one, by `utf8_char_width`. -/
def continuationTests (first : UInt8) : Option (List (UInt8 → Bool)) :=
  if first < 0x80 then some []
  else if 0xC2 ≤ first && first ≤ 0xDF then some [isContinuation]
  else if 0xE0 ≤ first && first ≤ 0xEF then some [secondByte first, isContinuation]
  else if 0xF0 ≤ first && first ≤ 0xF4 then
    some [secondByte first, isContinuation, isContinuation]
  else none

/-- The bytes that pass their tests, up to the first one that does not. -/
def takeTested : List (UInt8 → Bool) → List UInt8 → List UInt8
  | test :: tests, byte :: bytes =>
      if test byte then byte :: takeTested tests bytes else []
  | _, _ => []

/-- The number of a character with this first byte and these bytes after it. -/
def codePoint (first : UInt8) (rest : List UInt8) : Nat :=
  let lead :=
    match rest.length with
    | 0 => first.toNat
    | 1 => first.toNat % 32
    | 2 => first.toNat % 16
    | _ => first.toNat % 8
  rest.foldl (fun value byte => value * 64 + byte.toNat % 64) lead

/-- The first character of the bytes, or the replacement of a broken piece, and how many bytes
follow its first one. -/
def firstChar (first : UInt8) (bytes : List UInt8) : Char × Nat :=
  match continuationTests first with
  | none => ('\uFFFD', 0)
  | some tests =>
      let rest := takeTested tests bytes
      if rest.length = tests.length then (Char.ofNat (codePoint first rest), rest.length)
      else ('\uFFFD', rest.length)

def decodeLossy : List UInt8 → List Char
  | [] => []
  | first :: bytes =>
      let (c, count) := firstChar first bytes
      c :: decodeLossy (bytes.drop count)
termination_by bytes => bytes.length
decreasing_by
  simp only [List.length_drop, List.length_cons]
  omega

/-- `String::from_utf8_lossy`. -/
def fromUtf8Lossy (body : ByteArray) : String :=
  match String.fromUTF8? body with
  | some text => text
  | none => String.ofList (decodeLossy body.toList)

@[simp] theorem fromUtf8Lossy_toUTF8 (s : String) : fromUtf8Lossy s.toUTF8 = s := by
  rw [fromUtf8Lossy, fromUTF8?_toUTF8]

/-! ### ASCII in texts and in bytes -/

def isAsciiByte (byte : UInt8) : Bool := byte.toNat < 128

def isAsciiChar (c : Char) : Bool := c.toNat < 128

theorem bytes_toUTF8 (s : String) : s.toUTF8.data.toList = s.toList.flatMap String.utf8EncodeChar := by
  rw [String.toUTF8_eq_toByteArray, ← String.utf8Encode_toList, List.utf8Encode,
    List.toList_data_toByteArray]

/-- A character of ASCII is one byte, any other is bytes beyond ASCII. -/
theorem utf8EncodeChar_cases (c : Char) :
    (c.toNat < 128 ∧ String.utf8EncodeChar c = [UInt8.ofNat c.toNat]) ∨
      (128 ≤ c.toNat ∧ ∀ b ∈ String.utf8EncodeChar c, 128 ≤ b.toNat) := by
  have lead (n m k : Nat) (bound : 128 ≤ k) (small : n % m + k < 256) :
      128 ≤ (UInt8.ofNat (n % m + k)).toNat := by
    rw [UInt8.toNat_ofNat', Nat.mod_eq_of_lt small]
    omega
  by_cases ascii : c.val.toNat ≤ 127
  · refine .inl ⟨Nat.lt_succ_of_le ascii, ?_⟩
    unfold String.utf8EncodeChar
    simp only [ascii, if_true]
    rfl
  · have beyond : 128 ≤ c.toNat := by
      have value : c.toNat = c.val.toNat := rfl
      omega
    refine .inr ⟨beyond, ?_⟩
    unfold String.utf8EncodeChar
    simp only [ascii, if_false]
    split_ifs
    · simp only [List.forall_mem_cons]
      exact ⟨lead _ _ _ (by decide) (by omega), lead _ _ _ (by decide) (by omega), nofun⟩
    · simp only [List.forall_mem_cons]
      exact ⟨lead _ _ _ (by decide) (by omega), lead _ _ _ (by decide) (by omega),
        lead _ _ _ (by decide) (by omega), nofun⟩
    · simp only [List.forall_mem_cons]
      exact ⟨lead _ _ _ (by decide) (by omega), lead _ _ _ (by decide) (by omega),
        lead _ _ _ (by decide) (by omega), lead _ _ _ (by decide) (by omega), nofun⟩

theorem countP_toUTF8 (s : String) :
    s.toUTF8.data.toList.countP isAsciiByte = s.toList.countP isAsciiChar := by
  rw [bytes_toUTF8]
  induction s.toList with
  | nil => rfl
  | cons c l ih =>
      rw [List.flatMap_cons, List.countP_append, ih, List.countP_cons]
      rcases utf8EncodeChar_cases c with ⟨ascii, one⟩ | ⟨beyond, bytes⟩
      · have byte : isAsciiByte (UInt8.ofNat c.toNat) = true := by
          rw [isAsciiByte, UInt8.toNat_ofNat', Nat.mod_eq_of_lt (by omega)]
          exact decide_eq_true ascii
        have char : isAsciiChar c = true := decide_eq_true ascii
        rw [one, List.countP_singleton, byte, char]
        exact Nat.add_comm _ _
      · have char : isAsciiChar c = false := decide_eq_false (by omega)
        have none : (String.utf8EncodeChar c).countP isAsciiByte = 0 := by
          rw [List.countP_eq_zero]
          intro b member ascii
          have low : b.toNat < 128 := of_decide_eq_true ascii
          have high := bytes b member
          omega
        rw [none, char]
        simp
/-! ### ASCII in bytes that are broken -/

theorem bytes_of_takeTested {tests : List (UInt8 → Bool)} {bytes : List UInt8}
    (all : (takeTested tests bytes).length = tests.length) :
    List.Forall₂ (fun test byte => test byte = true) tests (takeTested tests bytes) := by
  induction tests generalizing bytes with
  | nil => exact List.Forall₂.nil
  | cons test tests ih =>
      cases bytes with
      | nil => cases all
      | cons byte bytes =>
          unfold takeTested at all ⊢
          by_cases passes : test byte = true
          · rw [if_pos passes] at all ⊢
            exact List.Forall₂.cons passes (ih (Nat.succ.inj all))
          · rw [if_neg passes] at all
            cases all

theorem prefix_takeTested (tests : List (UInt8 → Bool)) (bytes : List UInt8) :
    takeTested tests bytes <+: bytes := by
  induction tests generalizing bytes with
  | nil => exact List.nil_prefix
  | cons test tests ih =>
      cases bytes with
      | nil => exact List.nil_prefix
      | cons byte bytes =>
          unfold takeTested
          split
          · exact List.cons_prefix_cons.2 ⟨rfl, ih bytes⟩
          · exact List.nil_prefix

theorem mem_takeTested {tests : List (UInt8 → Bool)} {bytes : List UInt8} {byte : UInt8}
    (member : byte ∈ takeTested tests bytes) : ∃ test ∈ tests, test byte = true := by
  induction tests generalizing bytes with
  | nil => cases member
  | cons test tests ih =>
      cases bytes with
      | nil => cases member
      | cons first bytes =>
          unfold takeTested at member
          split at member
          · rename_i passes
            rcases List.mem_cons.1 member with rfl | later
            · exact ⟨test, List.mem_cons_self, passes⟩
            · obtain ⟨other, among, passes⟩ := ih later
              exact ⟨other, List.mem_cons_of_mem _ among, passes⟩
          · cases member

theorem isContinuation_iff {byte : UInt8} :
    isContinuation byte = true ↔ 128 ≤ byte.toNat ∧ byte.toNat ≤ 191 := by
  simp [isContinuation, UInt8.le_iff_toNat_le]

theorem secondByte_spec {first second : UInt8} (passes : secondByte first second = true) :
    128 ≤ second.toNat ∧ second.toNat ≤ 191 ∧ (first.toNat = 224 → 160 ≤ second.toNat) ∧
      (first.toNat = 237 → second.toNat ≤ 159) ∧ (first.toNat = 240 → 144 ≤ second.toNat) ∧
      (first.toNat = 244 → second.toNat ≤ 143) := by
  unfold secondByte at passes
  simp only [← UInt8.toNat_inj, UInt8.reduceToNat] at passes
  split_ifs at passes <;>
    simp only [isContinuation, Bool.and_eq_true, decide_eq_true_eq, UInt8.le_iff_toNat_le,
      UInt8.reduceToNat] at passes <;> omega

theorem isAsciiChar_ofNat {n : Nat} (valid : n < 55296 ∨ (57343 < n ∧ n < 1114112)) :
    isAsciiChar (Char.ofNat n) = decide (n < 128) := by
  have same : (Char.ofNat n).toNat = n := by
    have known : n.isValidChar := valid
    unfold Char.ofNat
    rw [dif_pos known]
    rfl
  rw [isAsciiChar, same]

/-- The four kinds of first bytes. -/
theorem continuationTests_cases {first : UInt8} {tests : List (UInt8 → Bool)}
    (known : continuationTests first = some tests) :
    (first.toNat < 128 ∧ tests = []) ∨
      (194 ≤ first.toNat ∧ first.toNat ≤ 223 ∧ tests = [isContinuation]) ∨
      (224 ≤ first.toNat ∧ first.toNat ≤ 239 ∧ tests = [secondByte first, isContinuation]) ∨
      (240 ≤ first.toNat ∧ first.toNat ≤ 244 ∧
        tests = [secondByte first, isContinuation, isContinuation]) := by
  unfold continuationTests at known
  simp only [UInt8.lt_iff_toNat_lt, UInt8.le_iff_toNat_le, UInt8.reduceToNat, Bool.and_eq_true,
    decide_eq_true_eq] at known
  split_ifs at known with one two three four <;> cases known
  · exact .inl ⟨one, rfl⟩
  · exact .inr (.inl ⟨two.1, two.2, rfl⟩)
  · exact .inr (.inr (.inl ⟨three.1, three.2, rfl⟩))
  · exact .inr (.inr (.inr ⟨four.1, four.2, rfl⟩))

/-- The tested bytes are beyond ASCII. -/
theorem countP_takeTested {first : UInt8} {tests : List (UInt8 → Bool)}
    (known : continuationTests first = some tests) (bytes : List UInt8) :
    (takeTested tests bytes).countP isAsciiByte = 0 := by
  rw [List.countP_eq_zero]
  intro byte member ascii
  have low : byte.toNat < 128 := of_decide_eq_true ascii
  obtain ⟨test, among, passes⟩ := mem_takeTested member
  have high : 128 ≤ byte.toNat := by
    rcases continuationTests_cases known with ⟨-, rfl⟩ | ⟨-, -, rfl⟩ | ⟨-, -, rfl⟩ | ⟨-, -, rfl⟩
    · cases among
    · simp only [List.mem_cons, List.not_mem_nil, or_false] at among
      subst among
      exact (isContinuation_iff.1 passes).1
    · simp only [List.mem_cons, List.not_mem_nil, or_false] at among
      rcases among with rfl | rfl
      · exact (secondByte_spec passes).1
      · exact (isContinuation_iff.1 passes).1
    · simp only [List.mem_cons, List.not_mem_nil, or_false] at among
      rcases among with rfl | rfl | rfl
      · exact (secondByte_spec passes).1
      · exact (isContinuation_iff.1 passes).1
      · exact (isContinuation_iff.1 passes).1
  omega

/-- A complete character is ASCII as its first byte is. -/
theorem isAsciiChar_codePoint {first : UInt8} {tests : List (UInt8 → Bool)} {rest : List UInt8}
    (known : continuationTests first = some tests)
    (tested : List.Forall₂ (fun test byte => test byte = true) tests rest) :
    isAsciiChar (Char.ofNat (codePoint first rest)) = isAsciiByte first := by
  rcases continuationTests_cases known with
    ⟨low, rfl⟩ | ⟨low, high, rfl⟩ | ⟨low, high, rfl⟩ | ⟨low, high, rfl⟩
  · cases tested
    have value : codePoint first [] = first.toNat := rfl
    rw [isAsciiChar_ofNat (by omega), value, isAsciiByte]
  · obtain ⟨b, rest, one, more, rfl⟩ := List.forall₂_cons_left_iff.1 tested
    cases more
    have value : codePoint first [b] = first.toNat % 32 * 64 + b.toNat % 64 := rfl
    rw [isAsciiChar_ofNat (by omega), value, isAsciiByte, decide_eq_decide]
    omega
  · obtain ⟨b, _, one, more, rfl⟩ := List.forall₂_cons_left_iff.1 tested
    obtain ⟨c, _, two, last, rfl⟩ := List.forall₂_cons_left_iff.1 more
    cases last
    have value : codePoint first [b, c] =
        (first.toNat % 16 * 64 + b.toNat % 64) * 64 + c.toNat % 64 := rfl
    have second := secondByte_spec one
    rw [isAsciiChar_ofNat (by omega), value, isAsciiByte, decide_eq_decide]
    omega
  · obtain ⟨b, _, one, more, rfl⟩ := List.forall₂_cons_left_iff.1 tested
    obtain ⟨c, _, two, later, rfl⟩ := List.forall₂_cons_left_iff.1 more
    obtain ⟨d, _, three, last, rfl⟩ := List.forall₂_cons_left_iff.1 later
    cases last
    have value : codePoint first [b, c, d] =
        ((first.toNat % 8 * 64 + b.toNat % 64) * 64 + c.toNat % 64) * 64 + d.toNat % 64 := rfl
    have second := secondByte_spec one
    rw [isAsciiChar_ofNat (by omega), value, isAsciiByte, decide_eq_decide]
    omega

/-- The first byte decides whether the first character is ASCII, and a character of several bytes
has none of ASCII among them. -/
theorem firstChar_ascii (first : UInt8) (bytes : List UInt8) :
    isAsciiChar (firstChar first bytes).1 = isAsciiByte first ∧
      (bytes.take (firstChar first bytes).2).countP isAsciiByte = 0 := by
  have replaced : isAsciiChar '\uFFFD' = false := by decide
  unfold firstChar
  cases known : continuationTests first with
  | none =>
      have beyond : isAsciiByte first = false := by
        rw [isAsciiByte, decide_eq_false_iff_not]
        intro ascii
        unfold continuationTests at known
        rw [if_pos (show first < 0x80 from UInt8.lt_iff_toNat_lt.2 ascii)] at known
        cases known
      exact ⟨by rw [replaced, beyond], rfl⟩
  | some tests =>
      have taken : bytes.take (takeTested tests bytes).length = takeTested tests bytes :=
        (List.prefix_iff_eq_take.1 (prefix_takeTested tests bytes)).symm
      have beyond : (bytes.take (takeTested tests bytes).length).countP isAsciiByte = 0 := by
        rw [taken, countP_takeTested known]
      by_cases all : (takeTested tests bytes).length = tests.length
      · simp only [if_pos all]
        exact ⟨isAsciiChar_codePoint known (bytes_of_takeTested all), beyond⟩
      · simp only [if_neg all]
        refine ⟨?_, beyond⟩
        -- A first byte of ASCII has nothing to be tested after it.
        rw [replaced]
        symm
        rw [isAsciiByte, decide_eq_false_iff_not]
        intro ascii
        rcases continuationTests_cases known with ⟨-, rfl⟩ | ⟨low, -⟩ | ⟨low, -⟩ | ⟨low, -⟩
        · exact all (by simp only [takeTested, List.length_nil])
        · omega
        · omega
        · omega

/-- As many characters of ASCII as there are bytes of it. -/
theorem countP_decodeLossy (bytes : List UInt8) :
    (decodeLossy bytes).countP isAsciiChar = bytes.countP isAsciiByte := by
  fun_induction decodeLossy bytes with
  | case1 => rfl
  | case2 first bytes c count known ih =>
      obtain ⟨same, none⟩ := firstChar_ascii first bytes
      rw [known] at same none
      have split := congrArg (List.countP isAsciiByte) (List.take_append_drop count bytes)
      rw [List.countP_append, none, Nat.zero_add] at split
      rw [List.countP_cons, List.countP_cons, ih, split, same]

theorem byteArray_toList (body : ByteArray) : body.toList = body.data.toList := by
  have loop (i : Nat) (read : List UInt8) :
      ByteArray.toList.loop body i read = read.reverse ++ body.data.toList.drop i := by
    fun_induction ByteArray.toList.loop body i read with
    | case1 i read more ih =>
        have inside : i < body.data.toList.length := by rwa [Array.length_toList]
        have byte : body.get! i = body.data.toList[i] := by
          obtain ⟨data⟩ := body
          exact getElem!_pos data i more
        rw [ih, List.drop_eq_getElem_cons inside, byte, List.reverse_cons, List.append_assoc,
          List.singleton_append]
    | case2 i read done =>
        have outside : body.data.toList.length ≤ i := by
          rw [Array.length_toList]
          exact Nat.le_of_not_lt done
        rw [List.drop_eq_nil_of_le outside, List.append_nil]
  rw [ByteArray.toList, loop, List.reverse_nil, List.nil_append, List.drop_zero]

/-- Reading bytes as text keeps the number of characters of ASCII. -/
theorem countP_fromUtf8Lossy (body : ByteArray) :
    (fromUtf8Lossy body).toList.countP isAsciiChar = body.data.toList.countP isAsciiByte := by
  unfold fromUtf8Lossy
  split
  · rename_i text read
    have bytes : text.toUTF8 = body := by
      unfold String.fromUTF8? at read
      split at read
      · cases read
        rfl
      · cases read
    rw [← bytes, countP_toUTF8]
  · rw [String.toList_ofList, countP_decodeLossy, byteArray_toList]

end TavilyHikari.Library
