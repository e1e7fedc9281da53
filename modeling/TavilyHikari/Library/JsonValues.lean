/-
Module: TavilyHikari.Library.JsonValues
Purpose: Equality of JSON values as `serde_json` has it, by which a zero has no sign, and the
  edits of the members of an object, none of which makes it larger.
Trusted boundary: human-reviewed spec (`PartialEq` of `Value`)
Main exports: JsonValue.same, same_symm, same_trans, setMember, removeMember,
  sizeOf_setMember_le, sizeOf_removeMember_le
-/
import TavilyHikari.Library.Json

namespace TavilyHikari.Library

/-! ### Equality -/

/-- `==` of floats. A finite number other than zero has one representation. -/
def Float64.same : Float64 → Float64 → Bool
  | .finite negative mantissa exponent, .finite negative' mantissa' exponent' =>
      (mantissa = 0 && mantissa' = 0) ||
        (negative = negative' && mantissa = mantissa' && exponent = exponent')
  | .infinite negative, .infinite negative' => negative = negative'
  | _, _ => false

def JsonNumber.same : JsonNumber → JsonNumber → Bool
  | .posInt value, .posInt value' => value = value'
  | .negInt value, .negInt value' => value = value'
  | .float value, .float value' => value.same value'
  | _, _ => false

namespace JsonValue

mutual

/-- `==` of values. -/
def same : JsonValue → JsonValue → Bool
  | .null, .null => true
  | .bool value, .bool value' => value = value'
  | .number value, .number value' => value.same value'
  | .string value, .string value' => value = value'
  | .array items, .array items' => sameItems items items'
  | .object members, .object members' => sameMembers members members'
  | _, _ => false
termination_by structural value => value

def sameItems : List JsonValue → List JsonValue → Bool
  | [], [] => true
  | item :: rest, item' :: rest' => item.same item' && sameItems rest rest'
  | _, _ => false
termination_by structural items => items

def sameMembers : List (String × JsonValue) → List (String × JsonValue) → Bool
  | [], [] => true
  | member :: rest, member' :: rest' => sameMember member member' && sameMembers rest rest'
  | _, _ => false
termination_by structural members => members

def sameMember : String × JsonValue → String × JsonValue → Bool
  | (name, value), (name', value') => name = name' && value.same value'
termination_by structural member => member

end

end JsonValue

theorem Float64.same_symm {one two : Float64} (equal : one.same two = true) :
    two.same one = true := by
  cases one <;> cases two <;> simp_all [Float64.same]
  grind

theorem Float64.same_trans {one two three : Float64} (first : one.same two = true)
    (second : two.same three = true) : one.same three = true := by
  cases one <;> cases two <;> cases three <;> simp_all [Float64.same]
  grind

theorem JsonNumber.same_symm {one two : JsonNumber} (equal : one.same two = true) :
    two.same one = true := by
  cases one <;> cases two <;> simp_all [JsonNumber.same]
  exact Float64.same_symm equal

theorem JsonNumber.same_trans {one two three : JsonNumber} (first : one.same two = true)
    (second : two.same three = true) : one.same three = true := by
  cases one <;> cases two <;> cases three <;> simp_all [JsonNumber.same]
  exact Float64.same_trans first second

namespace JsonValue

mutual

/-- To be the same value is symmetric. -/
theorem same_symm {one two : JsonValue} (equal : one.same two = true) : two.same one = true := by
  match one with
  | .null => cases two with
      | null => exact equal
      | _ => cases equal
  | .bool value => cases two with
      | bool value' =>
          rw [same, decide_eq_true_eq] at equal ⊢
          exact equal.symm
      | _ => cases equal
  | .number value => cases two with
      | number value' => exact JsonNumber.same_symm equal
      | _ => cases equal
  | .string value => cases two with
      | string value' =>
          rw [same, decide_eq_true_eq] at equal ⊢
          exact equal.symm
      | _ => cases equal
  | .array items => cases two with
      | array items' => exact sameItems_symm equal
      | _ => cases equal
  | .object members => cases two with
      | object members' => exact sameMembers_symm equal
      | _ => cases equal
termination_by structural one

theorem sameItems_symm {one two : List JsonValue} (equal : sameItems one two = true) :
    sameItems two one = true := by
  match one with
  | [] => cases two with
      | nil => exact equal
      | cons item' rest' => cases equal
  | item :: rest => cases two with
      | nil => cases equal
      | cons item' rest' =>
          rw [sameItems, Bool.and_eq_true] at equal ⊢
          exact ⟨same_symm equal.1, sameItems_symm equal.2⟩
termination_by structural one

theorem sameMembers_symm {one two : List (String × JsonValue)}
    (equal : sameMembers one two = true) : sameMembers two one = true := by
  match one with
  | [] => cases two with
      | nil => exact equal
      | cons member' rest' => cases equal
  | member :: rest => cases two with
      | nil => cases equal
      | cons member' rest' =>
          rw [sameMembers, Bool.and_eq_true] at equal ⊢
          exact ⟨sameMember_symm equal.1, sameMembers_symm equal.2⟩
termination_by structural one

theorem sameMember_symm {one two : String × JsonValue} (equal : sameMember one two = true) :
    sameMember two one = true := by
  obtain ⟨name', value'⟩ := two
  match one with
  | (name, value) =>
      rw [sameMember, Bool.and_eq_true, decide_eq_true_eq] at equal ⊢
      exact ⟨equal.1.symm, same_symm equal.2⟩
termination_by structural one

end

mutual

/-- To be the same value is transitive. -/
theorem same_trans {one two three : JsonValue} (first : one.same two = true)
    (second : two.same three = true) : one.same three = true := by
  match one with
  | .null => cases two with
      | null => exact second
      | _ => cases first
  | .bool value => cases two with
      | bool value' =>
          rw [same, decide_eq_true_eq] at first
          exact first ▸ second
      | _ => cases first
  | .number value => cases two with
      | number value' => cases three with
          | number value'' => exact JsonNumber.same_trans first second
          | _ => cases second
      | _ => cases first
  | .string value => cases two with
      | string value' =>
          rw [same, decide_eq_true_eq] at first
          exact first ▸ second
      | _ => cases first
  | .array items => cases two with
      | array items' => cases three with
          | array items'' => exact sameItems_trans first second
          | _ => cases second
      | _ => cases first
  | .object members => cases two with
      | object members' => cases three with
          | object members'' => exact sameMembers_trans first second
          | _ => cases second
      | _ => cases first
termination_by structural one

theorem sameItems_trans {one two three : List JsonValue} (first : sameItems one two = true)
    (second : sameItems two three = true) : sameItems one three = true := by
  match one with
  | [] => cases two with
      | nil => exact second
      | cons item' rest' => cases first
  | item :: rest => cases two with
      | nil => cases first
      | cons item' rest' => cases three with
          | nil => cases second
          | cons item'' rest'' =>
              rw [sameItems, Bool.and_eq_true] at first second ⊢
              exact ⟨same_trans first.1 second.1, sameItems_trans first.2 second.2⟩
termination_by structural one

theorem sameMembers_trans {one two three : List (String × JsonValue)}
    (first : sameMembers one two = true) (second : sameMembers two three = true) :
    sameMembers one three = true := by
  match one with
  | [] => cases two with
      | nil => exact second
      | cons member' rest' => cases first
  | member :: rest => cases two with
      | nil => cases first
      | cons member' rest' => cases three with
          | nil => cases second
          | cons member'' rest'' =>
              rw [sameMembers, Bool.and_eq_true] at first second ⊢
              exact ⟨sameMember_trans first.1 second.1, sameMembers_trans first.2 second.2⟩
termination_by structural one

theorem sameMember_trans {one two three : String × JsonValue}
    (first : sameMember one two = true) (second : sameMember two three = true) :
    sameMember one three = true := by
  obtain ⟨name', value'⟩ := two
  obtain ⟨name'', value''⟩ := three
  match one with
  | (name, value) =>
      rw [sameMember, Bool.and_eq_true, decide_eq_true_eq] at first second ⊢
      exact ⟨first.1.trans second.1, same_trans first.2 second.2⟩
termination_by structural one

end

/-! ### Edits of members -/

/-- `*map.get_mut(key)? = value`. -/
def setMember (key : String) (value : JsonValue) :
    List (String × JsonValue) → List (String × JsonValue)
  | [] => []
  | (name, old) :: rest =>
      if name = key then (name, value) :: rest else (name, old) :: setMember key value rest

/-- `Map::remove`. -/
def removeMember (key : String) (members : List (String × JsonValue)) :
    List (String × JsonValue) :=
  members.filter fun member => member.1 ≠ key

theorem sizeOf_removeMember_le (key : String) (members : List (String × JsonValue)) :
    sizeOf (removeMember key members) ≤ sizeOf members := by
  induction members with
  | nil => exact Nat.le_refl _
  | cons member rest ih =>
      unfold removeMember at ih ⊢
      rw [List.filter_cons]
      split
      · simp only [List.cons.sizeOf_spec]
        omega
      · simp only [List.cons.sizeOf_spec]
        omega

/-- An object with a member replaced by a smaller one is no larger. -/
theorem sizeOf_setMember_le {key : String} {value old : JsonValue}
    {members : List (String × JsonValue)} (found : getMember members key = some old)
    (smaller : sizeOf value ≤ sizeOf old) :
    sizeOf (setMember key value members) ≤ sizeOf members := by
  induction members with
  | nil => exact Nat.le_refl _
  | cons member rest ih =>
      obtain ⟨name, held⟩ := member
      unfold getMember at found ih
      rw [List.find?_cons] at found
      by_cases same : name = key
      · simp only [same, decide_true, Option.map_some, Option.some.injEq] at found
        subst found
        simp only [setMember, same, if_true, List.cons.sizeOf_spec, Prod.mk.sizeOf_spec]
        omega
      · simp only [same, decide_false] at found
        simp only [setMember, same, if_false, List.cons.sizeOf_spec]
        have rest_le := ih found
        omega

end JsonValue

end TavilyHikari.Library
