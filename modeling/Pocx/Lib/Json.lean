import Mathlib.Algebra.Ring.Int.Defs
import Mathlib.Algebra.Ring.Nat
import Mathlib.Data.List.Basic

set_option autoImplicit false

namespace Json

/-- A JSON value. A number is an unsigned or a negative integer or else a float, by its bits; an
object has its fields in the order of their names. -/
inductive Value
  | null
  | bool (truth : Bool)
  | posInt (n : UInt64)
  | negInt (n : Int64)
  | float (bits : UInt64)
  | string (text : String)
  | array (items : List Value)
  | object (fields : List (String × Value))

namespace Value

/-- Insert a field in place. -/
def insertField (name : String) (value : Value) :
    List (String × Value) → List (String × Value)
  | [] => [(name, value)]
  | field :: rest =>
    if name < field.1 then (name, value) :: field :: rest
    else if name = field.1 then (name, value) :: rest
    else field :: insertField name value rest

/-- An object from its fields in any order. -/
def ofFields (fields : List (String × Value)) : Value :=
  .object (fields.foldr (fun field rest => insertField field.1 field.2 rest) [])

/-- The field of an object. -/
def get (name : String) : Value → Option Value
  | .object fields => fields.lookup name
  | _ => none

def asStr : Value → Option String
  | .string text => some text
  | _ => none

def asU64 : Value → Option UInt64
  | .posInt n => some n
  | _ => none

theorem lookup_cons (name other : String) (value : Value) (rest : List (String × Value)) :
    ((name, value) :: rest).lookup other = if other = name then some value else rest.lookup other := by
  rw [List.lookup_cons]
  by_cases same : other = name
  · rw [if_pos same, beq_iff_eq.mpr same]
  · rw [if_neg same, beq_false_of_ne same]

theorem lookup_insertField (name other : String) (value : Value) (fields : List (String × Value)) :
    (insertField name value fields).lookup other =
      if other = name then some value else fields.lookup other := by
  induction fields with
  | nil => exact lookup_cons name other value []
  | cons field rest ih =>
    obtain ⟨first, found⟩ := field
    rw [insertField]
    split
    · rw [lookup_cons]
    split
    · rename_i equal
      obtain rfl : name = first := equal
      rw [lookup_cons, lookup_cons]
      by_cases same : other = name
      · rw [if_pos same, if_pos same]
      · rw [if_neg same, if_neg same, if_neg same]
    · rename_i apart
      rw [lookup_cons, lookup_cons, ih]
      by_cases same : other = name
      · have miss : other ≠ first := same ▸ apart
        rw [if_neg miss, if_pos same, if_pos same]
      · rw [if_neg same, if_neg same]

/-- The fields of an object are found by their names. -/
@[simp] theorem get_ofFields (name : String) (fields : List (String × Value)) :
    (ofFields fields).get name = fields.lookup name := by
  rw [ofFields, get]
  induction fields with
  | nil => rfl
  | cons field rest ih =>
    obtain ⟨first, value⟩ := field
    rw [List.foldr_cons, lookup_insertField, ih, lookup_cons]

end Value

section decode

variable {α : Type}

/-- What a derived decoder of a struct finds for each of its fields: an object may lack some and
have others, an array has exactly these. -/
def structFields (names : List String) : Value → Option (List (Option Value))
  | .object fields => some (names.map fun name => fields.lookup name)
  | .array items => if items.length = names.length then some (items.map some) else none
  | _ => none

theorem structFields_ofFields (names : List String) (fields : List (String × Value)) :
    structFields names (Value.ofFields fields) =
      some (names.map fun name => fields.lookup name) := by
  have found : ∀ name, ((fields.foldr (fun field rest => Value.insertField field.1 field.2 rest)
      []).lookup name) = fields.lookup name := fun name => Value.get_ofFields name fields
  rw [Value.ofFields, structFields]
  simp only [found]

/-- A field that must be there. -/
def requiredField (decode : Value → Option α) (field : Option Value) : Option α := field.bind decode

/-- A field that may be missing or null. -/
def optionalField (decode : Value → Option α) : Option Value → Option (Option α)
  | none => some none
  | some .null => some none
  | some value => (decode value).map some

end decode

def toU8 : Value → Option UInt8
  | .posInt n => if n.toNat < 2 ^ 8 then some n.toUInt8 else none
  | _ => none

def toI32 : Value → Option Int32
  | .posInt n => if n.toNat < 2 ^ 31 then some (Int32.ofNat n.toNat) else none
  | .negInt n => if -2 ^ 31 ≤ n.toInt then some n.toInt32 else none
  | _ => none

def ofU8 (n : UInt8) : Value := .posInt n.toUInt64

def ofI32 (n : Int32) : Value :=
  if 0 ≤ n then .posInt (UInt64.ofNat n.toInt.toNat) else .negInt n.toInt64

@[simp] theorem toU8_ofU8 (n : UInt8) : toU8 (ofU8 n) = some n := by
  rw [ofU8, toU8, UInt8.toNat_toUInt64, if_pos n.toNat_lt, UInt8.toUInt8_toUInt64]

@[simp] theorem toI32_ofI32 (n : Int32) : toI32 (ofI32 n) = some n := by
  rw [ofI32]
  split
  · rename_i positive
    have low : 0 ≤ n.toInt := Int32.le_iff_toInt_le.mp positive
    have high : n.toInt < 2 ^ 31 := n.toInt_lt
    have size : (UInt64.ofNat n.toInt.toNat).toNat = n.toInt.toNat :=
      UInt64.toNat_ofNat_of_lt' (by rw [UInt64.size]; omega)
    rw [toI32, size, if_pos (by omega)]
    congr
    apply Int32.toInt_inj.mp
    rw [Int32.toInt_ofNat_of_lt (by omega)]
    omega
  · have low : -2 ^ 31 ≤ n.toInt64.toInt := by
      rw [Int32.toInt_toInt64]
      exact n.le_toInt
    rw [toI32, if_pos low, Int32.toInt32_toInt64]

@[simp] theorem optionalField_none {α : Type} (decode : Value → Option α) :
    optionalField decode none = some none := rfl

/-- A field that is encoded as something other than null is read back. -/
theorem optionalField_some {α : Type} {decode : Value → Option α} {value : Value} {found : α}
    (present : value ≠ .null) (read : decode value = some found) :
    optionalField decode (some value) = some (some found) := by
  rw [optionalField, read]
  · rfl
  · exact present

@[simp] theorem optionalField_posInt (n : UInt64) :
    optionalField Value.asU64 (some (.posInt n)) = some (some n) :=
  optionalField_some nofun rfl

@[simp] theorem optionalField_ofU8 (n : UInt8) :
    optionalField toU8 (some (ofU8 n)) = some (some n) :=
  optionalField_some nofun (toU8_ofU8 n)

end Json
