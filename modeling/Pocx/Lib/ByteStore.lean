set_option autoImplicit false

namespace ByteStore

/-- The bytes of a buffer or of a file. What lies behind the end does not matter. -/
structure Bytes where
  len : Nat
  byte : Nat → UInt8

/-- The bytes `offset ..< offset + len`, if they all exist. -/
def Bytes.slice (bytes : Bytes) (offset len : Nat) : Option Bytes :=
  if offset + len ≤ bytes.len then some ⟨len, fun i => bytes.byte (offset + i)⟩ else none

/-- Overwrite the bytes from `offset` on. A write behind the end leaves a hole of
zeros, an empty write leaves the file as it is. -/
def writeAt (file : Bytes) (offset : Nat) (data : Bytes) : Bytes where
  len := if data.len = 0 then file.len else max file.len (offset + data.len)
  byte := fun i =>
    if offset ≤ i ∧ i < offset + data.len then data.byte (i - offset)
    else if i < file.len then file.byte i
    else 0

theorem slice_some {bytes : Bytes} {offset len : Nat} (inside : offset + len ≤ bytes.len) :
    bytes.slice offset len = some ⟨len, fun i => bytes.byte (offset + i)⟩ := by
  rw [Bytes.slice, if_pos inside]

theorem writeAt_len (file : Bytes) (offset : Nat) (data : Bytes) :
    file.len ≤ (writeAt file offset data).len := by
  simp only [writeAt]
  split
  · exact Nat.le_refl _
  · exact Nat.le_max_left _ _

theorem writeAt_within (file : Bytes) (offset : Nat) (data : Bytes)
    (fits : offset + data.len ≤ file.len) : (writeAt file offset data).len = file.len := by
  simp only [writeAt, Nat.max_eq_left fits, ite_self]

theorem writeAt_end (file : Bytes) (offset : Nat) (data : Bytes) (nonempty : 0 < data.len) :
    offset + data.len ≤ (writeAt file offset data).len := by
  simp only [writeAt, Nat.ne_of_gt nonempty, ↓reduceIte]
  exact Nat.le_max_right _ _

theorem writeAt_inside (file : Bytes) (offset : Nat) (data : Bytes) (i : Nat)
    (lower : offset ≤ i) (upper : i < offset + data.len) :
    (writeAt file offset data).byte i = data.byte (i - offset) := by
  simp only [writeAt, lower, upper, and_self, ↓reduceIte]

theorem writeAt_outside (file : Bytes) (offset : Nat) (data : Bytes) (i : Nat)
    (present : i < file.len) (outside : i < offset ∨ offset + data.len ≤ i) :
    (writeAt file offset data).byte i = file.byte i := by
  have absent : ¬ (offset ≤ i ∧ i < offset + data.len) := by omega
  simp only [writeAt, absent, present, ↓reduceIte]

/-- A write uses nothing behind the end of its data. -/
theorem writeAt_congr (file : Bytes) (offset : Nat) (data other : Bytes)
    (len : data.len = other.len) (bytes : ∀ i, i < data.len → data.byte i = other.byte i) :
    writeAt file offset data = writeAt file offset other := by
  simp only [writeAt, ← len, Bytes.mk.injEq, true_and]
  funext i
  split
  · rename_i inside
    exact bytes _ (by omega)
  · rfl

theorem succ_ne (x : UInt8) : x + 1 ≠ x := by
  intro same
  have value := congrArg UInt8.toNat same
  rw [UInt8.toNat_add] at value
  have small := x.toNat_lt
  have one : (1 : UInt8).toNat = 1 := rfl
  omega

end ByteStore
