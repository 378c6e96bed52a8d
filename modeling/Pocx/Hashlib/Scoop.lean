import Mathlib.Algebra.BigOperators.Intervals
import Pocx.Lib.ByteStore
import Pocx.Lib.Strided
import Pocx.PlotFile.Layout

set_option autoImplicit false

namespace Pocx.Hashlib

open ByteStore
open PlotFile (scoopSize numScoops nonceSize)

instance : NeZero scoopSize := ⟨by decide⟩

/-- The 64 bytes of a scoop. -/
@[ext] structure Scoop where
  byte : Fin scoopSize → UInt8

/-- Scoops are added bytewise with XOR. -/
instance : Add Scoop := ⟨fun a b => ⟨fun z => a.byte z ^^^ b.byte z⟩⟩

instance : Zero Scoop := ⟨⟨fun _ => 0⟩⟩

instance : AddCommMonoid Scoop where
  nsmul := nsmulRec
  add_assoc a b c := Scoop.ext (funext fun _ => UInt8.xor_assoc _ _ _)
  add_comm a b := Scoop.ext (funext fun _ => UInt8.xor_comm _ _)
  zero_add a := Scoop.ext (funext fun _ => UInt8.zero_xor)
  add_zero a := Scoop.ext (funext fun _ => UInt8.xor_zero)

@[simp] theorem add_byte (a b : Scoop) (z : Fin scoopSize) :
    (a + b).byte z = a.byte z ^^^ b.byte z := rfl

/-- The scoop at an address of a buffer. -/
def scoopAt (bytes : Bytes) (address : Nat) : Scoop := ⟨fun z => bytes.byte (address + z)⟩

/-- The address of a scoop of a column in a scoop-major buffer of `columns` nonces. -/
def scoopAddress (columns scoop column : Nat) : Nat :=
  scoop * columns * scoopSize + column * scoopSize

theorem scoopAddress_cell (columns scoop column offset : Nat) :
    scoopAddress columns scoop column + offset =
      Strided.cell columns scoopSize scoop column offset := by
  rw [scoopAddress, Strided.cell, Nat.add_mul]

/-- `PoCXHashError`, with the numbers its messages format. -/
inductive HashError
  | bufferSizeError (required actual : Nat)
  | invalidInput (scoop : Nat)
  | qualityMismatch (expected actual : UInt64) (proofIndex : Nat)

/-- `generate_nonces`: cache, cache offset, address payload, seed, start nonce and number
of nonces. -/
abbrev GenerateNonces (Payload Seed : Type) :=
  Bytes → Nat → Payload → Seed → Nat → Nat → Except HashError Bytes

variable {Payload Seed : Type}

/-- Nonce `startNonce + k` is in column `cacheOffset + k`, the other columns are as before. -/
structure Placed (raw : Payload → Seed → Nat → Nat → Scoop) (cache after : Bytes)
    (cacheOffset : Nat) (addressPayload : Payload) (seed : Seed) (startNonce numNonces : Nat) :
    Prop where
  len : after.len = cache.len
  inside : ∀ scoop k, scoop < numScoops → k < numNonces →
    scoopAt after (scoopAddress (cache.len / nonceSize) scoop (cacheOffset + k)) =
      raw addressPayload seed (startNonce + k) scoop
  outside : ∀ scoop column, scoop < numScoops → column < cache.len / nonceSize →
    column < cacheOffset ∨ cacheOffset + numNonces ≤ column →
    scoopAt after (scoopAddress (cache.len / nonceSize) scoop column) =
      scoopAt cache (scoopAddress (cache.len / nonceSize) scoop column)

/-- A function of the uncompressed nonces and a `generate_nonces` that places its values. -/
structure NonceGenerator (Payload Seed : Type) where
  raw : Payload → Seed → Nat → Nat → Scoop
  generateNonces : GenerateNonces Payload Seed
  places : ∀ cache cacheOffset addressPayload seed startNonce numNonces,
    cacheOffset + numNonces ≤ cache.len / nonceSize →
    ∃ after, generateNonces cache cacheOffset addressPayload seed startNonce numNonces =
        .ok after ∧
      Placed raw cache after cacheOffset addressPayload seed startNonce numNonces

/-- What `generate_scoop` needs of it: one nonce in a buffer of its size. -/
def PlacesSingle (generateNonces : GenerateNonces Payload Seed)
    (raw : Payload → Seed → Nat → Nat → Scoop) : Prop :=
  ∀ cache addressPayload seed nonce, cache.len = nonceSize →
    ∃ after, generateNonces cache 0 addressPayload seed nonce 1 = .ok after ∧
      after.len = nonceSize ∧
      ∀ scoop, scoop < numScoops →
        scoopAt after (scoop * scoopSize) = raw addressPayload seed nonce scoop

theorem NonceGenerator.single (generator : NonceGenerator Payload Seed) :
    PlacesSingle generator.generateNonces generator.raw := by
  intro cache addressPayload seed nonce sized
  have one : cache.len / nonceSize = 1 := by
    rw [sized]
    exact Nat.div_self (by decide)
  obtain ⟨after, done, placed⟩ :=
    generator.places cache 0 addressPayload seed nonce 1 (by rw [one])
  refine ⟨after, done, placed.len.trans sized, ?_⟩
  intro scoop scoopLt
  have inside := placed.inside scoop 0 scoopLt (by decide)
  rw [one, scoopAddress] at inside
  simpa only [Nat.mul_one, Nat.zero_mul, Nat.add_zero] using inside

/-- The position of a byte of a scoop-major buffer. -/
theorem position (columns scoop column : Nat) (columnLt : column < columns) (z : Fin scoopSize) :
    (scoopAddress columns scoop column + z) / scoopSize / columns = scoop ∧
      (scoopAddress columns scoop column + z) / scoopSize % columns = column ∧
      (scoopAddress columns scoop column + z) % scoopSize = z := by
  have index : (scoopAddress columns scoop column + z) / scoopSize = scoop * columns + column := by
    rw [scoopAddress_cell, Strided.cell, Nat.add_comm, Nat.add_mul_div_right _ _ (by decide),
      Nat.div_eq_of_lt z.isLt, Nat.zero_add]
  refine ⟨?_, ?_, ?_⟩
  · rw [index, Nat.add_comm, Nat.add_mul_div_right _ _ (by omega), Nat.div_eq_of_lt columnLt,
      Nat.zero_add]
  · rw [index, Nat.add_comm, Nat.add_mul_mod_self_right, Nat.mod_eq_of_lt columnLt]
  · rw [scoopAddress_cell, Strided.cell, Nat.add_comm, Nat.add_mul_mod_self_right,
      Nat.mod_eq_of_lt z.isLt]

theorem mod_scoopSize_lt (i : Nat) : i % scoopSize < scoopSize := Nat.mod_lt _ (by decide)

/-- Every table of uncompressed nonces has such a generator. -/
def NonceGenerator.ofRaw (raw : Payload → Seed → Nat → Nat → Scoop) :
    NonceGenerator Payload Seed where
  raw := raw
  generateNonces := fun cache cacheOffset addressPayload seed startNonce numNonces =>
    .ok
      { cache with
        byte := fun i =>
          let columns := cache.len / nonceSize
          let column := i / scoopSize % columns
          if cacheOffset ≤ column ∧ column < cacheOffset + numNonces then
            (raw addressPayload seed (startNonce + (column - cacheOffset))
              (i / scoopSize / columns)).byte ⟨i % scoopSize, mod_scoopSize_lt i⟩
          else cache.byte i }
  places := by
    intro cache cacheOffset addressPayload seed startNonce numNonces fits
    refine ⟨_, rfl, rfl, ?_, ?_⟩
    · intro scoop k scoopLt kLt
      apply Scoop.ext
      funext z
      obtain ⟨row, column, offset⟩ :=
        position (cache.len / nonceSize) scoop (cacheOffset + k) (by omega) z
      have here : cacheOffset ≤ cacheOffset + k ∧ cacheOffset + k < cacheOffset + numNonces := by
        omega
      simp only [scoopAt, row, column, offset, if_pos here, Nat.add_sub_cancel_left]
    · intro scoop column scoopLt columnLt apart
      apply Scoop.ext
      funext z
      obtain ⟨row, columnEq, offset⟩ := position (cache.len / nonceSize) scoop column columnLt z
      have elsewhere : ¬ (cacheOffset ≤ column ∧ column < cacheOffset + numNonces) := by omega
      simp only [scoopAt, columnEq, if_neg elsewhere]

section GenerateScoop

variable (generateNonces : GenerateNonces Payload Seed) (raw : Payload → Seed → Nat → Nat → Scoop)
  (addressPayload : Payload) (seed : Seed) (scoop nonce compression : Nat)

/-- One turn of the loop of `generate_scoop`: the result so far and the nonce buffer. -/
def generateTurn (state : Scoop × Bytes) (i : Nat) : Except HashError (Scoop × Bytes) :=
  let warp := nonce / numScoops
  let nonceInWarp := nonce % numScoops
  let scoopX := if i % 2 = 0 then scoop else nonceInWarp
  let nonceInWarpX := if i % 2 = 0 then nonceInWarp else scoop
  let warpX := 2 ^ compression * warp + i
  let nonceX := warpX * numScoops + nonceInWarpX
  match generateNonces state.2 0 addressPayload seed nonceX 1 with
  | .error error => .error error
  | .ok nonceBuffer => .ok (state.1 + scoopAt nonceBuffer (scoopX * scoopSize), nonceBuffer)

/-- `generate_scoop`, for a scoop below `numScoops`. -/
def generateScoop : Except HashError Scoop :=
  ((List.range (2 ^ compression)).foldlM
    (generateTurn generateNonces addressPayload seed scoop nonce compression)
    (0, ⟨nonceSize, fun _ => 0⟩)).map Prod.fst

/-- The uncompressed scoop that turn `i` adds. -/
def generateTerm (i : Nat) : Scoop :=
  let first := (2 ^ compression * (nonce / numScoops) + i) * numScoops
  if i % 2 = 0 then raw addressPayload seed (first + nonce % numScoops) scoop
  else raw addressPayload seed (first + scoop) (nonce % numScoops)

variable {generateNonces raw scoop} (single : PlacesSingle generateNonces raw)
  (scoopLt : scoop < numScoops)
include single scoopLt

theorem generateTurn_eq (state : Scoop × Bytes) (sized : state.2.len = nonceSize) (i : Nat) :
    ∃ buffer, generateTurn generateNonces addressPayload seed scoop nonce compression state i =
        .ok (state.1 + generateTerm raw addressPayload seed scoop nonce compression i, buffer) ∧
      buffer.len = nonceSize := by
  have inWarp : nonce % numScoops < numScoops := Nat.mod_lt _ (by decide)
  obtain ⟨buffer, done, sized', column⟩ := single state.2 addressPayload seed
    ((2 ^ compression * (nonce / numScoops) + i) * numScoops +
      if i % 2 = 0 then nonce % numScoops else scoop) sized
  refine ⟨buffer, ?_, sized'⟩
  simp only [generateTurn, done, generateTerm]
  split
  · rename_i even
    rw [column _ scoopLt, if_pos even]
  · rename_i odd
    rw [column _ inWarp, if_neg odd]

theorem generateScoop_eq_sum :
    generateScoop generateNonces addressPayload seed scoop nonce compression =
      .ok (∑ i ∈ Finset.range (2 ^ compression),
        generateTerm raw addressPayload seed scoop nonce compression i) := by
  have turns (count : Nat) :
      ∃ buffer, (List.range count).foldlM
          (generateTurn generateNonces addressPayload seed scoop nonce compression)
          (0, ⟨nonceSize, fun _ => 0⟩) =
          .ok (∑ i ∈ Finset.range count,
            generateTerm raw addressPayload seed scoop nonce compression i, buffer) ∧
        buffer.len = nonceSize := by
    induction count with
    | zero => exact ⟨_, rfl, rfl⟩
    | succ count ih =>
      obtain ⟨buffer, done, sized⟩ := ih
      obtain ⟨next, turn, sized'⟩ := generateTurn_eq addressPayload seed nonce compression single
        scoopLt (_, buffer) sized count
      refine ⟨next, ?_, sized'⟩
      rw [List.range_succ, List.foldlM_append, done, Finset.sum_range_succ]
      simp only [List.foldlM_cons, List.foldlM_nil]
      exact congrArg (· >>= pure) turn
  obtain ⟨buffer, done, -⟩ := turns (2 ^ compression)
  rw [generateScoop, done]
  rfl

end GenerateScoop

end Pocx.Hashlib
