import Pocx.Hashlib.NoncegenPaths

set_option autoImplicit false

namespace Pocx.GpuRing

open ByteStore
open PlotFile (scoopSize numScoops nonceSize)
open Hashlib

/-- Device memory as the kernels see it, an array of `unsigned int`. -/
abbrev Memory := Nat → UInt32

/-- `Address(nonce, hash, word)` -/
def address (nonce hash word : Nat) : Nat :=
  (nonce >>> 4) * 16 * 8 * 8192 + hash * 16 * 8 + word * 16 + (nonce &&& 15)

/-- A byte of a word in memory; the devices are little-endian. -/
def wordByte (word : UInt32) (i : Nat) : UInt8 := (word >>> UInt32.ofNat (8 * i)).toUInt8

/-- The memory as bytes. -/
def memoryBytes (len : Nat) (memory : Memory) : Bytes where
  len := len
  byte := fun i => wordByte (memory (i / 4)) (i % 4)

theorem wordByte_xor (a b : UInt32) (i : Nat) :
    wordByte (a ^^^ b) i = wordByte a i ^^^ wordByte b i := by
  rw [wordByte, UInt32.shiftRight_xor, UInt32.toUInt8_xor]
  rfl

/-- Sixteen nonces lie together, their words next to each other. -/
theorem address_eq (nonce hash word : Nat) :
    address nonce hash word = ((nonce / 16 * 8192 + hash) * 8 + word) * 16 + nonce % 16 := by
  have lane : nonce &&& 15 = nonce % 16 := Nat.and_two_pow_sub_one_eq_mod nonce 4
  have block : nonce >>> 4 = nonce / 16 := Nat.shiftRight_eq_div_pow nonce 4
  rw [address, lane, block]
  omega

/-- The scoop of a nonce in the ring, with the hashes that the shuffle puts together. -/
def ringScoop (memory : Memory) (nonce scoop : Nat) : Scoop :=
  ⟨fun z =>
    wordByte
      (memory (address nonce (if z.val < 32 then 2 * scoop else 8191 - 2 * scoop) (z % 32 / 4)))
      (z % 4)⟩

section lanes

variable (memory : Memory) (ringSize start width : Nat)

/-- Block `n` of `width` nonces from a ring position on, interleaved as the shuffle takes it. -/
def ringBlock (n : Nat) : Bytes where
  len := nonceSize * width
  byte := fun place =>
    wordByte
      (memory (address ((start + (n * width + place / 4 % width)) % ringSize)
        (place / 4 / width / 8) (place / 4 / width % 8)))
      (place % 4)

/-- The nonces from a ring position on, scattered block by block into a scoop-major buffer. -/
def scatterRing (cache : Bytes) (count : Nat) : Bytes :=
  (turns (fun n _ => ringBlock memory ringSize start width n) 0 width cache count).1

theorem ringBlock_byte (n i w lane b : Nat) (wLt : w < 8) (laneLt : lane < width) (bLt : b < 4) :
    (ringBlock memory ringSize start width n).byte (4 * ((i * 8 + w) * width + lane) + b) =
      wordByte (memory (address ((start + (n * width + lane)) % ringSize) i w)) b := by
  have positive : 0 < width := Nat.zero_lt_of_lt laneLt
  have word : (4 * ((i * 8 + w) * width + lane) + b) / 4 = (i * 8 + w) * width + lane := by omega
  have offset : (4 * ((i * 8 + w) * width + lane) + b) % 4 = b := by omega
  have column : ((i * 8 + w) * width + lane) % width = lane := by
    rw [Nat.add_comm, Nat.add_mul_mod_self_right, Nat.mod_eq_of_lt laneLt]
  have row : ((i * 8 + w) * width + lane) / width = i * 8 + w := by
    rw [Nat.add_comm, Nat.add_mul_div_right _ _ positive, Nat.div_eq_of_lt laneLt, Nat.zero_add]
  have hash : (i * 8 + w) / 8 = i := by omega
  have group : (i * 8 + w) % 8 = w := by omega
  simp only [ringBlock, word, offset, column, row, hash, group]

/-- A lane of a block holds its nonce. -/
theorem ringBlock_lane (n lane scoop : Nat) (laneLt : lane < width)
    (scoopLt : scoop < numScoops) :
    extractScoopFromInterleaved (ringBlock memory ringSize start width n) width lane scoop =
      ringScoop memory ((start + (n * width + lane)) % ringSize) scoop := by
  apply Scoop.ext
  funext z
  simp only [numScoops] at scoopLt
  have second : (4095 - scoop) * 2 + 1 = 8191 - 2 * scoop := by omega
  simp only [extractScoopFromInterleaved, ringScoop, second]
  generalize (if z.val < 32 then 2 * scoop else 8191 - 2 * scoop) = hash
  have words : hash * 32 + z.val % 32 / 4 * 4 = 4 * (hash * 8 + z.val % 32 / 4) := by omega
  have place : (hash * 32 + z.val % 32 / 4 * 4) * width + lane * 4 + z.val % 4 =
      4 * ((hash * 8 + z.val % 32 / 4) * width + lane) + z.val % 4 := by
    rw [words, Nat.mul_assoc]
    omega
  rw [place]
  exact ringBlock_byte memory ringSize start width n hash (z.val % 32 / 4) lane (z.val % 4)
    (by omega) laneLt (by omega)

theorem lane_mod (block lane blocks : Nat) (laneLt : lane < 16) :
    (16 * block + lane) % (16 * blocks) = 16 * (block % blocks) + lane := by
  have column : (16 * block + lane) % 16 = lane := by omega
  have row : (16 * block + lane) / 16 = block := by omega
  rw [Nat.mod_mul, column, row, Nat.add_comm]

/-- In sixteen lanes the blocks are those of the memory itself. -/
theorem ringBlock_memory (n : Nat) (aligned : 16 ∣ start) (whole : 16 ∣ ringSize) (place : Nat) :
    (ringBlock memory ringSize start 16 n).byte place =
      (memoryBytes (ringSize * nonceSize) memory).byte
        ((start + n * 16) % ringSize * nonceSize + place) := by
  obtain ⟨first, rfl⟩ := aligned
  obtain ⟨blocks, rfl⟩ := whole
  have size : nonceSize = 4 * 65536 := by decide
  have lane : place / 4 % 16 < 16 := Nat.mod_lt _ (by decide)
  have base : (16 * first + n * 16) % (16 * blocks) = 16 * ((first + n) % blocks) := by
    have split := lane_mod (first + n) 0 blocks (by decide)
    rw [Nat.add_zero, Nat.add_zero, Nat.mul_add, Nat.mul_comm 16 n] at split
    exact split
  have position : (16 * first + (n * 16 + place / 4 % 16)) % (16 * blocks) =
      16 * ((first + n) % blocks) + place / 4 % 16 := by
    have split := lane_mod (first + n) (place / 4 % 16) blocks lane
    rw [Nat.mul_add, Nat.mul_comm 16 n, Nat.add_assoc] at split
    exact split
  simp only [ringBlock, memoryBytes, position, base, address_eq, size]
  generalize (first + n) % blocks = block
  have word : ((16 * block + place / 4 % 16) / 16 * 8192 + place / 4 / 16 / 8) * 8 +
      place / 4 / 16 % 8 = block * 65536 + place / 4 / 16 := by omega
  have column : (16 * block + place / 4 % 16) % 16 = place / 4 % 16 := by omega
  have here : (16 * block * (4 * 65536) + place) / 4 =
      (block * 65536 + place / 4 / 16) * 16 + place / 4 % 16 := by omega
  have offset : (16 * block * (4 * 65536) + place) % 4 = place % 4 := by omega
  rw [word, column, here, offset]

/-- What the scattered buffer holds. -/
theorem scatterRing_scoop (cache : Bytes) (count scoop k : Nat)
    (fits : count * width ≤ cache.len / nonceSize) (scoopLt : scoop < numScoops)
    (kLt : k < count * width) :
    scoopAt (scatterRing memory ringSize start width cache count)
        (scoopAddress (cache.len / nonceSize) scoop k) =
      ringScoop memory ((start + k) % ringSize) scoop := by
  have hashes (n : Nat) (_ : n < count) :
      Hashes (fun k scoop => ringScoop memory ((start + k) % ringSize) scoop)
        (fun n _ => ringBlock memory ringSize start width n) 0 width n := by
    intro buffer len
    refine ⟨rfl, fun lane laneLt scoop scoopLt => ?_⟩
    rw [ringBlock_lane memory ringSize start width n lane scoop laneLt scoopLt, Nat.zero_add]
  have filled := (turns_filled _ _ 0 0 width cache count hashes (by omega)).1
  have here := filled.nonces scoop scoopLt k kLt
  rw [Nat.zero_add] at here
  exact here

theorem scatterRing_len (cache : Bytes) (count : Nat) :
    (scatterRing memory ringSize start width cache count).len = cache.len :=
  (turns_frame _ 0 width cache count).1

end lanes

end Pocx.GpuRing
