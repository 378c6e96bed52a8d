import Pocx.Hashlib.ShabalVector
import Pocx.Hashlib.Quality

set_option autoImplicit false

namespace Pocx.Hashlib

open ByteStore
open PlotFile (scoopSize numScoops nonceSize)
open Shabal256 (leWord reg)
open ShabalLanes
open ShabalVector

section Rounds

variable {width : Nat}

/-- The blocks of all lanes word by word, as `splatter` lays out one block. -/
def interleave (block : Nat → Words 16) : Words (16 * width) :=
  Vector.ofFn fun place => reg (block (place % width)) (place / width)

/-- What a vector hash stores: the eight vectors, in little-endian words. -/
def vectorBytes (vectors : Vector (Lanes width) 8) : Bytes where
  len := hashSize * width
  byte := fun p =>
    (((reg vectors (p / 4 / width)).toArray.getD (p / 4 % width) 0) >>>
      UInt32.ofNat (8 * (p % 4))).toUInt8

variable (width) (addressPayload : U8s 20) (seed : U8s 32) (startNonce : Nat)

def t1Vector : Words (16 * width) :=
  interleave fun lane => t1 addressPayload seed (startNonce + lane)

def t2Vector : Words (16 * width) :=
  interleave fun lane => t2 addressPayload (startNonce + lane)

/-- The bytes of the first hashes are copied over the first half. -/
def pt2Vector (firstHash : Bytes) : Words (16 * width) :=
  Vector.ofFn fun place =>
    if place.val < 8 * width then leWord firstHash.byte place
    else leWord seed.get (place / width - 8)

def t3Vector : Words (16 * width) := interleave fun _ => t3

/-- Rounds 2 to 128 of all lanes. -/
def earlyRoundVector (firstHash : Bytes) (buffer : Bytes) (k : Nat) : Bytes :=
  let i := nonceSize - hashSize * (k + 1)
  let data := window buffer (i * width) (nonceSize * width)
  let hash :=
    if i % 64 = 0 then shabal256Vector data none (t1Vector width addressPayload seed startNonce)
    else
      shabal256Vector data (some (pt2Vector width seed firstHash))
        (t2Vector width addressPayload startNonce)
  writeAt buffer (i * width - hashSize * width) (vectorBytes hash)

/-- The later rounds of all lanes. -/
def lateRoundVector (buffer : Bytes) (k : Nat) : Bytes :=
  let i := nonceSize - hashCap - hashSize * k
  let data := window buffer (i * width) (i * width + hashCap * width)
  writeAt buffer (i * width - hashSize * width)
    (vectorBytes (shabal256Vector data none (t3Vector width)))

def hashRoundsVector (buffer : Bytes) : Bytes :=
  let firstHash := vectorBytes
    (shabal256Vector ⟨0, fun _ => 0⟩ none (t1Vector width addressPayload seed startNonce))
  let first := writeAt buffer (width * (nonceSize - hashSize)) firstHash
  let early := (List.range (hashCap / hashSize - 1)).foldl
    (earlyRoundVector width addressPayload seed startNonce firstHash) first
  (List.range ((nonceSize - hashCap) / hashSize)).foldl (lateRoundVector width) early

/-- XOR with the final hashes, chunk by chunk. -/
def xorFinalVector (buffer final : Bytes) : Bytes :=
  { buffer with
    byte := fun p =>
      if p < nonceSize * width then buffer.byte p ^^^ final.byte (p % (hashSize * width))
      else buffer.byte p }

/-- The body of the loops of `generate_nonces_128`, `_256`, `_512` and `_neon` up to the shuffle. -/
def hashNonceVector (buffer : Bytes) : Bytes :=
  let rounds := hashRoundsVector width addressPayload seed startNonce buffer
  xorFinalVector width rounds
    (vectorBytes (shabal256Vector (window rounds (0 * width) (nonceSize * width)) none
      (t1Vector width addressPayload seed startNonce)))

end Rounds

/-- `generate_nonces_128`, `generate_nonces_256`, `generate_nonces_512` and `generate_nonces_neon`,
for a number of nonces that is a multiple of the width. The buffer is not cleared between two
turns. -/
def generateNoncesVector (width : Nat) (cache : Bytes) (cacheOffset : Nat)
    (addressPayload : U8s 20) (seed : U8s 32) (startNonce numNonces : Nat) : Bytes :=
  ((List.range (numNonces / width)).foldl
    (fun (state : Bytes × Bytes) n =>
      let buffer := hashNonceVector width addressPayload seed (startNonce + n * width) state.2
      (unpackShuffleScatter buffer state.1 (cacheOffset + n * width) width, buffer))
    (cache, ⟨nonceSize * width, fun _ => 0⟩)).1

section Lanes

variable {width : Nat} (lane : Fin width)

theorem laneBlock_interleave (block : Nat → Words 16) :
    laneBlock lane (interleave block) = block lane := by
  have positive : 0 < width := Nat.zero_lt_of_lt lane.isLt
  apply Vector.ext
  intro k kLt
  have inside : k * width + lane < 16 * width := by
    have next : (k + 1) * width ≤ 16 * width := Nat.mul_le_mul_right width kLt
    rw [Nat.add_mul, Nat.one_mul] at next
    omega
  have column : (k * width + lane) % width = lane := by
    rw [Nat.add_comm, Nat.add_mul_mod_self_right, Nat.mod_eq_of_lt lane.isLt]
  have row : (k * width + lane) / width = k := by
    rw [Nat.add_comm, Nat.add_mul_div_right _ _ positive, Nat.div_eq_of_lt lane.isLt, Nat.zero_add]
  have word : (interleave block : Words (16 * width))[k * width + lane] =
      reg (block lane) k := by
    simp only [interleave, Vector.getElem_ofFn, column, row]
  rw [laneBlock, Vector.getElem_ofFn]
  simp only [Array.getD_eq_getD_getElem?, Vector.getElem?_toArray,
    Vector.getElem?_eq_getElem inside, Option.getD_some, word]
  simp only [reg, Nat.mod_eq_of_lt kLt]
  rfl

/-- Byte `z` of a lane, in the interleaved bytes. -/
def lanePlace (z : Nat) : Nat := 4 * (z / 4 * width + lane) + z % 4

theorem lanePlace_add (start z : Nat) (words : start % 4 = 0) :
    start * width + lanePlace lane z = lanePlace lane (start + z) := by
  have quotient : (start + z) / 4 = start / 4 + z / 4 := by omega
  have rest : (start + z) % 4 = z % 4 := by omega
  have whole : start * width = 4 * (start / 4 * width) := by
    rw [← Nat.mul_assoc]
    congr 1
    omega
  rw [lanePlace, lanePlace, quotient, rest, Nat.add_mul, whole]
  omega

/-- Where bytes of a lane stand relative to a multiple of the word size. -/
theorem lanePlace_lt (stop z : Nat) (words : stop % 4 = 0) :
    lanePlace lane z < stop * width ↔ z < stop := by
  have whole : stop * width = 4 * (stop / 4 * width) := by
    rw [← Nat.mul_assoc]
    congr 1
    omega
  rw [lanePlace, whole]
  constructor
  · intro inside
    by_contra behind
    have rows : stop / 4 * width ≤ z / 4 * width := Nat.mul_le_mul_right width (by omega)
    omega
  · intro inside
    have rows : (z / 4 + 1) * width ≤ stop / 4 * width := Nat.mul_le_mul_right width (by omega)
    rw [Nat.add_mul, Nat.one_mul] at rows
    omega

theorem laneData_byte (data : Bytes) (z : Nat) :
    (laneData lane data).byte z = data.byte (lanePlace lane z) := rfl

/-- The vectors in memory are, in each lane, the digest of that lane. -/
theorem laneData_vectorBytes (vectors : Vector (Lanes width) 8) (z : Nat) (zLt : z < 32) :
    (vectorBytes vectors).byte (lanePlace lane z) = (laneDigest lane vectors).get z := by
  have word : lanePlace lane z / 4 = z / 4 * width + lane := by
    rw [lanePlace]
    omega
  have offset : lanePlace lane z % 4 = z % 4 := by
    rw [lanePlace]
    omega
  have positive : 0 < width := Nat.zero_lt_of_lt lane.isLt
  have column : (z / 4 * width + lane) % width = lane := by
    rw [Nat.add_comm, Nat.add_mul_mod_self_right, Nat.mod_eq_of_lt lane.isLt]
  have row : (z / 4 * width + lane) / width = z / 4 := by
    rw [Nat.add_comm, Nat.add_mul_div_right _ _ positive, Nat.div_eq_of_lt lane.isLt, Nat.zero_add]
  have lanes (x : Lanes width) : x.toArray.getD lane 0 = x.get lane := by
    simp only [Array.getD_eq_getD_getElem?, Vector.getElem?_toArray,
      Vector.getElem?_eq_getElem lane.isLt, Option.getD_some]
    rfl
  have index : (Fin.ofNat 32 z).val = z := Nat.mod_eq_of_lt zLt
  simp only [vectorBytes, word, offset, column, row, lanes, U8s.get, laneDigest, index]

theorem laneBlock_pt2 (vectors : Vector (Lanes width) 8) (seed : U8s 32) :
    laneBlock lane (pt2Vector width seed (vectorBytes vectors)) =
      pt2 seed (laneDigest lane vectors) := by
  have positive : 0 < width := Nat.zero_lt_of_lt lane.isLt
  apply Vector.ext
  intro k kLt
  have inside : k * width + lane < 16 * width := by
    have next : (k + 1) * width ≤ 16 * width := Nat.mul_le_mul_right width kLt
    rw [Nat.add_mul, Nat.one_mul] at next
    omega
  have row : (k * width + lane) / width = k := by
    rw [Nat.add_comm, Nat.add_mul_div_right _ _ positive, Nat.div_eq_of_lt lane.isLt, Nat.zero_add]
  have half : k * width + lane < 8 * width ↔ k < 8 := by
    rw [← Nat.div_lt_iff_lt_mul positive, row]
  rw [laneBlock, Vector.getElem_ofFn]
  simp only [Array.getD_eq_getD_getElem?, Vector.getElem?_toArray,
    Vector.getElem?_eq_getElem inside, Option.getD_some, pt2Vector, pt2, Vector.getElem_ofFn, half,
    row]
  split
  · rename_i first
    have byte (b : Nat) (bLt : b < 4) :
        (laneData lane (vectorBytes vectors)).byte (4 * k + b) =
          (laneDigest lane vectors).get (4 * k + b) := by
      rw [laneData_byte, laneData_vectorBytes lane vectors _ (by omega)]
    have byte0 := byte 0 (by decide)
    rw [Nat.add_zero] at byte0
    rw [← leWord_laneData, leWord, leWord, byte0, byte 1 (by decide), byte 2 (by decide),
      byte 3 (by decide)]
  · rfl

/-- The hash reads the bytes of its blocks only. -/
theorem shabal256_congr (data data' : Bytes) (preTerm : Option (Words 16)) (term : Words 16)
    (len : data.len = data'.len) (same : ∀ z < data.len, data.byte z = data'.byte z) :
    shabal256 data preTerm term = shabal256 data' preTerm term := by
  have blocks (k : Nat) (inside : k < data.len / 64) :
      Shabal256.blockAt data k = Shabal256.blockAt data' k := by
    apply Vector.ext
    intro i iLt
    have word (b : Nat) (bLt : b < 4) :
        data.byte (4 * (16 * k + i) + b) = data'.byte (4 * (16 * k + i) + b) :=
      same _ (by omega)
    have byte0 := word 0 (by decide)
    rw [Nat.add_zero] at byte0
    rw [Shabal256.blockAt, Vector.getElem_ofFn, Shabal256.blockAt, Vector.getElem_ofFn, leWord,
      leWord, byte0, word 1 (by decide), word 2 (by decide), word 3 (by decide)]
  have absorbed : (List.range (data.len / 64)).foldl
      (fun state k => Shabal256.absorb (Shabal256.blockAt data k) state) Shabal256.init =
      (List.range (data'.len / 64)).foldl
      (fun state k => Shabal256.absorb (Shabal256.blockAt data' k) state) Shabal256.init := by
    rw [← len]
    apply List.foldl_ext
    intro state k listed
    rw [blocks k (List.mem_range.mp listed)]
  unfold shabal256
  rw [absorbed]

end Lanes

/-- From byte `start` on a lane of the vectors' buffer holds what the buffer of the scalar code
holds. -/
structure Tracks {width : Nat} (lane : Fin width) (start : Nat) (vectors scalar : Bytes) : Prop where
  vectorLen : vectors.len = nonceSize * width
  scalarLen : scalar.len = nonceSize
  same : ∀ z, start ≤ z → z < nonceSize → vectors.byte (lanePlace lane z) = scalar.byte z

section Rounds

variable {width : Nat} (lane : Fin width) (addressPayload : U8s 20) (seed : U8s 32)
  (startNonce : Nat)

/-- Both codes hash the same bytes of a window that is tracked. -/
theorem Tracks.hash {start i stop : Nat} {vectors scalar : Bytes}
    (tracks : Tracks lane start vectors scalar) (reached : start ≤ i) (ordered : i ≤ stop)
    (inside : stop ≤ nonceSize) (words : i % 4 = 0) (preTerm : Option (Words (16 * width)))
    (term : Words (16 * width)) :
    laneDigest lane (shabal256Vector (window vectors (i * width) (stop * width)) preTerm term) =
      shabal256 (window scalar i stop) (preTerm.map (laneBlock lane)) (laneBlock lane term) := by
  have positive : 0 < width := Nat.zero_lt_of_lt lane.isLt
  have len : (laneData lane (window vectors (i * width) (stop * width))).len = stop - i := by
    simp only [laneData, window]
    rw [← Nat.sub_mul, Nat.mul_div_cancel _ positive]
  rw [shabal256Vector_lane]
  apply shabal256_congr
  · exact len
  · intro z zLt
    rw [len] at zLt
    rw [laneData_byte]
    simp only [window]
    rw [lanePlace_add lane i z words]
    exact tracks.same (i + z) (by omega) (by omega)

/-- Both codes put a hash in front of what is tracked. -/
theorem Tracks.write {start : Nat} {vectors scalar : Bytes}
    (tracks : Tracks lane start vectors scalar) (words : start % 4 = 0) (room : hashSize ≤ start)
    (inside : start ≤ nonceSize) (hashes : Vector (Lanes width) 8) :
    Tracks lane (start - hashSize)
      (writeAt vectors (start * width - hashSize * width) (vectorBytes hashes))
      (writeAt scalar (start - hashSize) (laneDigest lane hashes).bytes) := by
  have size : hashSize = 32 := rfl
  have offset : start * width - hashSize * width = (start - hashSize) * width :=
    (Nat.sub_mul start hashSize width).symm
  have ends : (start - hashSize) * width + hashSize * width = start * width := by
    rw [← Nat.add_mul, Nat.sub_add_cancel room]
  have stops : start * width ≤ nonceSize * width := Nat.mul_le_mul_right width inside
  refine ⟨?_, ?_, ?_⟩
  · rw [writeAt_within, tracks.vectorLen]
    rw [tracks.vectorLen, offset]
    simp only [vectorBytes]
    omega
  · rw [writeAt_within, tracks.scalarLen]
    rw [tracks.scalarLen]
    simp only [U8s.bytes]
    omega
  · intro z reached zLt
    have lower := lanePlace_lt lane (start - hashSize) z (by omega)
    have upper := lanePlace_lt lane start z words
    rw [offset]
    by_cases new : z < start
    · have here : (start - hashSize) * width + lanePlace lane (z - (start - hashSize)) =
          lanePlace lane z := by
        rw [lanePlace_add lane _ _ (by omega)]
        congr 1
        omega
      rw [writeAt_inside _ _ _ _ (by omega), writeAt_inside _ _ _ _ reached, ← here,
        Nat.add_sub_cancel_left, laneData_vectorBytes lane hashes _ (by omega)]
      · rfl
      · simp only [U8s.bytes]
        omega
      · simp only [vectorBytes]
        omega
    · have within : lanePlace lane z < nonceSize * width :=
        (lanePlace_lt lane nonceSize z (by decide)).mpr zLt
      rw [writeAt_outside, writeAt_outside]
      · exact tracks.same z (by omega) zLt
      · rw [tracks.scalarLen]
        exact zLt
      · simp only [U8s.bytes]
        omega
      · rw [tracks.vectorLen]
        exact within
      · simp only [vectorBytes]
        omega

theorem Tracks.early {k : Nat} (kLt : k < hashCap / hashSize - 1)
    {vectors scalar : Bytes} (hashes : Vector (Lanes width) 8)
    (tracks : Tracks lane (nonceSize - hashSize * (k + 1)) vectors scalar) :
    Tracks lane (nonceSize - hashSize * (k + 1 + 1))
      (earlyRoundVector width addressPayload seed startNonce (vectorBytes hashes) vectors k)
      (earlyRound addressPayload seed (startNonce + lane) (laneDigest lane hashes) scalar k) := by
  have size : nonceSize = 262144 := by decide
  have cap : hashCap / hashSize = 128 := by decide
  have step : hashSize = 32 := rfl
  have start : hashSize * (k + 1) = 32 * (k + 1) := rfl
  have words : (nonceSize - hashSize * (k + 1)) % 4 = 0 := by omega
  have room : hashSize ≤ nonceSize - hashSize * (k + 1) := by omega
  have inside : nonceSize - hashSize * (k + 1) ≤ nonceSize := Nat.sub_le _ _
  have next : nonceSize - hashSize * (k + 1 + 1) =
      nonceSize - hashSize * (k + 1) - hashSize := by
    rw [Nat.mul_add hashSize (k + 1), Nat.mul_one, Nat.sub_sub]
  have hash := tracks.hash lane (Nat.le_refl _) inside (Nat.le_refl _) words
  rw [next]
  simp only [earlyRoundVector, earlyRound]
  split
  · have digest := hash none (t1Vector width addressPayload seed startNonce)
    rw [Option.map_none, t1Vector, laneBlock_interleave] at digest
    rw [← digest]
    exact tracks.write lane words room inside _
  · have digest := hash (some (pt2Vector width seed (vectorBytes hashes)))
      (t2Vector width addressPayload startNonce)
    rw [Option.map_some, t2Vector, laneBlock_interleave, laneBlock_pt2] at digest
    rw [← digest]
    exact tracks.write lane words room inside _

theorem Tracks.late {k : Nat} (kLt : k < (nonceSize - hashCap) / hashSize)
    {vectors scalar : Bytes}
    (tracks : Tracks lane (nonceSize - hashCap - hashSize * k) vectors scalar) :
    Tracks lane (nonceSize - hashCap - hashSize * (k + 1)) (lateRoundVector width vectors k)
      (lateRound scalar k) := by
  have size : nonceSize = 262144 := by decide
  have rounds : (nonceSize - hashCap) / hashSize = 8064 := by decide
  have cap : hashCap = 4096 := rfl
  have step : hashSize = 32 := rfl
  have start : hashSize * k = 32 * k := rfl
  have words : (nonceSize - hashCap - hashSize * k) % 4 = 0 := by omega
  have room : hashSize ≤ nonceSize - hashCap - hashSize * k := by omega
  have inside : nonceSize - hashCap - hashSize * k + hashCap ≤ nonceSize := by omega
  have next : nonceSize - hashCap - hashSize * (k + 1) =
      nonceSize - hashCap - hashSize * k - hashSize := by
    rw [Nat.mul_add, Nat.mul_one, Nat.sub_sub (nonceSize - hashCap)]
  have digest := tracks.hash lane (Nat.le_refl _) (Nat.le_add_right _ hashCap) inside words none
    (t3Vector width)
  rw [Option.map_none, t3Vector, laneBlock_interleave, Nat.add_mul] at digest
  rw [next, lateRoundVector, lateRound, ← digest]
  exact tracks.write lane words room (by omega) _

/-- The loops of the rounds run side by side. -/
theorem Tracks.rounds (start : Nat → Nat) (roundVector round : Bytes → Nat → Bytes)
    (count : Nat)
    (step : ∀ k < count, ∀ vectors scalar, Tracks lane (start k) vectors scalar →
      Tracks lane (start (k + 1)) (roundVector vectors k) (round scalar k))
    {vectors scalar : Bytes} (tracks : Tracks lane (start 0) vectors scalar) :
    Tracks lane (start count) ((List.range count).foldl roundVector vectors)
      ((List.range count).foldl round scalar) := by
  induction count with
  | zero => exact tracks
  | succ count ih =>
    rw [List.range_succ, List.foldl_append, List.foldl_append]
    have before := ih (fun k kLt => step k (Nat.lt_succ_of_lt kLt))
    exact step count (Nat.lt_succ_self count) _ _ before

/-- Whatever the buffers hold at first, all hashes of a lane are the scalar ones. -/
theorem Tracks.allRounds {vectors scalar : Bytes} (vectorLen : vectors.len = nonceSize * width)
    (scalarLen : scalar.len = nonceSize) :
    Tracks lane 0 (hashRoundsVector width addressPayload seed startNonce vectors)
      (hashRounds addressPayload seed (startNonce + lane) scalar) := by
  have nothing : Tracks lane nonceSize vectors scalar := by
    refine ⟨vectorLen, scalarLen, ?_⟩
    intro z reached zLt
    omega
  have empty : laneData lane (⟨0, fun _ => 0⟩ : Bytes) = ⟨0, fun _ => 0⟩ := by
    simp only [laneData, Nat.zero_div]
  have digest : laneDigest lane (shabal256Vector ⟨0, fun _ => 0⟩ none
      (t1Vector width addressPayload seed startNonce)) =
      shabal256 ⟨0, fun _ => 0⟩ none (t1 addressPayload seed (startNonce + lane)) := by
    rw [shabal256Vector_lane, empty, Option.map_none, t1Vector, laneBlock_interleave]
  have offset : width * (nonceSize - hashSize) = nonceSize * width - hashSize * width := by
    rw [Nat.mul_comm, Nat.sub_mul]
  unfold hashRoundsVector hashRounds
  rw [← digest, offset]
  generalize shabal256Vector ⟨0, fun _ => 0⟩ none
    (t1Vector width addressPayload seed startNonce) = hashes
  have first := nothing.write lane (by decide) (by decide) (Nat.le_refl _) hashes
  have early := Tracks.rounds lane (fun k => nonceSize - hashSize * (k + 1))
    (earlyRoundVector width addressPayload seed startNonce (vectorBytes hashes))
    (earlyRound addressPayload seed (startNonce + lane) (laneDigest lane hashes))
    (hashCap / hashSize - 1)
    (fun k kLt _ _ => Tracks.early lane addressPayload seed startNonce kLt hashes) first
  have late := Tracks.rounds lane (fun k => nonceSize - hashCap - hashSize * k)
    (lateRoundVector width) lateRound ((nonceSize - hashCap) / hashSize)
    (fun k kLt _ _ => Tracks.late lane kLt) early
  exact late

/-- Byte `p` of the chunks is XORed with the byte of its lane in the final hashes. -/
theorem lanePlace_chunk (z : Nat) :
    lanePlace lane z % (hashSize * width) = lanePlace lane (z % hashSize) := by
  have inside := (lanePlace_lt lane hashSize (z % hashSize) (by decide)).mpr
    (Nat.mod_lt _ (by decide))
  have whole := lanePlace_add lane (z / hashSize * hashSize) (z % hashSize)
    (by simp only [hashSize]; omega)
  have parts : z / hashSize * hashSize + z % hashSize = z := Nat.div_add_mod' z hashSize
  rw [parts, Nat.mul_assoc] at whole
  rw [← whole, Nat.mul_comm _ (hashSize * width), Nat.mul_add_mod, Nat.mod_eq_of_lt inside]

theorem Tracks.final {vectors scalar : Bytes} (tracks : Tracks lane 0 vectors scalar)
    (hashes : Vector (Lanes width) 8) :
    Tracks lane 0 (xorFinalVector width vectors (vectorBytes hashes))
      (xorFinal scalar (laneDigest lane hashes)) := by
  refine ⟨tracks.vectorLen, tracks.scalarLen, ?_⟩
  intro z reached zLt
  have inside := (lanePlace_lt lane nonceSize z (by decide)).mpr zLt
  have byte : (laneDigest lane hashes).get (z % hashSize) = (laneDigest lane hashes).get z := by
    have index : (Fin.ofNat 32 (z % hashSize)) = Fin.ofNat 32 z := Fin.ext (Nat.mod_mod z 32)
    rw [U8s.get, U8s.get, index]
  simp only [xorFinalVector, xorFinal, if_pos inside, if_pos zLt]
  have chunk := laneData_vectorBytes lane hashes (z % hashSize) (Nat.mod_lt z (by decide))
  rw [tracks.same z reached zLt, lanePlace_chunk, chunk, byte]

/-- A lane of the vectors' buffer ends as the buffer of the scalar code does. -/
theorem Tracks.nonce {vectors scalar : Bytes} (vectorLen : vectors.len = nonceSize * width)
    (scalarLen : scalar.len = nonceSize) :
    Tracks lane 0 (hashNonceVector width addressPayload seed startNonce vectors)
      (hashNonce addressPayload seed (startNonce + lane) scalar) := by
  have rounds := Tracks.allRounds lane addressPayload seed startNonce vectorLen scalarLen
  unfold hashNonceVector hashNonce
  generalize hashRoundsVector width addressPayload seed startNonce vectors = after at rounds ⊢
  generalize hashRounds addressPayload seed (startNonce + lane) scalar = after' at rounds ⊢
  have digest := rounds.hash lane (Nat.le_refl 0) (Nat.zero_le nonceSize) (Nat.le_refl _) rfl none
    (t1Vector width addressPayload seed startNonce)
  have message : laneBlock lane (t1Vector width addressPayload seed startNonce) =
      t1 addressPayload seed (startNonce + lane) := by
    rw [t1Vector, laneBlock_interleave]
  rw [Option.map_none, message] at digest
  simp only
  rw [← digest]
  exact rounds.final lane _

/-- What the scalar code leaves in its buffer does not depend on what it found there. -/
theorem hashNonce_buffer (nonce : Nat) {buffer buffer' : Bytes} (len : buffer.len = nonceSize)
    (len' : buffer'.len = nonceSize) (z : Nat) (zLt : z < nonceSize) :
    (hashNonce addressPayload seed nonce buffer).byte z =
      (hashNonce addressPayload seed nonce buffer').byte z := by
  have single : (⟨nonceSize, fun _ => 0⟩ : Bytes).len = nonceSize * 1 := (Nat.mul_one _).symm
  have first := (Tracks.nonce (0 : Fin 1) addressPayload seed nonce single len).same z
    (Nat.zero_le z) zLt
  have second := (Tracks.nonce (0 : Fin 1) addressPayload seed nonce single len').same z
    (Nat.zero_le z) zLt
  have offset : nonce + ((0 : Fin 1) : Nat) = nonce := rfl
  rw [offset] at first second
  exact first.symm.trans second

/-- A scoop of a lane is the one extracted from the scalar buffer. -/
theorem Tracks.extract {vectors scalar : Bytes} (tracks : Tracks lane 0 vectors scalar)
    {scoop : Nat} (scoopLt : scoop < numScoops) :
    extractScoopFromInterleaved vectors width lane scoop =
      extractScoopFromInterleaved scalar 1 0 scoop := by
  apply Scoop.ext
  funext z
  have zLt : z.val < 64 := z.isLt
  simp only [numScoops] at scoopLt
  have size : nonceSize = 262144 := by decide
  simp only [extractScoopFromInterleaved, Nat.mul_one, Nat.zero_mul, Nat.add_zero]
  generalize row : (if z.val < 32 then 2 * scoop else (4095 - scoop) * 2 + 1) = hash
  have rowLt : hash < 8192 := by
    rw [← row]
    split
    · omega
    · omega
  have byte : hash * 32 + z % 32 / 4 * 4 + z % 4 < nonceSize := by omega
  have place : (hash * 32 + z % 32 / 4 * 4) * width + lane * 4 + z % 4 =
      lanePlace lane (hash * 32 + z % 32 / 4 * 4 + z % 4) := by
    have word : (hash * 32 + z % 32 / 4 * 4 + z % 4) / 4 = hash * 8 + z % 32 / 4 := by omega
    have offset : (hash * 32 + z % 32 / 4 * 4 + z % 4) % 4 = z % 4 := by omega
    have scaled : hash * 32 + z % 32 / 4 * 4 = 4 * (hash * 8 + z % 32 / 4) := by omega
    rw [lanePlace, word, offset, scaled, Nat.mul_assoc]
    omega
  rw [place]
  exact tracks.same _ (Nat.zero_le _) byte

end Rounds

end Pocx.Hashlib
