import Pocx.Hashlib.BatchValidationSpec
import Pocx.Hashlib.NoncegenVector

set_option autoImplicit false

namespace Pocx.Hashlib

open ByteStore
open PlotFile (scoopSize numScoops nonceSize)
open Shabal256 (leWord reg)
open ShabalLanes
open ShabalVector

section Rounds

variable (width : Nat) (accountPayloads : Nat → U8s 20) (seeds : Nat → U8s 32)
  (nonces : Nat → Nat)

def t1Batch : Words (16 * width) :=
  interleave fun lane => t1 (accountPayloads lane) (seeds lane) (nonces lane)

def t2Batch : Words (16 * width) :=
  interleave fun lane => t2 (accountPayloads lane) (nonces lane)

/-- The bytes of the first hashes are copied over the first half. -/
def pt2Batch (firstHash : Bytes) : Words (16 * width) :=
  Vector.ofFn fun place =>
    if place.val < 8 * width then leWord firstHash.byte place
    else leWord (seeds (place % width)).get (place / width - 8)

/-- Rounds 2 to 128 of lanes that have nothing in common. -/
def earlyRoundBatch (firstHash : Bytes) (buffer : Bytes) (k : Nat) : Bytes :=
  let i := nonceSize - hashSize * (k + 1)
  let data := window buffer (i * width) (nonceSize * width)
  let hash :=
    if i % 64 = 0 then shabal256Vector data none (t1Batch width accountPayloads seeds nonces)
    else
      shabal256Vector data (some (pt2Batch width seeds firstHash))
        (t2Batch width accountPayloads nonces)
  writeAt buffer (i * width - hashSize * width) (vectorBytes hash)

def hashRoundsBatch (buffer : Bytes) : Bytes :=
  let firstHash := vectorBytes
    (shabal256Vector ⟨0, fun _ => 0⟩ none (t1Batch width accountPayloads seeds nonces))
  let first := writeAt buffer (width * (nonceSize - hashSize)) firstHash
  let early := (List.range (hashCap / hashSize - 1)).foldl
    (earlyRoundBatch width accountPayloads seeds nonces firstHash) first
  (List.range ((nonceSize - hashCap) / hashSize)).foldl (lateRoundVector width) early

/-- The body of `generate_and_extract_scoops_*` up to the extraction. -/
def hashNonceBatch (buffer : Bytes) : Bytes :=
  let rounds := hashRoundsBatch width accountPayloads seeds nonces buffer
  xorFinalVector width rounds
    (vectorBytes (shabal256Vector (window rounds (0 * width) (nonceSize * width)) none
      (t1Batch width accountPayloads seeds nonces)))

/-- `generate_and_extract_scoops_128`, `generate_and_extract_scoops_256`,
`generate_and_extract_scoops_512` and `generate_and_extract_scoops_neon`, in a zeroed buffer. -/
def generateAndExtractScoops (scoops : Nat → Nat) : List Scoop :=
  let buffer := hashNonceBatch width accountPayloads seeds nonces ⟨nonceSize * width, fun _ => 0⟩
  (List.range width).map fun lane => extractScoopFromInterleaved buffer width lane (scoops lane)

end Rounds

section Lanes

variable {width : Nat} (lane : Fin width) (accountPayloads : Nat → U8s 20) (seeds : Nat → U8s 32)
  (nonces : Nat → Nat)

/-- A lane of the second block does not see the seeds of the others. -/
theorem laneBlock_pt2Batch (vectors : Vector (Lanes width) 8) :
    laneBlock lane (pt2Batch width seeds (vectorBytes vectors)) =
      pt2 (seeds lane) (laneDigest lane vectors) := by
  rw [← laneBlock_pt2]
  apply Vector.ext
  intro k kLt
  have inside : k * width + lane < 16 * width := by
    have next : (k + 1) * width ≤ 16 * width := Nat.mul_le_mul_right width kLt
    rw [Nat.add_mul, Nat.one_mul] at next
    have laneLt := lane.isLt
    omega
  have column : (k * width + lane) % width = lane := by
    rw [Nat.add_comm, Nat.add_mul_mod_self_right, Nat.mod_eq_of_lt lane.isLt]
  rw [laneBlock, Vector.getElem_ofFn, laneBlock, Vector.getElem_ofFn]
  simp only [Array.getD_eq_getD_getElem?, Vector.getElem?_toArray,
    Vector.getElem?_eq_getElem inside, Option.getD_some, pt2Batch, pt2Vector, Vector.getElem_ofFn,
    column]

theorem Tracks.earlyBatch {k : Nat} (kLt : k < hashCap / hashSize - 1)
    {vectors scalar : Bytes} (hashes : Vector (Lanes width) 8)
    (tracks : Tracks lane (nonceSize - hashSize * (k + 1)) vectors scalar) :
    Tracks lane (nonceSize - hashSize * (k + 1 + 1))
      (earlyRoundBatch width accountPayloads seeds nonces (vectorBytes hashes) vectors k)
      (earlyRound (accountPayloads lane) (seeds lane) (nonces lane) (laneDigest lane hashes)
        scalar k) := by
  have size : nonceSize = 262144 := by decide
  have cap : hashCap / hashSize = 128 := by decide
  have step : hashSize = 32 := rfl
  have start : hashSize * (k + 1) = 32 * (k + 1) := rfl
  have words : (nonceSize - hashSize * (k + 1)) % 4 = 0 := by omega
  have room : hashSize ≤ nonceSize - hashSize * (k + 1) := by omega
  have inside : nonceSize - hashSize * (k + 1) ≤ nonceSize := Nat.sub_le _ _
  have next : nonceSize - hashSize * (k + 1 + 1) =
      nonceSize - hashSize * (k + 1) - hashSize := by
    rw [Nat.mul_add hashSize (k + 1), Nat.mul_one, Nat.sub_sub]
  have hash := tracks.hash lane (Nat.le_refl _) inside (Nat.le_refl _) words
  rw [next]
  simp only [earlyRoundBatch, earlyRound]
  split
  · have digest := hash none (t1Batch width accountPayloads seeds nonces)
    rw [Option.map_none, t1Batch, laneBlock_interleave] at digest
    rw [← digest]
    exact tracks.write lane words room inside _
  · have digest := hash (some (pt2Batch width seeds (vectorBytes hashes)))
      (t2Batch width accountPayloads nonces)
    rw [Option.map_some, t2Batch, laneBlock_interleave, laneBlock_pt2Batch] at digest
    rw [← digest]
    exact tracks.write lane words room inside _

/-- Each lane hashes its own nonce, whatever the others hash. -/
theorem Tracks.allRoundsBatch {vectors scalar : Bytes}
    (vectorLen : vectors.len = nonceSize * width) (scalarLen : scalar.len = nonceSize) :
    Tracks lane 0 (hashRoundsBatch width accountPayloads seeds nonces vectors)
      (hashRounds (accountPayloads lane) (seeds lane) (nonces lane) scalar) := by
  have nothing : Tracks lane nonceSize vectors scalar := by
    refine ⟨vectorLen, scalarLen, ?_⟩
    intro z reached zLt
    omega
  have empty : laneData lane (⟨0, fun _ => 0⟩ : Bytes) = ⟨0, fun _ => 0⟩ := by
    simp only [laneData, Nat.zero_div]
  have digest : laneDigest lane (shabal256Vector ⟨0, fun _ => 0⟩ none
      (t1Batch width accountPayloads seeds nonces)) =
      shabal256 ⟨0, fun _ => 0⟩ none (t1 (accountPayloads lane) (seeds lane) (nonces lane)) := by
    rw [shabal256Vector_lane, empty, Option.map_none, t1Batch, laneBlock_interleave]
  have offset : width * (nonceSize - hashSize) = nonceSize * width - hashSize * width := by
    rw [Nat.mul_comm, Nat.sub_mul]
  unfold hashRoundsBatch hashRounds
  rw [← digest, offset]
  generalize shabal256Vector ⟨0, fun _ => 0⟩ none
    (t1Batch width accountPayloads seeds nonces) = hashes
  have first := nothing.write lane (by decide) (by decide) (Nat.le_refl _) hashes
  have early := Tracks.rounds lane (fun k => nonceSize - hashSize * (k + 1))
    (earlyRoundBatch width accountPayloads seeds nonces (vectorBytes hashes))
    (earlyRound (accountPayloads lane) (seeds lane) (nonces lane) (laneDigest lane hashes))
    (hashCap / hashSize - 1)
    (fun k kLt _ _ => Tracks.earlyBatch lane accountPayloads seeds nonces kLt hashes) first
  have late := Tracks.rounds lane (fun k => nonceSize - hashCap - hashSize * k)
    (lateRoundVector width) lateRound ((nonceSize - hashCap) / hashSize)
    (fun k kLt _ _ => Tracks.late lane kLt) early
  exact late

theorem Tracks.nonceBatch {vectors scalar : Bytes} (vectorLen : vectors.len = nonceSize * width)
    (scalarLen : scalar.len = nonceSize) :
    Tracks lane 0 (hashNonceBatch width accountPayloads seeds nonces vectors)
      (hashNonce (accountPayloads lane) (seeds lane) (nonces lane) scalar) := by
  have rounds := Tracks.allRoundsBatch lane accountPayloads seeds nonces vectorLen scalarLen
  unfold hashNonceBatch hashNonce
  generalize hashRoundsBatch width accountPayloads seeds nonces vectors = after at rounds ⊢
  generalize hashRounds (accountPayloads lane) (seeds lane) (nonces lane) scalar = after' at rounds ⊢
  have digest := rounds.hash lane (Nat.le_refl 0) (Nat.zero_le nonceSize) (Nat.le_refl _) rfl none
    (t1Batch width accountPayloads seeds nonces)
  have message : laneBlock lane (t1Batch width accountPayloads seeds nonces) =
      t1 (accountPayloads lane) (seeds lane) (nonces lane) := by
    rw [t1Batch, laneBlock_interleave]
  rw [Option.map_none, message] at digest
  simp only
  rw [← digest]
  exact rounds.final lane _

/-- A lane of a batch yields what the scalar function makes of its own arguments. -/
theorem extract_batch_lane (scoop : Nat) (scoopLt : scoop < numScoops) :
    extractScoopFromInterleaved
        (hashNonceBatch width accountPayloads seeds nonces ⟨nonceSize * width, fun _ => 0⟩)
        width lane scoop =
      generateAndExtractScoop32 (accountPayloads lane) (seeds lane) (nonces lane) scoop :=
  (Tracks.nonceBatch lane accountPayloads seeds nonces rfl rfl).extract lane scoopLt

end Lanes

end Pocx.Hashlib

namespace Pocx.Hashlib.BatchValidation

open PlotFile (numScoops)

/-- The arrays that `process_batch_simd` fills from its units. -/
def laneUnit {α : Type} (units : List WorkUnit) (field : WorkUnit → α) (initial : α)
    (lane : Nat) : α :=
  ((units[lane]?).map field).getD initial

/-- The call of the batch function in `process_batch_simd`. -/
def extractBatch (units : List WorkUnit) : List Scoop :=
  generateAndExtractScoops units.length (laneUnit units (·.addressPayload) fun _ => 0)
    (laneUnit units (·.seed) fun _ => 0) (laneUnit units (·.baseNonce) 0)
    (laneUnit units (·.scoop) 0)

theorem laneUnit_get {α : Type} (units : List WorkUnit) (field : WorkUnit → α) (initial : α)
    (lane : Nat) (inside : lane < units.length) :
    laneUnit units field initial lane = field units[lane] := by
  simp only [laneUnit, List.getElem?_eq_getElem inside, Option.map_some, Option.getD_some]

/-- A unit asks for a scoop of a nonce. -/
theorem workUnits_scoop (inputs : List ProofInput) (unit : WorkUnit)
    (drawn : unit ∈ workUnits inputs) : unit.scoop < numScoops := by
  obtain ⟨proof, -, expanded⟩ := List.mem_flatMap.mp drawn
  obtain ⟨i, -, rfl⟩ := List.mem_map.mp expanded
  have scoopLt := calculateScoop_lt proof.1.blockHeight proof.1.generationSignature
  have inWarp : proof.1.nonce % numScoops < numScoops := Nat.mod_lt _ (by decide)
  simp only [workUnit]
  split
  · exact scoopLt
  · exact inWarp

/-- The vector functions extract from every batch of work units, of whatever proofs they are,
what the scalar function extracts from each unit alone. -/
theorem batch_extracts_units (inputs : List ProofInput) (units : List WorkUnit)
    (drawn : ∀ unit ∈ units, unit ∈ workUnits inputs) :
    extractBatch units = units.map unitScoop := by
  apply List.ext_getElem
  · simp only [extractBatch, generateAndExtractScoops, List.length_map, List.length_range]
  · intro lane laneLt laneLt'
    have inside : lane < units.length := by
      rw [List.length_map] at laneLt'
      exact laneLt'
    have scoopLt := workUnits_scoop inputs _ (drawn _ (List.getElem_mem inside))
    have single := extract_batch_lane (⟨lane, inside⟩ : Fin units.length)
      (laneUnit units (·.addressPayload) fun _ => 0) (laneUnit units (·.seed) fun _ => 0)
      (laneUnit units (·.baseNonce) 0) units[lane].scoop scoopLt
    simp only [laneUnit_get units _ _ lane inside] at single
    simp only [extractBatch, generateAndExtractScoops, List.getElem_map, List.getElem_range,
      laneUnit_get units _ _ lane inside]
    exact single

/-- Eight lanes with the units of three plots. -/
theorem batch_extracts_units_three_proofs :
    let units := (workUnits threeProofs).drop 14
    units.map (·.proofIndex) = [0, 0, 1, 1, 1, 1, 2, 2] ∧
      extractBatch units = units.map unitScoop := by
  intro units
  have drawn : ∀ unit ∈ units, unit ∈ workUnits threeProofs :=
    fun _ listed => List.mem_of_mem_drop listed
  have plots : units.map (·.proofIndex) = [0, 0, 1, 1, 1, 1, 2, 2] := by
    change ((workUnits threeProofs).drop 14).map (·.proofIndex) = [0, 0, 1, 1, 1, 1, 2, 2]
    decide +kernel
  exact ⟨plots, batch_extracts_units threeProofs units drawn⟩

end Pocx.Hashlib.BatchValidation
