import Pocx.Hashlib.Noncegen

set_option autoImplicit false

namespace Pocx.Hashlib

open ByteStore
open PlotFile (scoopSize numScoops nonceSize)

theorem mem_copies (vectorSize i j k b : Nat) :
    (i, j, k, b) ∈ copies vectorSize ↔ i < numScoops * 2 ∧ j < 8 ∧ k < vectorSize ∧ b < 4 := by
  simp only [copies, List.mem_product, List.mem_range]

theorem copies_nodup (vectorSize : Nat) : (copies vectorSize).Nodup :=
  List.nodup_range.product
    (List.nodup_range.product (List.nodup_range.product List.nodup_range))

/-- The scoop that hash `i` belongs to: even hashes forward, odd ones backward. -/
def shuffledRow (i : Nat) : Nat := if i % 2 = 0 then i / 2 else 4095 - i / 2

theorem dataOffset_cell (targetSize targetOffset i j k b : Nat) :
    dataOffset targetSize targetOffset (i, j, k, b) + b =
      Strided.cell targetSize scoopSize (shuffledRow i) (targetOffset + k)
        (i % 2 * 32 + (4 * j + b)) := by
  have row : i % 2 * (4095 - i / 2) + (i + 1) % 2 * (i / 2) = shuffledRow i := by
    unfold shuffledRow
    split
    · rename_i even
      have next : (i + 1) % 2 = 1 := by omega
      rw [even, next, Nat.zero_mul, Nat.one_mul, Nat.zero_add]
    · rename_i odd
      have one : i % 2 = 1 := by omega
      have next : (i + 1) % 2 = 0 := by omega
      rw [one, next, Nat.zero_mul, Nat.one_mul, Nat.add_zero]
  simp only [dataOffset, row, Strided.cell, Nat.add_mul, Nat.mul_right_comm, Nat.add_comm k]
  omega

theorem shuffledRow_lt (i : Nat) (iLt : i < numScoops * 2) : shuffledRow i < numScoops := by
  unfold shuffledRow
  simp only [numScoops] at *
  split
  · omega
  · omega

theorem half_lt (i j b : Nat) (jLt : j < 8) (bLt : b < 4) :
    i % 2 * 32 + (4 * j + b) < scoopSize := by
  have parity : i % 2 < 2 := Nat.mod_lt _ (by decide)
  simp only [scoopSize]
  omega

/-- No two copies meet. -/
theorem dataOffset_injective (targetSize targetOffset vectorSize : Nat)
    (fits : targetOffset + vectorSize ≤ targetSize) (copy copy' : Copy)
    (listed : copy ∈ copies vectorSize) (listed' : copy' ∈ copies vectorSize)
    (same : dataOffset targetSize targetOffset copy + copy.2.2.2 =
      dataOffset targetSize targetOffset copy' + copy'.2.2.2) : copy = copy' := by
  obtain ⟨i, j, k, b⟩ := copy
  obtain ⟨i', j', k', b'⟩ := copy'
  obtain ⟨iLt, jLt, kLt, bLt⟩ := (mem_copies vectorSize i j k b).mp listed
  obtain ⟨iLt', jLt', kLt', bLt'⟩ := (mem_copies vectorSize i' j' k' b').mp listed'
  simp only [dataOffset_cell] at same
  obtain ⟨rows, columns, offsets⟩ := Strided.cell_injective _ _ _ _ _ _ _ _ (by omega)
    (by omega) (half_lt i j b jLt bLt) (half_lt i' j' b' jLt' bLt') same
  have parity : i % 2 = i' % 2 := by omega
  have hashes : i = i' := by
    simp only [shuffledRow, parity] at rows
    simp only [numScoops] at iLt iLt'
    split at rows
    · omega
    · omega
  subst hashes
  have words : j = j' ∧ k = k' ∧ b = b' := by omega
  obtain ⟨rfl, rfl, rfl⟩ := words
  rfl

/-- The copy that brings byte `z` of a scoop of a lane to its place. -/
def copyOf (scoop lane : Nat) (z : Fin scoopSize) : Copy :=
  (if z.val < 32 then 2 * scoop else (4095 - scoop) * 2 + 1, z % 32 / 4, lane, z % 4)

theorem copyOf_mem {scoop lane lanes : Nat} (z : Fin scoopSize) (scoopLt : scoop < numScoops)
    (laneLt : lane < lanes) : copyOf scoop lane z ∈ copies lanes := by
  apply (mem_copies lanes _ _ _ _).mpr
  refine ⟨?_, by omega, laneLt, by omega⟩
  simp only [numScoops] at *
  split
  · omega
  · omega

theorem copyOf_cell {scoop : Nat} (scoopLt : scoop < numScoops) (targetSize targetOffset lane : Nat)
    (z : Fin scoopSize) :
    dataOffset targetSize targetOffset (copyOf scoop lane z) + (copyOf scoop lane z).2.2.2 =
      scoopAddress targetSize scoop (targetOffset + lane) + z := by
  have zLt : z.val < 64 := z.isLt
  simp only [numScoops] at scoopLt
  rw [copyOf, dataOffset_cell, scoopAddress_cell]
  by_cases first : z.val < 32
  · have even : 2 * scoop % 2 = 0 := Nat.mul_mod_right 2 scoop
    have row : shuffledRow (2 * scoop) = scoop := by
      rw [shuffledRow, if_pos even]
      omega
    have offset : 0 * 32 + (4 * (z.val % 32 / 4) + z.val % 4) = z := by omega
    rw [if_pos first, row, even, offset]
  · have odd : ((4095 - scoop) * 2 + 1) % 2 = 1 := by omega
    have row : shuffledRow ((4095 - scoop) * 2 + 1) = scoop := by
      rw [shuffledRow, if_neg (by omega)]
      omega
    have offset : 1 * 32 + (4 * (z.val % 32 / 4) + z.val % 4) = z := by omega
    rw [if_neg first, row, odd, offset]

/-- A copy into a column that the target has stays inside the target. -/
theorem dataOffset_room {targetSize targetOffset lanes : Nat} (fits : targetOffset + lanes ≤ targetSize)
    {copy : Copy} (listed : copy ∈ copies lanes) :
    dataOffset targetSize targetOffset copy + 4 ≤ targetSize * nonceSize := by
  obtain ⟨i, j, k, b⟩ := copy
  obtain ⟨iLt, jLt, kLt, bLt⟩ := (mem_copies lanes i j k b).mp listed
  have last := dataOffset_cell targetSize targetOffset i j k 3
  have inside := Strided.cell_lt numScoops targetSize scoopSize (shuffledRow i) (targetOffset + k)
    (i % 2 * 32 + (4 * j + 3)) (shuffledRow_lt i iLt) (by omega)
    (half_lt i j 3 jLt (by omega))
  have rows : numScoops * targetSize * scoopSize = targetSize * nonceSize := by
    rw [nonceSize, Nat.mul_comm numScoops, Nat.mul_assoc]
  rw [← last, rows] at inside
  simp only [dataOffset] at inside ⊢
  omega

/-- So does what it reads in a block of lanes. -/
theorem bufferOffset_room {vectorSize lanes : Nat} (few : lanes ≤ vectorSize) {copy : Copy}
    (listed : copy ∈ copies lanes) :
    bufferOffset vectorSize copy + 4 ≤ nonceSize * vectorSize := by
  obtain ⟨i, j, k, b⟩ := copy
  obtain ⟨iLt, jLt, kLt, bLt⟩ := (mem_copies lanes i j k b).mp listed
  have words : i * 32 + 4 * j + 4 ≤ nonceSize := by
    simp only [numScoops] at iLt
    have size : nonceSize = 262144 := by decide
    omega
  have scaled := Nat.mul_le_mul_right vectorSize words
  rw [Nat.add_mul _ 4] at scaled
  simp only [bufferOffset]
  omega

section Copies

variable (inside : Copy → Bool) (value : Copy → UInt8) (target : Nat → UInt8)
  {targetSize targetOffset lanes : Nat} (fits : targetOffset + lanes ≤ targetSize)

include fits

/-- Each byte of a lane's column comes from its own copy. -/
theorem copies_lane {scoop lane : Nat} (z : Fin scoopSize) (scoopLt : scoop < numScoops)
    (laneLt : lane < lanes) (guarded : inside (copyOf scoop lane z) = true) :
    Scatter.run inside (fun copy => dataOffset targetSize targetOffset copy + copy.2.2.2)
        (fun copy _ => value copy) target (copies lanes)
        (scoopAddress targetSize scoop (targetOffset + lane) + z) =
      value (copyOf scoop lane z) := by
  have distinct : ((copies lanes).map fun copy =>
      dataOffset targetSize targetOffset copy + copy.2.2.2).Nodup := by
    apply List.Nodup.map_on _ (copies_nodup lanes)
    intro copy listed copy' listed' same
    exact dataOffset_injective _ _ _ fits copy copy' listed listed' same
  have written := Scatter.run_inside inside
    (fun copy => dataOffset targetSize targetOffset copy + copy.2.2.2)
    (fun copy _ => value copy) target (copies lanes) distinct (copyOf scoop lane z)
    (copyOf_mem z scoopLt laneLt) guarded
  simp only [copyOf_cell scoopLt] at written
  exact written

theorem copies_other {scoop column : Nat} (z : Fin scoopSize) (columnLt : column < targetSize)
    (apart : column < targetOffset ∨ targetOffset + lanes ≤ column) :
    Scatter.run inside (fun copy => dataOffset targetSize targetOffset copy + copy.2.2.2)
        (fun copy _ => value copy) target (copies lanes)
        (scoopAddress targetSize scoop column + z) =
      target (scoopAddress targetSize scoop column + z) := by
  apply Scatter.run_outside
  intro copy listed same
  obtain ⟨i, j, k, b⟩ := copy
  obtain ⟨iLt, jLt, kLt, bLt⟩ := (mem_copies lanes i j k b).mp listed
  simp only [dataOffset_cell, scoopAddress_cell] at same
  obtain ⟨-, columns, -⟩ := Strided.cell_injective _ _ _ _ _ _ _ _ (by omega) columnLt
    (half_lt i j b jLt bLt) z.isLt same
  omega

end Copies

section Scatter

variable (source target : Bytes) (targetOffset vectorSize : Nat)

theorem unpackShuffleScatter_len :
    (unpackShuffleScatter source target targetOffset vectorSize).len = target.len := by
  simp only [unpackShuffleScatter]

/-- A lane ends up in its column, with the two halves of each scoop that
`extract_scoop_from_interleaved` reads. -/
theorem unpackShuffleScatter_lane (sourceLen : source.len = nonceSize * vectorSize)
    (fits : targetOffset + vectorSize ≤ target.len / nonceSize) (lane scoop : Nat)
    (laneLt : lane < vectorSize) (scoopLt : scoop < numScoops) :
    scoopAt (unpackShuffleScatter source target targetOffset vectorSize)
        (scoopAddress (target.len / nonceSize) scoop (targetOffset + lane)) =
      extractScoopFromInterleaved source vectorSize lane scoop := by
  apply Scoop.ext
  funext z
  have listed := copyOf_mem z scoopLt laneLt
  have targetRoom : dataOffset (target.len / nonceSize) targetOffset (copyOf scoop lane z) + 4 ≤
      target.len := Nat.le_trans (dataOffset_room fits listed) (Nat.div_mul_le_self _ _)
  have sourceRoom : bufferOffset vectorSize (copyOf scoop lane z) + 4 ≤ source.len := by
    rw [sourceLen]
    exact bufferOffset_room (Nat.le_refl _) listed
  simp only [scoopAt, unpackShuffleScatter]
  rw [copies_lane _ _ _ fits z scoopLt laneLt]
  · simp only [extractScoopFromInterleaved, bufferOffset, copyOf, Nat.mul_comm 4]
  · rw [decide_eq_false (Nat.not_lt.mpr targetRoom), decide_eq_false (Nat.not_lt.mpr sourceRoom)]
    rfl

/-- The other columns stay as they are. -/
theorem unpackShuffleScatter_other (fits : targetOffset + vectorSize ≤ target.len / nonceSize)
    (scoop column : Nat) (columnLt : column < target.len / nonceSize)
    (apart : column < targetOffset ∨ targetOffset + vectorSize ≤ column) :
    scoopAt (unpackShuffleScatter source target targetOffset vectorSize)
        (scoopAddress (target.len / nonceSize) scoop column) =
      scoopAt target (scoopAddress (target.len / nonceSize) scoop column) := by
  apply Scoop.ext
  funext z
  simp only [scoopAt, unpackShuffleScatter]
  exact copies_other _ _ _ fits z columnLt apart

/-- Bytes outside the columns of the lanes stay as they are. -/
theorem unpackShuffleScatter_frame (place : Nat)
    (apart : ∀ scoop < numScoops, ∀ lane < vectorSize, ∀ z : Fin scoopSize,
      place ≠ scoopAddress (target.len / nonceSize) scoop (targetOffset + lane) + z) :
    (unpackShuffleScatter source target targetOffset vectorSize).byte place = target.byte place := by
  simp only [unpackShuffleScatter]
  apply Scatter.run_outside
  intro copy listed same
  obtain ⟨i, j, k, b⟩ := copy
  obtain ⟨iLt, jLt, kLt, bLt⟩ := (mem_copies vectorSize i j k b).mp listed
  apply apart (shuffledRow i) (shuffledRow_lt i iLt) k kLt
    ⟨i % 2 * 32 + (4 * j + b), half_lt i j b jLt bLt⟩
  rw [← same, dataOffset_cell, scoopAddress_cell]

/-- Only the bytes of the source that exist are read. -/
theorem unpackShuffleScatter_congr (source' : Bytes) (len : source.len = source'.len)
    (same : ∀ z < source.len, source.byte z = source'.byte z) :
    unpackShuffleScatter source target targetOffset vectorSize =
      unpackShuffleScatter source' target targetOffset vectorSize := by
  have copied := Scatter.run_congr
    (fun copy =>
      !(decide (target.len < dataOffset (target.len / nonceSize) targetOffset copy + 4) ||
        decide (source.len < bufferOffset vectorSize copy + 4)))
    (fun copy => dataOffset (target.len / nonceSize) targetOffset copy + copy.2.2.2)
    (fun copy _ => source.byte (bufferOffset vectorSize copy + copy.2.2.2))
    (fun copy _ => source'.byte (bufferOffset vectorSize copy + copy.2.2.2)) target.byte
    (copies vectorSize) (by
      intro copy listed guarded
      obtain ⟨i, j, k, b⟩ := copy
      obtain ⟨-, -, -, bLt⟩ := (mem_copies vectorSize i j k b).mp listed
      simp only [Bool.not_eq_true', Bool.or_eq_false_iff, decide_eq_false_iff_not] at guarded
      have inside : bufferOffset vectorSize (i, j, k, b) + b < source.len := by omega
      funext _
      exact same _ inside)
  rw [len] at copied
  simp only [unpackShuffleScatter, len, copied]

end Scatter

/-- The turns of the loops read every word of the source, each one once. -/
theorem words_read_once (vectorSize word : Nat) (wordLt : word < numScoops * 2 * 8 * vectorSize) :
    ∃! turn : Nat × Nat × Nat,
      (turn.1 < numScoops * 2 ∧ turn.2.1 < 8 ∧ turn.2.2 < vectorSize) ∧
        bufferOffset vectorSize (turn.1, turn.2.1, turn.2.2, 0) = 4 * word := by
  have offset (i j k : Nat) :
      bufferOffset vectorSize (i, j, k, 0) = 4 * ((i * 8 + j) * vectorSize + k) := by
    have scaled : i * 32 + 4 * j = 4 * (i * 8 + j) := by omega
    rw [bufferOffset, scaled, Nat.mul_assoc, Nat.mul_add]
    omega
  have positive : 0 < vectorSize := by
    by_contra none
    rw [Nat.eq_zero_of_not_pos none, Nat.mul_zero] at wordLt
    omega
  have row : word / vectorSize < numScoops * 2 * 8 := by
    rw [Nat.div_lt_iff_lt_mul positive]
    exact wordLt
  have hash : word / vectorSize / 8 < numScoops * 2 := by omega
  have group : word / vectorSize % 8 < 8 := Nat.mod_lt _ (by decide)
  refine ⟨(word / vectorSize / 8, word / vectorSize % 8, word % vectorSize),
    ⟨⟨hash, group, Nat.mod_lt _ positive⟩, ?_⟩, ?_⟩
  · simp only
    rw [offset, Nat.mul_comm (word / vectorSize / 8), Nat.div_add_mod, Nat.mul_comm _ vectorSize,
      Nat.div_add_mod]
  · rintro ⟨i, j, k⟩ ⟨⟨-, jLt, kLt⟩, here⟩
    simp only at jLt kLt here
    rw [offset] at here
    have index : (i * 8 + j) * vectorSize + k = word := by omega
    subst index
    have whole : ((i * 8 + j) * vectorSize + k) / vectorSize = i * 8 + j := by
      rw [Nat.add_comm, Nat.add_mul_div_right _ _ positive, Nat.div_eq_of_lt kLt, Nat.zero_add]
    have rest : ((i * 8 + j) * vectorSize + k) % vectorSize = k := by
      rw [Nat.add_comm, Nat.add_mul_mod_self_right, Nat.mod_eq_of_lt kLt]
    have upper : (i * 8 + j) / 8 = i := by omega
    have lower : (i * 8 + j) % 8 = j := by omega
    rw [whole, rest, upper, lower]

/-- They write every byte of the columns of the lanes, each one once. -/
theorem bytes_written_once {targetSize targetOffset vectorSize : Nat}
    (fits : targetOffset + vectorSize ≤ targetSize) {scoop lane : Nat} (scoopLt : scoop < numScoops)
    (laneLt : lane < vectorSize) (z : Fin scoopSize) :
    ∃! copy, copy ∈ copies vectorSize ∧
      dataOffset targetSize targetOffset copy + copy.2.2.2 =
        scoopAddress targetSize scoop (targetOffset + lane) + z := by
  have listed := copyOf_mem z scoopLt laneLt
  have address := copyOf_cell scoopLt targetSize targetOffset lane z
  refine ⟨copyOf scoop lane z, ⟨listed, address⟩, ?_⟩
  rintro copy ⟨listed', address'⟩
  exact dataOffset_injective _ _ _ fits copy _ listed' listed (address'.trans address.symm)

/-- The extracted scoop is the one that the shuffle leaves in the column of the lane, and the
shuffle moves the words of the source to the columns of the lanes one to one. -/
theorem extract_agrees (vectorSize : Nat) (source target : Bytes) (targetOffset : Nat)
    (sourceLen : source.len = nonceSize * vectorSize)
    (fits : targetOffset + vectorSize ≤ target.len / nonceSize) :
    (∀ lane < vectorSize, ∀ scoop < numScoops,
      extractScoopFromInterleaved source vectorSize lane scoop =
        scoopAt (unpackShuffleScatter source target targetOffset vectorSize)
          (scoop * (target.len / nonceSize) * 64 + (targetOffset + lane) * 64)) ∧
    (∀ word, 4 * word < source.len → ∃! turn : Nat × Nat × Nat,
      (turn.1 < numScoops * 2 ∧ turn.2.1 < 8 ∧ turn.2.2 < vectorSize) ∧
        bufferOffset vectorSize (turn.1, turn.2.1, turn.2.2, 0) = 4 * word) ∧
    (∀ lane < vectorSize, ∀ scoop < numScoops, ∀ z : Fin scoopSize,
      ∃! copy, copy ∈ copies vectorSize ∧
        dataOffset (target.len / nonceSize) targetOffset copy + copy.2.2.2 =
          scoop * (target.len / nonceSize) * 64 + (targetOffset + lane) * 64 + z) ∧
    (∀ copy ∈ copies vectorSize,
      dataOffset (target.len / nonceSize) targetOffset copy + 4 ≤ target.len ∧
        bufferOffset vectorSize copy + 4 ≤ source.len) ∧
    ∀ place, (∀ lane < vectorSize, ∀ scoop < numScoops, ∀ z : Fin scoopSize,
        place ≠ scoop * (target.len / nonceSize) * 64 + (targetOffset + lane) * 64 + z) →
      (unpackShuffleScatter source target targetOffset vectorSize).byte place =
        target.byte place := by
  refine ⟨?_, ?_, ?_, ?_, ?_⟩
  · intro lane laneLt scoop scoopLt
    exact (unpackShuffleScatter_lane source target targetOffset vectorSize sourceLen fits lane scoop
      laneLt scoopLt).symm
  · intro word inside
    apply words_read_once
    have words : nonceSize = 4 * (numScoops * 2 * 8) := by decide
    rw [sourceLen, words, Nat.mul_assoc] at inside
    exact Nat.lt_of_mul_lt_mul_left inside
  · intro lane laneLt scoop scoopLt z
    exact bytes_written_once fits scoopLt laneLt z
  · intro copy listed
    refine ⟨Nat.le_trans (dataOffset_room fits listed) (Nat.div_mul_le_self _ _), ?_⟩
    rw [sourceLen]
    exact bufferOffset_room (Nat.le_refl _) listed
  · intro place apart
    apply unpackShuffleScatter_frame
    intro scoop scoopLt lane laneLt z
    exact apart lane laneLt scoop scoopLt z

/-- Four lanes in the middle of six columns. -/
theorem extract_agrees_four_lanes :
    extractScoopFromInterleaved ⟨nonceSize * 4, fun i => i.toUInt8⟩ 4 3 4095 =
      scoopAt (unpackShuffleScatter ⟨nonceSize * 4, fun i => i.toUInt8⟩
        ⟨nonceSize * 6, fun _ => 0⟩ 1 4) (4095 * (nonceSize * 6 / nonceSize) * 64 + (1 + 3) * 64) := by
  have columns : nonceSize * 6 / nonceSize = 6 := Nat.mul_div_cancel_left 6 (by decide)
  have agrees := extract_agrees 4 ⟨nonceSize * 4, fun i => i.toUInt8⟩ ⟨nonceSize * 6, fun _ => 0⟩ 1
    rfl (by rw [columns]; decide)
  exact agrees.1 3 (by decide) 4095 (by decide)

end Pocx.Hashlib
