import Pocx.PlotFile.Batches

set_option autoImplicit false

namespace Pocx.PlotFile

open ByteStore

def u64Max : Nat := 2 ^ 64 - 1

def saturatingMul (a b : Nat) : Nat := min (a * b) u64Max

def saturatingAdd (a b : Nat) : Nat := min (a + b) u64Max

/-- What the readers return or end with; `panic` is a slice that is out of range. -/
inductive ReadFailure
  | invalidScoop (scoop : Nat)
  | nonceOutOfRange (nonce max : Nat)
  | warpOutOfRange (warp max : Nat)
  | io
  | panic
deriving DecidableEq

/-- `file_offset_nonce` -/
def fileOffsetNonce (numberOfWarps scoop nonce : Nat) : Except ReadFailure Nat :=
  let maxNonce := saturatingMul numberOfWarps numScoops
  if numScoops ≤ scoop then .error (.invalidScoop scoop)
  else if maxNonce ≤ nonce then .error (.nonceOutOfRange nonce (maxNonce - 1))
  else
    .ok
      (saturatingAdd
        (saturatingMul (saturatingMul (saturatingMul scoop numberOfWarps) numScoops) scoopSize)
        (saturatingMul nonce scoopSize))

/-- `file_offset_warp` -/
def fileOffsetWarp (numberOfWarps scoop warp : Nat) : Except ReadFailure Nat :=
  if numScoops ≤ scoop then .error (.invalidScoop scoop)
  else if numberOfWarps ≤ warp then .error (.warpOutOfRange warp (numberOfWarps - 1))
  else
    .ok
      (saturatingAdd
        (saturatingMul (saturatingMul (saturatingMul scoop numberOfWarps) numScoops) scoopSize)
        (saturatingMul (saturatingMul warp numScoops) scoopSize))

/-- `read_nonce`. Without a handle nothing is read. -/
def File.readNonce (file : File) (scoop nonce : Nat) : Except ReadFailure Bytes :=
  match fileOffsetNonce file.numberOfWarps scoop nonce with
  | .error error => .error error
  | .ok address =>
    let scoopdata : Bytes := ⟨scoopSize, fun _ => 0⟩
    match file.access with
    | .read | .readWrite =>
      if file.fileHandle then
        match file.content.slice address scoopSize with
        | some data => .ok data
        | none => .error .io
      else .ok scoopdata
    | .dummy => .ok scoopdata

/-- The warps that `read` takes for a buffer of some capacity. -/
def warpsToRead (numberOfWarps readProgress capacity : Nat) : Nat :=
  min (numberOfWarps - readProgress) (capacity / numScoops / scoopSize)

/-- `read`, at a read progress below the number of warps: the buffer and the warps read. -/
def File.read (file : File) (readProgress capacity : Nat) (bs : Bytes) (scoop : Nat) :
    Except ReadFailure (Bytes × Nat) :=
  let warps := warpsToRead file.numberOfWarps readProgress capacity
  let bytesToRead := warps * numScoops * scoopSize
  match fileOffsetWarp file.numberOfWarps scoop readProgress with
  | .error error => .error error
  | .ok startOffset =>
    match file.access with
    | .read | .readWrite =>
      if file.fileHandle then
        if bs.len < bytesToRead then .error .panic
        else
          match file.content.slice startOffset bytesToRead with
          | some data => .ok (writeAt bs 0 data, warps)
          | none => .error .io
      else .ok (bs, warps)
    | .dummy => .ok (bs, warps)

/-- Each byte of a plot belongs to one scoop of one nonce. -/
structure Layout (numberOfWarps : Nat) : Prop where
  succeeds : ∀ scoop nonce, (∃ offset, fileOffsetNonce numberOfWarps scoop nonce = .ok offset) ↔
    scoop < numScoops ∧ nonce < numScoops * numberOfWarps
  inside : ∀ scoop nonce offset, fileOffsetNonce numberOfWarps scoop nonce = .ok offset →
    offset + scoopSize ≤ numberOfWarps * warpSize
  disjoint : ∀ scoop nonce offset scoop' nonce' offset' z z',
    fileOffsetNonce numberOfWarps scoop nonce = .ok offset →
    fileOffsetNonce numberOfWarps scoop' nonce' = .ok offset' → z < scoopSize → z' < scoopSize →
    offset + z = offset' + z' → scoop = scoop' ∧ nonce = nonce'
  covers : ∀ i < numberOfWarps * warpSize, ∃ scoop nonce offset,
    fileOffsetNonce numberOfWarps scoop nonce = .ok offset ∧ offset ≤ i ∧ i < offset + scoopSize

section Offsets

variable {numberOfWarps : Nat} (bounded : numberOfWarps * warpSize < 2 ^ 64)

/-- Offsets by nonce and by warp, for any size of a warp's row and of a scoop. -/
theorem nested_rows (columns rows blocks row block place offset : Nat) :
    (row * (columns * rows) + (block * rows + place)) * blocks + offset =
      row * columns * rows * blocks + block * rows * blocks + (place * blocks + offset) := by
  simp only [Nat.add_mul, Nat.mul_assoc, Nat.add_assoc]

/-- The nonces of a plot, as those of its warps. -/
theorem nonce_cell (numberOfWarps scoop warp nonce offset : Nat) :
    Strided.cell (numberOfWarps * numScoops) scoopSize scoop (warp * numScoops + nonce) offset =
      fileOffset scoop warp numberOfWarps + (nonce * scoopSize + offset) :=
  nested_rows numberOfWarps numScoops scoopSize scoop warp nonce offset

theorem plot_cells (numberOfWarps : Nat) :
    numScoops * (numberOfWarps * numScoops) * scoopSize = numberOfWarps * warpSize := by
  simp only [warpSize, nonceSize, Nat.mul_comm, Nat.mul_left_comm]

include bounded

/-- Nothing saturates in the plot. -/
theorem fileOffsetNonce_ok {scoop nonce : Nat} (scoopLt : scoop < numScoops)
    (nonceLt : nonce < numberOfWarps * numScoops) :
    fileOffsetNonce numberOfWarps scoop nonce =
      .ok (Strided.cell (numberOfWarps * numScoops) scoopSize scoop nonce 0) := by
  have inside := Strided.cell_lt numScoops (numberOfWarps * numScoops) scoopSize scoop nonce 0
    scoopLt nonceLt (by decide)
  rw [plot_cells] at inside
  have nonces : numberOfWarps * numScoops ≤ numberOfWarps * warpSize :=
    Nat.mul_le_mul_left _ (by decide)
  have sum : Strided.cell (numberOfWarps * numScoops) scoopSize scoop nonce 0 =
      scoop * numberOfWarps * numScoops * scoopSize + nonce * scoopSize := by
    simp only [Strided.cell, Nat.add_zero, Nat.add_mul, Nat.mul_assoc]
  rw [sum] at inside ⊢
  have row : scoop * numberOfWarps * numScoops ≤ scoop * numberOfWarps * numScoops * scoopSize :=
    Nat.le_mul_of_pos_right _ (by decide)
  have column : scoop * numberOfWarps ≤ scoop * numberOfWarps * numScoops :=
    Nat.le_mul_of_pos_right _ (by decide)
  have maxNonce : saturatingMul numberOfWarps numScoops = numberOfWarps * numScoops :=
    Nat.min_eq_left (by simp only [u64Max]; omega)
  have first : saturatingMul scoop numberOfWarps = scoop * numberOfWarps :=
    Nat.min_eq_left (by simp only [u64Max]; omega)
  have second : saturatingMul (scoop * numberOfWarps) numScoops =
      scoop * numberOfWarps * numScoops := Nat.min_eq_left (by simp only [u64Max]; omega)
  have third : saturatingMul (scoop * numberOfWarps * numScoops) scoopSize =
      scoop * numberOfWarps * numScoops * scoopSize :=
    Nat.min_eq_left (by simp only [u64Max]; omega)
  have fourth : saturatingMul nonce scoopSize = nonce * scoopSize :=
    Nat.min_eq_left (by simp only [u64Max]; omega)
  have fifth : saturatingAdd (scoop * numberOfWarps * numScoops * scoopSize) (nonce * scoopSize) =
      scoop * numberOfWarps * numScoops * scoopSize + nonce * scoopSize :=
    Nat.min_eq_left (by simp only [u64Max]; omega)
  simp only [fileOffsetNonce, if_neg (Nat.not_le.mpr scoopLt), maxNonce,
    if_neg (Nat.not_le.mpr nonceLt), first, second, third, fourth, fifth]

/-- The offset of a warp is that of its first nonce. -/
theorem fileOffsetWarp_ok {scoop warp : Nat} (scoopLt : scoop < numScoops)
    (warpLt : warp < numberOfWarps) :
    fileOffsetWarp numberOfWarps scoop warp = .ok (fileOffset scoop warp numberOfWarps) := by
  have first : warp * numScoops < numberOfWarps * numScoops :=
    Nat.mul_lt_mul_of_pos_right warpLt (by decide)
  have nonce := fileOffsetNonce_ok bounded scoopLt first
  have nonces : numberOfWarps * numScoops ≤ numberOfWarps * warpSize :=
    Nat.mul_le_mul_left _ (by decide)
  have maxNonce : saturatingMul numberOfWarps numScoops = numberOfWarps * numScoops :=
    Nat.min_eq_left (by simp only [u64Max]; omega)
  have product : saturatingMul warp numScoops = warp * numScoops :=
    Nat.min_eq_left (by simp only [u64Max]; omega)
  have sum := nonce_cell numberOfWarps scoop warp 0 0
  rw [Nat.add_zero, Nat.zero_mul, Nat.add_zero] at sum
  rw [sum] at nonce
  simp only [fileOffsetNonce, maxNonce, if_neg (Nat.not_le.mpr scoopLt),
    if_neg (Nat.not_le.mpr first)] at nonce
  simp only [fileOffsetWarp, product, if_neg (Nat.not_le.mpr scoopLt),
    if_neg (Nat.not_le.mpr warpLt), nonce]

theorem fileOffsetNonce_spec {scoop nonce offset : Nat}
    (done : fileOffsetNonce numberOfWarps scoop nonce = .ok offset) :
    scoop < numScoops ∧ nonce < numberOfWarps * numScoops ∧
      offset = Strided.cell (numberOfWarps * numScoops) scoopSize scoop nonce 0 := by
  have nonces : numberOfWarps * numScoops ≤ numberOfWarps * warpSize :=
    Nat.mul_le_mul_left _ (by decide)
  have maxNonce : saturatingMul numberOfWarps numScoops = numberOfWarps * numScoops :=
    Nat.min_eq_left (by simp only [u64Max]; omega)
  have ranges : scoop < numScoops ∧ nonce < numberOfWarps * numScoops := by
    simp only [fileOffsetNonce, maxNonce] at done
    split at done
    · cases done
    · split at done
      · cases done
      · omega
  rw [fileOffsetNonce_ok bounded ranges.1 ranges.2] at done
  injection done with same
  exact ⟨ranges.1, ranges.2, same.symm⟩

theorem layout : Layout numberOfWarps := by
  refine ⟨?_, ?_, ?_, ?_⟩
  · intro scoop nonce
    rw [Nat.mul_comm numScoops]
    constructor
    · rintro ⟨offset, done⟩
      obtain ⟨scoopLt, nonceLt, -⟩ := fileOffsetNonce_spec bounded done
      exact ⟨scoopLt, nonceLt⟩
    · rintro ⟨scoopLt, nonceLt⟩
      exact ⟨_, fileOffsetNonce_ok bounded scoopLt nonceLt⟩
  · intro scoop nonce offset done
    obtain ⟨scoopLt, nonceLt, rfl⟩ := fileOffsetNonce_spec bounded done
    have last := Strided.cell_lt numScoops (numberOfWarps * numScoops) scoopSize scoop nonce
      (scoopSize - 1) scoopLt nonceLt (by decide)
    rw [plot_cells] at last
    simp only [Strided.cell, scoopSize] at last ⊢
    omega
  · intro scoop nonce offset scoop' nonce' offset' z z' done done' zLt zLt' same
    obtain ⟨-, nonceLt, rfl⟩ := fileOffsetNonce_spec bounded done
    obtain ⟨-, nonceLt', rfl⟩ := fileOffsetNonce_spec bounded done'
    simp only [Strided.cell, Nat.add_zero] at same
    obtain ⟨scoops, nonces, -⟩ := Strided.cell_injective (numberOfWarps * numScoops) scoopSize scoop
      nonce z scoop' nonce' z' nonceLt nonceLt' zLt zLt' same
    exact ⟨scoops, nonces⟩
  · intro i iLt
    rw [← plot_cells] at iLt
    have columns : 0 < numberOfWarps * numScoops := by
      apply Nat.pos_of_ne_zero
      intro none
      rw [none, Nat.mul_zero, Nat.zero_mul] at iLt
      exact Nat.not_lt_zero i iLt
    have index : i / scoopSize < numScoops * (numberOfWarps * numScoops) := by
      rw [Nat.div_lt_iff_lt_mul (by decide)]
      exact iLt
    have scoopLt : i / scoopSize / (numberOfWarps * numScoops) < numScoops := by
      rw [Nat.div_lt_iff_lt_mul columns]
      exact index
    have nonceLt := Nat.mod_lt (i / scoopSize) columns
    refine ⟨_, _, _, fileOffsetNonce_ok bounded scoopLt nonceLt, ?_⟩
    rw [Strided.cell, Nat.div_add_mod', Nat.add_zero]
    have parts := Nat.div_add_mod' i scoopSize
    have rest : i % scoopSize < scoopSize := Nat.mod_lt _ (by decide)
    omega

end Offsets

/-- The readers of a plot return what a batch supplied, but for the marker. -/
structure ReadsBack (file : File) (data : Bytes) (startWarp warpsToWrite : Nat) : Prop where
  nonces : ∀ scoop < numScoops, ∀ warp, startWarp ≤ warp → warp < startWarp + warpsToWrite →
    ∀ nonce < numScoops, ∃ scoopdata,
      file.readNonce scoop (warp * numScoops + nonce) = .ok scoopdata ∧ scoopdata.len = scoopSize ∧
      ∀ offset < scoopSize, ¬ AtMarker file.numberOfWarps scoop warp nonce offset →
        scoopdata.byte offset =
          data.byte (((scoop * (data.len / warpSize) + (warp - startWarp)) * numScoops + nonce) *
            scoopSize + offset)
  warps : ∀ scoop < numScoops, ∀ warp, startWarp ≤ warp → warp < startWarp + warpsToWrite →
    ∀ capacity bs,
      warpsToRead file.numberOfWarps warp capacity * numScoops * scoopSize ≤ bs.len →
      ∃ after, file.read warp capacity bs scoop =
          .ok (after, warpsToRead file.numberOfWarps warp capacity) ∧
        ∀ k < warpsToRead file.numberOfWarps warp capacity,
          warp + k < startWarp + warpsToWrite → ∀ nonce < numScoops, ∀ offset < scoopSize,
          ¬ AtMarker file.numberOfWarps scoop (warp + k) nonce offset →
          after.byte ((k * numScoops + nonce) * scoopSize + offset) =
            data.byte (((scoop * (data.len / warpSize) + (warp + k - startWarp)) * numScoops +
              nonce) * scoopSize + offset)

section Readers

/-- An open plot with all its bytes, in which a batch is found in its place. -/
structure Holds (file : File) (batch : Batch) : Prop where
  handle : file.fileHandle = true
  access : file.access ≠ .dummy
  len : file.numberOfWarps * warpSize ≤ file.content.len
  fits : batch.startWarp + batch.warpsToWrite ≤ file.numberOfWarps
  bytes : ∀ scoop < numScoops, ∀ warp, batch.startWarp ≤ warp →
    warp < batch.startWarp + batch.warpsToWrite → ∀ nonce < numScoops, ∀ offset < scoopSize,
    ¬ AtMarker file.numberOfWarps scoop warp nonce offset →
    file.byteAt scoop warp nonce offset =
      batch.data.byte (((scoop * (batch.data.len / warpSize) + (warp - batch.startWarp)) *
        numScoops + nonce) * scoopSize + offset)

variable {file : File} {batch : Batch}

theorem readNonce_holds (holds : Holds file batch) {address scoop nonce : Nat}
    (located : fileOffsetNonce file.numberOfWarps scoop nonce = .ok address)
    (inside : address + scoopSize ≤ file.content.len) :
    file.readNonce scoop nonce = .ok ⟨scoopSize, fun i => file.content.byte (address + i)⟩ := by
  simp only [File.readNonce, located]
  cases access : file.access with
  | read => simp only [holds.handle, slice_some inside, ↓reduceIte]
  | readWrite => simp only [holds.handle, slice_some inside, ↓reduceIte]
  | dummy => exact absurd access holds.access

theorem read_holds (holds : Holds file batch) {address scoop readProgress capacity : Nat} {bs : Bytes}
    (located : fileOffsetWarp file.numberOfWarps scoop readProgress = .ok address)
    (room : warpsToRead file.numberOfWarps readProgress capacity * numScoops * scoopSize ≤ bs.len)
    (inside : address +
      warpsToRead file.numberOfWarps readProgress capacity * numScoops * scoopSize ≤
        file.content.len) :
    file.read readProgress capacity bs scoop =
      .ok
        (writeAt bs 0
          ⟨warpsToRead file.numberOfWarps readProgress capacity * numScoops * scoopSize,
            fun i => file.content.byte (address + i)⟩,
        warpsToRead file.numberOfWarps readProgress capacity) := by
  simp only [File.read, located]
  cases access : file.access with
  | read => simp only [holds.handle, if_neg (Nat.not_lt.mpr room), slice_some inside, ↓reduceIte]
  | readWrite =>
    simp only [holds.handle, if_neg (Nat.not_lt.mpr room), slice_some inside, ↓reduceIte]
  | dummy => exact absurd access holds.access

/-- A row of consecutive warps ends in the plot. -/
theorem row_inside {numberOfWarps scoop warp count : Nat} (scoopLt : scoop < numScoops)
    (fits : warp + count ≤ numberOfWarps) :
    fileOffset scoop warp numberOfWarps + count * numScoops * scoopSize ≤
      numberOfWarps * warpSize := by
  have rows : (scoop + 1) * numberOfWarps ≤ numScoops * numberOfWarps :=
    Nat.mul_le_mul_right _ scoopLt
  rw [Nat.add_mul, Nat.one_mul] at rows
  have blocks : (scoop * numberOfWarps + warp + count) * blockSize ≤
      numScoops * numberOfWarps * blockSize := Nat.mul_le_mul_right _ (by omega)
  rw [← plotSize_eq] at blocks
  have sum : fileOffset scoop warp numberOfWarps + count * numScoops * scoopSize =
      (scoop * numberOfWarps + warp + count) * blockSize := by
    simp only [fileOffset, blockSize, Nat.add_mul, Nat.mul_assoc]
  omega

theorem Holds.readsBack (holds : Holds file batch)
    (bounded : file.numberOfWarps * warpSize < 2 ^ 64) :
    ReadsBack file batch.data batch.startWarp batch.warpsToWrite := by
  have fits := holds.fits
  refine ⟨?_, ?_⟩
  · intro scoop scoopLt warp lower upper nonce nonceLt
    have column : warp * numScoops + nonce < file.numberOfWarps * numScoops :=
      Strided.index_lt _ numScoops warp nonce (by omega) nonceLt
    have located := fileOffsetNonce_ok bounded scoopLt column
    have inside := (layout bounded).inside _ _ _ located
    refine ⟨_, readNonce_holds holds located (Nat.le_trans inside holds.len), rfl, ?_⟩
    intro offset offsetLt apart
    rw [← holds.bytes scoop scoopLt warp lower upper nonce nonceLt offset offsetLt apart]
    have address := nonce_cell file.numberOfWarps scoop warp nonce offset
    rw [File.byteAt, ← address]
    simp only [Strided.cell, Nat.add_zero]
  · intro scoop scoopLt warp lower upper capacity bs room
    have located := fileOffsetWarp_ok bounded scoopLt (Nat.lt_of_lt_of_le upper fits)
    have taken : warp + warpsToRead file.numberOfWarps warp capacity ≤ file.numberOfWarps := by
      rw [warpsToRead]
      omega
    have inside := row_inside scoopLt taken
    refine ⟨_, read_holds holds located room (Nat.le_trans inside holds.len), ?_⟩
    intro k kLt upper' nonce nonceLt offset offsetLt apart
    rw [← holds.bytes scoop scoopLt (warp + k) (by omega) upper' nonce nonceLt offset offsetLt apart]
    have place : (k * numScoops + nonce) * scoopSize + offset <
        warpsToRead file.numberOfWarps warp capacity * numScoops * scoopSize :=
      Strided.cell_lt _ numScoops scoopSize k nonce offset kLt nonceLt offsetLt
    rw [writeAt_inside _ _ _ _ (Nat.zero_le _) (by rw [Nat.zero_add]; exact place), Nat.sub_zero]
    have address : fileOffset scoop warp file.numberOfWarps +
        ((k * numScoops + nonce) * scoopSize + offset) =
        fileOffset scoop (warp + k) file.numberOfWarps + (nonce * scoopSize + offset) := by
      simp only [fileOffset, Nat.add_mul]
      omega
    rw [File.byteAt, ← address]

end Readers

theorem reopened_handle (file : File) :
    file.reopened.fileHandle = (file.directIo || file.fileHandle) := by
  unfold File.reopened
  cases direct : file.directIo with
  | true => rfl
  | false => simp only [Bool.false_eq_true, ↓reduceIte, Bool.false_or]

/-- What stays of an object, its handle apart, when a batch is written. -/
structure SameObject (before after : File) : Prop where
  warps : after.numberOfWarps = before.numberOfWarps
  access : after.access = before.access
  directIo : after.directIo = before.directIo
  extension : after.extension = before.extension

theorem writeBatch_object (file written : File) (data : Bytes) (startWarp warpsToWrite : Nat)
    (done : writeBatch file data startWarp warpsToWrite = some written) :
    SameObject file written ∧ written.fileHandle = file.fileHandle := by
  unfold writeBatch at done
  split at done
  · rw [Option.map_eq_some_iff] at done
    obtain ⟨content, -, rfl⟩ := done
    exact ⟨⟨rfl, rfl, rfl, rfl⟩, rfl⟩
  · cases done
    exact ⟨⟨rfl, rfl, rfl, rfl⟩, rfl⟩

theorem writeResumeInfo_object (file marked : File) (warpsWritten : Nat)
    (writable : file.access = .readWrite) (done : writeResumeInfo file warpsWritten = .ok marked) :
    SameObject file marked ∧ marked.fileHandle = (file.directIo || file.fileHandle) := by
  have same := reopened_same file
  have handle := reopened_handle file
  simp only [writeResumeInfo, writable] at done
  split at done
  · cases done
    exact ⟨⟨same.warps, same.access, same.directIo, same.extension⟩, handle⟩
  · cases done
    exact ⟨⟨same.warps, same.access, same.directIo, same.extension⟩, handle⟩

/-- A batch that finishes a `.tmp` file drops the handle. -/
theorem finishBatch_handle (marked final : File) (finished : Bool)
    (done : finishBatch marked finished = .ok final) :
    final.access = marked.access ∧
    (final.fileHandle = true ↔
      marked.fileHandle = true ∧ (marked.extension = .tmp → finished = false)) := by
  cases finished with
  | false =>
    simp only [finishBatch, Bool.false_eq_true, ↓reduceIte] at done
    cases done
    simp only [implies_true, and_true]
  | true =>
    simp only [finishBatch, ↓reduceIte, finalize] at done
    cases extension : marked.extension with
    | pocx =>
      simp only [extension, Except.ok.injEq] at done
      rw [← done]
      simp only [reduceCtorEq, false_implies, and_true]
    | tmp =>
      cases present : marked.files .tmp with
      | none => simp only [extension, present, reduceCtorEq] at done
      | some content =>
        simp only [extension, present, Except.ok.injEq] at done
        rw [← done]
        simp only [Bool.false_eq_true, Bool.true_eq_false, forall_const, and_false, and_self]

/-- Whether an object can still be read behind an accepted batch. -/
theorem write_handle (file : File) (data : Bytes) (startWarp warpsToWrite total : Nat)
    (final : File) (writable : file.access = .readWrite)
    (done : writeOptimisedBufferIntoPlotfile file data startWarp warpsToWrite =
      .ok (total, final)) :
    final.access = .readWrite ∧ startWarp + warpsToWrite ≤ file.numberOfWarps ∧
    (final.fileHandle = true ↔
      (file.directIo = true ∨ file.fileHandle = true) ∧
        (file.extension = .tmp → startWarp + warpsToWrite ≠ file.numberOfWarps)) := by
  have same := reopened_same file
  have handle := reopened_handle file
  have from_ : ∀ progress, writeFrom file.reopened data startWarp warpsToWrite progress =
      .ok (total, final) →
      final.access = .readWrite ∧ startWarp + warpsToWrite ≤ file.numberOfWarps ∧
      (final.fileHandle = true ↔
        (file.directIo = true ∨ file.fileHandle = true) ∧
          (file.extension = .tmp → startWarp + warpsToWrite ≠ file.numberOfWarps)) := by
    intro progress done
    unfold writeFrom at done
    split at done
    · cases done
    split at done
    · cases done
    rename_i fits
    split at done
    · cases done
    rename_i written batchEq
    split at done
    · cases done
    rename_i marked markedEq
    split at done
    · cases done
    rename_i finished finishedEq
    cases done
    obtain ⟨batchSame, batchHandle⟩ := writeBatch_object _ _ _ _ _ batchEq
    obtain ⟨markSame, markHandle⟩ := writeResumeInfo_object _ _ _
      (batchSame.access.trans (same.access.trans writable)) markedEq
    obtain ⟨access, finalHandle⟩ := finishBatch_handle _ _ _ finishedEq
    rw [markHandle, batchSame.directIo, batchHandle, same.directIo, handle, markSame.extension,
      batchSame.extension, same.extension, same.warps, beq_eq_false_iff_ne] at finalHandle
    rw [same.warps] at fits
    refine ⟨access.trans (markSame.access.trans
      (batchSame.access.trans (same.access.trans writable))), by omega, ?_⟩
    rw [finalHandle, ← Bool.or_assoc, Bool.or_self, Bool.or_eq_true]
  unfold writeOptimisedBufferIntoPlotfile readResumeInfo at done
  simp only [writable] at done
  cases marker : readMarker file.reopened with
  | ok progress =>
    rw [marker] at done
    exact from_ progress done
  | error error =>
    rw [marker] at done
    cases error with
    | noResumeInfo => exact from_ 0 done
    | io => cases done
    | resumeGap => cases done
    | writeExceedsEof => cases done
    | readOnlyAccess => cases done

/-- Without a handle, or in dummy mode, `read` leaves the buffer as it is. -/
theorem read_unread (file : File) (unread : file.access = .dummy ∨ file.fileHandle = false)
    {readProgress capacity scoop : Nat} {bs : Bytes} {result : Bytes × Nat}
    (done : file.read readProgress capacity bs scoop = .ok result) :
    readProgress < file.numberOfWarps ∧ result.1 = bs := by
  unfold File.read at done
  have located : ¬ file.numberOfWarps ≤ readProgress := by
    intro outside
    simp only [fileOffsetWarp, if_pos outside] at done
    split at done
    · cases done
    · rename_i impossible
      split at impossible
      · cases impossible
      · cases impossible
  refine ⟨Nat.lt_of_not_le located, ?_⟩
  split at done
  · cases done
  cases access : file.access with
  | dummy =>
    simp only [access, Except.ok.injEq] at done
    rw [← done]
  | read =>
    rcases unread with dummy | handle
    · rw [access] at dummy
      cases dummy
    · simp only [access, handle, Bool.false_eq_true, ↓reduceIte, Except.ok.injEq] at done
      rw [← done]
  | readWrite =>
    rcases unread with dummy | handle
    · rw [access] at dummy
      cases dummy
    · simp only [access, handle, Bool.false_eq_true, ↓reduceIte, Except.ok.injEq] at done
      rw [← done]

theorem not_readsBack (file : File) (data : Bytes) (startWarp warpsToWrite : Nat)
    (some_ : 0 < warpsToWrite) (unread : file.access = .dummy ∨ file.fileHandle = false) :
    ¬ ReadsBack file data startWarp warpsToWrite := by
  intro reads
  have one : numScoops * scoopSize / numScoops / scoopSize = 1 := by decide
  have few : warpsToRead file.numberOfWarps startWarp (numScoops * scoopSize) ≤ 1 := by
    rw [warpsToRead, one]
    exact Nat.min_le_right _ _
  have room : warpsToRead file.numberOfWarps startWarp (numScoops * scoopSize) * numScoops *
      scoopSize ≤ numScoops * scoopSize := by
    rw [Nat.mul_assoc]
    exact Nat.le_trans (Nat.mul_le_mul_right _ few) (Nat.le_of_eq (Nat.one_mul _))
  -- A buffer whose bytes all differ from the first byte of the batch.
  obtain ⟨after, done, bytes⟩ := reads.warps 0 (by decide) startWarp (Nat.le_refl _) (by omega)
    (numScoops * scoopSize) ⟨numScoops * scoopSize, fun _ => data.byte 0 + 1⟩ room
  obtain ⟨inside, same⟩ := read_unread file unread done
  have taken : 0 < warpsToRead file.numberOfWarps startWarp (numScoops * scoopSize) := by
    rw [warpsToRead, one]
    omega
  have apart : ¬ AtMarker file.numberOfWarps 0 (startWarp + 0) 0 0 := by
    rintro ⟨last, -⟩
    cases last
  have first := bytes 0 taken (by omega) 0 (by decide) 0 (by decide) apart
  simp only at same
  rw [same] at first
  simp only [Nat.zero_mul, Nat.add_zero, Nat.sub_self] at first
  exact succ_ne _ first

/-- An accepted batch that leaves a handle is found in its place. -/
theorem written_holds (file : File) (batch : Batch) (final : File)
    (written : Written file batch.data batch.startWarp batch.warpsToWrite final)
    (handle : final.fileHandle = true) : Holds final batch := by
  obtain ⟨scoops, scoopsEq, content⟩ := written.content
  have grown := (writeScoops_byte _ _ _ _ _ _ _ (Nat.le_refl _) written.fits written.len scoopsEq).1
  refine ⟨handle, by rw [written.access]; nofun, ?_, ?_, ?_⟩
  · have first := writeAt_len scoops (markerOffset file.numberOfWarps)
      (asU8Le (UInt32.ofNat (batch.startWarp + batch.warpsToWrite)))
    have second := writeAt_len (writeAt scoops (markerOffset file.numberOfWarps)
      (asU8Le (UInt32.ofNat (batch.startWarp + batch.warpsToWrite))))
      (markerOffset file.numberOfWarps + 4) resumeMagic
    have len := written.len
    rw [written.warps, content, writeMarker]
    omega
  · rw [written.warps]
    exact written.fits
  · intro scoop scoopLt warp lower upper nonce nonceLt offset offsetLt apart
    have fits := written.fits
    rw [written.warps] at apart
    have covered : batch.covers warp = true := (covers_iff batch warp).mpr ⟨lower, upper⟩
    rw [write_byteAt file batch final written scoop warp nonce offset scoopLt (by omega) nonceLt
      offsetLt apart, if_pos covered, Batch.byteFor]
    have address : fileOffset scoop (warp - batch.startWarp) (batch.data.len / warpSize) +
        (nonce * scoopSize + offset) =
        ((scoop * (batch.data.len / warpSize) + (warp - batch.startWarp)) * numScoops + nonce) *
          scoopSize + offset := by
      simp only [fileOffset, Nat.add_mul]
      omega
    rw [address]

/-- The object that wrote a batch reads it back if it still has a handle, which finishing a `.tmp` file
drops; any object that is opened on the file does. -/
theorem readers_agree_iff (file : File) (batch : Batch) (total : Nat) (final : File)
    (positive : 1 ≤ file.numberOfWarps) (bounded : file.numberOfWarps * warpSize < 2 ^ 64)
    (accepted : writeOptimisedBufferIntoPlotfile file batch.data batch.startWarp
      batch.warpsToWrite = .ok (total, final)) :
    (Layout file.numberOfWarps ∧
        ReadsBack final batch.data batch.startWarp batch.warpsToWrite ↔
      batch.warpsToWrite = 0 ∨
        (file.access = .readWrite ∧ (file.directIo = true ∨ file.fileHandle = true) ∧
          (file.extension = .tmp →
            batch.startWarp + batch.warpsToWrite ≠ file.numberOfWarps))) ∧
    (file.access = .readWrite → file.directIo = true ∨ file.fileHandle = true →
      ∀ reader : File, reader.fileHandle = true → reader.access ≠ .dummy →
        reader.numberOfWarps = file.numberOfWarps → reader.content = final.content →
        ReadsBack reader batch.data batch.startWarp batch.warpsToWrite) := by
  have opened : file.directIo = true ∨ file.fileHandle = true →
      file.reopened.fileHandle = true := by
    intro handle
    rw [reopened_handle, Bool.or_eq_true]
    exact handle
  constructor
  · constructor
    · rintro ⟨-, reads⟩
      by_contra neither
      obtain ⟨some_, unread⟩ := not_or.mp neither
      apply not_readsBack final batch.data batch.startWarp batch.warpsToWrite
        (Nat.pos_of_ne_zero some_) _ reads
      cases access : file.access with
      | read =>
        simp only [writeOptimisedBufferIntoPlotfile, access, reduceCtorEq] at accepted
      | dummy =>
        simp only [writeOptimisedBufferIntoPlotfile, access, Except.ok.injEq, Prod.mk.injEq] at accepted
        rw [← accepted.2]
        exact Or.inl access
      | readWrite =>
        obtain ⟨-, -, handle⟩ := write_handle file _ _ _ total final access accepted
        right
        rw [← Bool.not_eq_true, handle]
        intro kept
        exact unread ⟨access, kept⟩
    · intro condition
      refine ⟨layout bounded, ?_⟩
      rcases condition with none_ | ⟨access, handle, unfinished⟩
      · rw [none_]
        constructor
        · intro scoop scoopLt warp lower upper
          exact absurd upper (Nat.not_lt.mpr lower)
        · intro scoop scoopLt warp lower upper
          exact absurd upper (Nat.not_lt.mpr lower)
      · have written := write_spec_reopened file _ _ _ total final access (opened handle) positive
          accepted
        obtain ⟨-, -, kept⟩ := write_handle file _ _ _ total final access accepted
        have holds := written_holds file batch final written (kept.mpr ⟨handle, unfinished⟩)
        exact holds.readsBack (by rw [written.warps]; exact bounded)
  · intro access handle reader open_ readable warps content
    have written := write_spec_reopened file _ _ _ total final access (opened handle) positive
      accepted
    -- The file that the batch leaves, with a handle of its own.
    have holds := written_holds file batch { final with fileHandle := true }
      { written with opened := fun _ => rfl } rfl
    have found : Holds reader batch := by
      refine ⟨open_, readable, ?_, ?_, ?_⟩
      · rw [warps, content, ← written.warps]
        exact holds.len
      · rw [warps, ← written.warps]
        exact holds.fits
      · intro scoop scoopLt warp lower upper nonce nonceLt offset offsetLt apart
        rw [warps, ← written.warps] at apart
        rw [← holds.bytes scoop scoopLt warp lower upper nonce nonceLt offset offsetLt apart,
          File.byteAt, File.byteAt, warps, content, ← written.warps]
        rfl
    exact found.readsBack (by rw [warps]; exact bounded)

/-- A warp of ones. -/
def onesBatch : Batch where
  data := ⟨warpSize, fun _ => 1⟩
  startWarp := 0
  warpsToWrite := 1
  holds := by decide

/-- The first of two warps. -/
theorem first_warp_read_back :
    ∃ total final, writeOptimisedBufferIntoPlotfile (create 2 false fun _ => 0) onesBatch.data
        onesBatch.startWarp onesBatch.warpsToWrite = .ok (total, final) ∧
      Layout 2 ∧ ReadsBack final onesBatch.data 0 1 := by
  obtain ⟨total, final, accepted⟩ := write_succeeds (create 2 false fun _ => 0) onesBatch rfl rfl
    (create_progress 2 (by decide) false _) (by decide)
  exact ⟨total, final, accepted, (readers_agree_iff (create 2 false fun _ => 0) onesBatch total final
    (by decide) (by decide) accepted).1.mpr (Or.inr ⟨rfl, Or.inr rfl, fun _ => by decide⟩)⟩

/-- The object that finishes a plot of ones reads zeros from it. -/
theorem finished_plot_read_as_zeros :
    ∃ total final, writeOptimisedBufferIntoPlotfile (create 1 false fun _ => 0) onesBatch.data
        onesBatch.startWarp onesBatch.warpsToWrite = .ok (total, final) ∧
      final.readNonce 0 0 = .ok ⟨scoopSize, fun _ => 0⟩ ∧ onesBatch.data.byte 0 = 1 ∧
      ¬ ReadsBack final onesBatch.data onesBatch.startWarp onesBatch.warpsToWrite := by
  obtain ⟨total, final, accepted⟩ := write_succeeds (create 1 false fun _ => 0) onesBatch rfl rfl
    (create_progress 1 (by decide) false _) (by decide)
  have written := write_spec _ _ _ _ total final rfl rfl (Nat.le_refl 1) accepted
  obtain ⟨access, -, handle⟩ := write_handle _ _ _ _ total final rfl accepted
  have dropped : final.fileHandle = false := by
    rw [← Bool.not_eq_true, handle]
    rintro ⟨-, unfinished⟩
    exact unfinished rfl rfl
  have warps : final.numberOfWarps = 1 := written.warps
  have located : fileOffsetNonce 1 0 0 = .ok 0 := rfl
  refine ⟨total, final, accepted, ?_, rfl, ?_⟩
  · simp only [File.readNonce, warps, located, access, dropped, Bool.false_eq_true, ↓reduceIte]
  · exact not_readsBack final _ _ _ (by decide) (Or.inr dropped)

end Pocx.PlotFile
