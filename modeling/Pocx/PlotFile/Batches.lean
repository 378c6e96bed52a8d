import Pocx.Lib.Strided
import Pocx.PlotFile.File

set_option autoImplicit false

namespace Pocx.PlotFile

open ByteStore

theorem content_setContent (file : File) (content : Bytes) :
    (file.setContent content).content = content := by
  simp only [File.content, File.setContent, Function.update_self, Option.getD_some]

/-- What the resume functions may change: the handle. -/
structure SameFile (before after : File) : Prop where
  warps : after.numberOfWarps = before.numberOfWarps
  access : after.access = before.access
  directIo : after.directIo = before.directIo
  extension : after.extension = before.extension
  content : after.content = before.content
  opened : before.fileHandle = true → after.fileHandle = true

theorem SameFile.refl (file : File) : SameFile file file :=
  ⟨rfl, rfl, rfl, rfl, rfl, id⟩

theorem reopened_same (file : File) : SameFile file file.reopened := by
  unfold File.reopened
  split
  · exact ⟨rfl, rfl, rfl, rfl, content_setContent file file.content, fun _ => rfl⟩
  · exact SameFile.refl file

/-- Where an open plot yields a marker, or none, the plot reaches to its last byte. -/
theorem readMarker_len (opened : File) (handle : opened.fileHandle = true)
    (positive : 1 ≤ opened.numberOfWarps) (readable : readMarker opened ≠ .error .io) :
    opened.numberOfWarps * warpSize ≤ opened.content.len := by
  have whole : warpSize ≤ opened.numberOfWarps * warpSize := Nat.le_mul_of_pos_left _ positive
  have eight : 8 ≤ warpSize := by decide
  by_cases inside : markerOffset opened.numberOfWarps + 4 + 4 ≤ opened.content.len
  · simp only [markerOffset] at inside
    omega
  · have short : opened.content.slice (markerOffset opened.numberOfWarps + 4) 4 = none := by
      rw [Bytes.slice, if_neg inside]
    have failed : readMarker opened = .error .io := by
      simp only [readMarker, handle, short, ↓reduceIte]
      split
      · rename_i impossible
        cases impossible
      · rfl
    exact absurd failed readable

theorem writeResumeInfo_spec (file marked : File) (warpsWritten : Nat)
    (opened : file.fileHandle = true) (writable : file.access = .readWrite)
    (done : writeResumeInfo file warpsWritten = .ok marked) :
    marked.content = writeMarker file.numberOfWarps warpsWritten file.content ∧
      marked.numberOfWarps = file.numberOfWarps ∧ marked.access = .readWrite ∧
      marked.fileHandle = true := by
  have same := reopened_same file
  have handle := same.opened opened
  simp only [writeResumeInfo, writable, handle, ↓reduceIte, Except.ok.injEq] at done
  rw [← done, content_setContent, same.content]
  exact ⟨rfl, same.warps, same.access.trans writable, handle⟩

theorem finalize_spec (file finished : File) (done : finalize file = .ok finished) :
    finished.content = file.content ∧ finished.numberOfWarps = file.numberOfWarps ∧
      finished.access = file.access ∧ finished.extension = .pocx := by
  unfold finalize at done
  cases extension : file.extension with
  | pocx =>
    simp only [extension, Except.ok.injEq] at done
    rw [← done]
    exact ⟨rfl, rfl, rfl, extension⟩
  | tmp =>
    cases present : file.files .tmp with
    | none => simp only [extension, present, reduceCtorEq] at done
    | some content =>
      simp only [extension, present, Except.ok.injEq] at done
      rw [← done]
      refine ⟨?_, rfl, rfl, rfl⟩
      simp only [File.content, extension, present, Option.getD_some]

/-- What a successful batch on an open plot does to its bytes. -/
structure Written (file : File) (data : Bytes) (startWarp warpsToWrite : Nat) (final : File) :
    Prop where
  len : file.numberOfWarps * warpSize ≤ file.content.len
  fits : startWarp + warpsToWrite ≤ file.numberOfWarps
  content : ∃ scoops,
    writeScoops file.numberOfWarps data startWarp warpsToWrite numScoops file.content =
      some scoops ∧
    final.content = writeMarker file.numberOfWarps (startWarp + warpsToWrite) scoops
  warps : final.numberOfWarps = file.numberOfWarps
  access : final.access = .readWrite
  opened : startWarp + warpsToWrite ≠ file.numberOfWarps → final.fileHandle = true
  renamed : startWarp + warpsToWrite = file.numberOfWarps → final.extension = .pocx

theorem writeFrom_spec (opened : File) (data : Bytes)
    (startWarp warpsToWrite progress total : Nat) (final : File)
    (writable : opened.access = .readWrite) (handle : opened.fileHandle = true)
    (len : opened.numberOfWarps * warpSize ≤ opened.content.len)
    (done : writeFrom opened data startWarp warpsToWrite progress = .ok (total, final)) :
    Written opened data startWarp warpsToWrite final := by
  unfold writeFrom at done
  split at done
  · cases done
  split at done
  · cases done
  rename_i fits
  have written : ∃ scoops, writeScoops opened.numberOfWarps data startWarp warpsToWrite numScoops
      opened.content = some scoops ∧
      writeBatch opened data startWarp warpsToWrite = some (opened.setContent scoops) := by
    cases scoops : writeScoops opened.numberOfWarps data startWarp warpsToWrite numScoops
        opened.content with
    | none =>
      simp only [writeBatch, handle, scoops, ↓reduceIte, Option.map_none, reduceCtorEq] at done
    | some content =>
      exact ⟨content, rfl, by rw [writeBatch, if_pos handle, scoops, Option.map_some]⟩
  obtain ⟨scoops, scoopsEq, batchEq⟩ := written
  rw [batchEq] at done
  simp only at done
  split at done
  · cases done
  rename_i marked markedEq
  obtain ⟨content, warps, access, open_⟩ :=
    writeResumeInfo_spec (opened.setContent scoops) marked _ handle writable markedEq
  rw [content_setContent] at content
  unfold finishBatch at done
  by_cases last : startWarp + warpsToWrite = opened.numberOfWarps
  · simp only [last, beq_self_eq_true, ↓reduceIte] at done
    split at done
    · cases done
    · rename_i finished finishedEq
      obtain ⟨sameContent, sameWarps, sameAccess, renamed⟩ := finalize_spec marked finished finishedEq
      cases done
      exact
        { len := len
          fits := by omega
          content := ⟨scoops, scoopsEq, sameContent.trans content⟩
          warps := sameWarps.trans warps
          access := sameAccess.trans access
          opened := fun unfinished => absurd last unfinished
          renamed := fun _ => renamed }
  · have unfinished : (startWarp + warpsToWrite == opened.numberOfWarps) = false := by
      rw [beq_eq_false_iff_ne]
      exact last
    simp only [unfinished, Bool.false_eq_true, ↓reduceIte] at done
    cases done
    exact
      { len := len
        fits := by omega
        content := ⟨scoops, scoopsEq, content⟩
        warps := warps
        access := access
        opened := fun _ => open_
        renamed := fun finished => absurd finished last }

/-- An accepted batch, where the plot is open behind the reading of the progress. -/
theorem write_spec_reopened (file : File) (data : Bytes) (startWarp warpsToWrite total : Nat)
    (final : File) (writable : file.access = .readWrite)
    (handle : file.reopened.fileHandle = true) (positive : 1 ≤ file.numberOfWarps)
    (done : writeOptimisedBufferIntoPlotfile file data startWarp warpsToWrite =
      .ok (total, final)) :
    Written file data startWarp warpsToWrite final := by
  have same := reopened_same file
  have access := same.access.trans writable
  have written : Written file.reopened data startWarp warpsToWrite final := by
    have len := readMarker_len file.reopened handle (by rw [same.warps]; exact positive)
    unfold writeOptimisedBufferIntoPlotfile readResumeInfo at done
    simp only [writable] at done
    cases marker : readMarker file.reopened with
    | ok progress =>
      rw [marker] at done
      exact writeFrom_spec _ data startWarp warpsToWrite progress total final access handle
        (len (by rw [marker]; nofun)) done
    | error error =>
      rw [marker] at done
      cases error with
      | noResumeInfo =>
        exact writeFrom_spec _ data startWarp warpsToWrite 0 total final access handle
          (len (by rw [marker]; nofun)) done
      | io => cases done
      | resumeGap => cases done
      | writeExceedsEof => cases done
      | readOnlyAccess => cases done
  obtain ⟨len, fits, content, warps, access', opened', renamed⟩ := written
  rw [same.warps] at len fits content warps opened' renamed
  rw [same.content] at len content
  exact ⟨len, fits, content, warps, access', opened', renamed⟩

theorem write_spec (file : File) (data : Bytes) (startWarp warpsToWrite total : Nat)
    (final : File) (writable : file.access = .readWrite) (opened : file.fileHandle = true)
    (positive : 1 ≤ file.numberOfWarps)
    (done : writeOptimisedBufferIntoPlotfile file data startWarp warpsToWrite =
      .ok (total, final)) :
    Written file data startWarp warpsToWrite final :=
  write_spec_reopened file data startWarp warpsToWrite total final writable
    ((reopened_same file).opened opened) positive done

/-- The bytes of one scoop of one warp. -/
def blockSize : Nat := numScoops * scoopSize

theorem fileOffset_cell (scoop warp numberOfWarps offset : Nat) :
    fileOffset scoop warp numberOfWarps + offset =
      Strided.cell numberOfWarps blockSize scoop warp offset := by
  simp only [fileOffset, Strided.cell, blockSize, Nat.add_mul, Nat.mul_assoc]

theorem plotSize_eq (numberOfWarps : Nat) :
    numberOfWarps * warpSize = numScoops * numberOfWarps * blockSize := by
  simp only [warpSize, nonceSize, blockSize, Nat.mul_comm, Nat.mul_left_comm]

/-- The bytes of a plot after the first scoops of a batch. -/
theorem writeScoops_byte (numberOfWarps : Nat) (data content after : Bytes)
    (startWarp warpsToWrite scoops : Nat) (scoopsLe : scoops ≤ numScoops)
    (fits : startWarp + warpsToWrite ≤ numberOfWarps)
    (len : numberOfWarps * warpSize ≤ content.len)
    (done : writeScoops numberOfWarps data startWarp warpsToWrite scoops content = some after) :
    content.len ≤ after.len ∧
      ∀ scoop warp offset, scoop < numScoops → warp < numberOfWarps → offset < blockSize →
        after.byte (fileOffset scoop warp numberOfWarps + offset) =
          if scoop < scoops ∧ startWarp ≤ warp ∧ warp < startWarp + warpsToWrite then
            data.byte (fileOffset scoop (warp - startWarp) (data.len / warpSize) + offset)
          else content.byte (fileOffset scoop warp numberOfWarps + offset) := by
  induction scoops generalizing after with
  | zero =>
    cases done
    refine ⟨Nat.le_refl _, fun scoop warp offset _ _ _ => ?_⟩
    rw [if_neg (fun inside => Nat.not_lt_zero _ inside.1)]
  | succ row ih =>
    rw [writeScoops, Option.bind_eq_some_iff] at done
    obtain ⟨before, beforeEq, chunkEq⟩ := done
    obtain ⟨grown, bytes⟩ := ih before (by omega) beforeEq
    rw [Option.map_eq_some_iff] at chunkEq
    obtain ⟨chunk, sliceEq, rfl⟩ := chunkEq
    rw [Bytes.slice] at sliceEq
    split at sliceEq
    · cases sliceEq
      refine ⟨Nat.le_trans grown (writeAt_len _ _ _), ?_⟩
      intro scoop warp offset scoopLt warpLt offsetLt
      have span := Strided.cell_in_span numberOfWarps blockSize row startWarp warpsToWrite scoop
        warp offset fits warpLt offsetLt
      have present : fileOffset scoop warp numberOfWarps + offset < before.len := by
        have inside := Strided.cell_lt numScoops numberOfWarps blockSize scoop warp offset scoopLt
          warpLt offsetLt
        rw [← fileOffset_cell, ← plotSize_eq] at inside
        omega
      have extent : warpsToWrite * numScoops * scoopSize = warpsToWrite * blockSize := by
        rw [blockSize, Nat.mul_assoc]
      rw [← fileOffset_cell, ← fileOffset_cell, Nat.add_zero, ← extent] at span
      by_cases covered : row = scoop ∧ startWarp ≤ warp ∧ warp < startWarp + warpsToWrite
      · obtain ⟨lower, upper⟩ := span.mpr covered
        obtain ⟨rfl, from_, to_⟩ := covered
        rw [writeAt_inside _ _ _ _ lower upper, if_pos ⟨by omega, from_, to_⟩]
        -- The distance from the first block written is the same in the buffer.
        have distance : fileOffset row 0 (data.len / warpSize) +
              (fileOffset row warp numberOfWarps + offset -
                fileOffset row startWarp numberOfWarps) =
            fileOffset row (warp - startWarp) (data.len / warpSize) + offset := by
          obtain ⟨k, rfl⟩ := Nat.exists_eq_add_of_le from_
          simp only [fileOffset, Nat.add_mul, Nat.add_sub_cancel_left]
          omega
        exact congrArg data.byte distance
      · have outside : ¬ (fileOffset row startWarp numberOfWarps ≤
              fileOffset scoop warp numberOfWarps + offset ∧
            fileOffset scoop warp numberOfWarps + offset <
              fileOffset row startWarp numberOfWarps + warpsToWrite * numScoops * scoopSize) :=
          fun inside => covered (span.mp inside)
        rw [writeAt_outside _ _ _ _ present (by simp only; omega),
          bytes scoop warp offset scoopLt warpLt offsetLt]
        have same : (scoop < row ∧ startWarp ≤ warp ∧ warp < startWarp + warpsToWrite) ↔
            (scoop < row + 1 ∧ startWarp ≤ warp ∧ warp < startWarp + warpsToWrite) := by
          omega
        simp only [same]
    · cases sliceEq

theorem writeMarker_outside (numberOfWarps warpsWritten : Nat) (content : Bytes) (i : Nat)
    (present : i < content.len) (outside : i < markerOffset numberOfWarps) :
    (writeMarker numberOfWarps warpsWritten content).byte i = content.byte i := by
  have grown := writeAt_len content (markerOffset numberOfWarps)
    (asU8Le (UInt32.ofNat warpsWritten))
  rw [writeMarker, writeAt_outside _ _ _ _ (by omega) (by omega),
    writeAt_outside _ _ _ _ present (by omega)]

theorem writeMarker_inside (numberOfWarps warpsWritten : Nat) (content : Bytes) (i : Nat)
    (lt : i < 8) :
    (writeMarker numberOfWarps warpsWritten content).byte (markerOffset numberOfWarps + i) =
      markerByte warpsWritten i := by
  rw [writeMarker, markerByte]
  by_cases progress : i < 4
  · have four : (asU8Le (UInt32.ofNat warpsWritten)).len = 4 := rfl
    have grown := writeAt_end content (markerOffset numberOfWarps)
      (asU8Le (UInt32.ofNat warpsWritten)) (by rw [four]; omega)
    rw [writeAt_outside _ _ _ _ (by omega) (by omega),
      writeAt_inside _ _ _ _ (by omega) (by rw [four]; omega), if_pos progress,
      Nat.add_sub_cancel_left]
  · have four : resumeMagic.len = 4 := rfl
    have distance : markerOffset numberOfWarps + i - (markerOffset numberOfWarps + 4) = i - 4 := by
      omega
    rw [writeAt_inside _ _ _ _ (by omega) (by rw [four]; omega), if_neg progress, distance]

/-- The last eight bytes of a plot lie in the last scoop of the last warp. -/
theorem before_marker (numberOfWarps scoop warp offset : Nat) (scoopLt : scoop < numScoops)
    (warpLt : warp < numberOfWarps) (offsetLt : offset < blockSize)
    (notLast : ¬ (scoop + 1 = numScoops ∧ warp + 1 = numberOfWarps ∧ blockSize ≤ offset + 8)) :
    fileOffset scoop warp numberOfWarps + offset < markerOffset numberOfWarps := by
  have index := Strided.index_lt numScoops numberOfWarps scoop warp scoopLt warpLt
  have block : blockSize = 262144 := by decide
  rw [markerOffset, plotSize_eq, fileOffset_cell, Strided.cell, block]
  rw [block] at offsetLt notLast
  by_cases lastBlock : scoop * numberOfWarps + warp + 1 = numScoops * numberOfWarps
  · have scoopLast : scoop + 1 = numScoops := by
      by_cases earlier : scoop + 1 < numScoops
      · have below := Strided.index_lt (numScoops - 1) numberOfWarps scoop warp (by omega) warpLt
        have whole : numScoops * numberOfWarps =
            (numScoops - 1) * numberOfWarps + numberOfWarps := by
          rw [← Nat.succ_mul]
          rfl
        omega
      · omega
    have warpLast : warp + 1 = numberOfWarps := by
      have whole : (scoop + 1) * numberOfWarps = scoop * numberOfWarps + numberOfWarps :=
        Nat.succ_mul _ _
      rw [scoopLast] at whole
      omega
    omega
  · omega

theorem covers_iff (batch : Batch) (warp : Nat) :
    batch.covers warp = true ↔
      batch.startWarp ≤ warp ∧ warp < batch.startWarp + batch.warpsToWrite := by
  simp only [Batch.covers, Bool.and_eq_true, decide_eq_true_eq]

/-- The byte that a position has after a further batch, if its warp was covered before. -/
theorem supplied_snoc (batches : List Batch) (batch : Batch) (scoop warp nonce offset : Nat) :
    supplied (batches ++ [batch]) scoop warp nonce offset =
      if batch.covers warp then some (batch.byteFor scoop warp nonce offset)
      else supplied batches scoop warp nonce offset := by
  rw [supplied, List.reverse_append, List.reverse_singleton, List.singleton_append,
    List.find?_cons]
  cases covered : batch.covers warp with
  | true => simp only [Option.map_some, ↓reduceIte]
  | false => simp only [Bool.false_eq_true, ↓reduceIte, supplied]

theorem covered_snoc (batches : List Batch) (batch : Batch) (warp : Nat) :
    (∃ earlier ∈ batches ++ [batch], earlier.covers warp = true) ↔
      (∃ earlier ∈ batches, earlier.covers warp = true) ∨ batch.covers warp = true := by
  simp only [List.mem_append, List.mem_singleton, or_and_right, exists_or, exists_eq_left]

/-- The eight bytes of a plot that a marker overwrites. -/
def AtMarker (numberOfWarps scoop warp nonce offset : Nat) : Prop :=
  scoop + 1 = numScoops ∧ warp + 1 = numberOfWarps ∧ nonce + 1 = numScoops ∧
    scoopSize ≤ offset + 8

theorem not_atMarker (numberOfWarps scoop warp nonce offset : Nat)
    (nonceLt : nonce < numScoops) (offsetLt : offset < scoopSize)
    (apart : ¬ AtMarker numberOfWarps scoop warp nonce offset) :
    ¬ (scoop + 1 = numScoops ∧ warp + 1 = numberOfWarps ∧
      blockSize ≤ nonce * scoopSize + offset + 8) := by
  simp only [AtMarker, blockSize, numScoops, scoopSize] at *
  omega

/-- One batch: the covered positions get its bytes, and the marker comes on top. -/
theorem write_byteAt (file : File) (batch : Batch) (final : File)
    (written : Written file batch.data batch.startWarp batch.warpsToWrite final)
    (scoop warp nonce offset : Nat) (scoopLt : scoop < numScoops)
    (warpLt : warp < file.numberOfWarps) (nonceLt : nonce < numScoops)
    (offsetLt : offset < scoopSize)
    (apart : ¬ AtMarker file.numberOfWarps scoop warp nonce offset) :
    final.byteAt scoop warp nonce offset =
      if batch.covers warp then batch.byteFor scoop warp nonce offset
      else file.byteAt scoop warp nonce offset := by
  obtain ⟨scoops, scoopsEq, content⟩ := written.content
  obtain ⟨grown, bytes⟩ := writeScoops_byte _ _ _ _ _ _ _ (Nat.le_refl _) written.fits written.len
    scoopsEq
  have inBlock : nonce * scoopSize + offset < blockSize :=
    Strided.index_lt numScoops scoopSize nonce offset nonceLt offsetLt
  have present : fileOffset scoop warp file.numberOfWarps + (nonce * scoopSize + offset) <
      scoops.len := by
    have inside := Strided.cell_lt numScoops file.numberOfWarps blockSize scoop warp _ scoopLt
      warpLt inBlock
    rw [← fileOffset_cell, ← plotSize_eq] at inside
    exact Nat.lt_of_lt_of_le inside (Nat.le_trans written.len grown)
  have before := before_marker file.numberOfWarps scoop warp _ scoopLt warpLt inBlock
    (not_atMarker _ scoop warp nonce offset nonceLt offsetLt apart)
  rw [File.byteAt, written.warps, content, writeMarker_outside _ _ _ _ present before,
    bytes scoop warp _ scoopLt warpLt inBlock]
  by_cases covered : batch.covers warp = true
  · rw [if_pos ⟨scoopLt, (covers_iff batch warp).mp covered⟩, if_pos covered]
    rfl
  · rw [if_neg (fun inside => covered ((covers_iff batch warp).mpr inside.2)), if_neg covered]
    rfl

/-- The address of the marker, as that of the end of the last scoop. -/
theorem marker_address (numberOfWarps i : Nat) (positive : 1 ≤ numberOfWarps) :
    fileOffset (numScoops - 1) (numberOfWarps - 1) numberOfWarps +
        ((numScoops - 1) * scoopSize + (scoopSize - 8 + i)) =
      markerOffset numberOfWarps + i := by
  obtain ⟨k, warps⟩ := Nat.exists_eq_add_of_le positive
  rw [warps]
  simp only [fileOffset, markerOffset, warpSize, nonceSize, numScoops, scoopSize]
  omega

/-- The last eight bytes after a batch are its marker. -/
theorem write_marker (file : File) (batch : Batch) (final : File)
    (written : Written file batch.data batch.startWarp batch.warpsToWrite final)
    (positive : 1 ≤ file.numberOfWarps) (i : Nat) (lt : i < 8) :
    final.byteAt (numScoops - 1) (file.numberOfWarps - 1) (numScoops - 1) (scoopSize - 8 + i) =
      markerByte (batch.startWarp + batch.warpsToWrite) i := by
  obtain ⟨scoops, -, content⟩ := written.content
  rw [File.byteAt, written.warps, content, marker_address _ i positive,
    writeMarker_inside _ _ _ _ lt]

/-- The plot after some batches, none of which was the last one. -/
structure Kept (numberOfWarps : Nat) (batches : List Batch) (file : File) : Prop where
  warps : file.numberOfWarps = numberOfWarps
  access : file.access = .readWrite
  opened : file.fileHandle = true
  unfinished : ∀ warp, (∃ batch ∈ batches, batch.covers warp = true) → warp + 1 < numberOfWarps
  bytes : ∀ scoop warp nonce offset, scoop < numScoops → nonce < numScoops → offset < scoopSize →
    (∃ batch ∈ batches, batch.covers warp = true) →
    supplied batches scoop warp nonce offset = some (file.byteAt scoop warp nonce offset)

/-- One batch, not the last one, keeps the bytes of all batches so far. -/
theorem Kept.write {numberOfWarps : Nat} {batches : List Batch} {file final : File}
    (kept : Kept numberOfWarps batches file) (batch : Batch)
    (written : Written file batch.data batch.startWarp batch.warpsToWrite final)
    (notLast : batch.startWarp + batch.warpsToWrite ≠ numberOfWarps) :
    Kept numberOfWarps (batches ++ [batch]) final := by
  have fits := written.fits
  rw [kept.warps] at fits
  have unfinished : ∀ warp, (∃ earlier ∈ batches ++ [batch], earlier.covers warp = true) →
      warp + 1 < numberOfWarps := by
    intro warp covered
    rcases (covered_snoc batches batch warp).mp covered with earlier | now
    · exact kept.unfinished warp earlier
    · have range := (covers_iff batch warp).mp now
      omega
  refine
    { warps := written.warps.trans kept.warps
      access := written.access
      opened := written.opened (by rw [kept.warps]; exact notLast)
      unfinished := unfinished
      bytes := ?_ }
  intro scoop warp nonce offset scoopLt nonceLt offsetLt covered
  have early := unfinished warp covered
  have apart : ¬ AtMarker file.numberOfWarps scoop warp nonce offset := by
    rw [kept.warps]
    rintro ⟨-, last, -⟩
    omega
  rw [supplied_snoc, write_byteAt file batch final written scoop warp nonce offset scoopLt
    (by rw [kept.warps]; omega) nonceLt offsetLt apart]
  rcases (covered_snoc batches batch warp).mp covered with earlier | now
  · by_cases now : batch.covers warp = true
    · rw [if_pos now, if_pos now]
    · rw [if_neg now, if_neg now, kept.bytes scoop warp nonce offset scoopLt nonceLt offsetLt earlier]
  · rw [if_pos now, if_pos now]

/-- A run of batches, none of them the last one. The induction is on the run. -/
theorem Kept.run {numberOfWarps : Nat} (positive : 1 ≤ numberOfWarps) (rest : List Batch) :
    ∀ (batches : List Batch) (file final : File), Kept numberOfWarps batches file →
      (∀ batch ∈ rest, batch.startWarp + batch.warpsToWrite ≠ numberOfWarps) →
      writeBatches rest file = .ok final → Kept numberOfWarps (batches ++ rest) final := by
  induction rest with
  | nil =>
    intro batches file final kept _ done
    cases done
    rw [List.append_nil]
    exact kept
  | cons batch rest ih =>
    intro batches file final kept notLast done
    rw [writeBatches] at done
    split at done
    · cases done
    · rename_i total next written
      have spec := write_spec file _ _ _ total next kept.access kept.opened
        (by rw [kept.warps]; exact positive) written
      have step := kept.write batch spec (notLast batch List.mem_cons_self)
      have tail := ih (batches ++ [batch]) next final step
        (fun later member => notLast later (List.mem_cons_of_mem _ member)) done
      rw [List.append_assoc, List.singleton_append] at tail
      exact tail

theorem writeBatches_singleton (batch : Batch) (file final : File) (total : Nat)
    (written : writeOptimisedBufferIntoPlotfile file batch.data batch.startWarp
      batch.warpsToWrite = .ok (total, final)) :
    writeBatches [batch] file = .ok final := by
  simp only [writeBatches, written]

theorem writeBatches_snoc (front : List Batch) (last : Batch) (file final : File)
    (done : writeBatches (front ++ [last]) file = .ok final) :
    ∃ before total, writeBatches front file = .ok before ∧
      writeOptimisedBufferIntoPlotfile before last.data last.startWarp last.warpsToWrite =
        .ok (total, final) := by
  induction front generalizing file with
  | nil =>
    rw [List.nil_append, writeBatches] at done
    split at done
    · cases done
    · rename_i total next written
      cases done
      exact ⟨file, total, rfl, written⟩
  | cons batch front ih =>
    rw [List.cons_append, writeBatches] at done
    split at done
    · cases done
    · rename_i total next written
      obtain ⟨before, total', front', last'⟩ := ih next done
      refine ⟨before, total', ?_, last'⟩
      simp only [writeBatches, written, front']

/-- A `u32` survives its four bytes. -/
theorem asU32Le_asU8Le (value : UInt32) : asU32Le (asU8Le value) = value := by
  apply UInt32.toNat_inj.mp
  have bound := value.toNat_lt
  simp only [asU32Le, asU8Le, UInt32.toNat_add, UInt32.toNat_shiftLeft, UInt8.toNat_toUInt32,
    Nat.toUInt8, UInt8.toNat_ofNat', Nat.shiftLeft_eq]
  simp
  omega

/-- The marker that a batch leaves is what the next batch reads. -/
theorem readMarker_marked (file : File) (warpsWritten : Nat) (content : Bytes)
    (opened : file.fileHandle = true) (positive : 1 ≤ file.numberOfWarps)
    (len : file.numberOfWarps * warpSize ≤ content.len)
    (marked : file.content = writeMarker file.numberOfWarps warpsWritten content) :
    readMarker file = .ok (UInt32.ofNat warpsWritten).toNat := by
  have whole : warpSize ≤ file.numberOfWarps * warpSize := Nat.le_mul_of_pos_left _ positive
  have eight : 8 ≤ warpSize := by decide
  have grown : content.len ≤ (writeMarker file.numberOfWarps warpsWritten content).len :=
    Nat.le_trans (writeAt_len _ _ _) (writeAt_len _ _ _)
  have inside : markerOffset file.numberOfWarps + 4 + 4 ≤ file.content.len := by
    rw [marked, markerOffset]
    omega
  have bytes (i : Nat) (lt : i < 8) :
      file.content.byte (markerOffset file.numberOfWarps + i) = markerByte warpsWritten i := by
    rw [marked, writeMarker_inside _ _ _ i lt]
  have magic : ((List.range 4).all fun i =>
      file.content.byte (markerOffset file.numberOfWarps + 4 + i) == resumeMagic.byte i) = true := by
    rw [List.all_eq_true]
    intro i member
    have lt : i < 4 := List.mem_range.mp member
    have later : ¬ 4 + i < 4 := by omega
    rw [Nat.add_assoc, bytes (4 + i) (by omega), markerByte, if_neg later, Nat.add_sub_cancel_left]
    exact beq_self_eq_true _
  have progress : asU32Le ⟨4, fun i => file.content.byte (markerOffset file.numberOfWarps + i)⟩ =
      UInt32.ofNat warpsWritten := by
    rw [← asU32Le_asU8Le (UInt32.ofNat warpsWritten)]
    simp only [asU32Le]
    rw [bytes 0 (by omega), bytes 1 (by omega), bytes 2 (by omega), bytes 3 (by omega)]
    rfl
  have first : markerOffset file.numberOfWarps + 4 ≤ file.content.len := by omega
  simp only [readMarker, opened, ↓reduceIte, slice_some first, slice_some inside, magic, progress]

/-- The slices of a batch exist, so its scoops can be written. -/
theorem writeScoops_succeeds (numberOfWarps : Nat) (batch : Batch) (content : Bytes) (scoops : Nat)
    (scoopsLe : scoops ≤ numScoops) :
    ∃ after, writeScoops numberOfWarps batch.data batch.startWarp batch.warpsToWrite scoops
      content = some after := by
  induction scoops with
  | zero => exact ⟨content, rfl⟩
  | succ row ih =>
    obtain ⟨before, beforeEq⟩ := ih (by omega)
    have warps : batch.warpsToWrite ≤ batch.data.len / warpSize :=
      (Nat.le_div_iff_mul_le (by decide)).mpr batch.holds
    have inside : fileOffset row 0 (batch.data.len / warpSize) +
        batch.warpsToWrite * numScoops * scoopSize ≤ batch.data.len := by
      have rows : (row + 1) * (batch.data.len / warpSize) ≤
          numScoops * (batch.data.len / warpSize) := Nat.mul_le_mul_right _ scoopsLe
      have blocks : (row * (batch.data.len / warpSize) + batch.warpsToWrite) * blockSize ≤
          numScoops * (batch.data.len / warpSize) * blockSize := by
        apply Nat.mul_le_mul_right
        rw [Nat.add_mul, Nat.one_mul] at rows
        omega
      rw [← plotSize_eq, Nat.add_mul] at blocks
      have offset := fileOffset_cell row 0 (batch.data.len / warpSize) 0
      have extent : batch.warpsToWrite * numScoops * scoopSize = batch.warpsToWrite * blockSize := by
        rw [blockSize, Nat.mul_assoc]
      rw [Strided.cell, Nat.add_zero, Nat.add_zero, Nat.add_zero] at offset
      rw [offset, extent]
      exact Nat.le_trans blocks (Nat.div_mul_le_self _ _)
    rw [writeScoops, beforeEq, Option.bind_some, slice_some inside, Option.map_some]
    exact ⟨_, rfl⟩

/-- Behind the reading of the progress, a batch that stays in the plot succeeds. -/
theorem writeFrom_succeeds (plot : File) (batch : Batch) (writable : plot.access = .readWrite)
    (handle : plot.fileHandle = true)
    (fits : batch.startWarp + batch.warpsToWrite ≤ plot.numberOfWarps) :
    ∃ total final, writeFrom plot batch.data batch.startWarp batch.warpsToWrite batch.startWarp =
      .ok (total, final) := by
  obtain ⟨scoops, scoopsEq⟩ := writeScoops_succeeds plot.numberOfWarps batch plot.content
    numScoops (Nat.le_refl _)
  have inside : ¬ plot.numberOfWarps < batch.startWarp + batch.warpsToWrite := by omega
  have batchEq : writeBatch plot batch.data batch.startWarp batch.warpsToWrite =
      some (plot.setContent scoops) := by
    rw [writeBatch, if_pos handle, scoopsEq, Option.map_some]
  have again := reopened_same (plot.setContent scoops)
  have marked : ∃ content, writeResumeInfo (plot.setContent scoops)
      (batch.startWarp + batch.warpsToWrite) =
      .ok ((plot.setContent scoops).reopened.setContent content) := by
    have access : (plot.setContent scoops).access = .readWrite := writable
    simp only [writeResumeInfo, access, again.opened handle, ↓reduceIte]
    exact ⟨_, rfl⟩
  obtain ⟨content, markedEq⟩ := marked
  have finished : ∃ final, finishBatch ((plot.setContent scoops).reopened.setContent content)
      (batch.startWarp + batch.warpsToWrite == plot.numberOfWarps) = .ok final := by
    unfold finishBatch
    split
    · unfold finalize
      cases extension : ((plot.setContent scoops).reopened.setContent content).extension with
      | pocx => exact ⟨_, rfl⟩
      | tmp =>
        have present : ((plot.setContent scoops).reopened.setContent content).files .tmp =
            some content := by
          rw [← extension]
          simp only [File.setContent, Function.update_self]
        simp only [present]
        exact ⟨_, rfl⟩
    · exact ⟨_, rfl⟩
  obtain ⟨final, finishedEq⟩ := finished
  refine ⟨numScoops * (batch.warpsToWrite * numScoops * scoopSize), final, ?_⟩
  simp only [writeFrom, ne_eq, not_true_eq_false, inside, ↓reduceIte, batchEq, markedEq,
    finishedEq]

/-- A batch that starts at the marker and stays in the plot succeeds. -/
theorem write_succeeds (file : File) (batch : Batch) (writable : file.access = .readWrite)
    (opened : file.fileHandle = true) (progress : readMarker file.reopened = .ok batch.startWarp)
    (fits : batch.startWarp + batch.warpsToWrite ≤ file.numberOfWarps) :
    ∃ total final, writeOptimisedBufferIntoPlotfile file batch.data batch.startWarp
      batch.warpsToWrite = .ok (total, final) := by
  have same := reopened_same file
  simp only [writeOptimisedBufferIntoPlotfile, readResumeInfo, writable, progress]
  exact writeFrom_succeeds file.reopened batch (same.access.trans writable) (same.opened opened)
    (by rw [same.warps]; exact fits)

/-- `new` leaves a plot that a first batch can be written to. -/
theorem create_progress (numberOfWarps : Nat) (positive : 1 ≤ numberOfWarps) (directIo : Bool)
    (preallocated : Nat → UInt8) :
    readMarker (create numberOfWarps directIo preallocated).reopened = .ok 0 := by
  have same := reopened_same (create numberOfWarps directIo preallocated)
  exact readMarker_marked _ 0 ⟨numberOfWarps * warpSize, preallocated⟩ (same.opened rfl)
    (by rw [same.warps]; exact positive) (by rw [same.warps]; exact Nat.le_refl _)
    (by rw [same.content, same.warps]; rfl)

/-- Every byte of the plot is the one supplied for its position. -/
def Intact (numberOfWarps : Nat) (batches : List Batch) (final : File) : Prop :=
  ∀ scoop warp nonce offset, scoop < numScoops → warp < numberOfWarps → nonce < numScoops →
    offset < scoopSize →
    supplied batches scoop warp nonce offset = some (final.byteAt scoop warp nonce offset)

/-- A finished plot holds what was written if and only if the last eight bytes supplied
for it are those of its last resume marker. -/
theorem finished_intact_iff (numberOfWarps : Nat) (positive : 1 ≤ numberOfWarps)
    (plot final : File) (front : List Batch) (last : Batch)
    (warps : plot.numberOfWarps = numberOfWarps) (access : plot.access = .readWrite)
    (opened : plot.fileHandle = true)
    (done : writeBatches (front ++ [last]) plot = .ok final)
    (unfinished : ∀ batch ∈ front, batch.startWarp + batch.warpsToWrite ≠ numberOfWarps)
    (finished : last.startWarp + last.warpsToWrite = numberOfWarps)
    (covering : ∀ warp < numberOfWarps,
      ∃ batch ∈ front ++ [last], batch.covers warp = true) :
    Intact numberOfWarps (front ++ [last]) final ↔
      ∀ i < 8, supplied (front ++ [last]) (numScoops - 1) (numberOfWarps - 1) (numScoops - 1)
        (scoopSize - 8 + i) = some (markerByte numberOfWarps i) := by
  obtain ⟨before, total, frontDone, lastDone⟩ := writeBatches_snoc front last plot final done
  have start : Kept numberOfWarps [] plot :=
    { warps := warps
      access := access
      opened := opened
      unfinished := fun _ covered => absurd covered (by simp)
      bytes := fun _ _ _ _ _ _ _ covered => absurd covered (by simp) }
  have kept := start.run positive front [] plot before unfinished frontDone
  rw [List.nil_append] at kept
  have written := write_spec before _ _ _ total final kept.access kept.opened
    (by rw [kept.warps]; exact positive) lastDone
  have marker := write_marker before last final written (by rw [kept.warps]; exact positive)
  rw [kept.warps, finished] at marker
  constructor
  · intro intact i lt
    rw [intact _ _ _ _ (by decide) (by omega) (by decide) (by simp only [scoopSize]; omega),
      marker i lt]
  · intro sealed scoop warp nonce offset scoopLt warpLt nonceLt offsetLt
    by_cases atMarker : AtMarker numberOfWarps scoop warp nonce offset
    · obtain ⟨scoopLast, warpLast, nonceLast, offsetLast⟩ := atMarker
      obtain ⟨i, rfl⟩ := Nat.exists_eq_add_of_le (show scoopSize - 8 ≤ offset by omega)
      have lt : i < 8 := by
        simp only [scoopSize] at offsetLt
        omega
      rw [Nat.eq_sub_of_add_eq scoopLast, Nat.eq_sub_of_add_eq warpLast,
        Nat.eq_sub_of_add_eq nonceLast, sealed i lt, marker i lt]
    · rw [← kept.warps] at atMarker warpLt
      rw [supplied_snoc,
        write_byteAt before last final written scoop warp nonce offset scoopLt warpLt nonceLt
          offsetLt atMarker]
      by_cases now : last.covers warp = true
      · rw [if_pos now, if_pos now]
      · rw [kept.warps] at warpLt
        rcases (covered_snoc front last warp).mp (covering warp warpLt) with earlier | latest
        · rw [if_neg now, if_neg now,
            kept.bytes scoop warp nonce offset scoopLt nonceLt offsetLt earlier]
        · exact absurd latest now

/-- One warp of zeros. -/
def zeroBatch : Batch where
  data := ⟨warpSize, fun _ => 0⟩
  startWarp := 0
  warpsToWrite := 1
  holds := by decide

theorem zeroBatch_covers (warp : Nat) (lt : warp < 1) :
    ∃ batch ∈ [zeroBatch], batch.covers warp = true := by
  refine ⟨zeroBatch, List.mem_singleton_self _, (covers_iff zeroBatch warp).mpr ?_⟩
  exact ⟨Nat.zero_le _, lt⟩

theorem zeroBatch_succeeds :
    ∃ total final, writeOptimisedBufferIntoPlotfile (create 1 false fun _ => 0) zeroBatch.data
      zeroBatch.startWarp zeroBatch.warpsToWrite = .ok (total, final) :=
  write_succeeds (create 1 false fun _ => 0) zeroBatch rfl rfl
    (create_progress 1 (Nat.le_refl _) false _) (Nat.le_refl _)

theorem finished_intact_iff_zeros :
    ∃ final, writeBatches ([] ++ [zeroBatch]) (create 1 false fun _ => 0) = .ok final ∧
      (Intact 1 ([] ++ [zeroBatch]) final ↔
        ∀ i < 8, supplied ([] ++ [zeroBatch]) (numScoops - 1) (1 - 1) (numScoops - 1)
          (scoopSize - 8 + i) = some (markerByte 1 i)) := by
  obtain ⟨total, final, written⟩ := zeroBatch_succeeds
  have done : writeBatches ([] ++ [zeroBatch]) (create 1 false fun _ => 0) = .ok final :=
    writeBatches_singleton zeroBatch _ final total written
  exact ⟨final, done, finished_intact_iff 1 (Nat.le_refl _) _ final [] zeroBatch rfl rfl rfl done
    (by nofun) rfl zeroBatch_covers⟩

/-- The last byte of a finished plot is the end of the marker, not the zero supplied. -/
theorem finished_zeros_damaged :
    ∃ final, writeBatches [zeroBatch] (create 1 false fun _ => 0) = .ok final ∧
      final.extension = .pocx ∧ (∀ warp < 1, ∃ batch ∈ [zeroBatch], batch.covers warp = true) ∧
      ¬ Intact 1 [zeroBatch] final := by
  obtain ⟨total, final, written⟩ := zeroBatch_succeeds
  have spec := write_spec _ _ _ _ total final rfl rfl (Nat.le_refl _) written
  have marker : final.byteAt (numScoops - 1) 0 (numScoops - 1) (scoopSize - 8 + 7) =
      markerByte 1 7 := write_marker _ zeroBatch final spec (Nat.le_refl _) 7 (by decide)
  have done := writeBatches_singleton zeroBatch _ final total written
  refine ⟨final, done, spec.renamed rfl, zeroBatch_covers, ?_⟩
  intro intact
  have zero := intact (numScoops - 1) 0 (numScoops - 1) (scoopSize - 8 + 7) (by decide) (by decide)
    (by decide) (by decide)
  have last : markerByte 1 7 = 0xFE := by decide
  rw [marker, last] at zero
  have covered : zeroBatch.covers 0 = true := rfl
  rw [← List.nil_append [zeroBatch], supplied_snoc, if_pos covered, Option.some.injEq] at zero
  have differ : ¬ (0 : UInt8) = 0xFE := by decide
  exact differ zero

end Pocx.PlotFile
