import Pocx.PlotFile.Crash

set_option autoImplicit false

namespace Pocx.PlotFile.Crash

open ByteStore

/-- The last four bytes of a plot are `RESUME_MAGIC`. -/
def hasMagic (numberOfWarps : Nat) (content : Bytes) : Bool :=
  (List.range 4).all fun i =>
    content.byte (markerOffset numberOfWarps + 4 + i) == resumeMagic.byte i

/-- The four bytes before them. -/
def progressOf (numberOfWarps : Nat) (content : Bytes) : Nat :=
  (asU32Le ⟨4, fun i => content.byte (markerOffset numberOfWarps + i)⟩).toNat

theorem hasMagic_iff (numberOfWarps : Nat) (content : Bytes) :
    hasMagic numberOfWarps content = true ↔
      ∀ i < 4, content.byte (markerOffset numberOfWarps + 4 + i) = resumeMagic.byte i := by
  simp only [hasMagic, List.all_eq_true, List.mem_range, beq_iff_eq]

theorem markerOffset_fits (numberOfWarps : Nat) (positive : 1 ≤ numberOfWarps) :
    markerOffset numberOfWarps + 8 = numberOfWarps * warpSize := by
  have whole : warpSize ≤ numberOfWarps * warpSize := Nat.le_mul_of_pos_left _ positive
  have eight : 8 ≤ warpSize := by decide
  rw [markerOffset]
  omega

/-- What a plot that reaches to its end yields. -/
theorem readMarker_eq (plot : File) (handle : plot.fileHandle = true)
    (positive : 1 ≤ plot.numberOfWarps)
    (len : plot.numberOfWarps * warpSize ≤ plot.content.len) :
    readMarker plot =
      if hasMagic plot.numberOfWarps plot.content = true then
        .ok (progressOf plot.numberOfWarps plot.content)
      else .error .noResumeInfo := by
  have ends := markerOffset_fits plot.numberOfWarps positive
  have first : markerOffset plot.numberOfWarps + 4 ≤ plot.content.len := by omega
  have second : markerOffset plot.numberOfWarps + 4 + 4 ≤ plot.content.len := by omega
  simp only [readMarker, handle, ↓reduceIte, slice_some first, slice_some second, hasMagic,
    progressOf]
  rfl

/-- The bytes that the scoops of the warps below `progress` take lie before the marker. -/
theorem position_lt (numberOfWarps scoop warp nonce offset : Nat) (scoopLt : scoop < numScoops)
    (warpLt : warp < numberOfWarps) (nonceLt : nonce < numScoops) (offsetLt : offset < scoopSize)
    (apart : ¬ AtMarker numberOfWarps scoop warp nonce offset) :
    fileOffset scoop warp numberOfWarps + (nonce * scoopSize + offset) <
      markerOffset numberOfWarps :=
  before_marker numberOfWarps scoop warp _ scoopLt warpLt
    (Strided.index_lt numScoops scoopSize nonce offset nonceLt offsetLt)
    (not_atMarker _ scoop warp nonce offset nonceLt offsetLt apart)

theorem HoldsBelow.congr {numberOfWarps : Nat} {supplied : Nat → Option Batch}
    {content after : Bytes} {progress : Nat}
    (holds : HoldsBelow numberOfWarps supplied content progress)
    (inside : progress ≤ numberOfWarps)
    (same : ∀ i < markerOffset numberOfWarps, after.byte i = content.byte i) :
    HoldsBelow numberOfWarps supplied after progress := by
  intro scoop warp nonce offset scoopLt warpLt nonceLt offsetLt apart
  rw [holds scoop warp nonce offset scoopLt warpLt nonceLt offsetLt apart, byteOf, byteOf, same]
  exact position_lt numberOfWarps scoop warp nonce offset scoopLt (by omega) nonceLt offsetLt apart

/-- A batch from `progress` on supplies nothing below. -/
theorem HoldsBelow.supply {numberOfWarps : Nat} {supplied : Nat → Option Batch}
    {content : Bytes} {progress : Nat}
    (holds : HoldsBelow numberOfWarps supplied content progress) (batch : Batch)
    (start : progress ≤ batch.startWarp) :
    HoldsBelow numberOfWarps
      (fun warp => if batch.covers warp then some batch else supplied warp) content progress := by
  intro scoop warp nonce offset scoopLt warpLt nonceLt offsetLt apart
  have uncovered : ¬ batch.covers warp = true := by
    rw [covers_iff]
    omega
  simp only [uncovered, Bool.false_eq_true, ↓reduceIte]
  exact holds scoop warp nonce offset scoopLt warpLt nonceLt offsetLt apart

theorem HoldsBelow.zero (numberOfWarps : Nat) (supplied : Nat → Option Batch) (content : Bytes) :
    HoldsBelow numberOfWarps supplied content 0 := by
  intro scoop warp nonce offset _ warpLt
  cases warpLt

/-- A content whose marker, if it has one, is true. -/
structure Sound (numberOfWarps : Nat) (supplied : Nat → Option Batch) (content : Bytes) : Prop where
  len : numberOfWarps * warpSize ≤ content.len
  inside : hasMagic numberOfWarps content = true → progressOf numberOfWarps content ≤ numberOfWarps
  holds : hasMagic numberOfWarps content = true →
    HoldsBelow numberOfWarps supplied content (progressOf numberOfWarps content)

/-- The content after a write of the progress. -/
def withProgress (numberOfWarps warpsWritten : Nat) (content : Bytes) : Bytes :=
  writeAt content (markerOffset numberOfWarps) (asU8Le (UInt32.ofNat warpsWritten))

def withMagic (numberOfWarps : Nat) (content : Bytes) : Bytes :=
  writeAt content (markerOffset numberOfWarps + 4) resumeMagic

section marker

variable (numberOfWarps warpsWritten : Nat) (content : Bytes) (positive : 1 ≤ numberOfWarps)
  (len : numberOfWarps * warpSize ≤ content.len)

theorem withProgress_len :
    content.len ≤ (withProgress numberOfWarps warpsWritten content).len :=
  writeAt_len _ _ _

theorem withMagic_len : content.len ≤ (withMagic numberOfWarps content).len :=
  writeAt_len _ _ _

include positive len

theorem withProgress_before (i : Nat) (lt : i < markerOffset numberOfWarps) :
    (withProgress numberOfWarps warpsWritten content).byte i = content.byte i := by
  have ends := markerOffset_fits numberOfWarps positive
  exact writeAt_outside _ _ _ _ (by omega) (Or.inl lt)

theorem withMagic_before (i : Nat) (lt : i < markerOffset numberOfWarps + 4) :
    (withMagic numberOfWarps content).byte i = content.byte i := by
  have ends := markerOffset_fits numberOfWarps positive
  exact writeAt_outside _ _ _ _ (by omega) (Or.inl lt)

omit positive len in
theorem withProgress_progressOf (bounded : warpsWritten < 2 ^ 32) :
    progressOf numberOfWarps (withProgress numberOfWarps warpsWritten content) = warpsWritten := by
  have four : (asU8Le (UInt32.ofNat warpsWritten)).len = 4 := rfl
  have byte (i : Nat) (lt : i < 4) :
      (withProgress numberOfWarps warpsWritten content).byte (markerOffset numberOfWarps + i) =
        (asU8Le (UInt32.ofNat warpsWritten)).byte i := by
    rw [withProgress, writeAt_inside _ _ _ _ (by omega) (by rw [four]; omega),
      Nat.add_sub_cancel_left]
  have value : asU32Le ⟨4, fun i =>
      (withProgress numberOfWarps warpsWritten content).byte (markerOffset numberOfWarps + i)⟩ =
      UInt32.ofNat warpsWritten := by
    rw [← asU32Le_asU8Le (UInt32.ofNat warpsWritten)]
    simp only [asU32Le]
    rw [byte 0 (by omega), byte 1 (by omega), byte 2 (by omega), byte 3 (by omega)]
  rw [progressOf, value, UInt32.toNat_ofNat', Nat.mod_eq_of_lt bounded]

omit positive len in
theorem withMagic_hasMagic : hasMagic numberOfWarps (withMagic numberOfWarps content) = true := by
  have four : resumeMagic.len = 4 := rfl
  rw [hasMagic_iff]
  intro i lt
  rw [withMagic, writeAt_inside _ _ _ _ (by omega) (by rw [four]; omega),
    Nat.add_sub_cancel_left]

theorem withMagic_progressOf :
    progressOf numberOfWarps (withMagic numberOfWarps content) =
      progressOf numberOfWarps content := by
  have byte (i : Nat) (lt : i < 4) :
      (withMagic numberOfWarps content).byte (markerOffset numberOfWarps + i) =
        content.byte (markerOffset numberOfWarps + i) :=
    withMagic_before numberOfWarps content positive len _ (by omega)
  simp only [progressOf, asU32Le]
  rw [byte 0 (by omega), byte 1 (by omega), byte 2 (by omega), byte 3 (by omega)]

/-- The marker may be written once all warps below it are there. -/
theorem withProgress_sound {supplied : Nat → Option Batch} (inside : warpsWritten ≤ numberOfWarps)
    (bounded : numberOfWarps < 2 ^ 32)
    (holds : HoldsBelow numberOfWarps supplied content warpsWritten) :
    Sound numberOfWarps supplied (withProgress numberOfWarps warpsWritten content) := by
  have progress := withProgress_progressOf numberOfWarps warpsWritten content (by omega)
  refine ⟨Nat.le_trans len (withProgress_len _ _ _), fun _ => ?_, fun _ => ?_⟩
  · rw [progress]
    exact inside
  · rw [progress]
    exact holds.congr inside (withProgress_before numberOfWarps warpsWritten content positive len)

theorem withMagic_sound {supplied : Nat → Option Batch} (inside : warpsWritten ≤ numberOfWarps)
    (progress : progressOf numberOfWarps content = warpsWritten)
    (holds : HoldsBelow numberOfWarps supplied content warpsWritten) :
    Sound numberOfWarps supplied (withMagic numberOfWarps content) := by
  have kept := withMagic_progressOf numberOfWarps content positive len
  refine ⟨Nat.le_trans len (withMagic_len _ _), fun _ => ?_, fun _ => ?_⟩
  · rw [kept, progress]
    exact inside
  · rw [kept, progress]
    exact holds.congr inside fun i lt =>
      withMagic_before numberOfWarps content positive len i (by omega)

end marker

/-- The last four bytes that a batch supplies for the end of the plot, if it does, are not
`RESUME_MAGIC`. -/
def AvoidsMagic (numberOfWarps : Nat) (batch : Batch) : Prop :=
  batch.covers (numberOfWarps - 1) = true →
    ∃ i < 4, batch.byteFor (numScoops - 1) (numberOfWarps - 1) (numScoops - 1)
      (scoopSize - 8 + (4 + i)) ≠ resumeMagic.byte i

/-- The scoops of an accepted batch on their way into a plot. -/
structure Writing (numberOfWarps : Nat) (supplied : Nat → Option Batch) (batch : Batch)
    (scoop : Nat) (content : Bytes) : Prop where
  fits : batch.startWarp + batch.warpsToWrite ≤ numberOfWarps
  avoids : AvoidsMagic numberOfWarps batch
  covered : ∀ warp, batch.covers warp = true → supplied warp = some batch
  written : ∃ before, numberOfWarps * warpSize ≤ before.len ∧
    HoldsBelow numberOfWarps supplied before batch.startWarp ∧
    (hasMagic numberOfWarps before = true →
      progressOf numberOfWarps before = batch.startWarp) ∧
    writeScoops numberOfWarps batch.data batch.startWarp batch.warpsToWrite scoop before =
      some content

theorem writeScoops_succ (numberOfWarps : Nat) (batch : Batch) (scoop : Nat) (content : Bytes) :
    writeScoops numberOfWarps batch.data batch.startWarp batch.warpsToWrite (scoop + 1) content =
      (writeScoops numberOfWarps batch.data batch.startWarp batch.warpsToWrite scoop content).bind
        (writeScoop numberOfWarps batch scoop) := rfl

/-- What the first scoops of a batch leave of a position. -/
theorem written_byteOf (numberOfWarps : Nat) (batch : Batch) (scoops : Nat)
    (before content : Bytes) (scoopsLe : scoops ≤ numScoops)
    (fits : batch.startWarp + batch.warpsToWrite ≤ numberOfWarps)
    (len : numberOfWarps * warpSize ≤ before.len)
    (written : writeScoops numberOfWarps batch.data batch.startWarp batch.warpsToWrite scoops
      before = some content)
    (scoop warp nonce offset : Nat) (scoopLt : scoop < numScoops) (warpLt : warp < numberOfWarps)
    (nonceLt : nonce < numScoops) (offsetLt : offset < scoopSize) :
    byteOf numberOfWarps content scoop warp nonce offset =
      if scoop < scoops ∧ batch.covers warp = true then batch.byteFor scoop warp nonce offset
      else byteOf numberOfWarps before scoop warp nonce offset := by
  obtain ⟨-, bytes⟩ := writeScoops_byte numberOfWarps batch.data before content batch.startWarp
    batch.warpsToWrite scoops scoopsLe fits len written
  have inBlock : nonce * scoopSize + offset < blockSize :=
    Strided.index_lt numScoops scoopSize nonce offset nonceLt offsetLt
  rw [byteOf, bytes scoop warp _ scoopLt warpLt inBlock]
  simp only [covers_iff]
  rfl

/-- A byte of the marker is a byte of the end of the plot. -/
theorem marker_byteOf (numberOfWarps i : Nat) (content : Bytes) (positive : 1 ≤ numberOfWarps) :
    content.byte (markerOffset numberOfWarps + i) =
      byteOf numberOfWarps content (numScoops - 1) (numberOfWarps - 1) (numScoops - 1)
        (scoopSize - 8 + i) := by
  rw [byteOf, marker_address numberOfWarps i positive]

/-- Before its last scoop a batch leaves the marker; from then on the marker of a last batch
has other bytes than `RESUME_MAGIC`. -/
theorem Writing.marker {numberOfWarps : Nat} {supplied : Nat → Option Batch} {batch : Batch}
    {scoop : Nat} {content : Bytes} (positive : 1 ≤ numberOfWarps) (scoopLe : scoop ≤ numScoops)
    (writing : Writing numberOfWarps supplied batch scoop content)
    (magic : hasMagic numberOfWarps content = true) :
    progressOf numberOfWarps content = batch.startWarp := by
  obtain ⟨fits, avoids, -, before, len, -, marked, written⟩ := writing
  have byte (i : Nat) (lt : i < 8) := written_byteOf numberOfWarps batch scoop before content
    scoopLe fits len written (numScoops - 1) (numberOfWarps - 1) (numScoops - 1)
    (scoopSize - 8 + i) (by decide) (by omega) (by decide)
    (by have size : 8 ≤ scoopSize := by decide
        omega)
  simp only [← marker_byteOf numberOfWarps _ _ positive] at byte
  by_cases overwritten : numScoops - 1 < scoop ∧ batch.covers (numberOfWarps - 1) = true
  · obtain ⟨i, lt, differs⟩ := avoids overwritten.2
    have last := byte (4 + i) (by omega)
    rw [if_pos overwritten, ← Nat.add_assoc, (hasMagic_iff _ _).mp magic i lt] at last
    exact absurd last.symm differs
  · simp only [if_neg overwritten] at byte
    have magicBefore : hasMagic numberOfWarps before = true := by
      rw [hasMagic_iff] at magic ⊢
      intro i lt
      rw [← magic i lt, Nat.add_assoc, byte (4 + i) (by omega)]
    rw [← marked magicBefore]
    simp only [progressOf, asU32Le]
    rw [byte 0 (by omega), byte 1 (by omega), byte 2 (by omega), byte 3 (by omega)]

theorem Writing.len {numberOfWarps : Nat} {supplied : Nat → Option Batch} {batch : Batch}
    {scoop : Nat} {content : Bytes} (scoopLe : scoop ≤ numScoops)
    (writing : Writing numberOfWarps supplied batch scoop content) :
    numberOfWarps * warpSize ≤ content.len := by
  obtain ⟨fits, -, -, before, len, -, -, written⟩ := writing
  obtain ⟨grown, -⟩ := writeScoops_byte numberOfWarps batch.data before content batch.startWarp
    batch.warpsToWrite scoop scoopLe fits len written
  exact Nat.le_trans len grown

/-- The warps before the batch keep what they hold. -/
theorem Writing.below {numberOfWarps : Nat} {supplied : Nat → Option Batch} {batch : Batch}
    {scoop : Nat} {content : Bytes} (scoopLe : scoop ≤ numScoops)
    (writing : Writing numberOfWarps supplied batch scoop content) :
    HoldsBelow numberOfWarps supplied content batch.startWarp := by
  obtain ⟨fits, -, -, before, len, holds, -, written⟩ := writing
  intro row warp nonce offset rowLt warpLt nonceLt offsetLt apart
  have uncovered : ¬ (row < scoop ∧ batch.covers warp = true) := by
    rw [covers_iff]
    omega
  rw [holds row warp nonce offset rowLt warpLt nonceLt offsetLt apart,
    written_byteOf numberOfWarps batch scoop before content scoopLe fits len written row warp nonce
      offset rowLt (by omega) nonceLt offsetLt, if_neg uncovered]

theorem Writing.sound {numberOfWarps : Nat} {supplied : Nat → Option Batch} {batch : Batch}
    {scoop : Nat} {content : Bytes} (positive : 1 ≤ numberOfWarps) (scoopLe : scoop ≤ numScoops)
    (writing : Writing numberOfWarps supplied batch scoop content) :
    Sound numberOfWarps supplied content := by
  have fits := writing.fits
  refine ⟨writing.len scoopLe, fun magic => ?_, fun magic => ?_⟩
  · rw [writing.marker positive scoopLe magic]
    omega
  · rw [writing.marker positive scoopLe magic]
    exact writing.below scoopLe

/-- Behind its last scoop the warps of the batch are there. -/
theorem Writing.complete {numberOfWarps : Nat} {supplied : Nat → Option Batch} {batch : Batch}
    {content : Bytes} (writing : Writing numberOfWarps supplied batch numScoops content) :
    HoldsBelow numberOfWarps supplied content (batch.startWarp + batch.warpsToWrite) := by
  have below := writing.below (Nat.le_refl _)
  obtain ⟨fits, -, covered, before, len, -, -, written⟩ := writing
  intro row warp nonce offset rowLt warpLt nonceLt offsetLt apart
  by_cases earlier : warp < batch.startWarp
  · exact below row warp nonce offset rowLt earlier nonceLt offsetLt apart
  · have now : batch.covers warp = true := by
      rw [covers_iff]
      omega
    rw [covered warp now, Option.map_some,
      written_byteOf numberOfWarps batch numScoops before content (Nat.le_refl _) fits len written
        row warp nonce offset rowLt (by omega) nonceLt offsetLt, if_pos ⟨rowLt, now⟩]

theorem Writing.step {numberOfWarps : Nat} {supplied : Nat → Option Batch} {batch : Batch}
    {scoop : Nat} {content after : Bytes}
    (writing : Writing numberOfWarps supplied batch scoop content)
    (taken : writeScoop numberOfWarps batch scoop content = some after) :
    Writing numberOfWarps supplied batch (scoop + 1) after := by
  obtain ⟨fits, avoids, covered, before, len, holds, marked, written⟩ := writing
  refine ⟨fits, avoids, covered, before, len, holds, marked, ?_⟩
  rw [writeScoops_succ, written, Option.bind_some, taken]

/-- An accepted batch, before its first write. -/
theorem Sound.accepted {numberOfWarps : Nat} {supplied : Nat → Option Batch} {content : Bytes}
    (sound : Sound numberOfWarps supplied content) (batch : Batch)
    (fits : batch.startWarp + batch.warpsToWrite ≤ numberOfWarps)
    (avoids : AvoidsMagic numberOfWarps batch)
    (start : if hasMagic numberOfWarps content = true then
      batch.startWarp = progressOf numberOfWarps content else batch.startWarp = 0) :
    Writing numberOfWarps (fun warp => if batch.covers warp then some batch else supplied warp)
      batch 0 content := by
  refine ⟨fits, avoids, fun warp now => if_pos now, content, sound.len, ?_, ?_, rfl⟩
  · by_cases magic : hasMagic numberOfWarps content = true
    · rw [if_pos magic] at start
      rw [start]
      exact (sound.holds magic).supply batch (Nat.le_of_eq start.symm)
    · rw [if_neg magic] at start
      rw [start]
      exact HoldsBelow.zero _ _ _
  · intro magic
    rw [if_pos magic] at start
    exact start.symm

end Pocx.PlotFile.Crash
