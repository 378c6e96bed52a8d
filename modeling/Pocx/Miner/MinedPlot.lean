import Pocx.Hashlib.NoncegenPaths
import Pocx.Miner.ReadDiskRuns
import Pocx.Plotter.PlotLifeRuns

set_option autoImplicit false

namespace Pocx.ReadDisk

open ByteStore
open PlotFile (scoopSize numScoops nonceSize warpSize fileOffset)
open Hashlib
open Hasher (HoldsLevel hexEncode calcQualities)

section Rows

variable {plot : Plot} {scoop : Nat} {content : Bytes}

def Plot.withContent (plot : Plot) (content : Bytes) : Plot := { plot with content := content }

/-- Two contents of a plot that agree on the row of a scoop. -/
structure SameRow (plot : Plot) (scoop : Nat) (content : Bytes) : Prop where
  len : plot.numberOfWarps * warpSize ≤ plot.content.len
  len_other : plot.numberOfWarps * warpSize ≤ content.len
  bytes : ∀ i, i < plot.numberOfWarps * numScoops * scoopSize →
    plot.content.byte (fileOffset scoop 0 plot.numberOfWarps + i) =
      content.byte (fileOffset scoop 0 plot.numberOfWarps + i)

/-- Warps of a scoop lie in its row. -/
theorem warps_in_row (numberOfWarps readProgress warps scoop : Nat)
    (fits : readProgress + warps ≤ numberOfWarps) :
    fileOffset scoop readProgress numberOfWarps + warps * numScoops * scoopSize ≤
      fileOffset scoop 0 numberOfWarps + numberOfWarps * numScoops * scoopSize := by
  have whole : (readProgress + warps) * numScoops * scoopSize ≤
      numberOfWarps * numScoops * scoopSize :=
    Nat.mul_le_mul_right _ (Nat.mul_le_mul_right _ fits)
  rw [Nat.add_mul, Nat.add_mul] at whole
  simp only [fileOffset, Nat.zero_mul, Nat.add_zero]
  omega

theorem row_in_plot (numberOfWarps scoop : Nat) (scoopLt : scoop < numScoops) :
    fileOffset scoop 0 numberOfWarps + numberOfWarps * numScoops * scoopSize ≤
      numberOfWarps * warpSize := by
  have rows : (scoop + 1) * (numberOfWarps * numScoops * scoopSize) ≤
      numScoops * (numberOfWarps * numScoops * scoopSize) :=
    Nat.mul_le_mul_right _ (Nat.succ_le_of_lt scoopLt)
  rw [Nat.add_mul, Nat.one_mul] at rows
  calc fileOffset scoop 0 numberOfWarps + numberOfWarps * numScoops * scoopSize
      = scoop * (numberOfWarps * numScoops * scoopSize) +
          numberOfWarps * numScoops * scoopSize := by
        rw [fileOffset, Nat.zero_mul, Nat.zero_mul, Nat.add_zero, Nat.mul_assoc, Nat.mul_assoc,
          Nat.mul_assoc]
    _ ≤ numScoops * (numberOfWarps * numScoops * scoopSize) := rows
    _ = numberOfWarps * warpSize := by
        rw [warpSize, nonceSize, Nat.mul_assoc, Nat.mul_left_comm]

theorem read_withContent (same : SameRow plot scoop content) (readProgress : Nat) (bs : Bytes) :
    (plot.withContent content).read readProgress bs scoop = plot.read readProgress bs scoop := by
  have offset : (plot.withContent content).fileOffsetWarp scoop readProgress =
      plot.fileOffsetWarp scoop readProgress := rfl
  have warps : (plot.withContent content).numberOfWarps = plot.numberOfWarps := rfl
  simp only [Plot.read, offset, warps]
  generalize count : Disk.warpsToRead plot.numberOfWarps readProgress bs.len = warpsToRead
  by_cases scoopLt : scoop < numScoops
  · by_cases unfinished : readProgress < plot.numberOfWarps
    · have fits : readProgress + warpsToRead ≤ plot.numberOfWarps := by
        rw [Disk.warpsToRead] at count
        omega
      have inRow := warps_in_row plot.numberOfWarps readProgress warpsToRead scoop fits
      have inPlot := row_in_plot plot.numberOfWarps scoop scoopLt
      have begins : fileOffset scoop 0 plot.numberOfWarps ≤
          fileOffset scoop readProgress plot.numberOfWarps := by
        simp only [fileOffset, Nat.zero_mul, Nat.add_zero]
        exact Nat.le_add_right _ _
      have found : plot.fileOffsetWarp scoop readProgress =
          .ok (fileOffset scoop readProgress plot.numberOfWarps) := by
        rw [Plot.fileOffsetWarp, if_neg (Nat.not_le.mpr scoopLt),
          if_neg (Nat.not_le.mpr unfinished)]
      have inside := Nat.le_trans inRow (Nat.le_trans inPlot same.len)
      have inside' := Nat.le_trans inRow (Nat.le_trans inPlot same.len_other)
      simp only [found, Plot.withContent, slice_some inside, slice_some inside']
      apply congrArg (fun data => Except.ok (data, warpsToRead))
      apply writeAt_congr
      · rfl
      · intro i inData
        simp only at inData ⊢
        generalize fileOffset scoop readProgress plot.numberOfWarps = start at inRow begins
        have row := same.bytes (start - fileOffset scoop 0 plot.numberOfWarps + i) (by omega)
        have address : fileOffset scoop 0 plot.numberOfWarps +
            (start - fileOffset scoop 0 plot.numberOfWarps + i) = start + i := by omega
        rw [address] at row
        exact row.symm
    · have ended : plot.fileOffsetWarp scoop readProgress =
          .error (.warpOutOfRange readProgress (plot.numberOfWarps - 1)) := by
        rw [Plot.fileOffsetWarp, if_neg (Nat.not_le.mpr scoopLt), if_pos (Nat.not_lt.mp unfinished)]
      simp only [ended]
  · have missing : plot.fileOffsetWarp scoop readProgress = .error (.invalidScoop scoop) := by
      rw [Plot.fileOffsetWarp, if_pos (Nat.not_lt.mp scoopLt)]
    simp only [missing]

theorem fillBuffer_withContent (same : SameRow plot scoop content) (supply : Supply) (fuel : Nat)
    (filling : Filling) :
    fillBuffer supply (plot.withContent content) scoop fuel filling =
      fillBuffer supply plot scoop fuel filling := by
  induction fuel generalizing filling with
  | zero => rfl
  | succ fuel ih =>
    rw [fillBuffer, fillBuffer, read_withContent same]
    have warps : (plot.withContent content).numberOfWarps = plot.numberOfWarps := rfl
    simp only [ih, warps]

theorem readPlot_withContent (same : SameRow plot scoop content) (supply : Supply) (chunk : Nat)
    (action : CompressionAction) (index fuel readProgress : Nat) (reader : Reader) :
    readPlot supply (plot.withContent content) scoop chunk action index fuel readProgress reader =
      readPlot supply plot scoop chunk action index fuel readProgress reader := by
  induction fuel generalizing readProgress reader with
  | zero => rfl
  | succ fuel ih =>
    rw [readPlot, readPlot]
    have warps : (plot.withContent content).numberOfWarps = plot.numberOfWarps := rfl
    simp only [warps, fillBuffer_withContent same, ih]
    rfl

/-- A scan reads no more of a plot than the row of its scoop. -/
theorem readPlots_withContent (same : SameRow plot scoop content) (supply : Supply) (chunk : Nat)
    (config : Option CompressionConfig) (front back : List (Plot × Nat)) (index : Nat)
    (reader : Reader) :
    readPlots supply chunk config scoop (front ++ (plot.withContent content, index) :: back) reader =
      readPlots supply chunk config scoop (front ++ (plot, index) :: back) reader := by
  rw [readPlots_append, readPlots_append]
  apply congrArg
  funext behind
  rw [readPlots, readPlots]
  have action : plotAction (plot.withContent content) config = plotAction plot config := rfl
  have warps : (plot.withContent content).numberOfWarps = plot.numberOfWarps := rfl
  have progress : (plot.withContent content).readProgress = plot.readProgress := rfl
  simp only [action, warps, progress, readPlot_withContent same]

end Rows

theorem byte_address (numberOfWarps scoop warp nonce offset : Nat) :
    fileOffset scoop warp numberOfWarps + (nonce * scoopSize + offset) =
      scoopAddress (numberOfWarps * numScoops) scoop (warp * numScoops + nonce) + offset := by
  simp only [fileOffset, scoopAddress, Nat.add_mul, Nat.mul_assoc, Nat.add_assoc]

theorem row_address (numberOfWarps scoop i : Nat) :
    fileOffset scoop 0 numberOfWarps + i =
      scoopAddress (numberOfWarps * numScoops) scoop (i / scoopSize) + i % scoopSize := by
  have index : i / scoopSize * scoopSize + i % scoopSize = i := Nat.div_add_mod' _ _
  rw [fileOffset, scoopAddress, Nat.zero_mul, Nat.zero_mul, Nat.add_zero, Nat.add_assoc, index,
    ← Nat.mul_assoc scoop]

section Mined

open PlotLife (PlotName)

variable {target : Target} {other : target ≠ .aarch64} {name : PlotName (U8s 20) (U8s 32)}
  {content : Bytes}

/-- The scoops of a finished plot are those of its level, but for its marker. -/
theorem plotted_level
    (plotted : PlotLife.Plotted (vectorGenerator target other) name content name.numberOfWarps)
    {scoop warp nonce : Nat} (inner : scoop + 1 < numScoops) (warpLt : warp < name.numberOfWarps)
    (nonceLt : nonce < numScoops) (z : Fin scoopSize) :
    PlotFile.Crash.byteOf name.numberOfWarps content scoop warp nonce z =
      (levelScoop generateAndExtractScoop32 name.addressPayload name.seed scoop
        (warp * numScoops + nonce) name.compress).byte z := by
  have scoopLt : scoop < numScoops := Nat.lt_of_succ_lt inner
  obtain ⟨value, generated, bytes⟩ := plotted scoop warp nonce scoopLt warpLt nonceLt
  have apart : ¬ PlotFile.AtMarker name.numberOfWarps scoop warp nonce z := by
    intro marker
    have last := marker.1
    omega
  have level : generateScoop (vectorGenerator target other).generateNonces name.addressPayload
      name.seed scoop (warp * numScoops + nonce) name.compress = .ok _ :=
    generateScoop_level generateAndExtractScoop32 _ _ _
      (generateNonces_single (vectorPlatform target)) scoopLt _ _
  rw [level] at generated
  rw [bytes z apart, ← Except.ok.inj generated]

/-- A scan of any scoop but the last reads what it would read of the plot of the level. -/
theorem plotted_sameRow
    (plotted : PlotLife.Plotted (vectorGenerator target other) name content name.numberOfWarps)
    (len : name.numberOfWarps * warpSize ≤ content.len) {scoop : Nat}
    (inner : scoop + 1 < numScoops) (seedText : String) :
    SameRow (levelPlot name.addressPayload name.seed seedText name.compress name.numberOfWarps) scoop
      content := by
  have scoopLt : scoop < numScoops := Nat.lt_of_succ_lt inner
  refine ⟨Nat.le_refl _, len, ?_⟩
  intro i inRow
  have inRow : i < name.numberOfWarps * numScoops * scoopSize := inRow
  have column : i / scoopSize < name.numberOfWarps * numScoops :=
    (Nat.div_lt_iff_lt_mul (by decide)).mpr inRow
  have warpLt : i / scoopSize / numScoops < name.numberOfWarps :=
    (Nat.div_lt_iff_lt_mul (by decide)).mpr column
  have nonceLt : i / scoopSize % numScoops < numScoops := Nat.mod_lt _ (by decide)
  have level := (levelPlot_plotted (vectorPlatform target) name.addressPayload name.seed seedText
    name.compress name.numberOfWarps).level scoop (i / scoopSize) scoopLt column
  have written := plotted_level plotted inner warpLt nonceLt ⟨i % scoopSize, mod_scoopSize_lt i⟩
  have columnEq : i / scoopSize / numScoops * numScoops + i / scoopSize % numScoops =
      i / scoopSize := Nat.div_add_mod' _ _
  have read := congrArg (fun value => value.byte ⟨i % scoopSize, mod_scoopSize_lt i⟩) level
  rw [columnEq, PlotFile.Crash.byteOf, byte_address, columnEq] at written
  have address := row_address name.numberOfWarps scoop i
  have warps : (levelPlot name.addressPayload name.seed seedText name.compress
    name.numberOfWarps).numberOfWarps = name.numberOfWarps := rfl
  rw [warps, address]
  exact read.trans written.symm

/-- The plot file as the miner has opened it. -/
structure Opens (name : PlotName (U8s 20) (U8s 32)) (content : Bytes) (plot : Plot) : Prop where
  base58Decoded : plot.base58Decoded = name.addressPayload
  compression : plot.compression = name.compress
  numberOfWarps : plot.numberOfWarps = name.numberOfWarps
  content : plot.content = content
  readProgress : plot.readProgress = 0

theorem Opens.eq {plot : Plot} (opens : Opens name content plot) :
    plot = (levelPlot name.addressPayload name.seed plot.seed name.compress
      name.numberOfWarps).withContent content := by
  obtain ⟨payload, level, warps, bytes, progress⟩ := opens
  cases plot
  simp only at payload level warps bytes progress
  rw [payload, level, warps, bytes, progress]
  rfl

end Mined

/-- Where the files of a plot are truthful, the miner's submissions of a finished plot validate for
every scoop but the last, and a scan that finishes reports each of its warps once. A supplied scan
that is not interrupted finishes. -/
theorem finished_plot_mines (target : Target) (other : target ≠ .aarch64)
    (name : PlotLife.PlotName (U8s 20) (U8s 32)) (compressed : 1 ≤ name.compress)
    (files : PlotFile.Extension → Option Bytes)
    (truthful : PlotLife.Truthful (vectorGenerator target other) name files) (content : Bytes)
    (finished : files .pocx = some content) (miner reference : Platform) (simd : Bool)
    (supply : Supply) (config : Option CompressionConfig) (cache : Nat) (plots : List Plot)
    (index : Nat) (plot : Plot) (scoop : Nat) (round : Round) (found : plots[index]? = some plot)
    (opens : Opens name content plot) (inner : scoop + 1 < numScoops) (positive : 0 < cache)
    (buffers : ∀ i buffer, supply.rxEmptyBuffer i = some buffer →
      buffer.len = cache * (numScoops * scoopSize))
    (power : ∀ settings, config = some settings → cache = 2 ^ settings.maxCompressionSteps)
    (kept : ∀ reason, plotAction plot config ≠ .skip reason)
    (levelFits : plot.compression + (plotAction plot config).steps ≤ 255) :
    let messages := readDisk supply (xorChunk simd miner.target) config scoop plots
    let steps := (plotAction plot config).steps
    (∀ reply, .data index reply ∈ messages →
        Validates reference plot name.seed scoop steps round.generationSignatureBytes
          (calcQualities miner (round.hashingTask reply)).2.nonceSubmission) ∧
      (.scanFinished ∈ messages →
        reported (messages.filterMap (dataOf index)) =
          List.range (plot.numberOfWarps / 2 ^ steps)) ∧
      (Calm supply → .scanFinished ∈ messages) := by
  intro messages steps
  have scoopLt : scoop < numScoops := Nat.lt_of_succ_lt inner
  obtain ⟨len, plotted⟩ := truthful.finished content finished
  have level : 1 ≤ plot.compression := by
    rw [opens.compression]
    exact compressed
  have mineable := plotAction_mineable level positive power levelFits
  have plotEq := opens.eq
  generalize plot.seed = seedText at plotEq
  subst plotEq
  have same := plotted_sameRow plotted len inner seedText
  obtain ⟨front, back, split, apartFront, apartBack⟩ := zipIdx_split plots index _ found
  let whole := levelPlot name.addressPayload name.seed seedText name.compress name.numberOfWarps
  have planned : Mineable whole (plotAction whole config) cache :=
    ⟨mineable.level, mineable.positive, mineable.whole, mineable.levelFits, mineable.compresses⟩
  have scanned := readPlots_scanned
    (levelPlot_plotted (vectorPlatform target) name.addressPayload name.seed seedText name.compress
      name.numberOfWarps) scoopLt planned kept
    (xorChunk_dvd simd miner.target) buffers rfl index front back apartFront apartBack ⟨0, 0, []⟩ rfl
  rw [← readPlots_withContent same, ← split] at scanned
  obtain ⟨valid, complete⟩ := scanned
  obtain ⟨submitted, covered⟩ := readDisk_observed valid complete
  refine ⟨?_, covered, fun calm => (readDisk_calm calm _ config scoop plots).1⟩
  intro reply listed
  obtain ⟨quality, compression, account, seedSent, fits⟩ :=
    (submitted reply listed).validates scoopLt miner reference round
  exact ⟨quality, compression, account, seedSent, fits⟩

/-- The plot of a level with the marker of a finished plot. -/
def finishedContent (name : PlotLife.PlotName (U8s 20) (U8s 32)) : Bytes :=
  PlotFile.writeMarker name.numberOfWarps name.numberOfWarps
    (levelPlot name.addressPayload name.seed "00" name.compress name.numberOfWarps).content

def finishedFiles (name : PlotLife.PlotName (U8s 20) (U8s 32)) : PlotFile.Extension → Option Bytes
  | .tmp => none
  | .pocx => some (finishedContent name)

/-- A marker changes no byte before it. -/
theorem writeMarker_before (numberOfWarps warpsWritten : Nat) (content : Bytes)
    (positive : 1 ≤ numberOfWarps) (len : numberOfWarps * warpSize ≤ content.len) :
    numberOfWarps * warpSize ≤ (PlotFile.writeMarker numberOfWarps warpsWritten content).len ∧
      ∀ i, i < PlotFile.markerOffset numberOfWarps →
        (PlotFile.writeMarker numberOfWarps warpsWritten content).byte i = content.byte i := by
  have grown := Nat.le_trans len (PlotFile.Crash.withProgress_len numberOfWarps warpsWritten content)
  refine ⟨Nat.le_trans grown (PlotFile.Crash.withMagic_len numberOfWarps _), ?_⟩
  intro i before
  exact (PlotFile.Crash.withMagic_before numberOfWarps _ positive grown i
    (Nat.lt_add_right 4 before)).trans
      (PlotFile.Crash.withProgress_before numberOfWarps warpsWritten content positive len i before)

theorem finishedContent_plotted (target : Target) (other : target ≠ .aarch64)
    (name : PlotLife.PlotName (U8s 20) (U8s 32)) (positive : 1 ≤ name.numberOfWarps) :
    name.numberOfWarps * warpSize ≤ (finishedContent name).len ∧
      PlotLife.Plotted (vectorGenerator target other) name (finishedContent name)
        name.numberOfWarps := by
  have level := (levelPlot_plotted (vectorPlatform target) name.addressPayload name.seed "00"
    name.compress name.numberOfWarps).level
  obtain ⟨len, bytes⟩ := writeMarker_before name.numberOfWarps name.numberOfWarps
    (levelPlot name.addressPayload name.seed "00" name.compress name.numberOfWarps).content positive
    (Nat.le_refl _)
  refine ⟨len, ?_⟩
  intro scoop warp nonce scoopLt warpLt nonceLt
  refine ⟨_, generateScoop_level generateAndExtractScoop32 _ _ _
    (generateNonces_single (vectorPlatform target)) scoopLt _ _, ?_⟩
  intro z apart
  have before := PlotFile.Crash.position_lt name.numberOfWarps scoop warp nonce z scoopLt warpLt
    nonceLt z.isLt apart
  have read := congrArg (fun value => value.byte z)
    (level scoop (warp * numScoops + nonce) scoopLt (Strided.index_lt _ _ _ _ warpLt nonceLt))
  rw [PlotFile.Crash.byteOf, finishedContent, bytes _ before, byte_address]
  exact read

theorem finishedFiles_truthful (target : Target) (other : target ≠ .aarch64)
    (name : PlotLife.PlotName (U8s 20) (U8s 32)) (positive : 1 ≤ name.numberOfWarps) :
    PlotLife.Truthful (vectorGenerator target other) name (finishedFiles name) := by
  refine ⟨nofun, ?_⟩
  intro content finished
  cases finished
  exact finishedContent_plotted target other name positive

def threeWarpName : PlotLife.PlotName (U8s 20) (U8s 32) := ⟨fun _ => 0, fun _ => 0, 3, 1⟩

def threeWarpPlot : Plot :=
  (levelPlot (fun _ => 0) (fun _ => 0) "00" 1 3).withContent (finishedContent threeWarpName)

/-- Three warps of level 1, mined at level 2 with buffers of two warps: the scan finishes, has told of
warp 0, and of no other, and its submission validates. -/
theorem finished_plot_mines_three_warps :
    let machine := scalarPlatform .other
    let messages :=
      readDisk twoWarpSupply (xorChunk false machine.target) (some levelTwoConfig) 9 [threeWarpPlot]
    .scanFinished ∈ messages ∧ reported (messages.filterMap (dataOf 0)) = [0] ∧
      ∃ reply, .data 0 reply ∈ messages ∧
        Validates machine threeWarpPlot threeWarpName.seed 9 1 firstRound.generationSignatureBytes
          (calcQualities machine (firstRound.hashingTask reply)).2.nonceSubmission := by
  intro machine messages
  have action : plotAction threeWarpPlot (some levelTwoConfig) = .compressOnFly 1 :=
    levelTwoConfig_action rfl
  have kept : ∀ reason, plotAction threeWarpPlot (some levelTwoConfig) ≠ .skip reason := by
    intro reason
    rw [action]
    exact CompressionAction.noConfusion
  have levelFits :
      threeWarpPlot.compression + (plotAction threeWarpPlot (some levelTwoConfig)).steps ≤ 255 := by
    rw [action]
    decide
  obtain ⟨validates, covered, finishes⟩ := finished_plot_mines .other (by simp) threeWarpName
    (by decide) (finishedFiles threeWarpName)
    (finishedFiles_truthful .other (by simp) threeWarpName (by decide))
    (finishedContent threeWarpName) rfl machine machine false twoWarpSupply (some levelTwoConfig) 2
    [threeWarpPlot] 0 threeWarpPlot 9 firstRound rfl ⟨rfl, rfl, rfl, rfl, rfl⟩ (by decide) (by decide)
    twoWarpSupply_sized levelTwoConfig_power kept levelFits
  have finished := finishes twoWarpSupply_calm
  obtain ⟨warps, reply, data⟩ := levelTwo_told rfl rfl (covered finished)
  rw [action] at validates
  exact ⟨finished, warps, reply, data, validates reply data⟩

end Pocx.ReadDisk
