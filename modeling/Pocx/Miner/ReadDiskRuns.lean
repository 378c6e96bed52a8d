import Mathlib.Data.Nat.ModEq
import Pocx.Miner.ReadDisk

set_option autoImplicit false

namespace Pocx.ReadDisk

open ByteStore
open PlotFile (scoopSize numScoops nonceSize warpSize fileOffset)
open Hashlib
open Hasher (HoldsLevel hexEncode calcQualities)

theorem xorChunk_dvd (simd : Bool) (target : Target) :
    xorChunk simd target ∣ numScoops * scoopSize := by
  have widths (chunk : Nat) (listed : chunk ∈ [1, 16, 32, 64]) : chunk ∣ numScoops * scoopSize := by
    simp only [List.mem_cons, List.not_mem_nil, or_false] at listed
    rcases listed with rfl | rfl | rfl | rfl
    · decide
    · decide
    · decide
    · decide
  apply widths
  cases target with
  | x86 avx512f avx2 avx sse2 =>
    simp only [xorChunk]
    repeat' split
    all_goals simp
  | aarch64 => simp [xorChunk]
  | other => simp [xorChunk]

/-- Scoop `nonce` of a warp of a read buffer. -/
def bufferScoop (buffer : Bytes) (warp nonce : Nat) : Scoop :=
  scoopAt buffer ((warp * numScoops + nonce) * scoopSize)

theorem compressPairs_scoop (chunk : Nat) (divides : chunk ∣ numScoops * scoopSize)
    (buffer : Bytes) (pairs warp nonce : Nat) (warpLt : warp < pairs)
    (nonceLt : nonce < numScoops) :
    bufferScoop (compressPairs chunk buffer pairs) warp nonce =
      bufferScoop buffer (2 * warp) nonce + bufferScoop buffer (2 * warp + 1) nonce := by
  apply Scoop.ext
  funext z
  have address (warp : Nat) : (warp * numScoops + nonce) * scoopSize + z =
      warp * (numScoops * scoopSize) + (nonce * scoopSize + z) := by
    rw [Nat.add_mul, Nat.mul_assoc, Nat.add_assoc]
  have offsetLt : nonce * scoopSize + z < numScoops * scoopSize :=
    Strided.index_lt numScoops scoopSize nonce z nonceLt z.isLt
  simp only [add_byte, bufferScoop, scoopAt, compressPairs, address]
  rw [PairMerge.mergePairs_at _ _ _ divides _ _ _ _ warpLt offsetLt, Nat.mul_comm warp 2]

theorem compressWarpsInline_succ (chunk : Nat) (buffer : Bytes) (warpCount steps : Nat) :
    compressWarpsInline chunk buffer warpCount (steps + 1) =
      let before := compressWarpsInline chunk buffer warpCount steps
      (compressPairs chunk before.1 (before.2 / 2), before.2 / 2) := by
  rw [compressWarpsInline, List.range_succ, List.foldl_append]
  rfl

theorem compressWarpsInline_count (chunk : Nat) (buffer : Bytes) (warpCount steps : Nat) :
    (compressWarpsInline chunk buffer warpCount steps).2 = warpCount / 2 ^ steps := by
  induction steps with
  | zero => rw [Nat.pow_zero, Nat.div_one]; rfl
  | succ steps ih =>
    rw [compressWarpsInline_succ]
    simp only [ih]
    rw [Nat.div_div_eq_div_mul, Nat.pow_succ]

theorem compressWarpsInline_len (chunk : Nat) (buffer : Bytes) (warpCount steps : Nat) :
    (compressWarpsInline chunk buffer warpCount steps).1.len = buffer.len := by
  induction steps with
  | zero => rfl
  | succ steps ih => rw [compressWarpsInline_succ, ← ih]; rfl

/-- Each step halves the warps: a warp becomes the sum of `2 ^ steps` warps. -/
theorem compressWarpsInline_scoop (chunk : Nat) (divides : chunk ∣ numScoops * scoopSize)
    (buffer : Bytes) (warpCount steps warp nonce : Nat) (warpLt : warp < warpCount / 2 ^ steps)
    (nonceLt : nonce < numScoops) :
    bufferScoop (compressWarpsInline chunk buffer warpCount steps).1 warp nonce =
      ∑ j ∈ Finset.range (2 ^ steps), bufferScoop buffer (2 ^ steps * warp + j) nonce := by
  induction steps generalizing warp with
  | zero =>
    rw [Nat.pow_zero, Finset.sum_range_one, Nat.one_mul]
    rfl
  | succ steps ih =>
    have halved : warpCount / 2 ^ (steps + 1) = warpCount / 2 ^ steps / 2 := by
      rw [Nat.pow_succ, Nat.div_div_eq_div_mul]
    rw [halved] at warpLt
    have even : 2 ^ steps * (2 * warp) = 2 ^ (steps + 1) * warp := by
      rw [Nat.pow_succ, Nat.mul_assoc]
    have odd : 2 ^ steps * (2 * warp + 1) = 2 ^ (steps + 1) * warp + 2 ^ steps := by
      rw [Nat.mul_add, even, Nat.mul_one]
    rw [compressWarpsInline_succ]
    simp only [compressWarpsInline_count]
    rw [compressPairs_scoop chunk divides _ _ _ _ warpLt nonceLt, ih _ (by omega), ih _ (by omega),
      even, odd, Nat.pow_succ 2 steps, Nat.mul_two, Finset.sum_range_add]
    simp only [Nat.add_assoc]

/-- What an observer of some messages has seen of a reader. -/
def Reader.seen {α : Type} (reader : Reader) (watch : ScanMessage → Option α) : List α :=
  reader.messages.filterMap watch

/-- An observer of data or of the end of the scan. -/
structure Blind {α : Type} (watch : ScanMessage → Option α) : Prop where
  warpsProcessed : ∀ warps, watch (.warpsProcessed warps) = none
  scanInterrupted : watch .scanInterrupted = none

theorem seen_none {α : Type} {watch : ScanMessage → Option α} {message : ScanMessage}
    (unseen : watch message = none) (reader : Reader) :
    (reader.send message).seen watch = reader.seen watch := by
  rw [Reader.seen, Reader.send, List.filterMap_append, List.filterMap_cons_none unseen,
    List.filterMap_nil, List.append_nil, Reader.seen]

theorem seen_some {α : Type} {watch : ScanMessage → Option α} {message : ScanMessage} {item : α}
    (noticed : watch message = some item) (reader : Reader) :
    (reader.send message).seen watch = reader.seen watch ++ [item] := by
  rw [Reader.seen, Reader.send, List.filterMap_append, List.filterMap_cons_some noticed,
    List.filterMap_nil, Reader.seen]

/-- The reader behind a loop that may have returned. -/
def readerOf : Except Reader Reader → Reader
  | .error reader => reader
  | .ok reader => reader

section Observers

variable {α : Type} {watch : ScanMessage → Option α} (blind : Blind watch) (supply : Supply)
  (scoop chunk : Nat)
include blind

/-- Filling a buffer sends no data. The induction is on the fuel. -/
theorem fillBuffer_seen (plot : Plot) (fuel : Nat) (filling : Filling) :
    (readerOf ((fillBuffer supply plot scoop fuel filling).map Filling.reader)).seen watch =
      filling.reader.seen watch := by
  induction fuel generalizing filling with
  | zero => rfl
  | succ fuel ih =>
    rw [fillBuffer]
    split
    · cases plot.read filling.readProgress filling.bs scoop with
      | error => rfl
      | ok red =>
        obtain ⟨bs, warpsRed⟩ := red
        have processed := seen_none (blind.warpsProcessed warpsRed) filling.reader
        simp only
        split
        · rfl
        · split
          · simp only [Except.map, readerOf]
            rw [seen_none blind.scanInterrupted, processed]
          · rw [ih]
            exact processed
    · rfl

/-- Reading one plot shows only its own data. -/
theorem readPlot_seen (plot : Plot) (action : CompressionAction) (own : Nat)
    (apart : ∀ reply, watch (.data own reply) = none) (fuel readProgress : Nat) (reader : Reader) :
    (readerOf (readPlot supply plot scoop chunk action own fuel readProgress reader)).seen watch =
      reader.seen watch := by
  induction fuel generalizing readProgress reader with
  | zero => rfl
  | succ fuel ih =>
    rw [readPlot]
    split
    · cases supply.rxEmptyBuffer reader.buffers with
      | none => rfl
      | some buffer =>
        have filled := fillBuffer_seen blind supply scoop plot (plot.numberOfWarps + 1)
          ⟨buffer, readProgress, 0, { reader with buffers := reader.buffers + 1 }⟩
        simp only
        generalize fillBuffer supply plot scoop (plot.numberOfWarps + 1)
          ⟨buffer, readProgress, 0, { reader with buffers := reader.buffers + 1 }⟩ = outcome
          at filled
        cases outcome with
        | error stopped => exact filled
        | ok filling =>
          have kept : filling.reader.seen watch = reader.seen watch := filled
          simp only
          split
          · exact kept
          · rw [ih]
            split
            · rw [seen_none (apart _), kept]
            · exact kept
    · rfl

theorem readPlots_seen (config : Option CompressionConfig) (plots : List (Plot × Nat))
    (apart : ∀ entry ∈ plots, ∀ reply, watch (.data entry.2 reply) = none) (reader : Reader) :
    (readerOf (readPlots supply chunk config scoop plots reader)).seen watch =
      reader.seen watch := by
  induction plots generalizing reader with
  | nil => rfl
  | cons entry rest ih =>
    obtain ⟨plot, own⟩ := entry
    have apartRest : ∀ entry ∈ rest, ∀ reply, watch (.data entry.2 reply) = none :=
      fun entry listed => apart entry (List.mem_cons_of_mem _ listed)
    rw [readPlots]
    split
    · exact ih apartRest reader
    · have sent := readPlot_seen blind supply scoop chunk plot (plotAction plot config) own
        (apart (plot, own) List.mem_cons_self) (plot.numberOfWarps + 1) plot.readProgress reader
      generalize readPlot supply plot scoop chunk (plotAction plot config) own
        (plot.numberOfWarps + 1) plot.readProgress reader = outcome at sent
      cases outcome with
      | error stopped => exact sent
      | ok next => exact (ih apartRest next).trans sent

end Observers

/-- The observer of the data of one plot. -/
def dataOf (index : Nat) : ScanMessage → Option ReadReply
  | .data plot reply => if plot = index then some reply else none
  | .scanFinished | .scanInterrupted | .warpsProcessed _ => none

theorem dataOf_blind (index : Nat) : Blind (dataOf index) := ⟨fun _ => rfl, rfl⟩

theorem dataOf_own (index : Nat) (reply : ReadReply) :
    dataOf index (.data index reply) = some reply := if_pos rfl

theorem dataOf_other (index plot : Nat) (apart : plot ≠ index) (reply : ReadReply) :
    dataOf index (.data plot reply) = none := if_neg apart

theorem dataOf_mem {index : Nat} {reply : ReadReply} {messages : List ScanMessage} :
    reply ∈ messages.filterMap (dataOf index) ↔ .data index reply ∈ messages := by
  constructor
  · intro seen
    obtain ⟨message, member, noticed⟩ := List.mem_filterMap.mp seen
    cases message with
    | data plot sent =>
      by_cases same : plot = index
      · subst same
        rw [dataOf_own] at noticed
        obtain rfl := Option.some.inj noticed
        exact member
      · rw [dataOf_other index plot same] at noticed
        cases noticed
    | scanFinished => cases noticed
    | scanInterrupted => cases noticed
    | warpsProcessed warps => cases noticed
  · intro member
    exact List.mem_filterMap.mpr ⟨_, member, dataOf_own index reply⟩

/-- The observer of the end of the scan. -/
def finishedOf : ScanMessage → Option Unit
  | .scanFinished => some ()
  | .scanInterrupted | .warpsProcessed _ | .data .. => none

theorem finishedOf_blind : Blind finishedOf := ⟨fun _ => rfl, rfl⟩

/-- A file whose scoops are those that `generate_scoop` makes for its level. -/
structure Plotted (plotter : Platform) (plot : Plot) (seed : U8s 32) : Prop where
  len : plot.content.len = plot.numberOfWarps * warpSize
  scoops : ∀ scoop nonce, scoop < numScoops → nonce < plot.numberOfWarps * numScoops →
    generateScoop (generateNonces plotter) plot.base58Decoded seed scoop nonce plot.compression =
      .ok (scoopAt plot.content (scoopAddress (plot.numberOfWarps * numScoops) scoop nonce))

theorem Plotted.level {plotter : Platform} {plot : Plot} {seed : U8s 32}
    (plotted : Plotted plotter plot seed) (scoop nonce : Nat) (scoopLt : scoop < numScoops)
    (nonceLt : nonce < plot.numberOfWarps * numScoops) :
    scoopAt plot.content (scoopAddress (plot.numberOfWarps * numScoops) scoop nonce) =
      levelScoop generateAndExtractScoop32 plot.base58Decoded seed scoop nonce plot.compression := by
  have generated := plotted.scoops scoop nonce scoopLt nonceLt
  rw [generateScoop_level generateAndExtractScoop32 _ _ _ (generateNonces_single plotter) scoopLt]
    at generated
  exact (Except.ok.inj generated).symm

section Reads

variable {plotter : Platform} {plot : Plot} {seed : U8s 32} (plotted : Plotted plotter plot seed)
  {scoop : Nat} (scoopLt : scoop < numScoops) {buffer : Bytes} {cache : Nat}
  (sized : buffer.len = cache * (numScoops * scoopSize)) (cached : 0 < cache)
  {readProgress : Nat} (unfinished : readProgress < plot.numberOfWarps)

/-- The bytes of some warps of a scoop. -/
def warpBytes (plot : Plot) (scoop readProgress warps : Nat) : Bytes :=
  ⟨warps * numScoops * scoopSize,
    fun i => plot.content.byte (fileOffset scoop readProgress plot.numberOfWarps + i)⟩

theorem warpsToRead_cache (numberOfWarps readProgress cache : Nat) :
    Disk.warpsToRead numberOfWarps readProgress (cache * (numScoops * scoopSize)) =
      min (numberOfWarps - readProgress) cache := by
  rw [Disk.warpsToRead, Nat.div_div_eq_div_mul, Nat.mul_div_cancel _ (by decide)]

include plotted scoopLt sized unfinished in
theorem read_plotted :
    plot.read readProgress buffer scoop =
      .ok (writeAt buffer 0
        (warpBytes plot scoop readProgress (min (plot.numberOfWarps - readProgress) cache)),
        min (plot.numberOfWarps - readProgress) cache) := by
  have offset : plot.fileOffsetWarp scoop readProgress =
      .ok (fileOffset scoop readProgress plot.numberOfWarps) := by
    rw [Plot.fileOffsetWarp, if_neg (Nat.not_le.mpr scoopLt), if_neg (Nat.not_le.mpr unfinished)]
  have inside : fileOffset scoop readProgress plot.numberOfWarps +
      min (plot.numberOfWarps - readProgress) cache * numScoops * scoopSize ≤ plot.content.len := by
    have columns : readProgress + min (plot.numberOfWarps - readProgress) cache ≤
        plot.numberOfWarps := by omega
    have rows : (scoop + 1) * plot.numberOfWarps ≤ numScoops * plot.numberOfWarps :=
      Nat.mul_le_mul_right _ scoopLt
    rw [Nat.add_mul, Nat.one_mul] at rows
    rw [plotted.len]
    calc fileOffset scoop readProgress plot.numberOfWarps +
          min (plot.numberOfWarps - readProgress) cache * numScoops * scoopSize
        = (scoop * plot.numberOfWarps +
            (readProgress + min (plot.numberOfWarps - readProgress) cache)) *
              (numScoops * scoopSize) := by
          simp only [fileOffset, Nat.add_mul, Nat.mul_assoc, Nat.add_assoc]
      _ ≤ numScoops * plot.numberOfWarps * (numScoops * scoopSize) := by
          apply Nat.mul_le_mul_right
          omega
      _ = plot.numberOfWarps * warpSize := by
          rw [warpSize, nonceSize]
          simp only [Nat.mul_comm, Nat.mul_left_comm]
  simp only [Plot.read, sized, warpsToRead_cache, offset, slice_some inside]
  rfl

omit plotted scoopLt sized cached unfinished in
theorem fillBuffer_full (supply : Supply) (plot : Plot) (scoop fuel : Nat) (filling : Filling)
    (full : Disk.fillsOn plot.numberOfWarps filling.readProgress filling.bs.len
      filling.totalWarpsInBuffer = false) :
    fillBuffer supply plot scoop fuel filling = .ok filling := by
  cases fuel with
  | zero => rfl
  | succ fuel => rw [fillBuffer, full, if_neg Bool.false_ne_true]

include plotted scoopLt sized cached unfinished in
/-- One read fills the buffer or takes the rest of the plot. -/
theorem fillBuffer_plotted (supply : Supply) (reader : Reader) :
    fillBuffer supply plot scoop (plot.numberOfWarps + 1) ⟨buffer, readProgress, 0, reader⟩ =
      let warps := min (plot.numberOfWarps - readProgress) cache
      let sent := reader.send (.warpsProcessed warps)
      if supply.interrupt reader.reads then .error (sent.send .scanInterrupted)
      else
        .ok
          { bs := writeAt buffer 0 (warpBytes plot scoop readProgress warps)
            readProgress := readProgress + warps
            totalWarpsInBuffer := warps
            reader := { sent with reads := reader.reads + 1 } } := by
  have read := read_plotted plotted scoopLt sized unfinished
  generalize warpsEq : min (plot.numberOfWarps - readProgress) cache = warps at read
  have positive : warps ≠ 0 := by omega
  have begins : Disk.fillsOn plot.numberOfWarps readProgress buffer.len 0 = true := rfl
  have size : (writeAt buffer 0 (warpBytes plot scoop readProgress warps)).len = buffer.len := by
    apply writeAt_within
    rw [Nat.zero_add, sized, warpBytes, Nat.mul_assoc]
    exact Nat.mul_le_mul_right _ (by omega)
  have ends : Disk.fillsOn plot.numberOfWarps (readProgress + warps) buffer.len warps = false := by
    have full : readProgress + warps < plot.numberOfWarps →
        ¬ warps * numScoops * scoopSize < buffer.len := by
      intro more
      have whole : warps = cache := by omega
      rw [whole, sized, Nat.mul_assoc]
      exact Nat.lt_irrefl _
    simp only [Disk.fillsOn, Bool.or_eq_false_iff, Bool.and_eq_false_iff, decide_eq_false_iff_not]
    exact ⟨positive, Classical.or_iff_not_imp_left.mpr fun more => full (Decidable.not_not.mp more)⟩
  have returned : (reader.send (.warpsProcessed warps)).reads = reader.reads := rfl
  rw [fillBuffer, begins, if_pos rfl, read]
  simp only [if_neg positive, returned, Nat.zero_add]
  split
  · rfl
  · exact fillBuffer_full supply plot scoop _ _ (by rw [size, ends])

include plotted scoopLt in
theorem written_scoop (warps warp nonce : Nat)
    (inside : readProgress + warps ≤ plot.numberOfWarps) (warpLt : warp < warps)
    (nonceLt : nonce < numScoops) :
    bufferScoop (writeAt buffer 0 (warpBytes plot scoop readProgress warps)) warp nonce =
      levelScoop generateAndExtractScoop32 plot.base58Decoded seed scoop
        ((readProgress + warp) * numScoops + nonce) plot.compression := by
  have column : (readProgress + warp) * numScoops + nonce < plot.numberOfWarps * numScoops :=
    Strided.index_lt _ _ _ _ (by omega) nonceLt
  rw [← plotted.level scoop _ scoopLt column]
  apply Scoop.ext
  funext z
  have behind : (warp * numScoops + nonce) * scoopSize + z < warps * numScoops * scoopSize :=
    Strided.index_lt _ _ _ _ (Strided.index_lt _ _ _ _ warpLt nonceLt) z.isLt
  have address : fileOffset scoop readProgress plot.numberOfWarps +
      ((warp * numScoops + nonce) * scoopSize + z) =
      scoopAddress (plot.numberOfWarps * numScoops) scoop
        ((readProgress + warp) * numScoops + nonce) + z := by
    simp only [fileOffset, scoopAddress, Nat.add_mul, Nat.mul_assoc, Nat.add_assoc]
  simp only [bufferScoop, scoopAt]
  rw [writeAt_inside _ _ _ _ (Nat.zero_le _) (by rw [Nat.zero_add]; exact behind), Nat.sub_zero]
  simp only [warpBytes, address]

omit sized cached unfinished plotted scoopLt in
theorem written_len (warps : Nat) (warpsLe : warps ≤ cache)
    (sized : buffer.len = cache * (numScoops * scoopSize)) :
    (writeAt buffer 0 (warpBytes plot scoop readProgress warps)).len = buffer.len := by
  apply writeAt_within
  rw [Nat.zero_add, sized, warpBytes, Nat.mul_assoc]
  exact Nat.mul_le_mul_right _ warpsLe

end Reads

def CompressionAction.steps : CompressionAction → Nat
  | .compressOnFly steps => steps
  | .skip _ | .mineNormal => 0

theorem compressedWarpOffset_eq (action : CompressionAction) (bufferStartOffset : Nat) :
    compressedWarpOffset action bufferStartOffset = bufferStartOffset / 2 ^ action.steps := by
  cases action with
  | compressOnFly steps => exact Nat.shiftRight_eq_div_pow _ _
  | skip reason => exact (Nat.div_one _).symm
  | mineNormal => exact (Nat.div_one _).symm

/-- Dropping an odd warp loses nothing that a step would keep. -/
theorem even_div (warps steps : Nat) (positive : 1 ≤ steps) :
    (if warps % 2 = 1 then warps - 1 else warps) / 2 ^ steps = warps / 2 ^ steps := by
  have half : (if warps % 2 = 1 then warps - 1 else warps) / 2 = warps / 2 := by
    split
    · omega
    · rfl
  obtain ⟨more, rfl⟩ : ∃ more, steps = more + 1 := ⟨steps - 1, by omega⟩
  rw [Nat.pow_succ, Nat.mul_comm, ← Nat.div_div_eq_div_mul, half, Nat.div_div_eq_div_mul]

/-- A plot above level 0 and what is done with it, for buffers of `cache` warps. -/
structure Mineable (plot : Plot) (action : CompressionAction) (cache : Nat) : Prop where
  level : 1 ≤ plot.compression
  positive : 0 < cache
  whole : 2 ^ action.steps ∣ cache
  levelFits : plot.compression + action.steps ≤ 255
  compresses : ∀ steps, action = .compressOnFly steps → 1 ≤ steps

section Scan

variable {plotter : Platform} {plot : Plot} {seed : U8s 32} (plotted : Plotted plotter plot seed)
  {scoop : Nat} (scoopLt : scoop < numScoops) {action : CompressionAction} {cache : Nat}
  (mineable : Mineable plot action cache) {chunk : Nat} (divides : chunk ∣ numScoops * scoopSize)

include plotted scoopLt mineable divides

/-- What a filled buffer becomes: the warps of the reported level, none with a rest. -/
theorem finalBuffer_holds {buffer : Bytes} (sized : buffer.len = cache * (numScoops * scoopSize))
    {readProgress warps : Nat} (inside : readProgress + warps ≤ plot.numberOfWarps)
    (warpsLe : warps ≤ cache) (aligned : 2 ^ action.steps ∣ readProgress) :
    let final := finalBuffer plot chunk action
      (writeAt buffer 0 (warpBytes plot scoop readProgress warps)) warps
    final.2.1 = warps / 2 ^ action.steps ∧
      (0 < final.2.1 →
        HoldsLevel final.1 (compressedWarpOffset action readProgress) final.2.1 final.2.2
            plot.base58Decoded seed scoop ∧
          final.2.2 = plot.compression + action.steps) := by
  have written (warp nonce : Nat) (warpLt : warp < warps) (nonceLt : nonce < numScoops) :
      bufferScoop (writeAt buffer 0 (warpBytes plot scoop readProgress warps)) warp nonce =
        levelScoop generateAndExtractScoop32 plot.base58Decoded seed scoop
          ((readProgress + warp) * numScoops + nonce) plot.compression :=
    written_scoop plotted scoopLt warps warp nonce inside warpLt nonceLt
  have size : (writeAt buffer 0 (warpBytes plot scoop readProgress warps)).len = buffer.len :=
    written_len warps warpsLe sized
  have fits (count : Nat) (countLe : count ≤ warps) :
      count * numScoops * scoopSize ≤ buffer.len := by
    rw [sized, Nat.mul_assoc]
    exact Nat.mul_le_mul_right _ (Nat.le_trans countLe warpsLe)
  have plain : warps = warps / 2 ^ 0 ∧
      (0 < warps → HoldsLevel (writeAt buffer 0 (warpBytes plot scoop readProgress warps))
        readProgress warps plot.compression plot.base58Decoded seed scoop ∧
        plot.compression = plot.compression + 0) := by
    refine ⟨by rw [Nat.pow_zero, Nat.div_one], fun _ => ⟨⟨?_, ?_⟩, rfl⟩⟩
    · rw [size]
      exact fits warps (Nat.le_refl _)
    · intro warp nonce warpLt nonceLt
      exact written warp nonce warpLt nonceLt
  cases action with
  | skip reason => exact plain
  | mineNormal => exact plain
  | compressOnFly steps =>
    have levelFits := mineable.levelFits
    have count := even_div warps steps (mineable.compresses steps rfl)
    have evenLe : (if warps % 2 = 1 then warps - 1 else warps) ≤ warps := by
      split
      · omega
      · exact Nat.le_refl _
    simp only [CompressionAction.steps] at aligned levelFits
    simp only [finalBuffer, CompressionAction.steps, compressedWarpOffset]
    generalize (if warps % 2 = 1 then warps - 1 else warps) = compressibleWarps at count evenLe
    split
    · rename_i none
      rw [none, Nat.zero_div] at count
      exact ⟨count, fun positive => absurd positive (Nat.lt_irrefl 0)⟩
    · have level : (plot.compression + steps % 256) % 256 = plot.compression + steps := by omega
      have shifted : 2 ^ steps * (readProgress >>> steps) = readProgress := by
        rw [Nat.shiftRight_eq_div_pow, Nat.mul_comm]
        exact Nat.div_mul_cancel aligned
      rw [compressWarpsInline_count, count, level]
      refine ⟨rfl, fun _ => ⟨⟨?_, ?_⟩, rfl⟩⟩
      · rw [compressWarpsInline_len, size]
        exact fits _ (Nat.div_le_self _ _)
      · intro warp nonce warpLt nonceLt
        have summed := compressWarpsInline_scoop chunk divides
          (writeAt buffer 0 (warpBytes plot scoop readProgress warps)) compressibleWarps steps warp
          nonce (by rw [count]; exact warpLt) nonceLt
        rw [bufferScoop] at summed
        rw [summed, levelScoop_regroup _ _ _ _ _ _ _ _ mineable.level nonceLt]
        apply Finset.sum_congr rfl
        intro j inBlock
        have warpsLt : 2 ^ steps * warp + j < warps := by
          have blocks : 2 ^ steps * (warp + 1) ≤ 2 ^ steps * (warps / 2 ^ steps) :=
            Nat.mul_le_mul_left _ warpLt
          have whole := Nat.mul_div_le warps (2 ^ steps)
          have inBlock := Finset.mem_range.mp inBlock
          rw [Nat.mul_add, Nat.mul_one] at blocks
          omega
        have address : readProgress + (2 ^ steps * warp + j) =
            2 ^ steps * (readProgress >>> steps + warp) + j := by
          rw [Nat.mul_add, shifted, Nat.add_assoc]
        rw [written _ nonce warpsLt nonceLt, address]

end Scan

/-- A data message of a plot, as the hasher needs it. -/
structure ValidReply (plot : Plot) (seed : U8s 32) (scoop steps : Nat) (reply : ReadReply) :
    Prop where
  positive : 0 < reply.numberOfWarps
  holds : HoldsLevel reply.buffer reply.warpOffset reply.numberOfWarps reply.compressionLevel
    plot.base58Decoded seed scoop
  within : reply.warpOffset + reply.numberOfWarps ≤ plot.numberOfWarps / 2 ^ steps
  level : reply.compressionLevel = plot.compression + steps
  account : reply.accountId = hexEncode plot.base58Decoded
  seedText : reply.seed = plot.seed

/-- The warps that some data messages report. -/
def reported (replies : List ReadReply) : List Nat :=
  replies.flatMap fun reply => (List.range reply.numberOfWarps).map (reply.warpOffset + ·)

/-- The scan of a plot up to a warp: what it has sent is valid and covers these warps,
and it stands at the start of a buffer or at the end. -/
structure Scanning (plot : Plot) (seed : U8s 32) (scoop steps cache index : Nat) (reader : Reader)
    (readProgress : Nat) : Prop where
  valid : ∀ reply ∈ reader.seen (dataOf index), ValidReply plot seed scoop steps reply
  covered : reported (reader.seen (dataOf index)) = List.range (readProgress / 2 ^ steps)
  bounded : readProgress ≤ plot.numberOfWarps
  aligned : cache ∣ readProgress ∨ readProgress = plot.numberOfWarps

/-- One buffer more. A buffer of which no warp is left is not sent. -/
theorem Scanning.deliver {plot : Plot} {seed : U8s 32} {scoop steps cache index : Nat}
    {reader next : Reader} {readProgress : Nat}
    (state : Scanning plot seed scoop steps cache index reader readProgress)
    (same : next.seen (dataOf index) = reader.seen (dataOf index)) (readProgress' : Nat)
    (bounded : readProgress' ≤ plot.numberOfWarps)
    (aligned : cache ∣ readProgress' ∨ readProgress' = plot.numberOfWarps) (reply : ReadReply)
    (offset : reply.warpOffset = readProgress / 2 ^ steps)
    (count : readProgress' / 2 ^ steps = readProgress / 2 ^ steps + reply.numberOfWarps)
    (valid : 0 < reply.numberOfWarps → ValidReply plot seed scoop steps reply) :
    Scanning plot seed scoop steps cache index
      (if 0 < reply.numberOfWarps then next.send (.data index reply) else next) readProgress' := by
  split
  · rename_i positive
    have sent := seen_some (dataOf_own index reply) next
    rw [same] at sent
    refine ⟨?_, ?_, bounded, aligned⟩
    · intro listed member
      rw [sent, List.mem_append, List.mem_singleton] at member
      rcases member with earlier | rfl
      · exact state.valid listed earlier
      · exact valid positive
    · rw [sent, count, List.range_add, ← state.covered, reported, List.flatMap_append,
        List.flatMap_singleton, ← reported, offset]
  · rename_i none
    have unchanged : readProgress' / 2 ^ steps = readProgress / 2 ^ steps := by omega
    refine ⟨?_, ?_, bounded, aligned⟩
    · rw [same]
      exact state.valid
    · rw [same, unchanged]
      exact state.covered

section Scan

variable {plotter : Platform} {plot : Plot} {seed : U8s 32} (plotted : Plotted plotter plot seed)
  {scoop : Nat} (scoopLt : scoop < numScoops) {action : CompressionAction} {cache : Nat}
  (mineable : Mineable plot action cache) {chunk : Nat} (divides : chunk ∣ numScoops * scoopSize)
  {supply : Supply}
  (buffers : ∀ i buffer, supply.rxEmptyBuffer i = some buffer →
    buffer.len = cache * (numScoops * scoopSize))

include plotted scoopLt mineable divides buffers

/-- The loop over the buffers, by induction on the fuel. Whether it is interrupted or
not, what it has sent is valid. -/
theorem readPlot_scanned (index fuel readProgress : Nat) (reader : Reader)
    (enough : plot.numberOfWarps < readProgress + fuel)
    (state : Scanning plot seed scoop action.steps cache index reader readProgress) :
    let outcome := readPlot supply plot scoop chunk action index fuel readProgress reader
    (∀ reply ∈ (readerOf outcome).seen (dataOf index),
        ValidReply plot seed scoop action.steps reply) ∧
      ∀ after, outcome = .ok after →
        Scanning plot seed scoop action.steps cache index after plot.numberOfWarps := by
  induction fuel generalizing readProgress reader with
  | zero => exact absurd state.bounded (by omega)
  | succ fuel ih =>
    rw [readPlot]
    split
    · rename_i unfinished
      have aligned : cache ∣ readProgress := by
        rcases state.aligned with aligned | finished
        · exact aligned
        · omega
      have alignedSteps : 2 ^ action.steps ∣ readProgress :=
        Nat.dvd_trans mineable.whole aligned
      cases received : supply.rxEmptyBuffer reader.buffers with
      | none => exact ⟨state.valid, nofun⟩
      | some buffer =>
        have sized := buffers _ _ received
        have filled := fillBuffer_plotted plotted scoopLt sized mineable.positive unfinished
          supply { reader with buffers := reader.buffers + 1 }
        have processed := seen_none ((dataOf_blind index).warpsProcessed
          (min (plot.numberOfWarps - readProgress) (cache)))
          { reader with buffers := reader.buffers + 1 }
        simp only at filled ⊢
        rw [filled]
        generalize warpsEq : min (plot.numberOfWarps - readProgress) (cache) = warps
          at processed
        have room := mineable.positive
        have positive : warps ≠ 0 := by omega
        have inside : readProgress + warps ≤ plot.numberOfWarps := by omega
        have alignedNext : cache ∣ readProgress + warps ∨
            readProgress + warps = plot.numberOfWarps := by
          rcases Nat.lt_or_ge (plot.numberOfWarps - readProgress) (cache) with rest | whole
          · exact Or.inr (by omega)
          · have full : warps = cache := by omega
            rw [full]
            exact Or.inl (Nat.dvd_add aligned (Nat.dvd_refl _))
        cases supply.interrupt reader.reads with
        | true =>
          refine ⟨?_, nofun⟩
          intro reply listed
          simp only [↓reduceIte, readerOf] at listed
          rw [seen_none (dataOf_blind index).scanInterrupted, processed] at listed
          exact state.valid reply listed
        | false =>
          obtain ⟨count, holds⟩ := finalBuffer_holds plotted scoopLt mineable divides sized inside
            (by omega) alignedSteps
          simp only [Bool.false_eq_true, ↓reduceIte, if_neg positive]
          apply ih _ _ (by omega)
          refine state.deliver ?_ _ inside alignedNext ⟨_, _, _, _, _, _⟩ ?_ ?_ ?_
          · exact processed
          · exact compressedWarpOffset_eq action readProgress
          · rw [Nat.add_div_of_dvd_right alignedSteps]
            exact congrArg _ count.symm
          · intro sent
            refine ⟨sent, (holds sent).1, ?_, (holds sent).2, rfl, rfl⟩
            have reaches := Nat.div_le_div_right (c := 2 ^ action.steps) inside
            rw [Nat.add_div_of_dvd_right alignedSteps, ← count,
              ← compressedWarpOffset_eq action readProgress] at reaches
            exact reaches
    · rename_i finished
      have bounded := state.bounded
      have ended : readProgress = plot.numberOfWarps := by omega
      refine ⟨state.valid, ?_⟩
      intro after outcome
      cases outcome
      rw [← ended]
      exact state

end Scan

theorem determineCompressionAction_steps (plotCompression minRequired targetLevel maxSteps : Nat) :
    let action := determineCompressionAction plotCompression minRequired targetLevel maxSteps
    action.steps ≤ maxSteps ∧ ∀ steps, action = .compressOnFly steps → 1 ≤ steps := by
  simp only [determineCompressionAction]
  split
  · exact ⟨Nat.zero_le _, nofun⟩
  · split
    · exact ⟨Nat.zero_le _, nofun⟩
    · split
      · exact ⟨Nat.zero_le _, nofun⟩
      · rename_i below within
        refine ⟨Nat.le_of_not_lt within, ?_⟩
        intro steps same
        cases same
        omega

theorem plotAction_mineable {plot : Plot} {config : Option CompressionConfig} {cache : Nat}
    (level : 1 ≤ plot.compression)
    (positive : 0 < cache)
    (power : ∀ settings, config = some settings → cache = 2 ^ settings.maxCompressionSteps)
    (levelFits : plot.compression + (plotAction plot config).steps ≤ 255) :
    Mineable plot (plotAction plot config) cache := by
  cases config with
  | none => exact ⟨level, positive, Nat.one_dvd _, levelFits, nofun⟩
  | some settings =>
    obtain ⟨stepsLe, compresses⟩ := determineCompressionAction_steps plot.compression
      settings.minCompressionLevel settings.targetCompressionLevel settings.maxCompressionSteps
    have whole : 2 ^ (plotAction plot (some settings)).steps ∣ cache := by
      rw [power settings rfl]
      exact Nat.pow_dvd_pow 2 stepsLe
    exact ⟨level, positive, whole, levelFits, compresses⟩

theorem readPlots_append (supply : Supply) (chunk : Nat) (config : Option CompressionConfig)
    (scoop : Nat) (front rest : List (Plot × Nat)) (reader : Reader) :
    readPlots supply chunk config scoop (front ++ rest) reader =
      (readPlots supply chunk config scoop front reader).bind
        (readPlots supply chunk config scoop rest) := by
  induction front generalizing reader with
  | nil => rfl
  | cons entry front ih =>
    obtain ⟨plot, own⟩ := entry
    rw [List.cons_append, readPlots, readPlots]
    split
    · exact ih reader
    · cases readPlot supply plot scoop chunk (plotAction plot config) own (plot.numberOfWarps + 1)
        plot.readProgress reader with
      | error stopped => rfl
      | ok next => exact ih next

/-- The scan of a disk reads the plot at `index` once, and everything else it does is
about other plots. -/
theorem readPlots_scanned {plotter : Platform} {plot : Plot} {seed : U8s 32}
    (plotted : Plotted plotter plot seed) {scoop : Nat} (scoopLt : scoop < numScoops)
    {config : Option CompressionConfig} {cache : Nat}
    (mineable : Mineable plot (plotAction plot config) cache)
    (kept : ∀ reason, plotAction plot config ≠ .skip reason) {chunk : Nat}
    (divides : chunk ∣ numScoops * scoopSize) {supply : Supply}
    (buffers : ∀ i buffer, supply.rxEmptyBuffer i = some buffer →
      buffer.len = cache * (numScoops * scoopSize))
    (fromStart : plot.readProgress = 0) (index : Nat) (front back : List (Plot × Nat))
    (apartFront : ∀ entry ∈ front, entry.2 ≠ index) (apartBack : ∀ entry ∈ back, entry.2 ≠ index)
    (reader : Reader) (quiet : reader.seen (dataOf index) = []) :
    let outcome := readPlots supply chunk config scoop (front ++ (plot, index) :: back) reader
    (∀ reply ∈ (readerOf outcome).seen (dataOf index),
        ValidReply plot seed scoop (plotAction plot config).steps reply) ∧
      ∀ after, outcome = .ok after →
        reported (after.seen (dataOf index)) =
          List.range (plot.numberOfWarps / 2 ^ (plotAction plot config).steps) := by
  have before := readPlots_seen (dataOf_blind index) supply scoop chunk config front
    (fun entry listed => dataOf_other index entry.2 (apartFront entry listed)) reader
  rw [quiet] at before
  simp only
  rw [readPlots_append]
  generalize readPlots supply chunk config scoop front reader = outcome at before
  cases outcome with
  | error stopped =>
    refine ⟨?_, nofun⟩
    intro reply listed
    rw [show (readerOf (Except.bind (.error stopped) _)).seen (dataOf index) = [] from before]
      at listed
    cases listed
  | ok next =>
    have nothing : next.seen (dataOf index) = [] := before
    have start : Scanning plot seed scoop (plotAction plot config).steps cache index next
        plot.readProgress := by
      refine ⟨?_, ?_, ?_, ?_⟩
      · rw [nothing]
        nofun
      · rw [nothing, fromStart, Nat.zero_div]
        rfl
      · rw [fromStart]
        exact Nat.zero_le _
      · rw [fromStart]
        exact Or.inl (Nat.dvd_zero _)
    have scanned := readPlot_scanned plotted scoopLt mineable divides buffers index
      (plot.numberOfWarps + 1) plot.readProgress next (by omega) start
    simp only [Except.bind]
    rw [readPlots]
    split
    · rename_i reason skipped
      exact absurd skipped (kept reason)
    · simp only at scanned
      generalize readPlot supply plot scoop chunk (plotAction plot config) index
        (plot.numberOfWarps + 1) plot.readProgress next = outcome at scanned
      obtain ⟨valid, complete⟩ := scanned
      cases outcome with
      | error stopped => exact ⟨valid, nofun⟩
      | ok behind =>
        have covered := (complete behind rfl).covered
        have after := readPlots_seen (dataOf_blind index) supply scoop chunk config back
          (fun entry listed => dataOf_other index entry.2 (apartBack entry listed)) behind
        refine ⟨?_, ?_⟩
        · intro reply listed
          rw [after] at listed
          exact valid reply listed
        · intro last outcome
          simp only at outcome
          rw [outcome] at after
          rw [show last.seen (dataOf index) = behind.seen (dataOf index) from after]
          exact covered

theorem zipIdx_split {α : Type} (list : List α) (index : Nat) (item : α)
    (found : list[index]? = some item) :
    ∃ front back, list.zipIdx = front ++ (item, index) :: back ∧
      (∀ entry ∈ front, entry.2 ≠ index) ∧ ∀ entry ∈ back, entry.2 ≠ index := by
  obtain ⟨inside, rfl⟩ := List.getElem?_eq_some_iff.mp found
  have taken : (list.take index).length = index := List.length_take_of_le (Nat.le_of_lt inside)
  refine ⟨(list.take index).zipIdx, (list.drop (index + 1)).zipIdx (index + 1), ?_, ?_, ?_⟩
  · conv => lhs; rw [← List.take_append_drop index list, ← List.getElem_cons_drop inside]
    rw [List.zipIdx_append, taken, Nat.zero_add, List.zipIdx_cons]
  · intro entry listed
    have before := List.snd_lt_of_mem_zipIdx listed
    rw [taken] at before
    omega
  · intro entry listed
    have behind := List.le_snd_of_mem_zipIdx listed
    omega

/-- What the pool checks of a submission, and that its nonces stay below `2 ^ 64` if those
of the plot do. -/
structure Validates (reference : Platform) (plot : Plot) (seed : U8s 32) (scoop steps : Nat)
    (gensig : U8s 32) (sent : Hasher.NonceSubmission) : Prop where
  quality : calculateQualityRaw reference plot.base58Decoded seed sent.nonce sent.compression scoop
    gensig = .ok sent.rawQuality
  compression : sent.compression = plot.compression + steps
  account : sent.accountId = hexEncode plot.base58Decoded
  seedText : sent.seed = plot.seed
  fits : 2 ^ plot.compression * plot.numberOfWarps * numScoops ≤ 2 ^ 64 →
    2 ^ sent.compression * (sent.nonce / numScoops + 1) * numScoops ≤ 2 ^ 64

theorem ValidReply.validates {plot : Plot} {seed : U8s 32} {scoop steps : Nat} {reply : ReadReply}
    (valid : ValidReply plot seed scoop steps reply) (scoopLt : scoop < numScoops)
    (miner reference : Platform) (round : Round) :
    Validates reference plot seed scoop steps round.generationSignatureBytes
      (calcQualities miner (round.hashingTask reply)).2.nonceSubmission := by
  obtain ⟨quality, -, above⟩ := Hasher.calcQualities_valid miner reference (round.hashingTask reply)
    plot.base58Decoded seed scoop scoopLt valid.holds valid.positive
  refine ⟨quality, valid.level, valid.account, valid.seedText, ?_⟩
  intro plotFits
  have level : (calcQualities miner (round.hashingTask reply)).2.nonceSubmission.compression =
      plot.compression + steps := valid.level
  rw [level]
  generalize (calcQualities miner (round.hashingTask reply)).2.nonceSubmission.nonce = nonce at above
  have warpLt : nonce / numScoops + 1 ≤ plot.numberOfWarps / 2 ^ steps :=
    Nat.le_trans ((Nat.div_lt_iff_lt_mul (by decide)).mpr above) valid.within
  calc 2 ^ (plot.compression + steps) * (nonce / numScoops + 1) * numScoops
      ≤ 2 ^ (plot.compression + steps) * (plot.numberOfWarps / 2 ^ steps) * numScoops :=
        Nat.mul_le_mul_right _ (Nat.mul_le_mul_left _ warpLt)
    _ = 2 ^ plot.compression * (2 ^ steps * (plot.numberOfWarps / 2 ^ steps)) * numScoops := by
        rw [Nat.pow_add, Nat.mul_assoc (2 ^ plot.compression)]
    _ ≤ 2 ^ plot.compression * plot.numberOfWarps * numScoops :=
        Nat.mul_le_mul_right _ (Nat.mul_le_mul_left _ (Nat.mul_div_le _ _))
    _ ≤ 2 ^ 64 := plotFits

/-- What the data messages of a plot are like, and what a finished scan reports, is read off the
scan of the disk. -/
theorem readDisk_observed {supply : Supply} {chunk : Nat} {config : Option CompressionConfig}
    {scoop : Nat} {plots : List Plot} {index : Nat} {holds : ReadReply → Prop} {warps : List Nat}
    (valid : ∀ reply ∈ (readerOf (readPlots supply chunk config scoop plots.zipIdx ⟨0, 0, []⟩)).seen
      (dataOf index), holds reply)
    (complete : ∀ after, readPlots supply chunk config scoop plots.zipIdx ⟨0, 0, []⟩ = .ok after →
      reported (after.seen (dataOf index)) = warps) :
    (∀ reply, .data index reply ∈ readDisk supply chunk config scoop plots → holds reply) ∧
      (.scanFinished ∈ readDisk supply chunk config scoop plots →
        reported ((readDisk supply chunk config scoop plots).filterMap (dataOf index)) = warps) := by
  have unfinished := readPlots_seen finishedOf_blind supply scoop chunk config plots.zipIdx
    (fun _ _ _ => rfl) ⟨0, 0, []⟩
  have data (reader : Reader) (reply : ReadReply) (listed : .data index reply ∈ reader.messages) :
      reply ∈ reader.seen (dataOf index) :=
    dataOf_mem.mpr listed
  simp only [readDisk]
  generalize readPlots supply chunk config scoop plots.zipIdx ⟨0, 0, []⟩ = outcome
    at valid complete unfinished
  cases outcome with
  | error stopped =>
    refine ⟨fun reply listed => valid reply (data stopped reply listed), ?_⟩
    intro finished
    have noticed : () ∈ stopped.seen finishedOf := List.mem_filterMap.mpr ⟨_, finished, rfl⟩
    rw [show stopped.seen finishedOf = [] from unfinished] at noticed
    cases noticed
  | ok reader =>
    have sent : (reader.send .scanFinished).seen (dataOf index) = reader.seen (dataOf index) :=
      seen_none rfl reader
    refine ⟨?_, ?_⟩
    · intro reply listed
      have seen := data (reader.send .scanFinished) reply listed
      rw [sent] at seen
      exact valid reply seen
    · intro _
      have covered := complete reader rfl
      rw [← sent] at covered
      exact covered

/-- The reader goes on, and has not sent that it was interrupted. -/
def GoesOn (outcome : Except Reader Reader) : Prop :=
  ∃ reader, outcome = .ok reader ∧ .scanInterrupted ∉ reader.messages

theorem send_unheard {reader : Reader} (unheard : .scanInterrupted ∉ reader.messages)
    {message : ScanMessage} (other : message ≠ .scanInterrupted) :
    .scanInterrupted ∉ (reader.send message).messages := by
  intro member
  rcases List.mem_append.mp member with before | new
  · exact unheard before
  · exact other (List.mem_singleton.mp new).symm

/-- A buffer comes whenever the reader awaits one, and the reader is not interrupted. -/
structure Calm (supply : Supply) : Prop where
  supplied : ∀ i, ∃ buffer, supply.rxEmptyBuffer i = some buffer
  quiet : ∀ i, supply.interrupt i = false

section Calm

variable {supply : Supply} (calm : Calm supply)

include calm

theorem fillBuffer_calm (plot : Plot) (scoop fuel : Nat) (filling : Filling)
    (unheard : .scanInterrupted ∉ filling.reader.messages) :
    ∃ filled, fillBuffer supply plot scoop fuel filling = .ok filled ∧
      .scanInterrupted ∉ filled.reader.messages := by
  induction fuel generalizing filling with
  | zero => exact ⟨filling, rfl, unheard⟩
  | succ fuel ih =>
    rw [fillBuffer]
    split
    · split
      · exact ⟨_, rfl, unheard⟩
      · rename_i bs warpsRed read
        split
        · exact ⟨_, rfl, unheard⟩
        · simp only [calm.quiet, Bool.false_eq_true, if_false]
          exact ih _ (send_unheard unheard ScanMessage.noConfusion)
    · exact ⟨_, rfl, unheard⟩

theorem readPlot_calm (plot : Plot) (scoop chunk : Nat) (action : CompressionAction)
    (index fuel readProgress : Nat) (reader : Reader)
    (unheard : .scanInterrupted ∉ reader.messages) :
    GoesOn (readPlot supply plot scoop chunk action index fuel readProgress reader) := by
  induction fuel generalizing readProgress reader with
  | zero => exact ⟨reader, rfl, unheard⟩
  | succ fuel ih =>
    rw [readPlot]
    split
    · obtain ⟨buffer, supplied⟩ := calm.supplied reader.buffers
      obtain ⟨filled, filledEq, filledUnheard⟩ := fillBuffer_calm calm plot scoop
        (plot.numberOfWarps + 1)
        ⟨buffer, readProgress, 0, { reader with buffers := reader.buffers + 1 }⟩ unheard
      simp only [supplied, filledEq]
      split
      · exact ⟨_, rfl, filledUnheard⟩
      · apply ih
        split
        · exact send_unheard filledUnheard ScanMessage.noConfusion
        · exact filledUnheard
    · exact ⟨reader, rfl, unheard⟩

theorem readPlots_calm (chunk : Nat) (config : Option CompressionConfig) (scoop : Nat)
    (plots : List (Plot × Nat)) (reader : Reader)
    (unheard : .scanInterrupted ∉ reader.messages) :
    GoesOn (readPlots supply chunk config scoop plots reader) := by
  induction plots generalizing reader with
  | nil => exact ⟨reader, rfl, unheard⟩
  | cons plot rest ih =>
    obtain ⟨plot, index⟩ := plot
    rw [readPlots]
    split
    · exact ih reader unheard
    · obtain ⟨after, afterEq, afterUnheard⟩ := readPlot_calm calm plot scoop chunk
        (plotAction plot config) index (plot.numberOfWarps + 1) plot.readProgress reader unheard
      simp only [afterEq]
      exact ih after afterUnheard

/-- A supplied reader that is not interrupted finishes its scan. -/
theorem readDisk_calm (chunk : Nat) (config : Option CompressionConfig) (scoop : Nat)
    (plots : List Plot) :
    .scanFinished ∈ readDisk supply chunk config scoop plots ∧
      .scanInterrupted ∉ readDisk supply chunk config scoop plots := by
  obtain ⟨reader, readEq, unheard⟩ := readPlots_calm calm chunk config scoop plots.zipIdx ⟨0, 0, []⟩
    List.not_mem_nil
  rw [readDisk, readEq]
  exact ⟨List.mem_append_right _ List.mem_cons_self,
    send_unheard unheard ScanMessage.noConfusion⟩

end Calm

/-- A data message tells of every warp that is reported. -/
theorem told_of_reported {messages : List ScanMessage} {index warp : Nat}
    (told : warp ∈ reported (messages.filterMap (dataOf index))) :
    ∃ reply, .data index reply ∈ messages ∧ reply.warpOffset ≤ warp ∧
      warp < reply.warpOffset + reply.numberOfWarps := by
  obtain ⟨reply, seen, inReply⟩ := List.mem_flatMap.mp told
  obtain ⟨offset, inRange, address⟩ := List.mem_map.mp inReply
  have offsetLt := List.mem_range.mp inRange
  exact ⟨reply, dataOf_mem.mp seen, by omega, by omega⟩

/-- Every submission the miner makes of a plot validates, and a scan that finishes reports every warp
of the reported level once. A supplied scan that is not interrupted finishes. -/
theorem submissions_validate (plotter miner reference : Platform) (simd : Bool) (supply : Supply)
    (config : Option CompressionConfig) (cache : Nat) (plots : List Plot) (index : Nat)
    (plot : Plot) (seed : U8s 32) (scoop : Nat) (round : Round)
    (found : plots[index]? = some plot) (level : 1 ≤ plot.compression)
    (fromStart : plot.readProgress = 0) (scoopLt : scoop < numScoops) (positive : 0 < cache)
    (buffers : ∀ i buffer, supply.rxEmptyBuffer i = some buffer →
      buffer.len = cache * (numScoops * scoopSize))
    (power : ∀ settings, config = some settings → cache = 2 ^ settings.maxCompressionSteps)
    (kept : ∀ reason, plotAction plot config ≠ .skip reason)
    (levelFits : plot.compression + (plotAction plot config).steps ≤ 255)
    (plotted : Plotted plotter plot seed) :
    let messages := readDisk supply (xorChunk simd miner.target) config scoop plots
    let steps := (plotAction plot config).steps
    (∀ reply, .data index reply ∈ messages →
        Validates reference plot seed scoop steps round.generationSignatureBytes
          (calcQualities miner (round.hashingTask reply)).2.nonceSubmission) ∧
      (.scanFinished ∈ messages →
        reported (messages.filterMap (dataOf index)) =
          List.range (plot.numberOfWarps / 2 ^ steps)) ∧
      (Calm supply → .scanFinished ∈ messages ∧
        reported (messages.filterMap (dataOf index)) =
          List.range (plot.numberOfWarps / 2 ^ steps)) := by
  intro messages steps
  have mineable := plotAction_mineable level positive power levelFits
  obtain ⟨front, back, split, apartFront, apartBack⟩ := zipIdx_split plots index plot found
  obtain ⟨valid, complete⟩ := readPlots_scanned plotted scoopLt mineable kept
    (xorChunk_dvd simd miner.target) buffers fromStart index front back apartFront apartBack
    ⟨0, 0, []⟩ rfl
  rw [← split] at valid complete
  obtain ⟨submitted, finishes⟩ := readDisk_observed valid complete
  refine ⟨?_, finishes, ?_⟩
  · intro reply data
    exact (submitted reply data).validates scoopLt miner reference round
  · intro calm
    have finished := (readDisk_calm calm (xorChunk simd miner.target) config scoop plots).1
    exact ⟨finished, finishes finished⟩

/-- A plot made of the scoops of its level. -/
def levelPlot (addressPayload : U8s 20) (seed : U8s 32) (seedText : String)
    (compression numberOfWarps : Nat) : Plot where
  base58Decoded := addressPayload
  seed := seedText
  compression := compression
  numberOfWarps := numberOfWarps
  content :=
    { len := numberOfWarps * warpSize
      byte := fun i =>
        (levelScoop generateAndExtractScoop32 addressPayload seed
          (i / scoopSize / (numberOfWarps * numScoops))
          (i / scoopSize % (numberOfWarps * numScoops)) compression).byte
          ⟨i % scoopSize, mod_scoopSize_lt i⟩ }
  readProgress := 0

theorem levelPlot_plotted (plotter : Platform) (addressPayload : U8s 20) (seed : U8s 32)
    (seedText : String) (compression numberOfWarps : Nat) :
    Plotted plotter (levelPlot addressPayload seed seedText compression numberOfWarps) seed := by
  refine ⟨rfl, ?_⟩
  intro scoop nonce scoopLt nonceLt
  rw [generateScoop_level generateAndExtractScoop32 _ _ _ (generateNonces_single plotter) scoopLt]
  apply congrArg Except.ok
  apply Scoop.ext
  funext z
  obtain ⟨row, column, offset⟩ := position (numberOfWarps * numScoops) scoop nonce nonceLt z
  simp only [scoopAt, levelPlot, row, column, offset]

/-- Buffers of two warps, and no interruption. -/
def twoWarpSupply : Supply where
  rxEmptyBuffer := fun _ => some ⟨2 * (numScoops * scoopSize), fun _ => 0⟩
  interrupt := fun _ => false

theorem twoWarpSupply_calm : Calm twoWarpSupply := ⟨fun _ => ⟨_, rfl⟩, fun _ => rfl⟩

theorem twoWarpSupply_sized (i : Nat) (buffer : Bytes)
    (received : twoWarpSupply.rxEmptyBuffer i = some buffer) :
    buffer.len = 2 * (numScoops * scoopSize) := by
  rw [← Option.some.inj received]

def levelTwoConfig : CompressionConfig := ⟨2, 5, 1⟩

theorem levelTwoConfig_power (settings : CompressionConfig)
    (configured : some levelTwoConfig = some settings) : 2 = 2 ^ settings.maxCompressionSteps := by
  rw [← Option.some.inj configured]
  rfl

theorem levelTwoConfig_action {plot : Plot} (level : plot.compression = 1) :
    plotAction plot (some levelTwoConfig) = .compressOnFly 1 := by
  simp only [plotAction, levelTwoConfig, level]
  decide

/-- Of three warps of level 1 the scan tells of one at level 2. -/
theorem levelTwo_told {plot : Plot} (level : plot.compression = 1) (three : plot.numberOfWarps = 3)
    {messages : List ScanMessage}
    (covered : reported (messages.filterMap (dataOf 0)) =
      List.range (plot.numberOfWarps / 2 ^ (plotAction plot (some levelTwoConfig)).steps)) :
    reported (messages.filterMap (dataOf 0)) = [0] ∧ ∃ reply, .data 0 reply ∈ messages := by
  rw [levelTwoConfig_action level, three] at covered
  have warps : reported (messages.filterMap (dataOf 0)) = [0] := covered
  have first : 0 ∈ reported (messages.filterMap (dataOf 0)) := by
    rw [warps]
    exact List.mem_cons_self
  obtain ⟨reply, data, -⟩ := told_of_reported first
  exact ⟨warps, reply, data⟩

def firstRound : Round := ⟨0, "chain", 1, fun _ => 0, "block", 7, 24⟩

/-- Three warps of level 1, mined at level 2 with buffers of two warps: the scan finishes, has told of
warp 0, and of no other, and its submission validates. -/
theorem submissions_validate_three_warps :
    let machine := scalarPlatform .other
    let plot := levelPlot (fun _ => 0) (fun _ => 0) "00" 1 3
    let messages :=
      readDisk twoWarpSupply (xorChunk false machine.target) (some levelTwoConfig) 9 [plot]
    .scanFinished ∈ messages ∧ reported (messages.filterMap (dataOf 0)) = [0] ∧
      ∃ reply, .data 0 reply ∈ messages ∧
        Validates machine plot (fun _ => 0) 9 1 firstRound.generationSignatureBytes
          (calcQualities machine (firstRound.hashingTask reply)).2.nonceSubmission := by
  intro machine plot messages
  obtain ⟨validates, -, covered⟩ := submissions_validate machine machine machine false twoWarpSupply
    (some levelTwoConfig) 2 [plot] 0 plot (fun _ => 0) 9 firstRound rfl (by decide) rfl (by decide)
    (by decide) twoWarpSupply_sized levelTwoConfig_power (by nofun) (by decide)
    (levelPlot_plotted machine _ _ _ _ _)
  obtain ⟨finished, all⟩ := covered twoWarpSupply_calm
  obtain ⟨warps, reply, data⟩ := levelTwo_told rfl rfl all
  exact ⟨finished, warps, reply, data, validates reply data⟩

end Pocx.ReadDisk
