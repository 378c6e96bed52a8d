import Pocx.Hashlib.Levels
import Pocx.Plotter.CpuCompressor

set_option autoImplicit false

namespace Pocx.Compressor

open ByteStore
open PlotFile (scoopSize numScoops nonceSize warpSize)
open Hashlib
open CpuCompressor

/-- `helix_compress`; its loops are those of the other plotter. -/
def helixCompress : Bytes → Bytes → Nat → List Cell → Bytes :=
  CpuCompressor.helix fun _ new => new

/-- One turn of the inner loops of `helix_compress_inline`, at `y`, `x` and `z`. -/
abbrev InlineCell := Nat × Nat × Nat

def inlineCells : List InlineCell :=
  List.range numScoops ×ˢ List.range numScoops ×ˢ List.range scoopSize

/-- The turn of all loops for the warp `w`. -/
def atWarp (w : Nat) (cell : InlineCell) : Cell :=
  let (y, x, z) := cell
  (y, x, w, z)

/-- One turn of the outer loop of `helix_compress_inline`. The threads read the buffer that they
write to, in any order. -/
def inlineWarp (warpOffset w : Nat) (order : List InlineCell) (buffer : Bytes) : Bytes :=
  let bufferLen := buffer.len / warpSize
  { buffer with
    byte :=
      Scatter.sweep
        (fun cell =>
          decide (sourceIndex bufferLen (atWarp w cell) < buffer.len) &&
            decide (mirrorIndex bufferLen (atWarp w cell) < buffer.len) &&
            decide (targetIndex bufferLen warpOffset (atWarp w cell) < buffer.len))
        (fun cell => targetIndex bufferLen warpOffset (atWarp w cell))
        (fun cell byte =>
          byte (sourceIndex bufferLen (atWarp w cell)) ^^^
            byte (mirrorIndex bufferLen (atWarp w cell)))
        buffer.byte order }

/-- `helix_compress_inline`; the threads join behind every warp. -/
def helixCompressInline (warpOffset : Nat) (orders : Nat → List InlineCell) : Nat → Bytes → Bytes
  | 0, buffer => buffer
  | w + 1, buffer =>
    inlineWarp warpOffset w (orders w) (helixCompressInline warpOffset orders w buffer)

/-- `source_index` of `xor_compress`, in a source of `bufferLen` warps. -/
def xorIndex (bufferLen srcLen : Nat) (cell : Cell) (i : Nat) : Nat :=
  let (y, x, w, z) := cell
  y * bufferLen * numScoops * scoopSize + ((srcLen * w + i) * numScoops + x) * scoopSize + z

def xorCompress (source target : Bytes) (warpOffset iterations : Nat) (order : List Cell) : Bytes :=
  let targetBufferLen := target.len / warpSize
  let sourceBufferLen := source.len / warpSize
  let srcLen := 2 ^ iterations
  { target with
    byte :=
      Scatter.run
        (fun cell => decide (targetIndex targetBufferLen warpOffset cell < target.len))
        (targetIndex targetBufferLen warpOffset)
        (fun cell _ =>
          (List.range srcLen).foldl
            (fun buffer i =>
              if xorIndex sourceBufferLen srcLen cell i < source.len then
                buffer ^^^ source.byte (xorIndex sourceBufferLen srcLen cell i)
              else buffer)
            0)
        target.byte order }

/-- The orders in which the pool runs the turns. -/
structure PoolOrders (warpsToCompress : Nat) where
  helix : List Cell
  helix_spawned : helix.Perm (helixCells warpsToCompress)
  inline : Nat → List InlineCell
  inline_spawned : ∀ w, (inline w).Perm inlineCells
  xor : List Cell
  xor_spawned : xor.Perm (helixCells warpsToCompress)

/-- What `create_chunk_compressor_thread` leaves in the write buffer. -/
def compressChunk (compress warpsToCompress : Nat) (orders : PoolOrders warpsToCompress)
    (readBuffer writeBuffer : Bytes) : Bytes :=
  if compress = 1 then helixCompress readBuffer writeBuffer 0 orders.helix
  else
    xorCompress
      (helixCompressInline 0 orders.inline (2 ^ (compress - 1) * warpsToCompress) readBuffer)
      writeBuffer 0 (compress - 1) orders.xor

theorem mem_inlineCells (y x z : Nat) :
    (y, x, z) ∈ inlineCells ↔ y < numScoops ∧ x < numScoops ∧ z < scoopSize := by
  simp only [inlineCells, List.mem_product, List.mem_range]

theorem inlineCells_nodup : inlineCells.Nodup :=
  List.nodup_range.product (List.nodup_range.product List.nodup_range)

section Inline

variable {warps w : Nat} (fits : 2 * (w + 1) ≤ warps)

include fits

theorem inlineTarget_injective (cell cell' : InlineCell) (listed : cell ∈ inlineCells)
    (listed' : cell' ∈ inlineCells)
    (same : targetIndex warps 0 (atWarp w cell) = targetIndex warps 0 (atWarp w cell')) :
    cell = cell' := by
  obtain ⟨y, x, z⟩ := cell
  obtain ⟨y', x', z'⟩ := cell'
  obtain ⟨yLt, xLt, zLt⟩ := (mem_inlineCells y x z).mp listed
  obtain ⟨yLt', xLt', zLt'⟩ := (mem_inlineCells y' x' z').mp listed'
  have cells := targetIndex_injective warps 0 (w + 1) (by omega) (y, x, w, z) (y', x', w, z')
    ((mem_helixCells _ _ _ _ _).mpr ⟨yLt, xLt, Nat.lt_succ_self w, zLt⟩)
    ((mem_helixCells _ _ _ _ _).mpr ⟨yLt', xLt', Nat.lt_succ_self w, zLt'⟩) same
  cases cells
  rfl

/-- A turn reads nothing that another turn of the same warp writes: from the second warp on the
warps read lie behind the one written, and in the first warp a turn reads its own target. -/
theorem inline_separate (cell other : InlineCell) (listed : cell ∈ inlineCells)
    (listed' : other ∈ inlineCells)
    (apart : targetIndex warps 0 (atWarp w other) ≠ targetIndex warps 0 (atWarp w cell)) :
    sourceIndex warps (atWarp w cell) ≠ targetIndex warps 0 (atWarp w other) ∧
      mirrorIndex warps (atWarp w cell) ≠ targetIndex warps 0 (atWarp w other) := by
  obtain ⟨y, x, z⟩ := cell
  obtain ⟨y', x', z'⟩ := other
  obtain ⟨yLt, xLt, zLt⟩ := (mem_inlineCells y x z).mp listed
  obtain ⟨yLt', xLt', zLt'⟩ := (mem_inlineCells y' x' z').mp listed'
  simp only [atWarp, targetIndex_cell, sourceIndex_cell, mirrorIndex_cell, Nat.zero_add] at apart ⊢
  have written := Strided.index_lt warps numScoops w x' (by omega) xLt'
  constructor
  · intro same
    have read := Strided.index_lt warps numScoops (2 * w) x (by omega) xLt
    obtain ⟨rfl, columns, rfl⟩ := Strided.cell_injective _ _ _ _ _ _ _ _ read written zLt zLt' same
    obtain ⟨slots, rfl⟩ := Strided.index_injective numScoops _ _ _ _ xLt xLt' columns
    have first : w = 0 := by omega
    subst first
    exact apart rfl
  · intro same
    have read := Strided.index_lt warps numScoops (2 * w + 1) y (by omega) yLt
    obtain ⟨-, columns, -⟩ := Strided.cell_injective _ _ _ _ _ _ _ _ read written zLt zLt' same
    obtain ⟨slots, -⟩ := Strided.index_injective numScoops _ _ _ _ yLt xLt' columns
    omega

variable {buffer : Bytes} {order : List InlineCell} (size : buffer.len / warpSize = warps)
  (spawned : order.Perm inlineCells)

include size spawned

/-- A warp of the output takes its place in the buffer. -/
theorem inlineWarp_slot (y x : Nat) (yLt : y < numScoops) (xLt : x < numScoops) :
    slotAt (inlineWarp 0 w order buffer) warps w y x =
      slotAt buffer warps (2 * w) y x + slotAt buffer warps (2 * w + 1) x y := by
  apply Scoop.ext
  funext z
  have member (cell : InlineCell) (listed : cell ∈ order) : cell ∈ inlineCells :=
    spawned.mem_iff.mp listed
  have covers := buffer_covers buffer warps size
  have targeted : targetIndex warps 0 (atWarp w (y, x, z)) =
      Strided.cell (warps * numScoops) scoopSize y (w * numScoops + x) z := by
    rw [atWarp, targetIndex_cell, Nat.zero_add]
  have guarded : (decide (sourceIndex warps (atWarp w (y, x, z)) < buffer.len) &&
      decide (mirrorIndex warps (atWarp w (y, x, z)) < buffer.len) &&
      decide (targetIndex warps 0 (atWarp w (y, x, z)) < buffer.len)) = true := by
    rw [Bool.and_eq_true, Bool.and_eq_true, decide_eq_true_eq, decide_eq_true_eq,
      decide_eq_true_eq, targeted, atWarp, sourceIndex_cell, mirrorIndex_cell]
    refine ⟨⟨Nat.lt_of_lt_of_le ?_ covers, Nat.lt_of_lt_of_le ?_ covers⟩,
      Nat.lt_of_lt_of_le ?_ covers⟩
    · exact Strided.cell_lt _ _ _ _ _ _ yLt (Strided.index_lt _ _ _ _ (by omega) xLt) z.isLt
    · exact Strided.cell_lt _ _ _ _ _ _ xLt (Strided.index_lt _ _ _ _ (by omega) yLt) z.isLt
    · exact Strided.cell_lt _ _ _ _ _ _ yLt (Strided.index_lt _ _ _ _ (by omega) xLt) z.isLt
  have written := Scatter.sweep_inside
    (fun cell =>
      decide (sourceIndex warps (atWarp w cell) < buffer.len) &&
        decide (mirrorIndex warps (atWarp w cell) < buffer.len) &&
        decide (targetIndex warps 0 (atWarp w cell) < buffer.len))
    (fun cell => targetIndex warps 0 (atWarp w cell))
    (fun cell byte =>
      byte (sourceIndex warps (atWarp w cell)) ^^^ byte (mirrorIndex warps (atWarp w cell)))
    buffer.byte order
    (List.Nodup.map_on (fun cell listed cell' listed' same =>
      inlineTarget_injective fits cell cell' (member cell listed) (member cell' listed') same)
      (spawned.nodup_iff.mpr inlineCells_nodup))
    (by
      intro cell listed other listed' apart before new
      obtain ⟨straight, mirrored⟩ := inline_separate fits cell other (member cell listed)
        (member other listed') apart
      rw [Function.update_of_ne straight, Function.update_of_ne mirrored])
    (y, x, z) (spawned.mem_iff.mpr ((mem_inlineCells y x z).mpr ⟨yLt, xLt, z.isLt⟩)) guarded
  simp only [targeted] at written
  rw [slotAt_byte, add_byte, slotAt_byte, slotAt_byte]
  simp only [inlineWarp, size]
  rw [written, atWarp, sourceIndex_cell, mirrorIndex_cell]

/-- The other warps stay. -/
theorem inlineWarp_other (slot : Nat) (slotLt : slot < warps) (apart : slot ≠ w) (y x : Nat)
    (xLt : x < numScoops) :
    slotAt (inlineWarp 0 w order buffer) warps slot y x = slotAt buffer warps slot y x := by
  apply Scoop.ext
  funext z
  rw [slotAt_byte, slotAt_byte]
  simp only [inlineWarp, size]
  apply Scatter.sweep_outside
  rintro ⟨y', x', z'⟩ listed same
  obtain ⟨-, xLt', zLt'⟩ := (mem_inlineCells y' x' z').mp (spawned.mem_iff.mp listed)
  rw [atWarp, targetIndex_cell, Nat.zero_add] at same
  have written := Strided.index_lt warps numScoops w x' (by omega) xLt'
  have read := Strided.index_lt warps numScoops slot x slotLt xLt
  obtain ⟨-, columns, -⟩ := Strided.cell_injective _ _ _ _ _ _ _ _ written read zLt' z.isLt same
  obtain ⟨slots, -⟩ := Strided.index_injective numScoops _ _ _ _ xLt' xLt columns
  omega

end Inline

/-- The first `count` warps of the buffer are compressed, the others as before. -/
structure Inlined (buffer after : Bytes) (count : Nat) : Prop where
  len : after.len = buffer.len
  done : ∀ slot < count, ∀ y x, y < numScoops → x < numScoops →
    slotAt after (buffer.len / warpSize) slot y x =
      slotAt buffer (buffer.len / warpSize) (2 * slot) y x +
        slotAt buffer (buffer.len / warpSize) (2 * slot + 1) x y
  behind : ∀ slot, count ≤ slot → slot < buffer.len / warpSize → ∀ y x, x < numScoops →
    slotAt after (buffer.len / warpSize) slot y x =
      slotAt buffer (buffer.len / warpSize) slot y x

/-- No warp is overwritten before it is read: the warps read for a warp of the output lie at
or behind it. -/
theorem helixCompressInline_slots (orders : Nat → List InlineCell)
    (spawned : ∀ w, (orders w).Perm inlineCells) (buffer : Bytes) (count : Nat)
    (fits : 2 * count ≤ buffer.len / warpSize) :
    Inlined buffer (helixCompressInline 0 orders count buffer) count := by
  induction count with
  | zero => exact ⟨rfl, fun _ lt => absurd lt (Nat.not_lt_zero _), fun _ _ _ _ _ _ => rfl⟩
  | succ w ih =>
    obtain ⟨len, done, behind⟩ := ih (by omega)
    have size : (helixCompressInline 0 orders w buffer).len / warpSize = buffer.len / warpSize := by
      rw [len]
    refine ⟨len, ?_, ?_⟩
    · intro slot slotLt y x yLt xLt
      rw [helixCompressInline]
      by_cases now : slot = w
      · subst now
        rw [inlineWarp_slot fits size (spawned slot) y x yLt xLt,
          behind (2 * slot) (by omega) (by omega) y x xLt,
          behind (2 * slot + 1) (by omega) (by omega) x y yLt]
      · rw [inlineWarp_other fits size (spawned w) slot (by omega) now y x xLt]
        exact done slot (by omega) y x yLt xLt
    · intro slot slotLe slotLt y x xLt
      rw [helixCompressInline,
        inlineWarp_other fits size (spawned w) slot slotLt (by omega) y x xLt]
      exact behind slot (by omega) slotLt y x xLt

/-- The bytes of a sum of scoops. -/
theorem sum_byte (scoops : Nat → Scoop) (count : Nat) (z : Fin scoopSize) :
    (∑ i ∈ Finset.range count, scoops i).byte z =
      (List.range count).foldl (fun buffer i => buffer ^^^ (scoops i).byte z) 0 := by
  induction count with
  | zero => rfl
  | succ count ih =>
    rw [Finset.sum_range_succ, List.range_succ, List.foldl_append, add_byte, ih]
    rfl

/-- `xor_compress` adds up consecutive warps. -/
theorem xorCompress_slot (source target : Bytes) (warps sourceWarps outputLen iterations : Nat)
    (order : List Cell) (sourceSize : source.len / warpSize = sourceWarps)
    (targetSize : target.len / warpSize = warps) (reads : 2 ^ iterations * outputLen ≤ sourceWarps)
    (fits : outputLen ≤ warps) (spawned : order.Perm (helixCells outputLen)) (y x w : Nat)
    (yLt : y < numScoops) (xLt : x < numScoops) (wLt : w < outputLen) :
    slotAt (xorCompress source target 0 iterations order) warps w y x =
      ∑ i ∈ Finset.range (2 ^ iterations),
        slotAt source sourceWarps (2 ^ iterations * w + i) y x := by
  apply Scoop.ext
  funext z
  have listed : (y, x, w, z.val) ∈ order :=
    spawned.mem_iff.mpr ((mem_helixCells outputLen y x w z).mpr ⟨yLt, xLt, wLt, z.isLt⟩)
  have distinct : (order.map (targetIndex warps 0)).Nodup := by
    apply List.Nodup.map_on _ (spawned.nodup_iff.mpr (helixCells_nodup outputLen))
    intro cell member cell' member' same
    exact targetIndex_injective warps 0 outputLen (by omega) cell cell'
      (spawned.mem_iff.mp member) (spawned.mem_iff.mp member') same
  have targeted := targetIndex_cell warps 0 y x w z
  rw [Nat.zero_add] at targeted
  have guarded : decide (targetIndex warps 0 (y, x, w, z.val) < target.len) = true := by
    rw [decide_eq_true_eq, targeted]
    exact Nat.lt_of_lt_of_le
      (Strided.cell_lt _ _ _ _ _ _ yLt (Strided.index_lt _ _ _ _ (by omega) xLt) z.isLt)
      (buffer_covers target warps targetSize)
  have source_byte (i : Nat) (iLt : i < 2 ^ iterations) :
      xorIndex sourceWarps (2 ^ iterations) (y, x, w, z.val) i < source.len ∧
        source.byte (xorIndex sourceWarps (2 ^ iterations) (y, x, w, z.val) i) =
          (slotAt source sourceWarps (2 ^ iterations * w + i) y x).byte z := by
    have index : xorIndex sourceWarps (2 ^ iterations) (y, x, w, z.val) i =
        Strided.cell (sourceWarps * numScoops) scoopSize y
          ((2 ^ iterations * w + i) * numScoops + x) z := by
      simp only [xorIndex, Strided.cell]
      rw [Nat.add_mul (y * (sourceWarps * numScoops)), ← Nat.mul_assoc y]
    have inside : 2 ^ iterations * w + i < sourceWarps := by
      have whole := Strided.index_lt outputLen (2 ^ iterations) w i wLt iLt
      rw [Nat.mul_comm w, Nat.mul_comm outputLen] at whole
      exact Nat.lt_of_lt_of_le whole reads
    rw [index, slotAt_byte]
    refine ⟨Nat.lt_of_lt_of_le ?_ (buffer_covers source sourceWarps sourceSize), rfl⟩
    exact Strided.cell_lt _ _ _ _ _ _ yLt (Strided.index_lt _ _ _ _ inside xLt) z.isLt
  have written := Scatter.run_inside
    (fun cell => decide (targetIndex warps 0 cell < target.len))
    (targetIndex warps 0)
    (fun cell _ =>
      (List.range (2 ^ iterations)).foldl
        (fun buffer i =>
          if xorIndex sourceWarps (2 ^ iterations) cell i < source.len then
            buffer ^^^ source.byte (xorIndex sourceWarps (2 ^ iterations) cell i)
          else buffer)
        0)
    target.byte order distinct (y, x, w, z.val) listed guarded
  rw [targeted] at written
  rw [slotAt_byte, sum_byte]
  simp only [xorCompress, sourceSize, targetSize]
  rw [written]
  apply List.foldl_ext
  intro buffer i member
  obtain ⟨inside, byte⟩ := source_byte i (List.mem_range.mp member)
  rw [if_pos inside, byte]

section Chunk

variable {Payload Seed : Type} (raw : Payload → Seed → Nat → Nat → Scoop) (addressPayload : Payload)
  (seed : Seed)

/-- A plot buffer holds the nonces of `rawWarps` uncompressed warps from `firstWarp` on. -/
def HoldsRaw (buffer : Bytes) (firstWarp rawWarps : Nat) : Prop :=
  ∀ scoop column, scoop < numScoops → column < rawWarps * numScoops →
    scoopAt buffer (scoopAddress (buffer.len / warpSize * numScoops) scoop column) =
      raw addressPayload seed (firstWarp * numScoops + column) scoop

variable {raw addressPayload seed}

theorem HoldsRaw.slot {buffer : Bytes} {firstWarp rawWarps : Nat}
    (holds : HoldsRaw raw addressPayload seed buffer firstWarp rawWarps) (slot scoop nonce : Nat)
    (slotLt : slot < rawWarps) (scoopLt : scoop < numScoops) (nonceLt : nonce < numScoops) :
    slotAt buffer (buffer.len / warpSize) slot scoop nonce =
      raw addressPayload seed ((firstWarp + slot) * numScoops + nonce) scoop := by
  rw [slotAt, holds scoop _ scoopLt (Strided.index_lt _ _ _ _ slotLt nonceLt), Nat.add_mul firstWarp,
    Nat.add_assoc]

/-- What the raw warps of one pair add to a warp of the output. -/
theorem HoldsRaw.pair {buffer : Bytes} {startWarp pairs warps warp pair scoop nonce : Nat}
    (holds : HoldsRaw raw addressPayload seed buffer (2 * pairs * startWarp) (2 * pairs * warps))
    (warpLt : warp < warps) (pairLt : pair < pairs) (scoopLt : scoop < numScoops)
    (nonceLt : nonce < numScoops) :
    slotAt buffer (buffer.len / warpSize) (2 * (pairs * warp + pair)) scoop nonce +
        slotAt buffer (buffer.len / warpSize) (2 * (pairs * warp + pair) + 1) nonce scoop =
      pairTerm raw addressPayload seed scoop (startWarp + warp) nonce pairs pair := by
  have index := Strided.index_lt warps pairs warp pair warpLt pairLt
  have inside : 2 * (pairs * warp + pair) + 1 < 2 * pairs * warps := by
    rw [Nat.mul_comm warp, Nat.mul_comm warps] at index
    rw [Nat.mul_assoc 2]
    omega
  have straight : (2 * pairs * startWarp + 2 * (pairs * warp + pair)) * numScoops =
      ((startWarp + warp) * pairs + pair) * (2 * numScoops) := by
    rw [Nat.mul_assoc 2, ← Nat.mul_add, ← Nat.add_assoc, ← Nat.mul_add, Nat.mul_comm pairs,
      Nat.mul_comm 2, Nat.mul_assoc]
  have mirrored : (2 * pairs * startWarp + (2 * (pairs * warp + pair) + 1)) * numScoops + scoop =
      ((startWarp + warp) * pairs + pair) * (2 * numScoops) + (numScoops + scoop) := by
    rw [← Nat.add_assoc (2 * pairs * startWarp), Nat.add_mul _ 1, straight, Nat.one_mul,
      Nat.add_assoc]
  rw [holds.slot _ scoop nonce (by omega) scoopLt nonceLt,
    holds.slot _ nonce scoop inside nonceLt scoopLt, straight, mirrored]
  rfl

/-- Both branches add up the pairs of raw warps. -/
theorem compressChunk_slot {compress warps startWarp : Nat} (compressed : 1 ≤ compress)
    {readBuffer writeBuffer : Bytes} (readSize : 2 ^ compress * warps ≤ readBuffer.len / warpSize)
    (writeSize : warps ≤ writeBuffer.len / warpSize)
    (holds : HoldsRaw raw addressPayload seed readBuffer (2 ^ compress * startWarp)
      (2 ^ compress * warps))
    (orders : PoolOrders warps) (warp scoop nonce : Nat) (warpLt : warp < warps)
    (scoopLt : scoop < numScoops) (nonceLt : nonce < numScoops) :
    slotAt (compressChunk compress warps orders readBuffer writeBuffer)
        (writeBuffer.len / warpSize) warp scoop nonce =
      levelScoop raw addressPayload seed scoop ((startWarp + warp) * numScoops + nonce)
        compress := by
  have double : 2 ^ compress = 2 * 2 ^ (compress - 1) := by
    rw [← Nat.pow_succ', Nat.succ_eq_add_one, Nat.sub_add_cancel compressed]
  rw [double] at readSize holds
  rw [levelScoop_pairs raw addressPayload seed scoop (startWarp + warp) nonce compress compressed
    nonceLt]
  have pairs (pair : Nat) (pairLt : pair < 2 ^ (compress - 1)) :=
    holds.pair warpLt pairLt scoopLt nonceLt
  unfold compressChunk
  by_cases one : compress = 1
  · subst one
    have only := pairs 0 (by decide)
    simp only [Nat.sub_self, Nat.pow_zero, Nat.mul_one, Nat.one_mul, Nat.add_zero] at only readSize
    have written := helixCompress_warp readBuffer writeBuffer (writeBuffer.len / warpSize) 0
      orders.helix (readBuffer.len / warpSize) warps rfl rfl readSize (by omega)
      orders.helix_spawned scoop nonce warp scoopLt nonceLt warpLt
    rw [Nat.zero_add] at written
    simp only [↓reduceIte, Nat.sub_self, Nat.pow_zero, Finset.sum_range_one]
    exact written.trans only
  · have fits : 2 * (2 ^ (compress - 1) * warps) ≤ readBuffer.len / warpSize := by
      rw [← Nat.mul_assoc]
      exact readSize
    have inlined := helixCompressInline_slots orders.inline orders.inline_spawned readBuffer
      (2 ^ (compress - 1) * warps) fits
    rw [if_neg one, xorCompress_slot _ writeBuffer (writeBuffer.len / warpSize)
      (readBuffer.len / warpSize) warps (compress - 1) orders.xor (by rw [inlined.len]) rfl
      (by omega) writeSize orders.xor_spawned scoop nonce warp scoopLt nonceLt warpLt]
    apply Finset.sum_congr rfl
    intro pair member
    have pairLt := Finset.mem_range.mp member
    have index := Strided.index_lt warps (2 ^ (compress - 1)) warp pair warpLt pairLt
    rw [Nat.mul_comm warp, Nat.mul_comm warps] at index
    rw [inlined.done _ index scoop nonce scoopLt nonceLt]
    exact pairs pair pairLt

end Chunk

/-- The write buffer of the compressor holds what `generate_scoop` recomputes, and so what
the other plotter puts into a slot that it fills with the same passes. -/
theorem chunk_recomputed {Payload Seed : Type} (generator : NonceGenerator Payload Seed)
    (addressPayload : Payload) (seed : Seed) (compress warps startWarp : Nat)
    (compressed : 1 ≤ compress) (readBuffer writeBuffer : Bytes)
    (readSize : 2 ^ compress * warps ≤ readBuffer.len / warpSize)
    (writeSize : warps ≤ writeBuffer.len / warpSize)
    (holds : HoldsRaw generator.raw addressPayload seed readBuffer (2 ^ compress * startWarp)
      (2 ^ compress * warps))
    (orders : PoolOrders warps) (warp scoop nonce : Nat) (warpLt : warp < warps)
    (scoopLt : scoop < numScoops) (nonceLt : nonce < numScoops) :
    generateScoop generator.generateNonces addressPayload seed scoop
        ((startWarp + warp) * numScoops + nonce) compress =
      .ok (slotAt (compressChunk compress warps orders readBuffer writeBuffer)
        (writeBuffer.len / warpSize) warp scoop nonce) ∧
    ∀ (scatterBufs : Nat → Bytes) (passOrders : Nat → List Cell) (buffer : Bytes)
      (escalate slot : Nat), buffer.len = escalate * warpSize → slot < escalate →
      (∀ pass < 2 ^ (compress - 1), (scatterBufs pass).len = 2 * warpSize ∧
        (passOrders pass).Perm (helixCells 1) ∧
        HoldsRaw generator.raw addressPayload seed (scatterBufs pass)
          (2 * ((startWarp + warp) * 2 ^ (compress - 1) + pass)) 2) →
      slotAt (compressPasses scatterBufs slot passOrders (2 ^ (compress - 1)) buffer) escalate slot
          scoop nonce =
        slotAt (compressChunk compress warps orders readBuffer writeBuffer)
          (writeBuffer.len / warpSize) warp scoop nonce := by
  have chunk := compressChunk_slot compressed readSize writeSize holds orders warp scoop nonce
    warpLt scoopLt nonceLt
  rw [chunk]
  constructor
  · exact generateScoop_level generator.raw addressPayload seed scoop generator.single scoopLt _ _
  · intro scatterBufs passOrders buffer escalate slot len slotLt passes
    have filled := (compressPasses_slot scatterBufs escalate slot passOrders buffer
      (2 ^ (compress - 1)) (fun pass lt => (passes pass lt).1) (fun pass lt => (passes pass lt).2.1)
      len slotLt (Nat.two_pow_pos _) scoop nonce scoopLt nonceLt).2
    rw [filled, levelScoop_pairs generator.raw addressPayload seed scoop (startWarp + warp) nonce
      compress compressed nonceLt]
    apply Finset.sum_congr rfl
    intro pass member
    obtain ⟨sized, -, raws⟩ := passes pass (Finset.mem_range.mp member)
    have columns : (scatterBufs pass).len / warpSize * numScoops = 2 * numScoops := by
      rw [sized, Nat.mul_div_cancel _ (by decide)]
    have first : 2 * ((startWarp + warp) * 2 ^ (compress - 1) + pass) * numScoops =
        ((startWarp + warp) * 2 ^ (compress - 1) + pass) * (2 * numScoops) := by
      rw [Nat.mul_comm 2, Nat.mul_assoc]
    unfold HoldsRaw at raws
    rw [columns, first] at raws
    rw [raws scoop nonce scoopLt (by omega), raws nonce (numScoops + scoop) nonceLt (by omega)]
    rfl

/-- The pool runs the turns in the order in which they are spawned. -/
def plainOrders (warps : Nat) : PoolOrders warps where
  helix := helixCells warps
  helix_spawned := List.Perm.refl _
  inline := fun _ => inlineCells
  inline_spawned := fun _ => List.Perm.refl _
  xor := helixCells warps
  xor_spawned := List.Perm.refl _

/-- Some uncompressed nonces. -/
def someGenerator : NonceGenerator Unit Unit :=
  .ofRaw fun _ _ nonce scoop => ⟨fun z => (nonce + scoop + z).toUInt8⟩

theorem chunk_recomputed_one_warp :
    ∃ readBuffer : Bytes, readBuffer.len = 4 * warpSize ∧
      generateScoop someGenerator.generateNonces () () 5 ((3 + 0) * numScoops + 9) 2 =
        .ok (slotAt (compressChunk 2 1 (plainOrders 1) readBuffer ⟨warpSize, fun _ => 7⟩)
          (warpSize / warpSize) 0 5 9) := by
  obtain ⟨readBuffer, -, placed⟩ := someGenerator.places ⟨4 * warpSize, fun _ => 0⟩ 0 () ()
    (12 * numScoops) (4 * numScoops) (by decide)
  have len : readBuffer.len = 4 * warpSize := placed.len
  have holds : HoldsRaw someGenerator.raw () () readBuffer (2 ^ 2 * 3) (2 ^ 2 * 1) := by
    intro scoop column scoopLt columnLt
    have columns : readBuffer.len / warpSize * numScoops = 4 * warpSize / nonceSize := by
      rw [len]
      decide
    have inside := placed.inside scoop column scoopLt columnLt
    rw [Nat.zero_add] at inside
    rw [columns]
    exact inside
  exact ⟨readBuffer, len,
    (chunk_recomputed someGenerator () () 2 1 3 (by decide) readBuffer ⟨warpSize, fun _ => 7⟩
      (by rw [len]; decide) (by decide) holds (plainOrders 1) 0 5 9 (by decide) (by decide)
      (by decide)).1⟩

end Pocx.Compressor
