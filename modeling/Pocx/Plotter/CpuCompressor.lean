import Mathlib.Data.List.Nodup
import Mathlib.Data.List.ProdSigma
import Pocx.Hashlib.Scoop
import Pocx.Lib.Scatter

set_option autoImplicit false

namespace Pocx.CpuCompressor

open ByteStore
open PlotFile (scoopSize numScoops nonceSize warpSize)
open Hashlib

/-- One turn of the innermost loop, at `y`, `x`, `w` and `z`. -/
abbrev Cell := Nat × Nat × Nat × Nat

/-- All turns of the four loops. -/
def helixCells (outputLen : Nat) : List Cell :=
  List.range numScoops ×ˢ List.range numScoops ×ˢ List.range outputLen ×ˢ List.range scoopSize

section Indices

variable (bufferLen warpOffset : Nat) (cell : Cell)

/-- `si`, in a source of `bufferLen` warps. -/
def sourceIndex : Nat :=
  let (y, x, w, z) := cell
  y * bufferLen * numScoops * scoopSize + (x + w * numScoops * 2) * scoopSize + z

/-- `mi` -/
def mirrorIndex : Nat :=
  let (y, x, w, z) := cell
  x * bufferLen * numScoops * scoopSize + (w * numScoops * 2 + numScoops + y) * scoopSize + z

/-- `ti`, in a target of `bufferLen` warps. -/
def targetIndex : Nat :=
  let (y, x, w, z) := cell
  y * bufferLen * numScoops * scoopSize + ((warpOffset + w) * numScoops + x) * scoopSize + z

end Indices

/-- The loops that `helix_compress` and `helix_compress_xor` share. The threads of the
pool may interleave the turns in any order. -/
def helix (combine : UInt8 → UInt8 → UInt8) (source target : Bytes) (warpOffset : Nat)
    (order : List Cell) : Bytes :=
  let targetBufferLen := target.len / warpSize
  let sourceBufferLen := source.len / warpSize
  { target with
    byte :=
      Scatter.run
        (fun cell =>
          decide (sourceIndex sourceBufferLen cell < source.len) &&
            decide (mirrorIndex sourceBufferLen cell < source.len) &&
            decide (targetIndex targetBufferLen warpOffset cell < target.len))
        (targetIndex targetBufferLen warpOffset)
        (fun cell old =>
          combine old
            (source.byte (sourceIndex sourceBufferLen cell) ^^^
              source.byte (mirrorIndex sourceBufferLen cell)))
        target.byte order }

def helixCompress : Bytes → Bytes → Nat → List Cell → Bytes :=
  helix fun _ new => new

def helixCompressXor : Bytes → Bytes → Nat → List Cell → Bytes :=
  helix fun old new => old ^^^ new

theorem helixCells_nodup (outputLen : Nat) : (helixCells outputLen).Nodup :=
  List.nodup_range.product
    (List.nodup_range.product (List.nodup_range.product List.nodup_range))

theorem mem_helixCells (outputLen y x w z : Nat) :
    (y, x, w, z) ∈ helixCells outputLen ↔
      y < numScoops ∧ x < numScoops ∧ w < outputLen ∧ z < scoopSize := by
  simp only [helixCells, List.mem_product, List.mem_range]

theorem targetIndex_cell (bufferLen warpOffset y x w z : Nat) :
    targetIndex bufferLen warpOffset (y, x, w, z) =
      Strided.cell (bufferLen * numScoops) scoopSize y ((warpOffset + w) * numScoops + x) z := by
  simp only [targetIndex, Strided.cell, Nat.add_mul, Nat.mul_assoc]

/-- The straight scoop is in an even warp of the source. -/
theorem sourceIndex_cell (bufferLen y x w z : Nat) :
    sourceIndex bufferLen (y, x, w, z) =
      Strided.cell (bufferLen * numScoops) scoopSize y (2 * w * numScoops + x) z := by
  have column : x + w * numScoops * 2 = 2 * w * numScoops + x := by
    simp only [numScoops]
    omega
  simp only [sourceIndex, Strided.cell, column]
  rw [Nat.add_mul (y * (bufferLen * numScoops)), ← Nat.mul_assoc y]

/-- The mirrored one is in the odd warp behind it, transposed. -/
theorem mirrorIndex_cell (bufferLen y x w z : Nat) :
    mirrorIndex bufferLen (y, x, w, z) =
      Strided.cell (bufferLen * numScoops) scoopSize x ((2 * w + 1) * numScoops + y) z := by
  have column : w * numScoops * 2 + numScoops + y = (2 * w + 1) * numScoops + y := by
    simp only [numScoops]
    omega
  simp only [mirrorIndex, Strided.cell, column]
  rw [Nat.add_mul (x * (bufferLen * numScoops)), ← Nat.mul_assoc x]

/-- No two turns write to the same byte. -/
theorem targetIndex_injective (bufferLen warpOffset outputLen : Nat)
    (fits : warpOffset + outputLen ≤ bufferLen) (cell cell' : Cell)
    (listed : cell ∈ helixCells outputLen) (listed' : cell' ∈ helixCells outputLen)
    (same : targetIndex bufferLen warpOffset cell = targetIndex bufferLen warpOffset cell') :
    cell = cell' := by
  obtain ⟨y, x, w, z⟩ := cell
  obtain ⟨y', x', w', z'⟩ := cell'
  obtain ⟨yLt, xLt, wLt, zLt⟩ := (mem_helixCells outputLen y x w z).mp listed
  obtain ⟨yLt', xLt', wLt', zLt'⟩ := (mem_helixCells outputLen y' x' w' z').mp listed'
  rw [targetIndex_cell, targetIndex_cell] at same
  have column := Strided.index_lt bufferLen numScoops (warpOffset + w) x (by omega) xLt
  have column' := Strided.index_lt bufferLen numScoops (warpOffset + w') x' (by omega) xLt'
  obtain ⟨rows, columns, offsets⟩ :=
    Strided.cell_injective _ _ _ _ _ _ _ _ column column' zLt zLt' same
  obtain ⟨warps, nonces⟩ := Strided.index_injective numScoops _ _ _ _ xLt xLt' columns
  subst rows nonces offsets
  rw [Nat.add_left_cancel warps]

/-- The bytes of warp slot `slot` of a buffer of `warps` warps. -/
def slotAt (bytes : Bytes) (warps slot scoop nonce : Nat) : Scoop :=
  scoopAt bytes (scoopAddress (warps * numScoops) scoop (slot * numScoops + nonce))

theorem slotAt_byte (bytes : Bytes) (warps slot scoop nonce : Nat) (z : Fin scoopSize) :
    (slotAt bytes warps slot scoop nonce).byte z =
      bytes.byte (Strided.cell (warps * numScoops) scoopSize scoop
        (slot * numScoops + nonce) z) := by
  rw [← scoopAddress_cell]
  rfl

/-- A buffer reaches to the end of its last whole warp. -/
theorem buffer_covers (bytes : Bytes) (warps : Nat) (size : bytes.len / warpSize = warps) :
    numScoops * (warps * numScoops) * scoopSize ≤ bytes.len := by
  have whole := Nat.div_mul_le_self bytes.len warpSize
  rw [size, warpSize, nonceSize] at whole
  simpa only [Nat.mul_comm, Nat.mul_left_comm] using whole

section Spec

variable (combine : UInt8 → UInt8 → UInt8) (source target : Bytes) (warps warpOffset : Nat)
  (order : List Cell)

/-- Each warp that is put out takes two of the source, a straight and a mirrored one. -/
theorem helix_byte (sourceWarps outputLen : Nat) (sourceSize : source.len / warpSize = sourceWarps)
    (targetSize : target.len / warpSize = warps) (reads : 2 * outputLen ≤ sourceWarps)
    (fits : warpOffset + outputLen ≤ warps) (spawned : order.Perm (helixCells outputLen))
    (y x w z : Nat) (yLt : y < numScoops) (xLt : x < numScoops) (wLt : w < outputLen)
    (zLt : z < scoopSize) :
    (helix combine source target warpOffset order).byte
        (Strided.cell (warps * numScoops) scoopSize y ((warpOffset + w) * numScoops + x) z) =
      combine
        (target.byte
          (Strided.cell (warps * numScoops) scoopSize y ((warpOffset + w) * numScoops + x) z))
        (source.byte
            (Strided.cell (sourceWarps * numScoops) scoopSize y (2 * w * numScoops + x) z) ^^^
          source.byte
            (Strided.cell (sourceWarps * numScoops) scoopSize x ((2 * w + 1) * numScoops + y) z)) := by
  have listed : (y, x, w, z) ∈ order :=
    spawned.mem_iff.mpr ((mem_helixCells outputLen y x w z).mpr ⟨yLt, xLt, wLt, zLt⟩)
  have distinct : (order.map (targetIndex warps warpOffset)).Nodup := by
    apply List.Nodup.map_on _ (spawned.nodup_iff.mpr (helixCells_nodup outputLen))
    intro cell member cell' member' same
    exact targetIndex_injective warps warpOffset outputLen fits cell cell'
      (spawned.mem_iff.mp member) (spawned.mem_iff.mp member') same
  have straight := sourceIndex_cell sourceWarps y x w z
  have mirrored := mirrorIndex_cell sourceWarps y x w z
  have targeted := targetIndex_cell warps warpOffset y x w z
  have sourceCovers := buffer_covers source sourceWarps sourceSize
  have targetCovers := buffer_covers target warps targetSize
  have guarded : (decide (sourceIndex sourceWarps (y, x, w, z) < source.len) &&
      decide (mirrorIndex sourceWarps (y, x, w, z) < source.len) &&
      decide (targetIndex warps warpOffset (y, x, w, z) < target.len)) = true := by
    rw [Bool.and_eq_true, Bool.and_eq_true, decide_eq_true_eq, decide_eq_true_eq,
      decide_eq_true_eq, straight, mirrored, targeted]
    refine ⟨⟨Nat.lt_of_lt_of_le ?_ sourceCovers, Nat.lt_of_lt_of_le ?_ sourceCovers⟩,
      Nat.lt_of_lt_of_le ?_ targetCovers⟩
    · exact Strided.cell_lt _ _ _ _ _ _ yLt (Strided.index_lt _ _ _ _ (by omega) xLt) zLt
    · exact Strided.cell_lt _ _ _ _ _ _ xLt (Strided.index_lt _ _ _ _ (by omega) yLt) zLt
    · exact Strided.cell_lt _ _ _ _ _ _ yLt (Strided.index_lt _ _ _ _ (by omega) xLt) zLt
  have written := Scatter.run_inside
    (fun cell => decide (sourceIndex sourceWarps cell < source.len) &&
      decide (mirrorIndex sourceWarps cell < source.len) &&
      decide (targetIndex warps warpOffset cell < target.len))
    (targetIndex warps warpOffset)
    (fun cell old => combine old
      (source.byte (sourceIndex sourceWarps cell) ^^^ source.byte (mirrorIndex sourceWarps cell)))
    target.byte order distinct (y, x, w, z) listed guarded
  rw [targeted, straight, mirrored] at written
  simp only [helix, sourceSize, targetSize]
  exact written

/-- What a warp that is put out holds where it overwrites the slot. -/
theorem helixCompress_warp (sourceWarps outputLen : Nat)
    (sourceSize : source.len / warpSize = sourceWarps) (targetSize : target.len / warpSize = warps)
    (reads : 2 * outputLen ≤ sourceWarps) (fits : warpOffset + outputLen ≤ warps)
    (spawned : order.Perm (helixCells outputLen)) (y x w : Nat) (yLt : y < numScoops)
    (xLt : x < numScoops) (wLt : w < outputLen) :
    slotAt (helixCompress source target warpOffset order) warps (warpOffset + w) y x =
      slotAt source sourceWarps (2 * w) y x + slotAt source sourceWarps (2 * w + 1) x y := by
  apply Scoop.ext
  funext z
  rw [slotAt_byte, helixCompress,
    helix_byte _ source target warps warpOffset order sourceWarps outputLen sourceSize targetSize
      reads fits spawned y x w z yLt xLt wLt z.isLt, add_byte, slotAt_byte, slotAt_byte]

/-- The other warp slots keep their bytes. -/
theorem helix_other (targetLen : target.len = warps * warpSize) (fits : warpOffset < warps)
    (spawned : order.Perm (helixCells 1)) (slot : Nat) (slotLt : slot < warps)
    (apart : slot ≠ warpOffset) (scoop nonce : Nat) (nonceLt : nonce < numScoops) :
    slotAt (helix combine source target warpOffset order) warps slot scoop nonce =
      slotAt target warps slot scoop nonce := by
  have targetWarps : target.len / warpSize = warps := by
    rw [targetLen]
    exact Nat.mul_div_cancel _ (by decide)
  apply Scoop.ext
  funext z
  rw [slotAt_byte, slotAt_byte]
  simp only [helix, targetWarps]
  apply Scatter.run_outside
  intro cell listed same
  obtain ⟨y, x, w, z'⟩ := cell
  obtain ⟨yLt, xLt, wLt, zLt⟩ := (mem_helixCells 1 y x w z').mp (spawned.mem_iff.mp listed)
  rw [targetIndex_cell] at same
  have column := Strided.index_lt warps numScoops (warpOffset + w) x (by omega) xLt
  have column' := Strided.index_lt warps numScoops slot nonce slotLt nonceLt
  obtain ⟨-, columns, -⟩ :=
    Strided.cell_injective _ _ _ _ _ _ _ _ column column' zLt z.isLt same
  obtain ⟨slots, -⟩ := Strided.index_injective numScoops _ _ _ _ xLt nonceLt columns
  omega

variable (sourceLen : source.len = 2 * warpSize) (targetLen : target.len = warps * warpSize)
  (fits : warpOffset < warps) (spawned : order.Perm (helixCells 1)) (y x : Nat)
  (yLt : y < numScoops) (xLt : x < numScoops)
include sourceLen targetLen fits spawned yLt xLt

/-- One pass of a warp: the source holds two warps. -/
theorem helix_pass (z : Fin scoopSize) :
    (slotAt (helix combine source target warpOffset order) warps warpOffset y x).byte z =
      combine ((slotAt target warps warpOffset y x).byte z)
        ((scoopAt source (scoopAddress (2 * numScoops) y x) +
          scoopAt source (scoopAddress (2 * numScoops) x (numScoops + y))).byte z) := by
  have sourceWarps : source.len / warpSize = 2 := by
    rw [sourceLen]
    exact Nat.mul_div_cancel _ (by decide)
  have targetWarps : target.len / warpSize = warps := by
    rw [targetLen]
    exact Nat.mul_div_cancel _ (by decide)
  have written := helix_byte combine source target warps warpOffset order 2 1 sourceWarps
    targetWarps (by decide) fits spawned y x 0 z yLt xLt (by decide) z.isLt
  simp only [Nat.add_zero, Nat.mul_zero, Nat.zero_mul, Nat.zero_add, Nat.one_mul] at written
  rw [slotAt_byte, slotAt_byte, written, add_byte, ← scoopAddress_cell, ← scoopAddress_cell,
    ← scoopAddress_cell]
  rfl

/-- The first pass overwrites whatever the slot held. -/
theorem helixCompress_slot :
    slotAt (helixCompress source target warpOffset order) warps warpOffset y x =
      scoopAt source (scoopAddress (2 * numScoops) y x) +
        scoopAt source (scoopAddress (2 * numScoops) x (numScoops + y)) := by
  apply Scoop.ext
  funext z
  exact helix_pass _ source target warps warpOffset order sourceLen targetLen fits spawned y x yLt
    xLt z

theorem helixCompressXor_slot :
    slotAt (helixCompressXor source target warpOffset order) warps warpOffset y x =
      slotAt target warps warpOffset y x +
        (scoopAt source (scoopAddress (2 * numScoops) y x) +
          scoopAt source (scoopAddress (2 * numScoops) x (numScoops + y))) := by
  apply Scoop.ext
  funext z
  exact helix_pass _ source target warps warpOffset order sourceLen targetLen fits spawned y x yLt
    xLt z

end Spec

/-- The passes of a warp, one after the other. -/
def compressPasses (scatterBufs : Nat → Bytes) (slot : Nat) (orders : Nat → List Cell) :
    Nat → Bytes → Bytes
  | 0, buffer => buffer
  | pass + 1, buffer =>
    let before := compressPasses scatterBufs slot orders pass buffer
    if pass = 0 then helixCompress (scatterBufs pass) before slot (orders pass)
    else helixCompressXor (scatterBufs pass) before slot (orders pass)

/-- The first pass overwrites the slot, the others add to it. -/
theorem compressPasses_slot (scatterBufs : Nat → Bytes) (warps slot : Nat)
    (orders : Nat → List Cell) (buffer : Bytes) (passes : Nat)
    (sized : ∀ pass < passes, (scatterBufs pass).len = 2 * warpSize)
    (spawned : ∀ pass < passes, (orders pass).Perm (helixCells 1))
    (len : buffer.len = warps * warpSize) (fits : slot < warps) (positive : 0 < passes)
    (scoop nonce : Nat) (scoopLt : scoop < numScoops) (nonceLt : nonce < numScoops) :
    (compressPasses scatterBufs slot orders passes buffer).len = warps * warpSize ∧
      slotAt (compressPasses scatterBufs slot orders passes buffer) warps slot scoop nonce =
        ∑ pass ∈ Finset.range passes,
          (scoopAt (scatterBufs pass) (scoopAddress (2 * numScoops) scoop nonce) +
            scoopAt (scatterBufs pass) (scoopAddress (2 * numScoops) nonce (numScoops + scoop))) := by
  induction passes with
  | zero => cases positive
  | succ pass ih =>
    have now := sized pass (Nat.lt_succ_self _)
    have order := spawned pass (Nat.lt_succ_self _)
    rw [Finset.sum_range_succ, compressPasses]
    by_cases first : pass = 0
    · subst first
      rw [if_pos rfl, Finset.range_zero, Finset.sum_empty, zero_add]
      exact ⟨len, helixCompress_slot (scatterBufs 0) buffer warps slot (orders 0) now len fits order
        scoop nonce scoopLt nonceLt⟩
    · obtain ⟨len', before⟩ := ih (fun earlier lt => sized earlier (Nat.lt_succ_of_lt lt))
        (fun earlier lt => spawned earlier (Nat.lt_succ_of_lt lt)) (Nat.pos_of_ne_zero first)
      rw [if_neg first, ← before]
      exact ⟨len', helixCompressXor_slot (scatterBufs pass) _ warps slot (orders pass) now len' fits
        order scoop nonce scoopLt nonceLt⟩

end Pocx.CpuCompressor
