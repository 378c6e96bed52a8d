import Pocx.Plotter.CpuCompressor
import Pocx.Plotter.GpuRing

set_option autoImplicit false

namespace Pocx.GpuCompressor

open ByteStore
open PlotFile (scoopSize numScoops nonceSize warpSize)
open Hashlib
open GpuRing
open CpuCompressor

/-- One turn of the inner loops: work-item `nonce_x`, `scoop_y`, whether it is the second of the
two loops, and `w`. -/
abbrev Turn := Nat × Nat × Bool × Nat

/-- All turns of a launch with `globalSize` work-items. -/
def turnsOf (globalSize : Nat) : List Turn :=
  List.range globalSize ×ˢ List.range 4096 ×ˢ [false, true] ×ˢ List.range 8

/-- The word of the output that a turn writes. -/
def outIdx (turn : Turn) : Nat :=
  let (nonceX, scoopY, second, w) := turn
  scoopY * 4096 * 16 + nonceX * 16 + (if second then 8 + w else w)

/-- What a turn reads. `read` finds a word of a nonce of the ring. -/
def pairWord (read : Nat → Nat → Nat → UInt32) (ringSize compressStart : Nat) (turn : Turn) :
    UInt32 :=
  let (nonceX, scoopY, second, w) := turn
  let rnx := (compressStart + nonceX) % ringSize
  let rny := (compressStart + 4096 + scoopY) % ringSize
  let hY := if second then 8191 - 2 * scoopY else 2 * scoopY
  let hX := if second then 8191 - 2 * nonceX else 2 * nonceX
  read rnx hY w ^^^ read rny hX w

/-- The loops that both kernels share. The work-items run in any order. -/
def fused (read : Nat → Nat → Nat → UInt32) (output : Memory) (ringSize compressStart : Nat)
    (accumulate : Bool) (order : List Turn) : Memory :=
  Scatter.run (fun turn => decide (turn.1 < 4096)) outIdx
    (fun turn old =>
      if accumulate then old ^^^ pairWord read ringSize compressStart turn
      else pairWord read ringSize compressStart turn)
    output order

/-- `fused_scatter_compress` -/
def fusedScatterCompress (ringBuffer : Memory) : Memory → Nat → Nat → Bool → List Turn → Memory :=
  fused fun nonce hash w => ringBuffer (address nonce hash w)

/-- `resolve_split_buf` -/
def resolveSplitBuf (buf0 buf1 buf2 buf3 : Memory) (nonce noncesPerSub : Nat) : Memory :=
  let sub := nonce / noncesPerSub
  if sub = 0 then buf0 else if sub = 1 then buf1 else if sub = 2 then buf2 else buf3

/-- `fused_scatter_compress_split` -/
def fusedScatterCompressSplit (buf0 buf1 buf2 buf3 : Memory) (noncesPerSub : Nat) :
    Memory → Nat → Nat → Bool → List Turn → Memory :=
  fused fun nonce hash w =>
    resolveSplitBuf buf0 buf1 buf2 buf3 nonce noncesPerSub (address (nonce % noncesPerSub) hash w)

/-- The sub-buffers hold the nonces of the ring, one behind the other. -/
def SplitOf (ringBuffer buf0 buf1 buf2 buf3 : Memory) (noncesPerSub splits : Nat) : Prop :=
  ∀ sub < splits, ∀ place < noncesPerSub * (8192 * 8),
    resolveSplitBuf buf0 buf1 buf2 buf3 (sub * noncesPerSub) noncesPerSub place =
      ringBuffer (sub * (noncesPerSub * (8192 * 8)) + place)

/-- `helix_compress`, and `helix_compress_xor` where it accumulates. -/
def cpuCompress (accumulate : Bool) : Bytes → Bytes → Nat → List Cell → Bytes :=
  if accumulate then helixCompressXor else helixCompress

theorem mem_turnsOf {globalSize nonceX scoopY w : Nat} {second : Bool} :
    (nonceX, scoopY, second, w) ∈ turnsOf globalSize ↔
      nonceX < globalSize ∧ scoopY < 4096 ∧ w < 8 := by
  simp only [turnsOf, List.mem_product, List.mem_range, List.mem_cons, List.not_mem_nil, or_false,
    Bool.eq_false_or_eq_true_self, true_and]

theorem turnsOf_nodup (globalSize : Nat) : (turnsOf globalSize).Nodup :=
  List.nodup_range.product (List.nodup_range.product
    (List.Nodup.product (by decide) List.nodup_range))

/-- The turns of different places write different words. -/
theorem outIdx_injective {turn turn' : Turn} (inside : turn.1 < 4096) (inside' : turn'.1 < 4096)
    (word : turn.2.2.2 < 8) (word' : turn'.2.2.2 < 8) (same : outIdx turn = outIdx turn') :
    turn = turn' := by
  obtain ⟨x, y, second, w⟩ := turn
  obtain ⟨x', y', second', w'⟩ := turn'
  simp only [outIdx] at *
  cases second <;> cases second' <;> simp only [Bool.false_eq_true, ↓reduceIte] at same
  · obtain ⟨rfl, rfl, rfl⟩ : x = x' ∧ y = y' ∧ w = w' := by omega
    rfl
  · omega
  · omega
  · obtain ⟨rfl, rfl, rfl⟩ : x = x' ∧ y = y' ∧ w = w' := by omega
    rfl

section kernel

variable (read : Nat → Nat → Nat → UInt32) (output : Memory) (ringSize compressStart : Nat)
  (accumulate : Bool) {globalSize : Nat} {order : List Turn}
  (items : 4096 ≤ globalSize) (spawned : order.Perm (turnsOf globalSize))
include items spawned

/-- Every word of the output is written by its turn, and by no other one. -/
theorem fused_word {x y w : Nat} (second : Bool) (xLt : x < 4096) (yLt : y < 4096) (wLt : w < 8) :
    fused read output ringSize compressStart accumulate order (outIdx (x, y, second, w)) =
      if accumulate then output (outIdx (x, y, second, w)) ^^^
        pairWord read ringSize compressStart (x, y, second, w)
      else pairWord read ringSize compressStart (x, y, second, w) := by
  have listed : (x, y, second, w) ∈ order.filter fun turn => decide (turn.1 < 4096) := by
    rw [List.mem_filter, spawned.mem_iff, mem_turnsOf]
    exact ⟨⟨by omega, yLt, wLt⟩, decide_eq_true xLt⟩
  have distinct : ((order.filter fun turn => decide (turn.1 < 4096)).map outIdx).Nodup := by
    apply List.Nodup.map_on _ ((spawned.nodup_iff.mpr (turnsOf_nodup globalSize)).filter _)
    intro turn member turn' member' same
    rw [List.mem_filter, spawned.mem_iff] at member member'
    exact outIdx_injective (of_decide_eq_true member.2) (of_decide_eq_true member'.2)
      (mem_turnsOf.mp member.1).2.2 (mem_turnsOf.mp member'.1).2.2 same
  unfold fused
  rw [Scatter.run_filter]
  exact Scatter.run_inside _ _ _ _ _ distinct _ listed (decide_eq_true xLt)

/-- The scoop `y` of the nonce `x` that is put out. -/
theorem fused_scoop {x y : Nat} (xLt : x < 4096) (yLt : y < 4096) (z : Fin scoopSize) :
    (memoryBytes warpSize (fused read output ringSize compressStart accumulate order)).byte
        (scoopAddress numScoops y x + z) =
      if accumulate then (memoryBytes warpSize output).byte (scoopAddress numScoops y x + z) ^^^
        wordByte (pairWord read ringSize compressStart (x, y, decide (32 ≤ z.val), z % 32 / 4))
          (z % 4)
      else
        wordByte (pairWord read ringSize compressStart (x, y, decide (32 ≤ z.val), z % 32 / 4))
          (z % 4) := by
  have zLt : z.val < 64 := z.isLt
  have word : (scoopAddress numScoops y x + z) / 4 =
      outIdx (x, y, decide (32 ≤ z.val), z % 32 / 4) := by
    simp only [scoopAddress, numScoops, scoopSize, outIdx, decide_eq_true_eq]
    split
    · omega
    · omega
  have offset : (scoopAddress numScoops y x + z) % 4 = z % 4 := by
    simp only [scoopAddress, numScoops, scoopSize]
    omega
  simp only [memoryBytes, word, offset]
  rw [fused_word read output ringSize compressStart accumulate items spawned _ xLt yLt (by omega)]
  cases accumulate with
  | false => rfl
  | true =>
    simp only [↓reduceIte]
    exact wordByte_xor _ _ _

end kernel

/-- What two nonces of the ring put together, as their scoops. -/
theorem pairWord_byte (ringBuffer : Memory) (ringSize compressStart x y : Nat)
    (z : Fin scoopSize) :
    wordByte
        (pairWord (fun nonce hash w => ringBuffer (address nonce hash w)) ringSize compressStart
          (x, y, decide (32 ≤ z.val), z % 32 / 4)) (z % 4) =
      (ringScoop ringBuffer ((compressStart + x) % ringSize) y +
        ringScoop ringBuffer ((compressStart + (4096 + y)) % ringSize) x).byte z := by
  rw [add_byte, pairWord, wordByte_xor, Nat.add_assoc]
  by_cases first : z.val < 32
  · have second : ¬ 32 ≤ z.val := Nat.not_le.mpr first
    simp only [ringScoop, first, second, decide_false, Bool.false_eq_true, ↓reduceIte]
  · have second : 32 ≤ z.val := Nat.not_lt.mp first
    simp only [ringScoop, first, second, decide_true, ↓reduceIte]

/-- A buffer of one warp has one slot. -/
theorem only_slot (bytes : Bytes) (scoop nonce : Nat) (z : Fin scoopSize) :
    (slotAt bytes 1 0 scoop nonce).byte z =
      bytes.byte (scoopAddress numScoops scoop nonce + z) := by
  rw [slotAt, Nat.one_mul, Nat.zero_mul, Nat.zero_add]
  rfl

/-- A buffer of one warp is made up of its scoops. -/
theorem warp_ext {bytes bytes' : Bytes}
    (scoops : ∀ y < numScoops, ∀ x < numScoops, slotAt bytes 1 0 y x = slotAt bytes' 1 0 y x)
    {place : Nat} (placeLt : place < warpSize) : bytes.byte place = bytes'.byte place := by
  have size : warpSize = 4096 * (4096 * 64) := by decide
  rw [size] at placeLt
  have yLt : place / (4096 * 64) < numScoops := by
    simp only [numScoops]
    omega
  have xLt : place / 64 % 4096 < numScoops := Nat.mod_lt _ (by decide)
  have zLt : place % 64 < scoopSize := Nat.mod_lt _ (by decide)
  have here : place =
      scoopAddress numScoops (place / (4096 * 64)) (place / 64 % 4096) + place % 64 := by
    simp only [scoopAddress, numScoops, scoopSize]
    omega
  have byte := congrArg (fun scoop => scoop.byte ⟨place % 64, zLt⟩) (scoops _ yLt _ xLt)
  simp only [only_slot] at byte
  rw [← here] at byte
  exact byte

section compressed

variable (ringBuffer output : Memory) (ringSize compressStart : Nat) (accumulate : Bool)
  {globalSize : Nat} {order : List Turn}

/-- What the kernel leaves in the output. -/
theorem fusedScatterCompress_slot (items : 4096 ≤ globalSize)
    (spawned : order.Perm (turnsOf globalSize)) {x y : Nat} (xLt : x < numScoops)
    (yLt : y < numScoops) :
    slotAt (memoryBytes warpSize
        (fusedScatterCompress ringBuffer output ringSize compressStart accumulate order)) 1 0 y x =
      (if accumulate then slotAt (memoryBytes warpSize output) 1 0 y x else 0) +
        (ringScoop ringBuffer ((compressStart + x) % ringSize) y +
          ringScoop ringBuffer ((compressStart + (4096 + y)) % ringSize) x) := by
  apply Scoop.ext
  funext z
  have here := fused_scoop (fun nonce hash w => ringBuffer (address nonce hash w)) output ringSize
    compressStart accumulate items spawned xLt yLt z
  rw [pairWord_byte, ← only_slot, ← only_slot] at here
  rw [fusedScatterCompress, here, add_byte]
  cases accumulate with
  | false => exact UInt8.zero_xor.symm
  | true => rfl

/-- The CPU leaves the same. -/
theorem cpuCompress_slot (cache : Bytes) {width count : Nat} {cpuOrder : List Cell}
    (whole : count * width = 2 * numScoops) (cacheLen : cache.len = 2 * warpSize)
    (spawned : cpuOrder.Perm (helixCells 1)) {x y : Nat} (xLt : x < numScoops)
    (yLt : y < numScoops) :
    slotAt (cpuCompress accumulate
        (scatterRing ringBuffer ringSize compressStart width cache count)
        (memoryBytes warpSize output) 0 cpuOrder) 1 0 y x =
      (if accumulate then slotAt (memoryBytes warpSize output) 1 0 y x else 0) +
        (ringScoop ringBuffer ((compressStart + x) % ringSize) y +
          ringScoop ringBuffer ((compressStart + (4096 + y)) % ringSize) x) := by
  have columns : cache.len / nonceSize = 2 * numScoops := by
    rw [cacheLen]
    decide
  have sourceLen := (scatterRing_len ringBuffer ringSize compressStart width cache count).trans
    cacheLen
  have targetLen : (memoryBytes warpSize output).len = 1 * warpSize := (Nat.one_mul _).symm
  have straight := scatterRing_scoop ringBuffer ringSize compressStart width cache count y x
    (by rw [whole, columns]) yLt (by omega)
  have mirrored := scatterRing_scoop ringBuffer ringSize compressStart width cache count x
    (numScoops + y) (by rw [whole, columns]) xLt (by omega)
  rw [columns] at straight mirrored
  cases accumulate with
  | false =>
    have slot := helixCompress_slot _ _ 1 0 cpuOrder sourceLen targetLen Nat.one_pos spawned y x
      yLt xLt
    rw [straight, mirrored] at slot
    rw [if_neg Bool.false_ne_true, zero_add]
    exact slot
  | true =>
    have slot := helixCompressXor_slot _ _ 1 0 cpuOrder sourceLen targetLen Nat.one_pos spawned y x
      yLt xLt
    rw [straight, mirrored] at slot
    rw [if_pos rfl]
    exact slot

end compressed

section split

variable {ringBuffer buf0 buf1 buf2 buf3 : Memory} {noncesPerSub splits : Nat}

theorem address_lt {nonce hash w size : Nat} (nonceLt : nonce < size) (blocks : 16 ∣ size)
    (hashLt : hash < 8192) (wLt : w < 8) : address nonce hash w < size * (8192 * 8) := by
  obtain ⟨count, rfl⟩ := blocks
  rw [address_eq]
  omega

/-- Whole blocks of sixteen go from one sub-buffer to the next. -/
theorem address_split (nonce hash w : Nat) (blocks : 16 ∣ noncesPerSub) :
    address nonce hash w = nonce / noncesPerSub * (noncesPerSub * (8192 * 8)) +
      address (nonce % noncesPerSub) hash w := by
  obtain ⟨count, rfl⟩ := blocks
  have parts := Nat.div_add_mod nonce (16 * count)
  generalize nonce / (16 * count) = sub at parts ⊢
  generalize nonce % (16 * count) = rest at parts ⊢
  have block : nonce / 16 = count * sub + rest / 16 := by
    rw [Nat.mul_assoc] at parts
    omega
  have lane : nonce % 16 = rest % 16 := by
    rw [Nat.mul_assoc] at parts
    omega
  have before : sub * (16 * count * (8192 * 8)) = count * sub * (16 * 8192 * 8) := by
    rw [Nat.mul_comm 16 count, Nat.mul_assoc, ← Nat.mul_assoc sub, Nat.mul_comm sub]
  rw [address_eq, address_eq, block, lane, before]
  omega

/-- A nonce of the ring is found in its sub-buffer. -/
theorem resolveSplitBuf_read (parts : SplitOf ringBuffer buf0 buf1 buf2 buf3 noncesPerSub splits)
    (blocks : 16 ∣ noncesPerSub) {nonce hash w : Nat} (nonceLt : nonce < noncesPerSub * splits)
    (hashLt : hash < 8192) (wLt : w < 8) :
    resolveSplitBuf buf0 buf1 buf2 buf3 nonce noncesPerSub
        (address (nonce % noncesPerSub) hash w) =
      ringBuffer (address nonce hash w) := by
  have positive : 0 < noncesPerSub := Nat.pos_of_mul_pos_right (Nat.zero_lt_of_lt nonceLt)
  have subLt : nonce / noncesPerSub < splits := Nat.div_lt_of_lt_mul nonceLt
  have placeLt := address_lt (Nat.mod_lt nonce positive) blocks hashLt wLt
  have here := parts _ subLt _ placeLt
  rw [← address_split nonce hash w blocks] at here
  rw [← here]
  simp only [resolveSplitBuf, Nat.mul_div_cancel _ positive]

theorem pairWord_congr {read read' : Nat → Nat → Nat → UInt32} {ringSize compressStart : Nat}
    (positive : 0 < ringSize)
    (same : ∀ nonce < ringSize, ∀ hash < 8192, ∀ w < 8, read nonce hash w = read' nonce hash w)
    {x y w : Nat} (second : Bool) (xLt : x < 4096) (yLt : y < 4096) (wLt : w < 8) :
    pairWord read ringSize compressStart (x, y, second, w) =
      pairWord read' ringSize compressStart (x, y, second, w) := by
  have straight := same ((compressStart + x) % ringSize) (Nat.mod_lt _ positive)
  have mirrored := same ((compressStart + 4096 + y) % ringSize) (Nat.mod_lt _ positive)
  cases second with
  | false =>
    simp only [pairWord, Bool.false_eq_true, ↓reduceIte]
    rw [straight (2 * y) (by omega) w wLt, mirrored (2 * x) (by omega) w wLt]
  | true =>
    simp only [pairWord, ↓reduceIte]
    rw [straight (8191 - 2 * y) (by omega) w wLt, mirrored (8191 - 2 * x) (by omega) w wLt]

/-- The split ring is compressed like the ring in one piece. -/
theorem fusedScatterCompressSplit_eq (output : Memory) {ringSize : Nat} (compressStart : Nat)
    (accumulate : Bool) {globalSize : Nat} {order : List Turn}
    (spawned : order.Perm (turnsOf globalSize)) (positive : 0 < ringSize)
    (blocks : 16 ∣ noncesPerSub) (covers : ringSize ≤ noncesPerSub * splits)
    (parts : SplitOf ringBuffer buf0 buf1 buf2 buf3 noncesPerSub splits) :
    fusedScatterCompressSplit buf0 buf1 buf2 buf3 noncesPerSub output ringSize compressStart
        accumulate order =
      fusedScatterCompress ringBuffer output ringSize compressStart accumulate order := by
  unfold fusedScatterCompressSplit fusedScatterCompress fused
  apply Scatter.run_congr
  intro turn listed inside
  obtain ⟨x, y, second, w⟩ := turn
  obtain ⟨-, yLt, wLt⟩ := mem_turnsOf.mp (spawned.mem_iff.mp listed)
  have pair := @pairWord_congr _ _ ringSize compressStart positive
    (fun nonce nonceLt hash hashLt w wLt =>
      resolveSplitBuf_read parts blocks (Nat.lt_of_lt_of_le nonceLt covers) hashLt wLt)
    x y w second (of_decide_eq_true inside) yLt wLt
  funext old
  rw [pair]

end split

/-- The kernels leave what scattering the nonces and compressing them on the CPU leaves. -/
theorem fused_as_cpu (ringBuffer output : Memory) (ringSize compressStart : Nat)
    (accumulate : Bool) (globalSize : Nat) (order : List Turn) (cache : Bytes)
    (width count : Nat) (cpuOrder : List Cell) (buf0 buf1 buf2 buf3 : Memory)
    (noncesPerSub splits : Nat) (positive : 0 < ringSize) (items : 4096 ≤ globalSize)
    (spawned : order.Perm (turnsOf globalSize)) (whole : count * width = 2 * numScoops)
    (cacheLen : cache.len = 2 * warpSize) (cpuSpawned : cpuOrder.Perm (helixCells 1))
    (blocks : 16 ∣ noncesPerSub) (covers : ringSize ≤ noncesPerSub * splits)
    (parts : SplitOf ringBuffer buf0 buf1 buf2 buf3 noncesPerSub splits) :
    (∀ place < warpSize,
      (memoryBytes warpSize
          (fusedScatterCompress ringBuffer output ringSize compressStart accumulate order)).byte
          place =
        (cpuCompress accumulate
          (scatterRing ringBuffer ringSize compressStart width cache count)
          (memoryBytes warpSize output) 0 cpuOrder).byte place) ∧
      fusedScatterCompressSplit buf0 buf1 buf2 buf3 noncesPerSub output ringSize compressStart
          accumulate order =
        fusedScatterCompress ringBuffer output ringSize compressStart accumulate order := by
  constructor
  · intro place placeLt
    apply warp_ext _ placeLt
    intro y yLt x xLt
    rw [fusedScatterCompress_slot ringBuffer output ringSize compressStart accumulate items spawned
        xLt yLt,
      cpuCompress_slot ringBuffer output ringSize compressStart accumulate cache whole cacheLen
        cpuSpawned xLt yLt]
  · exact fusedScatterCompressSplit_eq output compressStart accumulate spawned positive blocks
      covers parts

/-- A ring of three sub-buffers, read from a place that is not at the start of a block. -/
theorem third_sub_buffer_read :
    (memoryBytes warpSize
        (fusedScatterCompress (fun place => UInt32.ofNat place) (fun _ => 5) 8208 8200 true
          (turnsOf 4096))).byte 7 =
        (cpuCompress true
          (scatterRing (fun place => UInt32.ofNat place) 8208 8200 16 ⟨2 * warpSize, fun _ => 9⟩ 512)
          (memoryBytes warpSize fun _ => 5) 0 (helixCells 1)).byte 7 ∧
      fusedScatterCompressSplit (fun place => UInt32.ofNat place)
          (fun place => UInt32.ofNat (2736 * (8192 * 8) + place))
          (fun place => UInt32.ofNat (2 * (2736 * (8192 * 8)) + place)) (fun _ => 0) 2736
          (fun _ => 5) 8208 8200 true (turnsOf 4096) =
        fusedScatterCompress (fun place => UInt32.ofNat place) (fun _ => 5) 8208 8200 true
          (turnsOf 4096) := by
  have parts : SplitOf (fun place => UInt32.ofNat place) (fun place => UInt32.ofNat place)
      (fun place => UInt32.ofNat (2736 * (8192 * 8) + place))
      (fun place => UInt32.ofNat (2 * (2736 * (8192 * 8)) + place)) (fun _ => 0) 2736 3 := by
    intro sub subLt place placeLt
    obtain rfl | rfl | rfl : sub = 0 ∨ sub = 1 ∨ sub = 2 := by omega
    · simp only [resolveSplitBuf, Nat.zero_mul, Nat.zero_div, Nat.zero_add, ↓reduceIte]
    · simp only [resolveSplitBuf, Nat.one_mul]
      rfl
    · rfl
  have both := fused_as_cpu (fun place => UInt32.ofNat place) (fun _ => 5) 8208 8200 true 4096
    (turnsOf 4096) ⟨2 * warpSize, fun _ => 9⟩ 16 512 (helixCells 1) _ _ _ _ 2736 3 (by decide)
    (Nat.le_refl 4096) (List.Perm.refl _) (by decide) rfl (List.Perm.refl _) (by decide)
    (by decide) parts
  exact ⟨both.1 7 (by decide), both.2⟩

end Pocx.GpuCompressor
