import Mathlib.Data.List.OfFn
import Pocx.Hashlib.Shabal256

set_option autoImplicit false

namespace Pocx.Hashlib

open ByteStore
open PlotFile (scoopSize)

/-- A vector register: `width` lanes of 32-bit words. -/
abbrev Lanes (width : Nat) := Vector UInt32 width

namespace ShabalLanes

open Shabal256

variable {width : Nat}

def set1 (x : UInt32) : Lanes width := Vector.replicate width x

def add (x y : Lanes width) : Lanes width := Vector.zipWith (· + ·) x y

def sub (x y : Lanes width) : Lanes width := Vector.zipWith (· - ·) x y

def xor (x y : Lanes width) : Lanes width := Vector.zipWith (· ^^^ ·) x y

def or (x y : Lanes width) : Lanes width := Vector.zipWith (· ||| ·) x y

/-- `andnot` complements its first operand. -/
def andnot (x y : Lanes width) : Lanes width := Vector.zipWith (fun x y => ~~~ x &&& y) x y

def slli (x : Lanes width) (n : UInt32) : Lanes width := x.map (· <<< n)

def srli (x : Lanes width) (n : UInt32) : Lanes width := x.map (· >>> n)

/-- The locals of the vector hash. All lanes share the counter. -/
structure LaneState (width : Nat) where
  a : Vector (Lanes width) 12
  b : Vector (Lanes width) 16
  c : Vector (Lanes width) 16
  wLow : UInt32
  wHigh : UInt32

def init : LaneState width :=
  ⟨aInit.map set1, bInit.map set1, cInit.map set1, 1, 0⟩

/-- `prepare_message_round1` -/
def prepareMessageRound1 (gensig : U8s 32) (scoops : Bytes) : Vector (Lanes width) 16 :=
  Vector.ofFn fun i => Vector.ofFn fun lane =>
    if i.val < 8 then leWord gensig.get i
    else leWord scoops.byte (lane * 16 + (i - 8))

/-- `prepare_message_termination` -/
def prepareMessageTermination (scoops : Bytes) : Vector (Lanes width) 16 :=
  Vector.ofFn fun i => Vector.ofFn fun lane =>
    if i.val < 8 then leWord scoops.byte (lane * 16 + 8 + i)
    else if i.val = 8 then 0x80
    else 0

/-- `pp128` and its siblings, as the round calls them for the `k`-th time. -/
def pp (message : Vector (Lanes width) 16) (state : LaneState width) (k : Nat) :
    LaneState width :=
  let xa1 := reg state.a (k + 11)
  let rotated := or (slli xa1 15) (srli xa1 17)
  let times5 := add (slli rotated 2) rotated
  let mixed := xor (xor (reg state.a k) times5) (reg state.c (8 + 15 * k))
  let times3 := add (slli mixed 1) mixed
  let tt := xor (xor times3 (reg state.b (k + 13)))
    (xor (andnot (reg state.b (k + 6)) (reg state.b (k + 9))) (reg message k))
  let xb0 := reg state.b k
  { state with
    a := setReg state.a k tt
    b := setReg state.b k (xor (or (slli xb0 1) (srli xb0 31)) (xor tt (set1 0xFFFFFFFF))) }

/-- A round up to its permutation. -/
def enterRound (message : Vector (Lanes width) 16) (state : LaneState width) : LaneState width :=
  { state with
    a := setReg (setReg state.a 0 (xor (reg state.a 0) (set1 state.wLow))) 1
      (xor (reg state.a 1) (set1 state.wHigh))
    b := (Vector.zipWith add state.b message).map fun x => or (slli x 17) (srli x 15) }

/-- The counter behind a round. A termination round takes the increment back. -/
def countRound (isTermination : Bool) (wLow wHigh : UInt32) : UInt32 × UInt32 :=
  let low := wLow + 1
  let high := if low = 0 then wHigh + 1 else wHigh
  if isTermination then (low - 1, if low = 0 then high - 1 else high) else (low, high)

/-- A round behind its permutation. -/
def leaveRound (message : Vector (Lanes width) 16) (isTermination : Bool)
    (state : LaneState width) : LaneState width :=
  let count := countRound isTermination state.wLow state.wHigh
  { a := Vector.ofFn fun i =>
      add (add (add (state.a.get i) (reg state.c (i + 11))) (reg state.c (i + 15)))
        (reg state.c (i + 3))
    b := Vector.zipWith sub state.c message
    c := state.b
    wLow := count.1
    wHigh := count.2 }

/-- `mshabal_quality_round` -/
def mshabalQualityRound (message : Vector (Lanes width) 16) (isTermination : Bool)
    (state : LaneState width) : LaneState width :=
  leaveRound message isTermination
    ((List.range 48).foldl (pp message) (enterRound message state))

/-- The state behind the message round and the four termination rounds. -/
def qualityState (scoops : Bytes) (gensig : U8s 32) : LaneState width :=
  (List.range 4).foldl
    (fun state _ => mshabalQualityRound (prepareMessageTermination scoops) true state)
    (mshabalQualityRound (prepareMessageRound1 gensig scoops) false init)

end ShabalLanes

open Shabal256 ShabalLanes

/-- `shabal256_lite_128` and its siblings: the qualities of `width` scoops. -/
def shabal256LiteLanes (width : Nat) (scoops : Bytes) (gensig : U8s 32) : List UInt64 :=
  let c := (qualityState scoops gensig : LaneState width).c
  List.ofFn fun lane : Fin width =>
    ((reg c 8).get lane).toUInt64 ||| ((reg c 9).get lane).toUInt64 <<< 32

namespace ShabalLanes

variable {width : Nat} (i : Fin width)

@[simp] theorem set1_get (x : UInt32) : (set1 x : Lanes width).get i = x :=
  Vector.getElem_replicate i.isLt

@[simp] theorem add_get (x y : Lanes width) : (add x y).get i = x.get i + y.get i :=
  Vector.getElem_zipWith i.isLt

@[simp] theorem sub_get (x y : Lanes width) : (sub x y).get i = x.get i - y.get i :=
  Vector.getElem_zipWith i.isLt

@[simp] theorem xor_get (x y : Lanes width) : (xor x y).get i = x.get i ^^^ y.get i :=
  Vector.getElem_zipWith i.isLt

@[simp] theorem or_get (x y : Lanes width) : (or x y).get i = x.get i ||| y.get i :=
  Vector.getElem_zipWith i.isLt

@[simp] theorem andnot_get (x y : Lanes width) :
    (andnot x y).get i = ~~~ x.get i &&& y.get i :=
  Vector.getElem_zipWith i.isLt

@[simp] theorem slli_get (x : Lanes width) (n : UInt32) : (slli x n).get i = x.get i <<< n :=
  Vector.getElem_map _ i.isLt

@[simp] theorem srli_get (x : Lanes width) (n : UInt32) : (srli x n).get i = x.get i >>> n :=
  Vector.getElem_map _ i.isLt

/-- What a lane sees of some registers. -/
def laneWords {n : Nat} (words : Vector (Lanes width) n) : Words n := words.map fun x => x.get i

def LaneState.lane (state : LaneState width) : State :=
  ⟨laneWords i state.a, laneWords i state.b, laneWords i state.c, state.wLow, state.wHigh⟩

theorem reg_laneWords {n : Nat} [NeZero n] (words : Vector (Lanes width) n) (k : Nat) :
    reg (laneWords i words) k = (reg words k).get i :=
  Vector.getElem_map _ _

theorem setReg_laneWords {n : Nat} [NeZero n] (words : Vector (Lanes width) n) (k : Nat)
    (value : Lanes width) :
    laneWords i (setReg words k value) = setReg (laneWords i words) k (value.get i) :=
  Vector.map_set

theorem zipWith_laneWords {n : Nat} (op : Lanes width → Lanes width → Lanes width)
    (op' : UInt32 → UInt32 → UInt32) (lanewise : ∀ x y, (op x y).get i = op' (x.get i) (y.get i))
    (x y : Vector (Lanes width) n) :
    laneWords i (Vector.zipWith op x y) = Vector.zipWith op' (laneWords i x) (laneWords i y) := by
  apply Vector.ext
  intro k kLt
  simp only [laneWords, Vector.getElem_map, Vector.getElem_zipWith, lanewise]

theorem map_laneWords {n : Nat} (op : Lanes width → Lanes width) (op' : UInt32 → UInt32)
    (lanewise : ∀ x, (op x).get i = op' (x.get i)) (x : Vector (Lanes width) n) :
    laneWords i (x.map op) = (laneWords i x).map op' := by
  apply Vector.ext
  intro k kLt
  simp only [laneWords, Vector.getElem_map, lanewise]

theorem times5_eq (x : UInt32) : x <<< 2 + x = x * 5 := by
  apply UInt32.toNat_inj.mp
  simp only [UInt32.toNat_add, UInt32.toNat_shiftLeft, UInt32.toNat_mul, UInt32.reduceToNat,
    Nat.shiftLeft_eq, Nat.reduceMod, Nat.reducePow]
  omega

theorem times3_eq (x : UInt32) : x <<< 1 + x = x * 3 := by
  apply UInt32.toNat_inj.mp
  simp only [UInt32.toNat_add, UInt32.toNat_shiftLeft, UInt32.toNat_mul, UInt32.reduceToNat,
    Nat.shiftLeft_eq, Nat.reduceMod, Nat.reducePow]
  omega

theorem xor_ones (x : UInt32) : x ^^^ 0xFFFFFFFF = ~~~ x := UInt32.xor_neg_one

theorem shifts_rotl (n m : UInt32) (whole : 32 - n = m) (x : UInt32) :
    x <<< n ||| x >>> m = rotl x n := by
  rw [rotl, whole]

theorem pp_lane (message : Vector (Lanes width) 16) (state : LaneState width) (k : Nat) :
    (pp message state k).lane i = permElt (laneWords i message) (state.lane i) k := by
  simp only [pp, LaneState.lane, permElt, setReg_laneWords, reg_laneWords, xor_get, or_get,
    add_get, andnot_get, slli_get, srli_get, set1_get, times5_eq, times3_eq, xor_ones,
    shifts_rotl 15 17 rfl, shifts_rotl 1 31 rfl, UInt32.xor_not, UInt32.and_comm (~~~ _), UInt32.xor_assoc]

/-- The calls of `pp` are those of `perm`, lane by lane. -/
theorem foldl_pp_lane (message : Vector (Lanes width) 16) (calls : List Nat)
    (state : LaneState width) :
    (calls.foldl (pp message) state).lane i =
      calls.foldl (permElt (laneWords i message)) (state.lane i) := by
  induction calls generalizing state with
  | nil => rfl
  | cons k calls ih => rw [List.foldl_cons, List.foldl_cons, ih, pp_lane]

theorem enterRound_lane (message : Vector (Lanes width) 16) (state : LaneState width) :
    (enterRound message state).lane i =
      { xorW (inputBlockAdd (laneWords i message) (state.lane i)) with
        b := (inputBlockAdd (laneWords i message) (state.lane i)).b.map fun x => rotl x 17 } := by
  have rotated (words : Vector (Lanes width) 16) :
      laneWords i (words.map fun x => or (slli x 17) (srli x 15)) =
        (laneWords i words).map fun x => rotl x 17 := by
    apply map_laneWords
    intro x
    rw [or_get, slli_get, srli_get, shifts_rotl 17 15 rfl]
  simp only [enterRound, LaneState.lane, xorW, inputBlockAdd, setReg_laneWords, reg_laneWords,
    xor_get, set1_get, rotated, zipWith_laneWords i add _ (add_get i)]

/-- The counter of a lane behind a round. -/
def countW (isTermination : Bool) (state : State) : State :=
  { state with
    wLow := (countRound isTermination state.wLow state.wHigh).1
    wHigh := (countRound isTermination state.wLow state.wHigh).2 }

theorem countW_counts (state : State) : countW false state = incrW state := rfl

theorem countW_restores (state : State) : countW true state = state := by
  have restores : countRound true state.wLow state.wHigh = (state.wLow, state.wHigh) := by
    simp only [countRound, ↓reduceIte]
    split
    · rw [UInt32.add_sub_cancel, UInt32.add_sub_cancel]
    · rw [UInt32.add_sub_cancel]
  rw [countW, restores]

theorem leaveRound_lane (message : Vector (Lanes width) 16) (isTermination : Bool)
    (state : LaneState width) :
    (leaveRound message isTermination state).lane i =
      countW isTermination
        (swapBC (inputBlockSub (laneWords i message) (addC (state.lane i)))) := by
  have sums : laneWords i (leaveRound message isTermination state).a = (addC (state.lane i)).a := by
    apply Vector.ext
    intro k kLt
    have register : (laneWords i state.a).get ⟨k, kLt⟩ = (state.a.get ⟨k, kLt⟩).get i :=
      Vector.getElem_map _ kLt
    rw [laneWords, Vector.getElem_map, leaveRound, Vector.getElem_ofFn, addC, Vector.getElem_ofFn]
    simp only [LaneState.lane, add_get, reg_laneWords, register]
  simp only [LaneState.lane, sums]
  simp only [leaveRound, zipWith_laneWords i sub _ (sub_get i), countW, swapBC, inputBlockSub,
    addC]

/-- A round of one lane. It subtracts the message and swaps, whether it terminates or not. -/
theorem mshabalQualityRound_lane (message : Vector (Lanes width) 16) (isTermination : Bool)
    (state : LaneState width) :
    (mshabalQualityRound message isTermination state).lane i =
      countW isTermination (swapBC (inputBlockSub (laneWords i message)
        (applyP (laneWords i message) (xorW (inputBlockAdd (laneWords i message)
          (state.lane i)))))) := by
  rw [mshabalQualityRound, leaveRound_lane, foldl_pp_lane, enterRound_lane, applyP, perm]
  rfl

/-- Behind another round with the same block, the swap is one of the final rounds. -/
theorem terminationRound_lane (message : Vector (Lanes width) 16) (state : LaneState width)
    (before : State)
    (entered : state.lane i = swapBC (inputBlockSub (laneWords i message) before)) :
    (mshabalQualityRound message true state).lane i =
      swapBC (inputBlockSub (laneWords i message) (finalRound (laneWords i message) before)) := by
  rw [mshabalQualityRound_lane, countW_restores, entered, inputBlockAdd_swapped, finalRound]

/-- A word of a lane's scoop. -/
theorem leWord_scoopAt (scoops : Bytes) (lane word : Nat) (wordLt : word < 16) :
    leWord scoops.byte (lane * 16 + word) =
      leWord (U8s.get (scoopAt scoops (lane * scoopSize)).byte) word := by
  have byte (z : Nat) (zLt : z < 4) :
      U8s.get (scoopAt scoops (lane * scoopSize)).byte (4 * word + z) =
        scoops.byte (4 * (lane * 16 + word) + z) := by
    have small : (4 * word + z) % scoopSize = 4 * word + z :=
      Nat.mod_eq_of_lt (by rw [PlotFile.scoopSize]; omega)
    have address : lane * scoopSize + (4 * word + z) = 4 * (lane * 16 + word) + z := by
      rw [PlotFile.scoopSize]
      omega
    simp only [U8s.get, scoopAt, Fin.val_ofNat, small, address]
  have byte0 := byte 0 (by decide)
  rw [Nat.add_zero, Nat.add_zero] at byte0
  rw [leWord, leWord, byte0, byte 1 (by decide), byte 2 (by decide), byte 3 (by decide)]

theorem message1_lane (gensig : U8s 32) (scoops : Bytes) :
    laneWords i (prepareMessageRound1 gensig scoops) =
      halves (leWord gensig.get) (leWord (U8s.get (scoopAt scoops (i * scoopSize)).byte)) := by
  apply Vector.ext
  intro k kLt
  have entry : (laneWords i (prepareMessageRound1 gensig scoops))[k] =
      if k < 8 then leWord gensig.get k else leWord scoops.byte (i * 16 + (k - 8)) := by
    rw [laneWords, Vector.getElem_map, prepareMessageRound1, Vector.getElem_ofFn]
    exact Vector.getElem_ofFn i.isLt
  rw [entry, halves, Vector.getElem_ofFn, leWord_scoopAt scoops i (k - 8) (by omega)]

theorem message2_lane (scoops : Bytes) :
    laneWords i (prepareMessageTermination scoops) =
      halves (fun k => leWord (U8s.get (scoopAt scoops (i * scoopSize)).byte) (8 + k))
        fun k => if k = 0 then 0x80 else 0 := by
  apply Vector.ext
  intro k kLt
  have entry : (laneWords i (prepareMessageTermination scoops))[k] =
      if k < 8 then leWord scoops.byte (i * 16 + 8 + k) else if k = 8 then 0x80 else 0 := by
    rw [laneWords, Vector.getElem_map, prepareMessageTermination, Vector.getElem_ofFn]
    exact Vector.getElem_ofFn i.isLt
  rw [entry, halves, Vector.getElem_ofFn]
  by_cases low : k < 8
  · rw [if_pos low, if_pos low, Nat.add_assoc, leWord_scoopAt scoops i (8 + k) (by omega)]
  · have first : k = 8 ↔ k - 8 = 0 := by omega
    simp only [if_neg low, first]

theorem init_lane : (init : LaneState width).lane i = Shabal256.init := by
  have constant {n : Nat} (words : Words n) :
      laneWords i (words.map (set1 : UInt32 → Lanes width)) = words := by
    apply Vector.ext
    intro k kLt
    rw [laneWords, Vector.getElem_map, Vector.getElem_map, set1_get]
  simp only [LaneState.lane, init, constant, Shabal256.init]

/-- A lane closes as the scalar hash of its scoop does, up to a last subtraction and swap. -/
theorem qualityState_lane (scoops : Bytes) (gensig : U8s 32) :
    (qualityState scoops gensig : LaneState width).lane i =
      swapBC (inputBlockSub (laneWords i (prepareMessageTermination scoops))
        (close (laneWords i (prepareMessageTermination scoops))
          (absorb (laneWords i (prepareMessageRound1 gensig scoops)) Shabal256.init))) := by
  have absorbed := mshabalQualityRound_lane i (prepareMessageRound1 gensig scoops) false init
  rw [countW_counts, init_lane] at absorbed
  have first := mshabalQualityRound_lane i (prepareMessageTermination scoops) true
    (mshabalQualityRound (prepareMessageRound1 gensig scoops) false init)
  rw [countW_restores, absorbed] at first
  exact terminationRound_lane i _ _ _ (terminationRound_lane i _ _ _
    (terminationRound_lane i _ _ _ first))

theorem quality_lane (c : Vector (Lanes width) 16) :
    ((reg c 8).get i).toUInt64 ||| ((reg c 9).get i).toUInt64 <<< 32 =
      qualityOf (laneWords i c) := by
  rw [qualityOf, reg_laneWords, reg_laneWords, UInt64.or_comm]

theorem lane_c (state : LaneState width) : (state.lane i).c = laneWords i state.c := rfl

theorem swapped_c (data : Words 16) (state : State) :
    (swapBC (inputBlockSub data state)).c = state.b := rfl

theorem qualityState_c (scoops : Bytes) (gensig : U8s 32) :
    laneWords i (qualityState scoops gensig : LaneState width).c =
      (close (laneWords i (prepareMessageTermination scoops))
        (absorb (laneWords i (prepareMessageRound1 gensig scoops)) Shabal256.init)).b := by
  rw [← lane_c, qualityState_lane, swapped_c]

/-- The registers of a lane hold the quality of its scoop. -/
theorem lane_quality (scoops : Bytes) (gensig : U8s 32) :
    qualityOf (laneWords i (qualityState scoops gensig : LaneState width).c) =
      shabal256Lite (scoopAt scoops (i * scoopSize)) gensig := by
  rw [qualityState_c, message1_lane, message2_lane, shabal256Lite]

end ShabalLanes

theorem shabal256LiteLanes_eq (width : Nat) (scoops : Bytes) (gensig : U8s 32) :
    shabal256LiteLanes width scoops gensig =
      (List.range width).map fun lane =>
        shabal256Lite (scoopAt scoops (lane * scoopSize)) gensig := by
  apply List.ext_getElem
  · rw [shabal256LiteLanes, List.length_ofFn, List.length_map, List.length_range]
  · intro lane inside inside'
    rw [List.length_map, List.length_range] at inside'
    simp only [shabal256LiteLanes, List.getElem_ofFn, List.getElem_map, List.getElem_range]
    rw [quality_lane, lane_quality]

end Pocx.Hashlib
