import Pocx.Hashlib.ShabalLanes

set_option autoImplicit false

namespace Pocx.Hashlib

open ByteStore
open PlotFile (scoopSize)
open Shabal256 (leWord reg setReg rotl permElt)

namespace ShabalVector

open ShabalLanes

variable {width : Nat}

/-- The register indices that one call of a permutation step is written out with. -/
structure PermCall where
  xa0 : Nat
  xa1 : Nat
  xb0 : Nat
  xb1 : Nat
  xb2 : Nat
  xb3 : Nat
  xc : Nat
  xm : Nat

/-- The 48 calls of `perm_elt` in `apply_p`, those of `pp256`, and those of `pp_neon`. -/
def permCalls : List PermCall :=
  [⟨0, 11, 0, 13, 9, 6, 8, 0⟩, ⟨1, 0, 1, 14, 10, 7, 7, 1⟩, ⟨2, 1, 2, 15, 11, 8, 6, 2⟩, ⟨3, 2, 3, 0, 12, 9, 5, 3⟩,
    ⟨4, 3, 4, 1, 13, 10, 4, 4⟩, ⟨5, 4, 5, 2, 14, 11, 3, 5⟩, ⟨6, 5, 6, 3, 15, 12, 2, 6⟩, ⟨7, 6, 7, 4, 0, 13, 1, 7⟩,
    ⟨8, 7, 8, 5, 1, 14, 0, 8⟩, ⟨9, 8, 9, 6, 2, 15, 15, 9⟩, ⟨10, 9, 10, 7, 3, 0, 14, 10⟩, ⟨11, 10, 11, 8, 4, 1, 13, 11⟩,
    ⟨0, 11, 12, 9, 5, 2, 12, 12⟩, ⟨1, 0, 13, 10, 6, 3, 11, 13⟩, ⟨2, 1, 14, 11, 7, 4, 10, 14⟩, ⟨3, 2, 15, 12, 8, 5, 9, 15⟩,
    ⟨4, 3, 0, 13, 9, 6, 8, 0⟩, ⟨5, 4, 1, 14, 10, 7, 7, 1⟩, ⟨6, 5, 2, 15, 11, 8, 6, 2⟩, ⟨7, 6, 3, 0, 12, 9, 5, 3⟩,
    ⟨8, 7, 4, 1, 13, 10, 4, 4⟩, ⟨9, 8, 5, 2, 14, 11, 3, 5⟩, ⟨10, 9, 6, 3, 15, 12, 2, 6⟩, ⟨11, 10, 7, 4, 0, 13, 1, 7⟩,
    ⟨0, 11, 8, 5, 1, 14, 0, 8⟩, ⟨1, 0, 9, 6, 2, 15, 15, 9⟩, ⟨2, 1, 10, 7, 3, 0, 14, 10⟩, ⟨3, 2, 11, 8, 4, 1, 13, 11⟩,
    ⟨4, 3, 12, 9, 5, 2, 12, 12⟩, ⟨5, 4, 13, 10, 6, 3, 11, 13⟩, ⟨6, 5, 14, 11, 7, 4, 10, 14⟩, ⟨7, 6, 15, 12, 8, 5, 9, 15⟩,
    ⟨8, 7, 0, 13, 9, 6, 8, 0⟩, ⟨9, 8, 1, 14, 10, 7, 7, 1⟩, ⟨10, 9, 2, 15, 11, 8, 6, 2⟩, ⟨11, 10, 3, 0, 12, 9, 5, 3⟩,
    ⟨0, 11, 4, 1, 13, 10, 4, 4⟩, ⟨1, 0, 5, 2, 14, 11, 3, 5⟩, ⟨2, 1, 6, 3, 15, 12, 2, 6⟩, ⟨3, 2, 7, 4, 0, 13, 1, 7⟩,
    ⟨4, 3, 8, 5, 1, 14, 0, 8⟩, ⟨5, 4, 9, 6, 2, 15, 15, 9⟩, ⟨6, 5, 10, 7, 3, 0, 14, 10⟩, ⟨7, 6, 11, 8, 4, 1, 13, 11⟩,
    ⟨8, 7, 12, 9, 5, 2, 12, 12⟩, ⟨9, 8, 13, 10, 6, 3, 11, 13⟩, ⟨10, 9, 14, 11, 7, 4, 10, 14⟩, ⟨11, 10, 15, 12, 8, 5, 9, 15⟩]

/-- `perm_elt`, and `pp256` of the quality hash. -/
def permElt256 (message : Vector (Lanes width) 16) (state : LaneState width) (call : PermCall) :
    LaneState width :=
  let rotated := or (slli (reg state.a call.xa1) 15) (srli (reg state.a call.xa1) 17)
  let times5 := add (slli rotated 2) rotated
  let mixed := xor (xor (reg state.a call.xa0) times5) (reg state.c call.xc)
  let times3 := add (slli mixed 1) mixed
  let tt := xor (xor times3 (reg state.b call.xb1))
    (xor (andnot (reg state.b call.xb3) (reg state.b call.xb2)) (reg message call.xm))
  let turned := or (slli (reg state.b call.xb0) 1) (srli (reg state.b call.xb0) 31)
  { state with
    a := setReg state.a call.xa0 tt
    b := setReg state.b call.xb0 (xor turned (xor tt (set1 0xFFFFFFFF))) }

/-- `vbicq_u32` complements its second operand. -/
def bic (x y : Lanes width) : Lanes width := Vector.zipWith (fun x y => x &&& ~~~ y) x y

/-- `vrotlq_n_u32!` -/
def vrotl (x : Lanes width) (n : UInt32) : Lanes width := or (slli x n) (srli x (32 - n))

/-- `pp_neon` -/
def ppNeon (message : Vector (Lanes width) 16) (state : LaneState width) (call : PermCall) :
    LaneState width :=
  let rotated := vrotl (reg state.a call.xa1) 15
  let times5 := add (slli rotated 2) rotated
  let mixed := xor (xor (reg state.a call.xa0) times5) (reg state.c call.xc)
  let times3 := add (slli mixed 1) mixed
  let tt := xor (xor times3 (reg state.b call.xb1))
    (xor (bic (reg state.b call.xb2) (reg state.b call.xb3)) (reg message call.xm))
  { state with
    a := setReg state.a call.xa0 tt
    b := setReg state.b call.xb0
      (xor (vrotl (reg state.b call.xb0) 1) (xor tt (set1 0xFFFFFFFF))) }

section Shabal

/-- Vector `index` of words in memory. -/
def loadWords (word : Nat → UInt32) (index : Nat) : Lanes width :=
  Vector.ofFn fun lane => word (index * width + lane)

/-- The sixteen vectors of a block, from vector `ptr` on. -/
def loadBlock (word : Nat → UInt32) (ptr : Nat) : Vector (Lanes width) 16 :=
  Vector.ofFn fun i => loadWords word (ptr + i)

def addBlock (message : Vector (Lanes width) 16) (state : LaneState width) : LaneState width :=
  { state with b := Vector.zipWith add state.b message }

def subBlock (message : Vector (Lanes width) 16) (state : LaneState width) : LaneState width :=
  { state with c := Vector.zipWith sub state.c message }

def xorCounter (state : LaneState width) : LaneState width :=
  { state with
    a := setReg (setReg state.a 0 (xor (reg state.a 0) (set1 state.wLow))) 1
      (xor (reg state.a 1) (set1 state.wHigh)) }

/-- `apply_p` -/
def applyP (message : Vector (Lanes width) 16) (state : LaneState width) : LaneState width :=
  let permuted := permCalls.foldl (permElt256 message)
    { state with b := state.b.map fun x => or (slli x 17) (srli x 15) }
  { permuted with
    a := Vector.ofFn fun i =>
      add (add (add (permuted.a.get i) (reg permuted.c (i + 11))) (reg permuted.c (i + 15)))
        (reg permuted.c (i + 3)) }

def swapBC (state : LaneState width) : LaneState width :=
  { state with
    b := state.c
    c := state.b }

def incrCounter (state : LaneState width) : LaneState width :=
  { state with
    wLow := state.wLow + 1
    wHigh := if state.wLow + 1 = 0 then state.wHigh + 1 else state.wHigh }

/-- A block that is not the last one. -/
def absorb (message : Vector (Lanes width) 16) (state : LaneState width) : LaneState width :=
  incrCounter (swapBC (subBlock message (applyP message (xorCounter (addBlock message state)))))

/-- One of the three rounds behind the last block. -/
def finalRound (message : Vector (Lanes width) 16) (state : LaneState width) : LaneState width :=
  applyP message (xorCounter (swapBC state))

/-- The last block. -/
def close (message : Vector (Lanes width) 16) (state : LaneState width) : LaneState width :=
  finalRound message (finalRound message (finalRound message
    (applyP message (xorCounter (addBlock message state)))))

/-- `shabal256_256`, of `width = 8` lanes: the eight vectors that it stores. -/
def shabal256Vector (data : Bytes) (preTerm : Option (Words (16 * width)))
    (term : Words (16 * width)) : Vector (Lanes width) 8 :=
  let absorbed := (List.range (data.len / width / 64)).foldl
    (fun state block => absorb (loadBlock (leWord data.byte) (16 * block)) state) init
  let state :=
    match preTerm with
    | some block => absorb (loadBlock (fun i => block.toArray.getD i 0) 0) absorbed
    | none => absorbed
  let closed := close (loadBlock (fun i => term.toArray.getD i 0) 0) state
  Vector.ofFn fun i => reg closed.b (i + 8)

/-- `shabal256_256` of the AVX2 code, which has eight lanes. -/
def shabal256_256 : Bytes → Option (Words 128) → Words 128 → Vector (Lanes 8) 8 :=
  @shabal256Vector 8

end Shabal

section Quality

/-- `mshabal_quality_round`, with the step that its 48 calls are made to. -/
def mshabalQualityRoundWith
    (step : Vector (Lanes width) 16 → LaneState width → PermCall → LaneState width)
    (message : Vector (Lanes width) 16) (isTermination : Bool) (state : LaneState width) :
    LaneState width :=
  leaveRound message isTermination (permCalls.foldl (step message) (enterRound message state))

/-- The quality hashes, up to their rounds; `none` where they panic on the length. -/
def shabal256LiteWith
    (round : Vector (Lanes width) 16 → Bool → LaneState width → LaneState width)
    (scoops : Bytes) (gensig : U8s 32) : Option (Vector UInt64 width) :=
  if scoops.len = scoopSize * width then
    let state := (List.range 4).foldl
      (fun state _ => round (prepareMessageTermination scoops) true state)
      (round (prepareMessageRound1 gensig scoops) false init)
    some (Vector.ofFn fun lane =>
      ((reg state.c 8).get lane).toUInt64 ||| ((reg state.c 9).get lane).toUInt64 <<< 32)
  else none

/-- `shabal256_lite_256` -/
def shabal256Lite256 : Bytes → U8s 32 → Option (Vector UInt64 8) :=
  shabal256LiteWith (mshabalQualityRoundWith permElt256)

/-- `shabal256_lite_neon` -/
def shabal256LiteNeon : Bytes → U8s 32 → Option (Vector UInt64 4) :=
  shabal256LiteWith (mshabalQualityRoundWith ppNeon)

end Quality

/-- The call for the `k`-th step of the permutation. -/
def callAt (k : Nat) : PermCall :=
  ⟨k % 12, (k + 11) % 12, k % 16, (k + 13) % 16, (k + 9) % 16, (k + 6) % 16, (8 + 15 * k) % 16,
    k % 16⟩

theorem permCalls_eq : permCalls = (List.range 48).map callAt := rfl

theorem reg_mod {α : Type} {n : Nat} [NeZero n] (words : Vector α n) (k : Nat) :
    reg words (k % n) = reg words k := by
  simp only [reg, Nat.mod_mod]

theorem setReg_mod {α : Type} {n : Nat} [NeZero n] (words : Vector α n) (k : Nat) (value : α) :
    setReg words (k % n) value = setReg words k value := by
  simp only [setReg, Nat.mod_mod]

theorem permElt256_callAt (message : Vector (Lanes width) 16) (state : LaneState width) (k : Nat) :
    permElt256 message state (callAt k) = pp message state k := by
  simp only [permElt256, callAt, pp, reg_mod, setReg_mod]

theorem bic_eq (x y : Lanes width) : bic x y = andnot y x := by
  apply Vector.ext
  intro lane laneLt
  simp only [bic, andnot, Vector.getElem_zipWith, UInt32.and_comm]

theorem ppNeon_callAt (message : Vector (Lanes width) 16) (state : LaneState width) (k : Nat) :
    ppNeon message state (callAt k) = pp message state k := by
  have fifteen : (32 : UInt32) - 15 = 17 := rfl
  have one : (32 : UInt32) - 1 = 31 := rfl
  simp only [ppNeon, callAt, pp, reg_mod, setReg_mod, bic_eq, vrotl, fifteen, one]

/-- The calls as written are the steps of the permutation, in order. -/
theorem foldl_permCalls (step : LaneState width → PermCall → LaneState width)
    (message : Vector (Lanes width) 16) (state : LaneState width)
    (called : ∀ state k, step state (callAt k) = pp message state k) :
    permCalls.foldl step state = (List.range 48).foldl (pp message) state := by
  rw [permCalls_eq, List.foldl_map]
  congr 1
  funext state k
  exact called state k

section lanes

variable (i : Fin width)

theorem addBlock_lane (message : Vector (Lanes width) 16) (state : LaneState width) :
    (addBlock message state).lane i =
      Shabal256.inputBlockAdd (laneWords i message) (state.lane i) := by
  simp only [addBlock, LaneState.lane, Shabal256.inputBlockAdd, zipWith_laneWords i add _ (add_get i)]

theorem subBlock_lane (message : Vector (Lanes width) 16) (state : LaneState width) :
    (subBlock message state).lane i =
      Shabal256.inputBlockSub (laneWords i message) (state.lane i) := by
  simp only [subBlock, LaneState.lane, Shabal256.inputBlockSub, zipWith_laneWords i sub _ (sub_get i)]

theorem xorCounter_lane (state : LaneState width) :
    (xorCounter state).lane i = Shabal256.xorW (state.lane i) := by
  simp only [xorCounter, LaneState.lane, Shabal256.xorW, setReg_laneWords, reg_laneWords, xor_get,
    set1_get]

theorem swapBC_lane (state : LaneState width) :
    (swapBC state).lane i = Shabal256.swapBC (state.lane i) := rfl

theorem incrCounter_lane (state : LaneState width) :
    (incrCounter state).lane i = Shabal256.incrW (state.lane i) := rfl

theorem rotated_lane (words : Vector (Lanes width) 16) :
    laneWords i (words.map fun x => or (slli x 17) (srli x 15)) =
      (laneWords i words).map fun x => rotl x 17 := by
  apply map_laneWords
  intro x
  rw [or_get, slli_get, srli_get, shifts_rotl 17 15 rfl]

theorem applyP_lane (message : Vector (Lanes width) 16) (state : LaneState width) :
    (applyP message state).lane i = Shabal256.applyP (laneWords i message) (state.lane i) := by
  have permuted := foldl_pp_lane i message (List.range 48)
    { state with b := state.b.map fun x => or (slli x 17) (srli x 15) }
  have entered : ({ state with b := state.b.map fun x => or (slli x 17) (srli x 15) } :
      LaneState width).lane i =
      { state.lane i with b := (state.lane i).b.map fun x => rotl x 17 } := by
    simp only [LaneState.lane, rotated_lane]
  rw [entered] at permuted
  rw [Shabal256.applyP, Shabal256.perm, ← permuted, applyP,
    foldl_permCalls _ message _ (permElt256_callAt message)]
  generalize (List.range 48).foldl (pp message) _ = after
  have sums : laneWords i (Vector.ofFn fun k =>
      add (add (add (after.a.get k) (reg after.c (k + 11))) (reg after.c (k + 15)))
        (reg after.c (k + 3))) = (Shabal256.addC (after.lane i)).a := by
    apply Vector.ext
    intro k kLt
    have register : (laneWords i after.a).get ⟨k, kLt⟩ = (after.a.get ⟨k, kLt⟩).get i :=
      Vector.getElem_map _ kLt
    rw [laneWords, Vector.getElem_map, Vector.getElem_ofFn, Shabal256.addC, Vector.getElem_ofFn]
    simp only [LaneState.lane, add_get, reg_laneWords, register]
  simp only [LaneState.lane, sums, Shabal256.addC]

theorem absorb_lane (message : Vector (Lanes width) 16) (state : LaneState width) :
    (absorb message state).lane i = Shabal256.absorb (laneWords i message) (state.lane i) := by
  rw [absorb, incrCounter_lane, swapBC_lane, subBlock_lane, applyP_lane, xorCounter_lane,
    addBlock_lane, Shabal256.absorb]

theorem finalRound_lane (message : Vector (Lanes width) 16) (state : LaneState width) :
    (finalRound message state).lane i =
      Shabal256.finalRound (laneWords i message) (state.lane i) := by
  rw [finalRound, applyP_lane, xorCounter_lane, swapBC_lane, Shabal256.finalRound]

theorem close_lane (message : Vector (Lanes width) 16) (state : LaneState width) :
    (close message state).lane i = Shabal256.close (laneWords i message) (state.lane i) := by
  rw [close, finalRound_lane, finalRound_lane, finalRound_lane, applyP_lane, xorCounter_lane,
    addBlock_lane, Shabal256.close]

/-- What a lane sees of interleaved bytes: every `width`-th word. -/
def laneData (data : Bytes) : Bytes where
  len := data.len / width
  byte := fun z => data.byte (4 * (z / 4 * width + i) + z % 4)

/-- What a lane sees of an interleaved block. -/
def laneBlock (block : Words (16 * width)) : Words 16 :=
  Vector.ofFn fun k => block.toArray.getD (k * width + i) 0

theorem leWord_laneData (data : Bytes) (word : Nat) :
    leWord (laneData i data).byte word = leWord data.byte (word * width + i) := by
  have byte (z : Nat) (zLt : z < 4) :
      (laneData i data).byte (4 * word + z) = data.byte (4 * (word * width + i) + z) := by
    have index : (4 * word + z) / 4 = word := by omega
    have offset : (4 * word + z) % 4 = z := by omega
    simp only [laneData, index, offset]
  have byte0 := byte 0 (by decide)
  rw [Nat.add_zero, Nat.add_zero] at byte0
  rw [leWord, leWord, byte0, byte 1 (by decide), byte 2 (by decide), byte 3 (by decide)]

theorem loadBlock_data (data : Bytes) (block : Nat) :
    laneWords i (loadBlock (leWord data.byte) (16 * block)) =
      Shabal256.blockAt (laneData i data) block := by
  apply Vector.ext
  intro k kLt
  have word : (loadWords (leWord data.byte) (16 * block + k) : Lanes width).get i =
      leWord data.byte ((16 * block + k) * width + i) := Vector.getElem_ofFn i.isLt
  rw [laneWords, Vector.getElem_map, loadBlock, Vector.getElem_ofFn, word, Shabal256.blockAt,
    Vector.getElem_ofFn, leWord_laneData]

theorem loadBlock_words (block : Words (16 * width)) :
    laneWords i (loadBlock (fun k => block.toArray.getD k 0) 0) = laneBlock i block := by
  apply Vector.ext
  intro k kLt
  have word : (loadWords (fun k => block.toArray.getD k 0) (0 + k) : Lanes width).get i =
      block.toArray.getD ((0 + k) * width + i) 0 := Vector.getElem_ofFn i.isLt
  rw [laneWords, Vector.getElem_map, loadBlock, Vector.getElem_ofFn, word, laneBlock,
    Vector.getElem_ofFn, Nat.zero_add]

/-- The blocks are absorbed lane by lane. -/
theorem foldl_absorb_lane (data : Bytes) (blocks : List Nat) (state : LaneState width) :
    (blocks.foldl (fun state block => absorb (loadBlock (leWord data.byte) (16 * block)) state)
        state).lane i =
      blocks.foldl
        (fun state block => Shabal256.absorb (Shabal256.blockAt (laneData i data) block) state)
        (state.lane i) := by
  induction blocks generalizing state with
  | nil => rfl
  | cons block blocks ih => rw [List.foldl_cons, List.foldl_cons, ih, absorb_lane, loadBlock_data]

/-- The bytes of a lane in the vectors stored. -/
def laneDigest (vectors : Vector (Lanes width) 8) : U8s 32 :=
  fun z => (((reg vectors (z / 4)).get i) >>> UInt32.ofNat (8 * (z % 4))).toUInt8

theorem digest_lane (state : LaneState width) :
    laneDigest i (Vector.ofFn fun k => reg state.b (k + 8)) =
      Shabal256.digest (state.lane i).b := by
  funext z
  have quarter : z.val / 4 < 8 := by omega
  have register : reg (Vector.ofFn fun k : Fin 8 => reg state.b (k + 8)) (z / 4) =
      reg state.b (z / 4 + 8) := by
    simp only [reg, Nat.mod_eq_of_lt quarter]
    exact Vector.getElem_ofFn quarter
  rw [laneDigest, register, ← reg_laneWords, Shabal256.digest, Nat.add_comm 8]
  rfl

/-- Each lane is hashed as if it were alone. -/
theorem shabal256Vector_lane (data : Bytes) (preTerm : Option (Words (16 * width)))
    (term : Words (16 * width)) :
    laneDigest i (shabal256Vector data preTerm term) =
      shabal256 (laneData i data) (preTerm.map (laneBlock i)) (laneBlock i term) := by
  have absorbed := foldl_absorb_lane i data (List.range (data.len / width / 64)) init
  rw [init_lane] at absorbed
  unfold shabal256Vector shabal256
  cases preTerm with
  | none =>
    simp only [Option.map_none]
    rw [digest_lane, close_lane, loadBlock_words, absorbed]
    rfl
  | some block =>
    simp only [Option.map_some]
    rw [digest_lane, close_lane, loadBlock_words, absorb_lane, absorbed, loadBlock_words]
    rfl

end lanes

/-- The AVX2 hash is the scalar one in each of its eight lanes. -/
theorem shabal256_256_lane (data : Bytes) (preTerm : Option (Words 128)) (term : Words 128)
    (lane : Fin 8) :
    laneDigest lane (shabal256_256 data preTerm term) =
      shabal256 (laneData lane data) (preTerm.map (laneBlock lane)) (laneBlock lane term) :=
  shabal256Vector_lane lane data preTerm term

/-- Scoops next to each other. -/
def packed (scoops : Fin width → Scoop) : Bytes where
  len := scoopSize * width
  byte := fun z =>
    if inside : z / scoopSize < width then
      (scoops ⟨z / scoopSize, inside⟩).byte ⟨z % scoopSize, mod_scoopSize_lt z⟩
    else 0

theorem scoopAt_packed (scoops : Fin width → Scoop) (lane : Fin width) :
    scoopAt (packed scoops) (lane * scoopSize) = scoops lane := by
  apply Scoop.ext
  funext z
  have zLt : z.val < scoopSize := z.isLt
  have here : (lane.val * scoopSize + z.val) / scoopSize = lane := by
    rw [Nat.add_comm, Nat.add_mul_div_right _ _ (by decide), Nat.div_eq_of_lt zLt, Nat.zero_add]
  have offset : (lane.val * scoopSize + z.val) % scoopSize = z := by
    rw [Nat.add_comm, Nat.add_mul_mod_self_right, Nat.mod_eq_of_lt zLt]
  simp only [scoopAt, packed, here, offset, lane.isLt, ↓reduceDIte]

/-- A round whose calls are the steps of the permutation is the one of the quality searches. -/
theorem mshabalQualityRoundWith_eq
    (step : Vector (Lanes width) 16 → LaneState width → PermCall → LaneState width)
    (called : ∀ message state k, step message state (callAt k) = pp message state k) :
    mshabalQualityRoundWith step = mshabalQualityRound := by
  funext message isTermination state
  rw [mshabalQualityRoundWith, foldl_permCalls _ message _ (called message), mshabalQualityRound]

theorem shabal256LiteWith_lanes
    (step : Vector (Lanes width) 16 → LaneState width → PermCall → LaneState width)
    (called : ∀ message state k, step message state (callAt k) = pp message state k)
    (scoops : Fin width → Scoop) (gensig : U8s 32) :
    shabal256LiteWith (mshabalQualityRoundWith step) (packed scoops) gensig =
      some (Vector.ofFn fun lane => shabal256Lite (scoops lane) gensig) := by
  have sized : (packed scoops).len = scoopSize * width := rfl
  rw [shabal256LiteWith, if_pos sized, mshabalQualityRoundWith_eq step called, Option.some.injEq]
  apply Vector.ext
  intro k kLt
  have state : (List.range 4).foldl
      (fun state _ => mshabalQualityRound (prepareMessageTermination (packed scoops)) true state)
      (mshabalQualityRound (prepareMessageRound1 gensig (packed scoops)) false init) =
    (qualityState (packed scoops) gensig : LaneState width) := rfl
  simp only [Vector.getElem_ofFn, state]
  rw [quality_lane, lane_quality, scoopAt_packed]

/-- The AVX2 and the NEON quality hash are the scalar one in each of their lanes. -/
theorem shabal256_lite_lanes (gensig : U8s 32) :
    (∀ scoops : Fin 8 → Scoop, ∃ qualities,
      shabal256Lite256 (packed scoops) gensig = some qualities ∧
        ∀ lane, qualities.get lane = shabal256Lite (scoops lane) gensig) ∧
    ∀ scoops : Fin 4 → Scoop, ∃ qualities,
      shabal256LiteNeon (packed scoops) gensig = some qualities ∧
        ∀ lane, qualities.get lane = shabal256Lite (scoops lane) gensig := by
  constructor
  · intro scoops
    refine ⟨_, shabal256LiteWith_lanes permElt256 permElt256_callAt scoops gensig, ?_⟩
    intro lane
    exact Vector.getElem_ofFn lane.isLt
  · intro scoops
    refine ⟨_, shabal256LiteWith_lanes ppNeon ppNeon_callAt scoops gensig, ?_⟩
    intro lane
    exact Vector.getElem_ofFn lane.isLt

end ShabalVector

end Pocx.Hashlib
