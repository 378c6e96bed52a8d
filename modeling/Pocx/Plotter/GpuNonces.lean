import Mathlib.Data.Nat.ModEq
import Pocx.Hashlib.NoncegenCalls
import Pocx.Plotter.GpuRing

set_option autoImplicit false

namespace Pocx.GpuNonces

open ByteStore
open PlotFile (nonceSize)
open Hashlib
open Hashlib.Shabal256 (leWord reg)
open GpuRing

def rotate64 (x n : UInt64) : UInt64 := x <<< n ||| x >>> (64 - n)

/-- Bits of `b` where `c` has ones, of `a` elsewhere. -/
def bitselect (a b c : UInt64) : UInt64 := (a &&& ~~~ c) ||| (b &&& c)

/-- `EndianSwap64` -/
def endianSwap64 (n : UInt64) : UInt64 :=
  bitselect (bitselect (rotate64 n 24) (rotate64 n 8) 0x000000FF000000FF)
    (bitselect (rotate64 n 56) (rotate64 n 40) 0x00FF000000FF0000) 0xFFFF0000FFFF0000

/-- `num` -/
def messages (hash : Nat) : Nat :=
  let num := (8192 - hash) / 2
  if hash ≠ 0 then if 64 < num then 64 else num else num

section kernel

variable (nonceBe : UInt64) (base58 : U8s 20) (seed : U8s 32) (rgid : Nat)

/-- `M0` to `MF` in turn `i` of the message loop. -/
def message (buffer : Memory) (hash i : Nat) : Words 16 :=
  Vector.ofFn fun k =>
    if k.val < 8 then buffer (address rgid (hash + i) k)
    else buffer (address rgid (hash + i + 1) (k - 8))

/-- The final message, and the one before it that odd hashes need. -/
def finalMessage (buffer : Memory) (hash : Nat) : Option (Words 16) × Words 16 :=
  if messages hash = 64 then (none, Vector.ofFn fun k => if k.val = 0 then 0x80 else 0)
  else if hash &&& 1 = 0 then
    (none,
      Vector.ofFn fun k =>
        if k.val < 8 then leWord seed.get k
        else if k.val < 13 then leWord base58.get (k - 8)
        else if k.val = 13 then nonceBe.toUInt32
        else if k.val = 14 then (nonceBe >>> 32).toUInt32
        else 0x80)
  else
    (some (Vector.ofFn fun k =>
        if k.val < 8 then buffer (address rgid (8192 - 1) k) else leWord seed.get (k - 8)),
      Vector.ofFn fun k =>
        if k.val < 5 then leWord base58.get k
        else if k.val = 5 then nonceBe.toUInt32
        else if k.val = 6 then (nonceBe >>> 32).toUInt32
        else if k.val = 7 then 0x80
        else 0)

/-- What is hashed in the turn `hash` of the loop. -/
def kernelCall (buffer : Memory) (hash : Nat) : ShabalCall :=
  let final := finalMessage nonceBe base58 seed rgid buffer hash
  ⟨(List.range (messages hash)).map fun k => message rgid buffer hash (2 * k), final.1, final.2⟩

/-- The memory and the registers `B8` to `BF`, with the calls made so far. -/
structure Item where
  buffer : Memory
  b : Nat → UInt32
  calls : List ShabalCall

/-- One turn of the loop over the hashes. -/
def hashTurn (item : Item) (hash : Nat) : Item :=
  let call := kernelCall nonceBe base58 seed rgid item.buffer hash
  let b := fun w => reg call.state.b (8 + w)
  { buffer :=
      if 0 < hash then
        Scatter.run (fun _ => true) (fun w => address rgid (hash - 1) w) (fun w _ => b w) item.buffer
          (List.range 8)
      else item.buffer
    b
    calls := item.calls ++ [call] }

/-- The hashes of a launch, `NUM_HASHES - start` down to `NUM_HASHES - end`. -/
def hashesOf (start stop : Nat) : List Nat :=
  (List.range (stop + 1 - start)).map fun k => 8192 - start - k

/-- The final XOR. -/
def xorAll (b : Nat → UInt32) (buffer : Memory) : Memory :=
  Scatter.run (fun _ => true) (fun (cell : Nat × Nat) => address rgid cell.1 cell.2)
    (fun cell old => old ^^^ b cell.2) buffer (List.range 8192 ×ˢ List.range 8)

/-- The loop of one launch. `B8` to `BF` are not set before it. -/
def hashLoop (start stop : Nat) (buffer : Memory) : Item :=
  (hashesOf start stop).foldl (hashTurn nonceBe base58 seed rgid) ⟨buffer, fun _ => 0, []⟩

/-- A work-item of one launch. -/
def workItem (start stop : Nat) (buffer : Memory) : Item :=
  let item := hashLoop nonceBe base58 seed rgid start stop buffer
  { item with buffer := if stop = 8192 then xorAll rgid item.b item.buffer else item.buffer }

end kernel

/-- The ring buffer, and what each work-item has hashed over all launches. -/
structure Device where
  buffer : Memory
  calls : Nat → List ShabalCall

section launches

variable (startnonce : Nat) (base58 : U8s 20) (seed : U8s 32)
  (nonces ringOffset ringSize : Nat)

/-- `calculate_nonces`. The work-items run in any order. -/
def calculateNonces (start stop : Nat) (order : List Nat) (device : Device) : Device :=
  order.foldl
    (fun device gid =>
      if nonces ≤ gid then device
      else
        let item := workItem (endianSwap64 (UInt64.ofNat (startnonce + gid))) base58 seed
          ((gid + ringOffset) % ringSize) start stop device.buffer
        ⟨item.buffer, Function.update device.calls gid (device.calls gid ++ item.calls)⟩)
    device

/-- `start` and `end` of launch `i / GPU_HASHES_PER_RUN`. -/
def hashRange (i : Nat) : Nat × Nat := if i + 32 < 8192 then (i, i + 32 - 1) else (i, i + 32)

/-- `gpu_ring_hash_enqueue_single` -/
def gpuRingHashEnqueueSingle (orders : Nat → List Nat) (device : Device) : Device :=
  (List.range 256).foldl
    (fun device run =>
      calculateNonces startnonce base58 seed nonces ringOffset ringSize (hashRange (32 * run)).1
        (hashRange (32 * run)).2 (orders run) device)
    device

end launches

section words

theorem bit_ofNat {w : Nat} (n i : Nat) (iLt : i < w) : (BitVec.ofNat w n)[i] = n.testBit i := by
  rw [← BitVec.getLsbD_eq_getElem, BitVec.getLsbD_ofNat, decide_eq_true iLt, Bool.true_and]

/-- The swapped number begins with the high bytes. -/
theorem nonceBe_high (nonce : Nat) :
    (endianSwap64 (UInt64.ofNat nonce)).toUInt32 = leWord (beByte nonce) 0 := by
  apply UInt32.toBitVec_inj.mp
  apply BitVec.eq_of_getLsbD_eq
  intro i iLt
  simp [endianSwap64, bitselect, rotate64, leWord, beByte]
  interval_cases i <;> simp [UInt64.toBitVec_ofNat', UInt8.toBitVec_ofNat'] <;>
    simp only [bit_ofNat, Nat.testBit_shiftRight, Nat.reduceAdd]

theorem nonceBe_low (nonce : Nat) :
    (endianSwap64 (UInt64.ofNat nonce) >>> 32).toUInt32 = leWord (beByte nonce) 1 := by
  apply UInt32.toBitVec_inj.mp
  apply BitVec.eq_of_getLsbD_eq
  intro i iLt
  simp [endianSwap64, bitselect, rotate64, leWord, beByte]
  interval_cases i <;> simp [UInt64.toBitVec_ofNat', UInt8.toBitVec_ofNat'] <;>
    simp only [bit_ofNat, Nat.testBit_shiftRight, Nat.reduceAdd]

theorem address_injective {nonce nonce' hash hash' w w' : Nat} (hashLt : hash < 8192)
    (hashLt' : hash' < 8192) (wLt : w < 8) (wLt' : w' < 8)
    (same : address nonce hash w = address nonce' hash' w') :
    nonce = nonce' ∧ hash = hash' ∧ w = w' := by
  rw [address_eq, address_eq] at same
  omega

end words

/-- From hash `start` on, the slot holds the words of the buffer. -/
def Holds (rgid : Nat) (memory : Memory) (buffer : Bytes) (start : Nat) : Prop :=
  ∀ hash, start ≤ hash → hash < 8192 → ∀ w < 8,
    memory (address rgid hash w) = hashWord buffer hash w

section turn

variable (base58 : U8s 20) (seed : U8s 32) (nonce rgid : Nat)

/-- The final message of even hashes. -/
theorem even_message :
    (Vector.ofFn fun k : Fin 16 =>
        if k.val < 8 then leWord seed.get k
        else if k.val < 13 then leWord base58.get (k - 8)
        else if k.val = 13 then (endianSwap64 (UInt64.ofNat nonce)).toUInt32
        else if k.val = 14 then (endianSwap64 (UInt64.ofNat nonce) >>> 32).toUInt32
        else 0x80) = t1 base58 seed nonce := by
  rw [nonceBe_high, nonceBe_low]
  apply Vector.ext
  intro k kLt
  rw [t1, Vector.getElem_ofFn, Vector.getElem_ofFn]
  by_cases high : k = 13
  · subst high
    rfl
  · by_cases low : k = 14
    · subst low
      rfl
    · have same : k < 15 ↔ k < 13 := by omega
      simp only [high, low, same, ↓reduceIte]
      split
      · rfl
      · split
        · rfl
        · rfl

/-- The final message of odd hashes, but for the later ones. -/
theorem odd_message :
    (Vector.ofFn fun k : Fin 16 =>
        if k.val < 5 then leWord base58.get k
        else if k.val = 5 then (endianSwap64 (UInt64.ofNat nonce)).toUInt32
        else if k.val = 6 then (endianSwap64 (UInt64.ofNat nonce) >>> 32).toUInt32
        else if k.val = 7 then 0x80
        else 0) = t2 base58 nonce := by
  rw [nonceBe_high, nonceBe_low]
  apply Vector.ext
  intro k kLt
  rw [t2, Vector.getElem_ofFn, Vector.getElem_ofFn]
  by_cases high : k = 5
  · subst high
    rfl
  · by_cases low : k = 6
    · subst low
      rfl
    · have same : k < 7 ↔ k < 5 := by omega
      simp only [high, low, same, ↓reduceIte]
      split
      · rfl
      · rfl

variable {memory : Memory} {buffer : Bytes}
  {hash : Nat} (holds : Holds rgid memory buffer hash)
include holds

/-- The messages of a turn are the blocks of the data. -/
theorem messages_blocks {stop : Nat} (count : (stop - hashSize * hash) / 64 = messages hash)
    (inside : hash + 2 * messages hash ≤ 8192) (preTerm : Option (Words 16)) (term : Words 16) :
    (List.range (messages hash)).map (fun k => message rgid memory hash (2 * k)) =
      (callOf (window buffer (hashSize * hash) stop) preTerm term).blocks := by
  simp only [callOf, window, count]
  apply List.map_congr_left
  intro k listed
  have kLt := List.mem_range.mp listed
  have block := blockAt_window buffer hash stop k
  simp only [window] at block
  rw [block]
  apply Vector.ext
  intro i iLt
  rw [message, Vector.getElem_ofFn, Vector.getElem_ofFn]
  by_cases low : i < 8
  · rw [if_pos low, if_pos low]
    exact holds (hash + 2 * k) (by omega) (by omega) i low
  · rw [if_neg low, if_neg low]
    exact holds (hash + 2 * k + 1) (by omega) (by omega) (i - 8) (by omega)

/-- The last two messages of odd hashes, but for the later ones. -/
theorem finalMessage_odd (few : messages hash ≠ 64) (odd : ¬ hash % 2 = 0) (started : hash ≤ 8191)
    (first : ∀ w < 8, hashWord buffer 8191 w = leWord (firstCall base58 seed nonce).digest.get w) :
    finalMessage (endianSwap64 (UInt64.ofNat nonce)) base58 seed rgid memory hash =
      (some (pt2 seed (firstCall base58 seed nonce).digest), t2 base58 nonce) := by
  have bit : ¬ hash &&& 1 = 0 := fun even => odd ((Nat.and_one_is_mod hash).symm.trans even)
  have pre : (Vector.ofFn fun k : Fin 16 =>
      if k.val < 8 then memory (address rgid (8192 - 1) k) else leWord seed.get (k - 8)) =
        pt2 seed (firstCall base58 seed nonce).digest := by
    apply Vector.ext
    intro k kLt
    rw [pt2, Vector.getElem_ofFn, Vector.getElem_ofFn]
    by_cases low : k < 8
    · rw [if_pos low, if_pos low, ← first k low]
      exact holds 8191 started (by decide) k low
    · rw [if_neg low, if_neg low]
  rw [finalMessage, if_neg few, if_neg bit, odd_message, pre]

/-- The turn hashes what the generator hashes behind as many rounds. -/
theorem kernelCall_callAt (hashLe : hash ≤ 8192)
    (first : hash < 8192 → ∀ w < 8,
      hashWord buffer 8191 w = leWord (firstCall base58 seed nonce).digest.get w) :
    kernelCall (endianSwap64 (UInt64.ofNat nonce)) base58 seed rgid memory hash =
      callAt base58 seed nonce buffer hash := by
  have size : nonceSize = 262144 := by decide
  have even : hash % 2 = 0 → messages hash ≠ 64 →
      finalMessage (endianSwap64 (UInt64.ofNat nonce)) base58 seed rgid memory hash =
        (none, t1 base58 seed nonce) := by
    intro parity few
    have bit : hash &&& 1 = 0 := (Nat.and_one_is_mod hash).trans parity
    rw [finalMessage, if_neg few, if_pos bit, even_message]
  by_cases start : hash = 8192
  · subst start
    have none : messages 8192 = 0 := by decide
    rw [kernelCall, even rfl (by decide), none, List.range_zero, List.map_nil, callAt, if_pos rfl,
      firstCall, callOf, Nat.zero_div, List.range_zero, List.map_nil]
  · by_cases early : 8064 < hash
    · have few : messages hash = (8192 - hash) / 2 := by
        rw [messages, if_pos (by omega), if_neg (by omega)]
      have data : nonceSize - hashSize * (8191 - hash + 1) = hashSize * hash := by
        rw [size, hashSize]
        omega
      have count : (nonceSize - hashSize * hash) / 64 = messages hash := by
        rw [size, hashSize, few]
        omega
      have blocks (preTerm : Option (Words 16)) (term : Words 16) :=
        messages_blocks rgid holds count (by omega) preTerm term
      rw [callAt, if_neg start, if_pos early, earlyCall, data]
      by_cases parity : hash % 2 = 0
      · have whole : hashSize * hash % 64 = 0 := by
          rw [hashSize]
          omega
        rw [kernelCall, even parity (by omega), if_pos whole,
          blocks none (t1 base58 seed nonce)]
        rfl
      · have rest : ¬ hashSize * hash % 64 = 0 := by
          rw [hashSize]
          omega
        rw [if_neg rest, kernelCall,
          finalMessage_odd base58 seed nonce rgid holds (by omega) parity (by omega)
            (first (by omega)), blocks (some (pt2 seed (firstCall base58 seed nonce).digest)) (t2 base58 nonce)]
        rfl
    · by_cases late : 0 < hash
      · have capped : messages hash = 64 := by
          rw [messages, if_pos (by omega)]
          split
          · rfl
          · omega
        have data : nonceSize - hashCap - hashSize * (8064 - hash) = hashSize * hash := by
          rw [size, hashSize, hashCap]
          omega
        have count : (hashSize * hash + hashCap - hashSize * hash) / 64 = messages hash := by
          rw [capped, Nat.add_sub_cancel_left]
          rfl
        rw [callAt, if_neg start, if_neg early, if_pos late, lateCall, data, kernelCall,
          messages_blocks rgid holds count (by omega) none t3, finalMessage, if_pos capped]
        rfl
      · obtain rfl : hash = 0 := by omega
        have count : (nonceSize - hashSize * 0) / 64 = messages 0 := by decide
        rw [callAt, if_neg start, if_neg early, if_neg late, finalCall, kernelCall,
          even rfl (by decide),
          messages_blocks rgid holds count (by decide) none (t1 base58 seed nonce)]
        rfl

end turn

section item

variable (nonceBe : UInt64) (base58 : U8s 20) (seed : U8s 32) (rgid : Nat)

theorem workItem_buffer (start stop : Nat) (memory : Memory) :
    (workItem nonceBe base58 seed rgid start stop memory).buffer =
      if stop = 8192 then
        xorAll rgid (hashLoop nonceBe base58 seed rgid start stop memory).b
          (hashLoop nonceBe base58 seed rgid start stop memory).buffer
      else (hashLoop nonceBe base58 seed rgid start stop memory).buffer := rfl

theorem workItem_calls (start stop : Nat) (memory : Memory) :
    (workItem nonceBe base58 seed rgid start stop memory).calls =
      (hashLoop nonceBe base58 seed rgid start stop memory).calls := rfl

/-- Memory outside a slot. -/
def Apart (place : Nat) : Prop := ∀ hash < 8192, ∀ w < 8, address rgid hash w ≠ place

theorem hashTurn_apart (item : Item) {hash place : Nat} (hashLe : hash ≤ 8192)
    (apart : Apart rgid place) :
    (hashTurn nonceBe base58 seed rgid item hash).buffer place = item.buffer place := by
  simp only [hashTurn]
  split
  · apply Scatter.run_outside
    intro w listed
    exact apart (hash - 1) (by omega) w (List.mem_range.mp listed)
  · rfl

theorem xorAll_apart (b : Nat → UInt32) (memory : Memory) {place : Nat}
    (apart : Apart rgid place) : xorAll rgid b memory place = memory place := by
  apply Scatter.run_outside
  intro cell listed
  obtain ⟨hashes, words⟩ := List.mem_product.mp listed
  exact apart cell.1 (List.mem_range.mp hashes) cell.2 (List.mem_range.mp words)

/-- A work-item keeps to its slot. -/
theorem workItem_apart (start stop : Nat) (memory : Memory) {place : Nat}
    (apart : Apart rgid place) :
    (workItem nonceBe base58 seed rgid start stop memory).buffer place = memory place := by
  have turns (hashes : List Nat) (le : ∀ hash ∈ hashes, hash ≤ 8192) (item : Item) :
      (hashes.foldl (hashTurn nonceBe base58 seed rgid) item).buffer place =
        item.buffer place := by
    induction hashes generalizing item with
    | nil => rfl
    | cons hash hashes ih =>
      rw [List.foldl_cons, ih (fun later member => le later (List.mem_cons_of_mem _ member)),
        hashTurn_apart nonceBe base58 seed rgid item (le hash List.mem_cons_self) apart]
  have loop : (hashLoop nonceBe base58 seed rgid start stop memory).buffer place = memory place := by
    apply turns
    intro hash listed
    obtain ⟨k, -, rfl⟩ := List.mem_map.mp listed
    omega
  rw [workItem_buffer]
  split
  · rw [xorAll_apart rgid _ _ apart, loop]
  · exact loop

/-- The turn stores its digest. -/
theorem hashTurn_new (item : Item) {hash w : Nat} (positive : 0 < hash) (hashLe : hash ≤ 8192)
    (wLt : w < 8) :
    (hashTurn nonceBe base58 seed rgid item hash).buffer (address rgid (hash - 1) w) =
      leWord (kernelCall nonceBe base58 seed rgid item.buffer hash).digest.get w := by
  have distinct : ((List.range 8).map fun w => address rgid (hash - 1) w).Nodup := by
    apply List.Nodup.map_on _ List.nodup_range
    intro w listed w' listed' same
    exact (address_injective (by omega) (by omega) (List.mem_range.mp listed)
      (List.mem_range.mp listed') same).2.2
  rw [ShabalCall.digest, leWord_digest _ w wLt]
  simp only [hashTurn, positive, ↓reduceIte]
  exact Scatter.run_inside _ _ _ _ _ distinct w (List.mem_range.mpr wLt) rfl

theorem hashTurn_b (item : Item) (hash : Nat) {w : Nat} (wLt : w < 8) :
    (hashTurn nonceBe base58 seed rgid item hash).b w =
      leWord (kernelCall nonceBe base58 seed rgid item.buffer hash).digest.get w := by
  rw [ShabalCall.digest, leWord_digest _ w wLt]
  rfl

theorem hashTurn_old (item : Item) {hash later w : Nat} (behind : hash ≤ later)
    (laterLt : later < 8192) (wLt : w < 8) :
    (hashTurn nonceBe base58 seed rgid item hash).buffer (address rgid later w) =
      item.buffer (address rgid later w) := by
  simp only [hashTurn]
  split
  · rename_i positive
    apply Scatter.run_outside
    intro w' listed same
    obtain ⟨-, hashes, -⟩ :=
      address_injective (by omega) laterLt (List.mem_range.mp listed) wLt same
    omega
  · rfl

theorem xorAll_word (b : Nat → UInt32) (memory : Memory) {hash w : Nat} (hashLt : hash < 8192)
    (wLt : w < 8) :
    xorAll rgid b memory (address rgid hash w) = memory (address rgid hash w) ^^^ b w := by
  have distinct : ((List.range 8192 ×ˢ List.range 8).map
      fun cell : Nat × Nat => address rgid cell.1 cell.2).Nodup := by
    apply List.Nodup.map_on _ (List.nodup_range.product List.nodup_range)
    intro cell listed cell' listed' same
    obtain ⟨hashes, words⟩ := List.mem_product.mp listed
    obtain ⟨hashes', words'⟩ := List.mem_product.mp listed'
    obtain ⟨-, first, second⟩ := address_injective (List.mem_range.mp hashes)
      (List.mem_range.mp hashes') (List.mem_range.mp words) (List.mem_range.mp words') same
    exact Prod.ext first second
  have listed : (hash, w) ∈ List.range 8192 ×ˢ List.range 8 :=
    List.mem_product.mpr ⟨List.mem_range.mpr hashLt, List.mem_range.mpr wLt⟩
  exact Scatter.run_inside _ _ _ _ _ distinct (hash, w) listed rfl

end item

/-- The work-item of a slot is as far as the generator behind its first `n` rounds. -/
structure Follows (base58 : U8s 20) (seed : U8s 32) (nonce rgid : Nat) (cpu : Bytes)
    (before : List ShabalCall) (n : Nat) (memory : Memory) (calls : List ShabalCall) : Prop where
  words : Holds rgid memory (roundsTo base58 seed nonce cpu n).1 (8192 - n)
  calls : calls = before ++ (roundsTo base58 seed nonce cpu n).2

section follows

variable (base58 : U8s 20) (seed : U8s 32) (nonce rgid : Nat) {cpu : Bytes}
  (len : cpu.len = nonceSize) {before past : List ShabalCall} {n : Nat} {item : Item}
include len

/-- What is hashed behind the first `n` rounds. -/
theorem Follows.call (nLe : n ≤ 8192)
    (follows : Follows base58 seed nonce rgid cpu before n item.buffer (past ++ item.calls)) :
    kernelCall (endianSwap64 (UInt64.ofNat nonce)) base58 seed rgid item.buffer (8192 - n) =
      callAt base58 seed nonce (roundsTo base58 seed nonce cpu n).1 (8192 - n) := by
  apply kernelCall_callAt base58 seed nonce rgid follows.words (by omega)
  intro started w wLt
  exact roundsTo_first base58 seed nonce len (by omega) nLe wLt

theorem Follows.turn (nLt : n < 8192)
    (follows : Follows base58 seed nonce rgid cpu before n item.buffer (past ++ item.calls)) :
    Follows base58 seed nonce rgid cpu before (n + 1)
      (hashTurn (endianSwap64 (UInt64.ofNat nonce)) base58 seed rgid item (8192 - n)).buffer
      (past ++
        (hashTurn (endianSwap64 (UInt64.ofNat nonce)) base58 seed rgid item (8192 - n)).calls) := by
  have call := follows.call base58 seed nonce rgid len (by omega)
  constructor
  · intro hash reached hashLt w wLt
    rw [roundsTo_succ]
    by_cases new : hash = 8192 - n - 1
    · subst new
      rw [hashTurn_new _ _ _ _ _ (by omega) (by omega) wLt, call, roundAt_new _ _ _ _ wLt]
    · rw [hashTurn_old _ _ _ _ _ (by omega) hashLt wLt,
        roundAt_old _ _ _ (roundsTo_len base58 seed nonce len (by omega)) (by omega) (by omega)
          hashLt wLt]
      exact follows.words hash (by omega) hashLt w wLt
  · rw [roundsTo_succ, hashTurn, call, ← List.append_assoc, follows.calls, List.append_assoc]

theorem Follows.turns (count : Nat) (le : n + count ≤ 8192)
    (follows : Follows base58 seed nonce rgid cpu before n item.buffer (past ++ item.calls)) :
    Follows base58 seed nonce rgid cpu before (n + count)
      (((List.range count).map fun k => 8192 - n - k).foldl
        (hashTurn (endianSwap64 (UInt64.ofNat nonce)) base58 seed rgid) item).buffer
      (past ++ (((List.range count).map fun k => 8192 - n - k).foldl
        (hashTurn (endianSwap64 (UInt64.ofNat nonce)) base58 seed rgid) item).calls) := by
  induction count with
  | zero => exact follows
  | succ count ih =>
    have next := (ih (by omega)).turn base58 seed nonce rgid len (by omega)
    have hash : 8192 - (n + count) = 8192 - n - count := by omega
    rw [hash] at next
    rw [List.range_succ, List.map_append, List.foldl_append]
    exact next

/-- A launch in the middle. -/
theorem Follows.launch {memory : Memory} {stop : Nat} (ordered : n ≤ stop) (stopLt : stop < 8192)
    (follows : Follows base58 seed nonce rgid cpu before n memory past) :
    Follows base58 seed nonce rgid cpu before (stop + 1)
      (workItem (endianSwap64 (UInt64.ofNat nonce)) base58 seed rgid n stop memory).buffer
      (past ++
        (workItem (endianSwap64 (UInt64.ofNat nonce)) base58 seed rgid n stop memory).calls) := by
  have entered : Follows base58 seed nonce rgid cpu before n
      (⟨memory, fun _ => 0, []⟩ : Item).buffer (past ++ (⟨memory, fun _ => 0, []⟩ : Item).calls) := by
    rw [List.append_nil]
    exact follows
  have turns := entered.turns base58 seed nonce rgid len (stop + 1 - n) (by omega)
  have count : n + (stop + 1 - n) = stop + 1 := by omega
  rw [count] at turns
  rw [workItem_buffer, workItem_calls, if_neg (Nat.ne_of_lt stopLt)]
  exact turns

/-- The last launch. -/
theorem Follows.finish {memory : Memory} (nLe : n ≤ 8192)
    (follows : Follows base58 seed nonce rgid cpu before n memory past) :
    (∀ hash < 8192, ∀ w < 8,
      (workItem (endianSwap64 (UInt64.ofNat nonce)) base58 seed rgid n 8192 memory).buffer
          (address rgid hash w) =
        hashWord (hashNonce base58 seed nonce cpu) hash w) ∧
      past ++ (workItem (endianSwap64 (UInt64.ofNat nonce)) base58 seed rgid n 8192 memory).calls =
        before ++ hashNonceCalls base58 seed nonce cpu := by
  have entered : Follows base58 seed nonce rgid cpu before n
      (⟨memory, fun _ => 0, []⟩ : Item).buffer (past ++ (⟨memory, fun _ => 0, []⟩ : Item).calls) := by
    rw [List.append_nil]
    exact follows
  have turns := entered.turns base58 seed nonce rgid len (8192 - n) (by omega)
  have count : n + (8192 - n) = 8192 := by omega
  rw [count] at turns
  have call := turns.call base58 seed nonce rgid len (Nat.le_refl _)
  have loop : hashLoop (endianSwap64 (UInt64.ofNat nonce)) base58 seed rgid n 8192 memory =
      hashTurn (endianSwap64 (UInt64.ofNat nonce)) base58 seed rgid
        (((List.range (8192 - n)).map fun k => 8192 - n - k).foldl
          (hashTurn (endianSwap64 (UInt64.ofNat nonce)) base58 seed rgid)
          ⟨memory, fun _ => 0, []⟩) (8192 - 8192) := by
    have more : 8192 + 1 - n = 8192 - n + 1 := by omega
    rw [hashLoop, hashesOf, more, List.range_succ, List.map_append, List.map_singleton,
      Nat.sub_self, List.foldl_append]
    rfl
  rw [workItem_buffer, workItem_calls, if_pos rfl, hashNonce_calls, hashNonceCalls,
    loggedRounds_roundsTo, loop]
  generalize ((List.range (8192 - n)).map fun k => 8192 - n - k).foldl
    (hashTurn (endianSwap64 (UInt64.ofNat nonce)) base58 seed rgid) ⟨memory, fun _ => 0, []⟩ = item
    at turns call ⊢
  obtain ⟨words, calls⟩ := turns
  have final : kernelCall (endianSwap64 (UInt64.ofNat nonce)) base58 seed rgid item.buffer
      (8192 - 8192) = finalCall base58 seed nonce (roundsTo base58 seed nonce cpu 8192).1 := by
    rw [call]
    rfl
  constructor
  · intro hash hashLt w wLt
    rw [xorAll_word rgid _ _ hashLt wLt, hashTurn_old _ _ _ _ _ (by omega) hashLt wLt,
      hashTurn_b _ _ _ _ _ _ wLt, final, xorFinal_word _ _ hashLt wLt,
      words hash (by omega) hashLt w wLt]
  · rw [← final, ← List.append_assoc, ← calls, List.append_assoc]
    rfl

end follows

/-- Only the slot's own words matter. -/
theorem Follows.congr {base58 : U8s 20} {seed : U8s 32} {nonce rgid : Nat} {cpu : Bytes}
    {before calls : List ShabalCall} {n : Nat} {memory memory' : Memory}
    (follows : Follows base58 seed nonce rgid cpu before n memory calls)
    (same : ∀ hash < 8192, ∀ w < 8,
      memory' (address rgid hash w) = memory (address rgid hash w)) :
    Follows base58 seed nonce rgid cpu before n memory' calls := by
  constructor
  · intro hash reached hashLt w wLt
    rw [same hash hashLt w wLt]
    exact follows.words hash reached hashLt w wLt
  · exact follows.calls

section dispatch

variable (startnonce : Nat) (base58 : U8s 20) (seed : U8s 32) {nonces : Nat} (ringOffset : Nat)
  {ringSize gid : Nat} (hashed : gid < nonces) (room : nonces ≤ ringSize)
include hashed room

/-- Different work-items have different slots. -/
theorem slot_injective {gid' : Nat} (hashed' : gid' < nonces)
    (same : (gid' + ringOffset) % ringSize = (gid + ringOffset) % ringSize) : gid' = gid :=
  Nat.ModEq.eq_of_lt_of_lt (Nat.ModEq.add_right_cancel' ringOffset same) (by omega) (by omega)

/-- The other work-items leave the slot alone. -/
theorem calculateNonces_others (start stop : Nat) (order : List Nat) (absent : gid ∉ order)
    (device : Device) :
    (∀ hash < 8192, ∀ w < 8,
      (calculateNonces startnonce base58 seed nonces ringOffset ringSize start stop order
          device).buffer (address ((gid + ringOffset) % ringSize) hash w) =
        device.buffer (address ((gid + ringOffset) % ringSize) hash w)) ∧
      (calculateNonces startnonce base58 seed nonces ringOffset ringSize start stop order
        device).calls gid = device.calls gid := by
  induction order generalizing device with
  | nil => exact ⟨fun _ _ _ _ => rfl, rfl⟩
  | cons other order ih =>
    rw [List.mem_cons, not_or] at absent
    obtain ⟨different, absent⟩ := absent
    obtain ⟨words, calls⟩ := ih absent
      (calculateNonces startnonce base58 seed nonces ringOffset ringSize start stop [other] device)
    have split : calculateNonces startnonce base58 seed nonces ringOffset ringSize start stop
        (other :: order) device =
          calculateNonces startnonce base58 seed nonces ringOffset ringSize start stop order
            (calculateNonces startnonce base58 seed nonces ringOffset ringSize start stop [other]
              device) := rfl
    rw [split, calls]
    by_cases idle : nonces ≤ other
    · have nothing : calculateNonces startnonce base58 seed nonces ringOffset ringSize start stop
          [other] device = device := if_pos idle
      rw [nothing] at words ⊢
      exact ⟨words, rfl⟩
    · have ran : calculateNonces startnonce base58 seed nonces ringOffset ringSize start stop
          [other] device = _ := if_neg idle
      constructor
      · intro hash hashLt w wLt
        rw [words hash hashLt w wLt, ran]
        apply workItem_apart
        intro hash' hashLt' w' wLt' same
        have slots := (address_injective hashLt' hashLt wLt' wLt same).1
        exact different (slot_injective ringOffset hashed room (by omega) slots).symm
      · rw [ran]
        exact Function.update_of_ne different _ _

/-- In each launch the work-item runs once, on a memory where nobody else has written to its
slot. -/
theorem calculateNonces_own (start stop : Nat) {order : List Nat} (distinct : order.Nodup)
    (listed : gid ∈ order) (device : Device) :
    ∃ memory : Memory,
      (∀ hash < 8192, ∀ w < 8,
        memory (address ((gid + ringOffset) % ringSize) hash w) =
          device.buffer (address ((gid + ringOffset) % ringSize) hash w)) ∧
      (∀ hash < 8192, ∀ w < 8,
        (calculateNonces startnonce base58 seed nonces ringOffset ringSize start stop order
            device).buffer (address ((gid + ringOffset) % ringSize) hash w) =
          (workItem (endianSwap64 (UInt64.ofNat (startnonce + gid))) base58 seed
            ((gid + ringOffset) % ringSize) start stop memory).buffer
            (address ((gid + ringOffset) % ringSize) hash w)) ∧
      (calculateNonces startnonce base58 seed nonces ringOffset ringSize start stop order
          device).calls gid =
        device.calls gid ++
          (workItem (endianSwap64 (UInt64.ofNat (startnonce + gid))) base58 seed
            ((gid + ringOffset) % ringSize) start stop memory).calls := by
  obtain ⟨first, later, rfl⟩ := List.append_of_mem listed
  rw [List.nodup_append] at distinct
  obtain ⟨-, rest, apart⟩ := distinct
  have absent : gid ∉ first := fun early => apart gid early gid List.mem_cons_self rfl
  have absent' : gid ∉ later := (List.nodup_cons.mp rest).1
  have enter := calculateNonces_others startnonce base58 seed ringOffset hashed room start stop first
    absent device
  generalize entered : calculateNonces startnonce base58 seed nonces ringOffset ringSize start stop
    first device = mid at enter
  have split : calculateNonces startnonce base58 seed nonces ringOffset ringSize start stop
      (first ++ gid :: later) device =
        calculateNonces startnonce base58 seed nonces ringOffset ringSize start stop later
          (calculateNonces startnonce base58 seed nonces ringOffset ringSize start stop [gid]
            mid) := by
    rw [← entered, calculateNonces, List.foldl_append]
    rfl
  have ran : calculateNonces startnonce base58 seed nonces ringOffset ringSize start stop [gid] mid =
      _ := if_neg (Nat.not_le.mpr hashed)
  obtain ⟨words, calls⟩ := calculateNonces_others startnonce base58 seed ringOffset hashed room start
    stop later absent'
    (calculateNonces startnonce base58 seed nonces ringOffset ringSize start stop [gid] mid)
  refine ⟨mid.buffer, enter.1, ?_, ?_⟩
  · intro hash hashLt w wLt
    rw [split, words hash hashLt w wLt, ran]
  · rw [split, calls, ran, ← enter.2]
    exact Function.update_self _ _ _

variable {globalSize : Nat} (item : gid < globalSize) {orders : Nat → List Nat}
  (spawned : ∀ run, (orders run).Perm (List.range globalSize)) {cpu : Bytes}
  (len : cpu.len = nonceSize)
include item spawned len

/-- Behind each launch but the last one, the slot is as far as the generator. -/
theorem launches_follow (device : Device) (runs : Nat) (runsLe : runs ≤ 255) :
    let after := (List.range runs).foldl
      (fun device run =>
        calculateNonces startnonce base58 seed nonces ringOffset ringSize (hashRange (32 * run)).1
          (hashRange (32 * run)).2 (orders run) device)
      device
    Follows base58 seed ((startnonce + gid) % 2 ^ 64) ((gid + ringOffset) % ringSize) cpu
      (device.calls gid) (32 * runs) after.buffer (after.calls gid) := by
  induction runs with
  | zero =>
    constructor
    · intro hash reached hashLt
      omega
    · exact (List.append_nil _).symm
  | succ runs ih =>
    have follows := ih (by omega)
    have range : hashRange (32 * runs) = (32 * runs, 32 * runs + 32 - 1) := if_pos (by omega)
    simp only at follows ⊢
    rw [List.range_succ, List.foldl_append, List.foldl_cons, List.foldl_nil, range]
    generalize (List.range runs).foldl _ device = mid at follows ⊢
    obtain ⟨memory, entered, words, calls⟩ :=
      calculateNonces_own startnonce base58 seed ringOffset hashed room (32 * runs)
        (32 * runs + 32 - 1) ((spawned runs).nodup_iff.mpr List.nodup_range)
        ((spawned runs).mem_iff.mpr (List.mem_range.mpr item)) mid
    have launch := (follows.congr entered).launch base58 seed _ _ len
      (by omega : 32 * runs ≤ 32 * runs + 32 - 1) (by omega)
    have next : 32 * runs + 32 - 1 + 1 = 32 * (runs + 1) := by omega
    rw [next, UInt64.ofNat_mod_size] at launch
    rw [calls]
    exact launch.congr words

/-- All launches together hash the nonce that the generator hashes, call by call. -/
theorem gpuRingHash_as_cpu (device : Device) :
    (gpuRingHashEnqueueSingle startnonce base58 seed nonces ringOffset ringSize orders
        device).calls gid =
        device.calls gid ++
          hashNonceCalls base58 seed ((startnonce + gid) % 2 ^ 64) cpu ∧
      ∀ hash < 8192, ∀ w < 8,
        (gpuRingHashEnqueueSingle startnonce base58 seed nonces ringOffset ringSize orders
            device).buffer (address ((gid + ringOffset) % ringSize) hash w) =
          leWord (hashNonce base58 seed ((startnonce + gid) % 2 ^ 64) cpu).byte
            (8 * hash + w) := by
  have follows := launches_follow startnonce base58 seed ringOffset hashed room item spawned len
    device 255 (Nat.le_refl 255)
  have range : hashRange (32 * 255) = (32 * 255, 8192) := by decide
  have split : List.range 256 = List.range 255 ++ [255] := List.range_succ
  simp only at follows
  rw [gpuRingHashEnqueueSingle, split, List.foldl_append, List.foldl_cons, List.foldl_nil, range]
  generalize (List.range 255).foldl _ device = mid at follows ⊢
  obtain ⟨memory, entered, words, calls⟩ :=
    calculateNonces_own startnonce base58 seed ringOffset hashed room (32 * 255) 8192
      ((spawned 255).nodup_iff.mpr List.nodup_range)
      ((spawned 255).mem_iff.mpr (List.mem_range.mpr item)) mid
  obtain ⟨hashes, sequence⟩ := (follows.congr entered).finish base58 seed _ _ len (by decide)
  rw [UInt64.ofNat_mod_size] at hashes sequence
  constructor
  · rw [calls, sequence]
  · intro hash hashLt w wLt
    rw [words hash hashLt w wLt, hashes hash hashLt w wLt]
    rfl

end dispatch

/-- A slot behind the wrap of the ring, with the work-items run backwards. -/
theorem wrapped_slot_hashed :
    (gpuRingHashEnqueueSingle 1000 (fun _ => 1) (fun _ => 2) 16 8190 8192
        (fun _ => (List.range 16).reverse) ⟨fun _ => 0, fun _ => []⟩).calls 3 =
        hashNonceCalls (fun _ => 1) (fun _ => 2) 1003 ⟨nonceSize, fun _ => 0⟩ ∧
      (gpuRingHashEnqueueSingle 1000 (fun _ => 1) (fun _ => 2) 16 8190 8192
          (fun _ => (List.range 16).reverse) ⟨fun _ => 0, fun _ => []⟩).buffer (address 1 70 5) =
        leWord (hashNonce (fun _ => 1) (fun _ => 2) 1003 ⟨nonceSize, fun _ => 0⟩).byte 565 := by
  obtain ⟨calls, words⟩ := @gpuRingHash_as_cpu 1000 (fun _ => 1) (fun _ => 2) 16 8190 8192 3
    (by decide) (by decide) 16 (by decide) (fun _ => (List.range 16).reverse)
    (fun _ => List.reverse_perm _) ⟨nonceSize, fun _ => 0⟩ rfl ⟨fun _ => 0, fun _ => []⟩
  have nonce : (1000 + 3) % 2 ^ 64 = 1003 := by decide
  rw [nonce] at calls words
  exact ⟨calls.trans (List.nil_append _), words 70 (by decide) 5 (by decide)⟩

end Pocx.GpuNonces
