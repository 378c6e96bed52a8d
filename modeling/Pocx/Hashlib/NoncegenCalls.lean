import Mathlib.Tactic.IntervalCases
import Pocx.Hashlib.Noncegen

set_option autoImplicit false

namespace Pocx.Hashlib

open ByteStore
open PlotFile (nonceSize)
open Shabal256 (State init absorb close leWord blockAt reg)

/-- A call of `shabal256`, with the blocks of its data. -/
structure ShabalCall where
  blocks : List (Words 16)
  preTerm : Option (Words 16)
  term : Words 16
deriving DecidableEq

def ShabalCall.state (call : ShabalCall) : State :=
  let absorbed := call.blocks.foldl (fun state block => absorb block state) init
  close call.term
    (match call.preTerm with
    | some block => absorb block absorbed
    | none => absorbed)

def ShabalCall.digest (call : ShabalCall) : U8s 32 := Shabal256.digest call.state.b

def callOf (data : Bytes) (preTerm : Option (Words 16)) (term : Words 16) : ShabalCall :=
  ⟨(List.range (data.len / 64)).map (blockAt data), preTerm, term⟩

theorem shabal256_callOf (data : Bytes) (preTerm : Option (Words 16)) (term : Words 16) :
    shabal256 data preTerm term = (callOf data preTerm term).digest := by
  cases preTerm with
  | none => simp only [shabal256, ShabalCall.digest, ShabalCall.state, callOf, List.foldl_map]
  | some block => simp only [shabal256, ShabalCall.digest, ShabalCall.state, callOf, List.foldl_map]

section words

theorem leWord_congr {byte byte' : Nat → UInt8} {word word' : Nat}
    (same : ∀ b < 4, byte (4 * word + b) = byte' (4 * word' + b)) :
    leWord byte word = leWord byte' word' := by
  have byte0 := same 0 (by decide)
  rw [Nat.add_zero, Nat.add_zero] at byte0
  rw [leWord, leWord, byte0, same 1 (by decide), same 2 (by decide), same 3 (by decide)]

/-- A word is put together from its four bytes. -/
theorem word_of_bytes (x : UInt32) :
    x.toUInt8.toUInt32 ||| (x >>> 8).toUInt8.toUInt32 <<< 8 |||
      (x >>> 16).toUInt8.toUInt32 <<< 16 ||| (x >>> 24).toUInt8.toUInt32 <<< 24 = x := by
  apply UInt32.toBitVec_inj.mp
  apply BitVec.eq_of_getLsbD_eq
  intro i iLt
  simp [-UInt32.toUInt32_toUInt8]
  interval_cases i <;> simp

/-- The words of a digest are the last eight of `b`. -/
theorem leWord_digest (b : Words 16) (w : Nat) (wLt : w < 8) :
    leWord (Shabal256.digest b).get w = reg b (8 + w) := by
  have byte (z : Nat) (zLt : z < 4) :
      (Shabal256.digest b).get (4 * w + z) =
        (reg b (8 + w) >>> UInt32.ofNat (8 * z)).toUInt8 := by
    have small : (4 * w + z) % 32 = 4 * w + z := Nat.mod_eq_of_lt (by omega)
    have quarter : (4 * w + z) / 4 = w := by omega
    have offset : (4 * w + z) % 4 = z := by omega
    simp only [U8s.get, Shabal256.digest, Fin.val_ofNat, small, quarter, offset]
  have byte0 := byte 0 (by decide)
  rw [Nat.add_zero] at byte0
  rw [leWord, byte0, byte 1 (by decide), byte 2 (by decide), byte 3 (by decide)]
  exact word_of_bytes (reg b (8 + w))

theorem leWord_xor (byte byte' : Nat → UInt8) (word : Nat) :
    leWord (fun z => byte z ^^^ byte' z) word = leWord byte word ^^^ leWord byte' word := by
  simp only [leWord]
  apply UInt32.toBitVec_inj.mp
  apply BitVec.eq_of_getLsbD_eq
  intro i iLt
  simp
  interval_cases i <;> simp

end words

/-- A loop of rounds that keeps the list of its calls. -/
def logged (round : Bytes → Nat → Bytes) (call : Bytes → Nat → ShabalCall) (ks : List Nat)
    (state : Bytes × List ShabalCall) : Bytes × List ShabalCall :=
  ks.foldl (fun state k => (round state.1 k, state.2 ++ [call state.1 k])) state

section logged

variable (round : Bytes → Nat → Bytes) (call : Bytes → Nat → ShabalCall)

theorem logged_buffer (ks : List Nat) (state : Bytes × List ShabalCall) :
    (logged round call ks state).1 = ks.foldl round state.1 := by
  induction ks generalizing state with
  | nil => rfl
  | cons k ks ih =>
    rw [List.foldl_cons]
    exact ih _

theorem logged_append (ks ks' : List Nat) (state : Bytes × List ShabalCall) :
    logged round call (ks ++ ks') state =
      logged round call ks' (logged round call ks state) := List.foldl_append

theorem logged_map (f : Nat → Nat) (ks : List Nat) (state : Bytes × List ShabalCall) :
    logged round call (ks.map f) state =
      logged (fun buffer k => round buffer (f k)) (fun buffer k => call buffer (f k)) ks state :=
  List.foldl_map

theorem logged_congr (round' : Bytes → Nat → Bytes) (call' : Bytes → Nat → ShabalCall)
    (ks : List Nat) (state : Bytes × List ShabalCall)
    (same : ∀ k ∈ ks, ∀ buffer, round buffer k = round' buffer k ∧ call buffer k = call' buffer k) :
    logged round call ks state = logged round' call' ks state := by
  apply List.foldl_ext
  intro state k listed
  rw [(same k listed state.1).1, (same k listed state.1).2]

theorem countdown (total early late : Nat) :
    (List.range (1 + early + late)).map (fun k => total - k) =
      total :: ((List.range early).map fun k => total - 1 - k) ++
        (List.range late).map fun k => total - (1 + early) - k := by
  rw [List.range_add, List.range_add, List.map_append, List.map_append, List.map_map, List.map_map,
    List.range_one, List.map_singleton, Nat.sub_zero, List.singleton_append]
  congr 1
  · congr 1
    apply List.map_congr_left
    intro k _
    simp only [Function.comp_apply]
    omega
  · apply List.map_congr_left
    intro k _
    simp only [Function.comp_apply]
    omega

/-- A first round and two loops, counted down as one. -/
theorem logged_countdown (total early late : Nat) (state : Bytes × List ShabalCall) :
    logged round call ((List.range (1 + early + late)).map fun k => total - k) state =
      logged (fun buffer k => round buffer (total - (1 + early) - k))
        (fun buffer k => call buffer (total - (1 + early) - k)) (List.range late)
        (logged (fun buffer k => round buffer (total - 1 - k))
          (fun buffer k => call buffer (total - 1 - k)) (List.range early)
          (round state.1 total, state.2 ++ [call state.1 total])) := by
  rw [countdown, logged_append, logged_map]
  congr 1
  exact logged_map round call (fun k => total - 1 - k) (List.range early) _

end logged

section calls

variable (addressPayload : U8s 20) (seed : U8s 32) (nonce : Nat)

/-- The call of round 1. -/
def firstCall : ShabalCall := callOf ⟨0, fun _ => 0⟩ none (t1 addressPayload seed nonce)

/-- The call of rounds 2 to 128. -/
def earlyCall (firstHash : U8s 32) (buffer : Bytes) (k : Nat) : ShabalCall :=
  let i := nonceSize - hashSize * (k + 1)
  let data := window buffer i nonceSize
  if i % 64 = 0 then callOf data none (t1 addressPayload seed nonce)
  else callOf data (some (pt2 seed firstHash)) (t2 addressPayload nonce)

/-- The call of the later rounds. -/
def lateCall (buffer : Bytes) (k : Nat) : ShabalCall :=
  let i := nonceSize - hashCap - hashSize * k
  callOf (window buffer i (i + hashCap)) none t3

/-- The call for the final hash. -/
def finalCall (rounds : Bytes) : ShabalCall :=
  callOf (window rounds 0 nonceSize) none (t1 addressPayload seed nonce)

/-- The loops of the rounds, with their calls. -/
def loggedRounds (buffer : Bytes) : Bytes × List ShabalCall :=
  let firstHash := (firstCall addressPayload seed nonce).digest
  let first := writeAt buffer (nonceSize - hashSize) firstHash.bytes
  let early := logged (earlyRound addressPayload seed nonce firstHash)
    (earlyCall addressPayload seed nonce firstHash) (List.range (hashCap / hashSize - 1))
    (first, [firstCall addressPayload seed nonce])
  logged lateRound lateCall (List.range ((nonceSize - hashCap) / hashSize)) early

/-- All calls of `shabal256` for one nonce, in order. -/
def hashNonceCalls (buffer : Bytes) : List ShabalCall :=
  let rounds := loggedRounds addressPayload seed nonce buffer
  rounds.2 ++ [finalCall addressPayload seed nonce rounds.1]

theorem loggedRounds_buffer (buffer : Bytes) :
    (loggedRounds addressPayload seed nonce buffer).1 =
      hashRounds addressPayload seed nonce buffer := by
  rw [loggedRounds, logged_buffer, logged_buffer, firstCall, ← shabal256_callOf]
  rfl

/-- The final hash is that of the last call. -/
theorem hashNonce_calls (buffer : Bytes) :
    hashNonce addressPayload seed nonce buffer =
      xorFinal (loggedRounds addressPayload seed nonce buffer).1
        (finalCall addressPayload seed nonce
          (loggedRounds addressPayload seed nonce buffer).1).digest := by
  rw [finalCall, ← shabal256_callOf, loggedRounds_buffer]
  rfl

/-- The call behind which `hash` hashes are still missing. -/
def callAt (buffer : Bytes) (hash : Nat) : ShabalCall :=
  if hash = 8192 then firstCall addressPayload seed nonce
  else if 8064 < hash then
    earlyCall addressPayload seed nonce (firstCall addressPayload seed nonce).digest buffer
      (8191 - hash)
  else if 0 < hash then lateCall buffer (8064 - hash)
  else finalCall addressPayload seed nonce buffer

def roundAt (buffer : Bytes) (hash : Nat) : Bytes :=
  writeAt buffer (hashSize * (hash - 1)) (callAt addressPayload seed nonce buffer hash).digest.bytes

/-- The first `n` rounds, counted by the hashes that are missing. -/
def roundsTo (buffer : Bytes) (n : Nat) : Bytes × List ShabalCall :=
  logged (roundAt addressPayload seed nonce) (callAt addressPayload seed nonce)
    ((List.range n).map fun k => 8192 - k) (buffer, [])

theorem roundsTo_succ (buffer : Bytes) (n : Nat) :
    roundsTo addressPayload seed nonce buffer (n + 1) =
      (roundAt addressPayload seed nonce (roundsTo addressPayload seed nonce buffer n).1 (8192 - n),
        (roundsTo addressPayload seed nonce buffer n).2 ++
          [callAt addressPayload seed nonce (roundsTo addressPayload seed nonce buffer n).1
            (8192 - n)]) := by
  rw [roundsTo, List.range_succ, List.map_append, logged_append]
  rfl

theorem earlyRound_at (buffer : Bytes) (k : Nat) (kLt : k < 127) :
    earlyRound addressPayload seed nonce (firstCall addressPayload seed nonce).digest buffer k =
        roundAt addressPayload seed nonce buffer (8191 - k) ∧
      earlyCall addressPayload seed nonce (firstCall addressPayload seed nonce).digest buffer k =
        callAt addressPayload seed nonce buffer (8191 - k) := by
  have notFirst : ¬ 8191 - k = 8192 := by omega
  have early : 8064 < 8191 - k := by omega
  have turn : 8191 - (8191 - k) = k := by omega
  have size : nonceSize = 262144 := by decide
  have place : nonceSize - hashSize * (k + 1) - hashSize = hashSize * (8191 - k - 1) := by
    rw [size, hashSize]
    omega
  rw [roundAt, callAt, if_neg notFirst, if_pos early, turn, ← place]
  refine ⟨?_, rfl⟩
  simp only [earlyRound, earlyCall]
  split
  · rw [shabal256_callOf]
  · rw [shabal256_callOf]

theorem lateRound_at (buffer : Bytes) (k : Nat) (kLt : k < 8064) :
    lateRound buffer k = roundAt addressPayload seed nonce buffer (8064 - k) ∧
      lateCall buffer k = callAt addressPayload seed nonce buffer (8064 - k) := by
  have notFirst : ¬ 8064 - k = 8192 := by omega
  have late : ¬ 8064 < 8064 - k := by omega
  have notFinal : 0 < 8064 - k := by omega
  have turn : 8064 - (8064 - k) = k := by omega
  have size : nonceSize = 262144 := by decide
  have place : nonceSize - hashCap - hashSize * k - hashSize = hashSize * (8064 - k - 1) := by
    rw [size, hashSize, hashCap]
    omega
  rw [roundAt, callAt, if_neg notFirst, if_neg late, if_pos notFinal, turn, ← place]
  refine ⟨?_, rfl⟩
  rw [lateRound, lateCall, shabal256_callOf]

/-- The two loops go through the rounds without a gap. -/
theorem loggedRounds_roundsTo (buffer : Bytes) :
    loggedRounds addressPayload seed nonce buffer =
      roundsTo addressPayload seed nonce buffer 8192 := by
  have early : hashCap / hashSize - 1 = 127 := by decide
  have late : (nonceSize - hashCap) / hashSize = 8064 := by decide
  have counted := logged_countdown (roundAt addressPayload seed nonce)
    (callAt addressPayload seed nonce) 8192 127 8064 (buffer, [])
  rw [← logged_congr _ _ _ _ (List.range 8064) _ fun k listed buffer =>
      lateRound_at addressPayload seed nonce buffer k (List.mem_range.mp listed),
    ← logged_congr _ _ _ _ (List.range 127) _ fun k listed buffer =>
      earlyRound_at addressPayload seed nonce buffer k (List.mem_range.mp listed)] at counted
  rw [loggedRounds, early, late]
  exact counted.symm

/-- Word `w` of hash `hash` of a nonce. -/
def hashWord (buffer : Bytes) (hash w : Nat) : UInt32 := leWord buffer.byte (8 * hash + w)

theorem roundAt_len {buffer : Bytes} (len : buffer.len = nonceSize) {hash : Nat}
    (hashLe : hash ≤ 8192) (positive : 0 < hash) :
    (roundAt addressPayload seed nonce buffer hash).len = nonceSize := by
  have size : nonceSize = 262144 := by decide
  rw [roundAt, writeAt_within, len]
  rw [len, size, hashSize]
  simp only [U8s.bytes]
  omega

/-- A round puts its digest in front of the hashes. -/
theorem roundAt_new (buffer : Bytes) {hash w : Nat} (wLt : w < 8) :
    hashWord (roundAt addressPayload seed nonce buffer hash) (hash - 1) w =
      leWord (callAt addressPayload seed nonce buffer hash).digest.get w := by
  apply leWord_congr
  intro b bLt
  rw [roundAt, writeAt_inside]
  · have place : 4 * (8 * (hash - 1) + w) + b - hashSize * (hash - 1) = 4 * w + b := by
      rw [hashSize]
      omega
    rw [place]
    rfl
  · rw [hashSize]
    omega
  · simp only [U8s.bytes, hashSize]
    omega

theorem roundAt_old {buffer : Bytes} (len : buffer.len = nonceSize) {hash later w : Nat}
    (behind : hash ≤ later) (positive : 0 < hash) (laterLt : later < 8192) (wLt : w < 8) :
    hashWord (roundAt addressPayload seed nonce buffer hash) later w = hashWord buffer later w := by
  have size : nonceSize = 262144 := by decide
  apply leWord_congr
  intro b bLt
  rw [roundAt, writeAt_outside]
  · rw [len, size]
    omega
  · right
    simp only [U8s.bytes, hashSize]
    omega

theorem roundsTo_len {buffer : Bytes} (len : buffer.len = nonceSize) {n : Nat} (nLe : n ≤ 8192) :
    (roundsTo addressPayload seed nonce buffer n).1.len = nonceSize := by
  induction n with
  | zero => exact len
  | succ n ih =>
    rw [roundsTo_succ]
    exact roundAt_len addressPayload seed nonce (ih (by omega)) (by omega) (by omega)

/-- The first hash stays at the end of the buffer. -/
theorem roundsTo_first {buffer : Bytes} (len : buffer.len = nonceSize) {n : Nat} (positive : 0 < n)
    (nLe : n ≤ 8192) {w : Nat} (wLt : w < 8) :
    hashWord (roundsTo addressPayload seed nonce buffer n).1 8191 w =
      leWord (firstCall addressPayload seed nonce).digest.get w := by
  induction n with
  | zero => cases positive
  | succ n ih =>
    rw [roundsTo_succ]
    by_cases first : n = 0
    · subst first
      exact roundAt_new addressPayload seed nonce buffer wLt
    · rw [roundAt_old addressPayload seed nonce (roundsTo_len addressPayload seed nonce len (by omega))
        (by omega) (by omega) (by decide) wLt]
      exact ih (by omega) (by omega)

theorem xorFinal_word (buffer : Bytes) (final : U8s 32) {hash w : Nat} (hashLt : hash < 8192)
    (wLt : w < 8) :
    hashWord (xorFinal buffer final) hash w = hashWord buffer hash w ^^^ leWord final.get w := by
  have size : nonceSize = 262144 := by decide
  have column : leWord final.get w = leWord final.get (8 * hash + w) := by
    apply leWord_congr
    intro b bLt
    have same : (4 * (8 * hash + w) + b) % 32 = (4 * w + b) % 32 := by omega
    have index : Fin.ofNat 32 (4 * (8 * hash + w) + b) = Fin.ofNat 32 (4 * w + b) := Fin.ext same
    rw [U8s.get, U8s.get, index]
  rw [column, hashWord, hashWord, ← leWord_xor]
  apply leWord_congr
  intro b bLt
  have inside : 4 * (8 * hash + w) + b < nonceSize := by
    rw [size]
    omega
  simp only [xorFinal, inside, ↓reduceIte]

/-- The data of a call is made up of the words of two hashes a block. -/
theorem blockAt_window (buffer : Bytes) (hash stop k : Nat) :
    blockAt (window buffer (hashSize * hash) stop) k =
      Vector.ofFn fun i : Fin 16 =>
        if i.val < 8 then hashWord buffer (hash + 2 * k) i
        else hashWord buffer (hash + 2 * k + 1) (i - 8) := by
  apply Vector.ext
  intro i iLt
  have place : leWord (window buffer (hashSize * hash) stop).byte (16 * k + i) =
      leWord buffer.byte (8 * hash + (16 * k + i)) := by
    apply leWord_congr
    intro b bLt
    have here : hashSize * hash + (4 * (16 * k + i) + b) =
        4 * (8 * hash + (16 * k + i)) + b := by
      rw [hashSize]
      omega
    simp only [window, here]
  rw [blockAt, Vector.getElem_ofFn, Vector.getElem_ofFn, place]
  by_cases low : i < 8
  · have here : 8 * hash + (16 * k + i) = 8 * (hash + 2 * k) + i := by omega
    rw [if_pos low, here, hashWord]
  · have here : 8 * hash + (16 * k + i) = 8 * (hash + 2 * k + 1) + (i - 8) := by omega
    rw [if_neg low, here, hashWord]

end calls

end Pocx.Hashlib
