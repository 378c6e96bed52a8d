import Mathlib.Data.List.Nodup
import Mathlib.Data.List.ProdSigma
import Pocx.Hashlib.Shabal256
import Pocx.Lib.Scatter

set_option autoImplicit false

namespace Pocx.Hashlib

open ByteStore
open PlotFile (scoopSize numScoops nonceSize)
open Shabal256 (leWord)

def hashSize : Nat := 32

def hashCap : Nat := 4096

/-- Byte `i` of a `u64` in big-endian order. -/
def beByte (value i : Nat) : UInt8 := (value >>> (8 * (7 - i))).toUInt8

section Rounds

variable (addressPayload : U8s 20) (seed : U8s 32) (nonce : Nat)

def t1 : Words 16 :=
  Vector.ofFn fun i =>
    if i.val < 8 then leWord seed.get i
    else if i.val < 13 then leWord addressPayload.get (i - 8)
    else if i.val < 15 then leWord (beByte nonce) (i - 13)
    else 0x80

def t2 : Words 16 :=
  Vector.ofFn fun i =>
    if i.val < 5 then leWord addressPayload.get i
    else if i.val < 7 then leWord (beByte nonce) (i - 5)
    else if i.val = 7 then 0x80
    else 0

/-- The pretermination block: the first hash, then the seed. -/
def pt2 (hash : U8s 32) : Words 16 :=
  Vector.ofFn fun i => if i.val < 8 then leWord hash.get i else leWord seed.get (i - 8)

def t3 : Words 16 := Vector.ofFn fun i => if i.val = 0 then 0x80 else 0

/-- The bytes `start ..< stop` of a buffer. -/
def window (buffer : Bytes) (start stop : Nat) : Bytes :=
  ⟨stop - start, fun i => buffer.byte (start + i)⟩

/-- Rounds 2 to 128, which read all that is hashed so far. -/
def earlyRound (firstHash : U8s 32) (buffer : Bytes) (k : Nat) : Bytes :=
  let i := nonceSize - hashSize * (k + 1)
  let data := window buffer i nonceSize
  let hash :=
    if i % 64 = 0 then shabal256 data none (t1 addressPayload seed nonce)
    else shabal256 data (some (pt2 seed firstHash)) (t2 addressPayload nonce)
  writeAt buffer (i - hashSize) hash.bytes

/-- The later rounds, which read the last `HASH_CAP` bytes. -/
def lateRound (buffer : Bytes) (k : Nat) : Bytes :=
  let i := nonceSize - hashCap - hashSize * k
  writeAt buffer (i - hashSize) (shabal256 (window buffer i (i + hashCap)) none t3).bytes

/-- All rounds of one nonce. -/
def hashRounds (buffer : Bytes) : Bytes :=
  let firstHash := shabal256 ⟨0, fun _ => 0⟩ none (t1 addressPayload seed nonce)
  let first := writeAt buffer (nonceSize - hashSize) firstHash.bytes
  let early := (List.range (hashCap / hashSize - 1)).foldl
    (earlyRound addressPayload seed nonce firstHash) first
  (List.range ((nonceSize - hashCap) / hashSize)).foldl lateRound early

/-- XOR with the final hash. -/
def xorFinal (buffer : Bytes) (final : U8s 32) : Bytes :=
  { buffer with
    byte := fun i => if i < nonceSize then buffer.byte i ^^^ final.get i else buffer.byte i }

/-- The body of the nonce generators up to the shuffle. -/
def hashNonce (buffer : Bytes) : Bytes :=
  let rounds := hashRounds addressPayload seed nonce buffer
  xorFinal rounds (shabal256 (window rounds 0 nonceSize) none (t1 addressPayload seed nonce))

end Rounds

/-- The four-byte copy at `i`, `j` and `k`, byte `b` of it. -/
abbrev Copy := Nat × Nat × Nat × Nat

def copies (vectorSize : Nat) : List Copy :=
  List.range (numScoops * 2) ×ˢ List.range 8 ×ˢ List.range vectorSize ×ˢ List.range 4

/-- `data_offset`, with `4 * j` for the source's `j`. -/
def dataOffset (targetSize targetOffset : Nat) (copy : Copy) : Nat :=
  let (i, j, k, _) := copy
  (i % 2 * (4095 - i / 2) + (i + 1) % 2 * (i / 2)) * scoopSize * targetSize +
    (k + targetOffset) * scoopSize + i % 2 * 32 + 4 * j

/-- `buffer_offset` -/
def bufferOffset (vectorSize : Nat) (copy : Copy) : Nat :=
  let (i, j, k, _) := copy
  (i * 32 + 4 * j) * vectorSize + k * 4

/-- `unpack_shuffle_scatter` -/
def unpackShuffleScatter (source target : Bytes) (targetOffset vectorSize : Nat) : Bytes :=
  let targetSize := target.len / nonceSize
  { target with
    byte :=
      Scatter.run
        (fun copy =>
          !(decide (target.len < dataOffset targetSize targetOffset copy + 4) ||
            decide (source.len < bufferOffset vectorSize copy + 4)))
        (fun copy => dataOffset targetSize targetOffset copy + copy.2.2.2)
        (fun copy _ => source.byte (bufferOffset vectorSize copy + copy.2.2.2))
        target.byte (copies vectorSize) }

/-- `extract_scoop_from_interleaved` -/
def extractScoopFromInterleaved (source : Bytes) (vectorSize lane scoop : Nat) : Scoop :=
  let hashIdxFirst := 2 * scoop
  let hashIdxSecond := (4095 - scoop) * 2 + 1
  ⟨fun z =>
    let hashIdx := if z.val < 32 then hashIdxFirst else hashIdxSecond
    let j := z.val % 32 / 4 * 4
    source.byte ((hashIdx * 32 + j) * vectorSize + lane * 4 + z % 4)⟩

/-- `generate_nonces_32`. The buffer is not cleared between two nonces. -/
def generateNonces32 (cache : Bytes) (cacheOffset : Nat) (addressPayload : U8s 20) (seed : U8s 32)
    (startNonce numNonces : Nat) : Bytes :=
  ((List.range numNonces).foldl
    (fun (state : Bytes × Bytes) n =>
      let buffer := hashNonce addressPayload seed (startNonce + n) state.2
      (unpackShuffleScatter buffer state.1 (cacheOffset + n) 1, buffer))
    (cache, ⟨nonceSize, fun _ => 0⟩)).1

/-- `generate_and_extract_scoop_32` -/
def generateAndExtractScoop32 (addressPayload : U8s 20) (seed : U8s 32) (nonce scoop : Nat) :
    Scoop :=
  extractScoopFromInterleaved
    (hashNonce addressPayload seed nonce ⟨nonceSize, fun _ => 0⟩) 1 0 scoop

/-- The targets the library is built for, with what is detected at run time. -/
inductive Target
  | x86 (avx512f avx2 avx sse2 : Bool)
  | aarch64
  | other

/-- The SIMD width of a target, as `detect_simd_width` reports it. -/
def Target.simdWidth : Target → Nat
  | .x86 avx512f avx2 avx sse2 =>
    if avx512f then 16 else if avx2 then 8 else if avx || sse2 then 4 else 1
  | .aarch64 => 4
  | .other => 1

/-- The column where the remainder starts. On AArch64 it is computed in bytes. -/
def Target.remainderOffset (target : Target) (cacheOffset simdNonces : Nat) : Nat :=
  match target with
  | .aarch64 => cacheOffset + simdNonces * nonceSize
  | .x86 .. | .other => cacheOffset + simdNonces

/-- A target and, for each width, one turn of the loop of its vector path of
`generate_nonces`, which puts the nonces of all lanes into a cache. -/
structure Platform where
  target : Target
  vectorTurn : Nat → Bytes → Nat → U8s 20 → U8s 32 → Nat → Bytes

/-- `generate_nonces`. The size is computed in 64 bits. -/
def generateNonces (platform : Platform) : GenerateNonces (U8s 20) (U8s 32) :=
  fun cache cacheOffset addressPayload seed startNonce numNonces =>
    let requiredSize := (cacheOffset + numNonces * nonceSize) % 2 ^ 64
    if cache.len < requiredSize then .error (.bufferSizeError requiredSize cache.len)
    else
      let width := platform.target.simdWidth
      if width = 1 then
        .ok (generateNonces32 cache cacheOffset addressPayload seed startNonce numNonces)
      else
        let simdNonces := numNonces / width * width
        let remainder := numNonces % width
        let vectored := (List.range (numNonces / width)).foldl
          (fun cache n =>
            platform.vectorTurn width cache (cacheOffset + n * width) addressPayload seed
              (startNonce + n * width))
          cache
        if 0 < remainder then
          .ok (generateNonces32 vectored (platform.target.remainderOffset cacheOffset simdNonces)
            addressPayload seed (startNonce + simdNonces) remainder)
        else .ok vectored

end Pocx.Hashlib
