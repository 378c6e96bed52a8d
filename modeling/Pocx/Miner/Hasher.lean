import Pocx.Hashlib.Levels
import Pocx.Hashlib.Quality

set_option autoImplicit false

namespace Pocx.Hasher

open ByteStore
open PlotFile (scoopSize numScoops)
open Hashlib

/-- `hex::encode` -/
def hexEncode {n : Nat} (bytes : U8s n) : String :=
  String.ofList ((List.ofFn bytes).flatMap fun byte =>
    [Nat.digitChar (byte.toNat / 16), Nat.digitChar (byte.toNat % 16)])

structure HashingTask where
  buffer : Bytes
  chainId : Nat
  chainName : String
  blockCount : Nat
  generationSignatureBytes : U8s 32
  accountId : String
  seed : String
  blockHash : String
  blockHeight : Nat
  baseTarget : UInt64
  startWarp : Nat
  numberOfWarps : Nat
  compressionLevel : Nat

structure NonceSubmission where
  blockHash : String
  accountId : String
  seed : String
  nonce : Nat
  blockHeight : Nat
  generationSignature : String
  baseTarget : UInt64
  rawQuality : UInt64
  compression : Nat
deriving DecidableEq

structure SubmissionParameters where
  chain : String
  blockCount : Nat
  nonceSubmission : NonceSubmission
deriving DecidableEq

/-- What a hasher sends for its best quality and offset. -/
def submission (task : HashingTask) (best : UInt64 × Nat) : Nat × SubmissionParameters :=
  (task.chainId,
    { chain := task.chainName
      blockCount := task.blockCount
      nonceSubmission :=
        { blockHash := task.blockHash
          accountId := task.accountId
          seed := task.seed
          nonce := task.startWarp * numScoops + best.2
          blockHeight := task.blockHeight
          generationSignature := hexEncode task.generationSignatureBytes
          baseTarget := task.baseTarget
          rawQuality := best.1
          compression := task.compressionLevel } })

/-- `calc_qualities`: what it sends over `tx_nonce_data`. -/
def calcQualities (platform : Platform) (task : HashingTask) : Nat × SubmissionParameters :=
  submission task
    (findBestQuality platform task.buffer (task.numberOfWarps * numScoops)
      task.generationSignatureBytes)

/-- A buffer holds the scoops of a level, warp after warp from `startWarp` on. -/
structure HoldsLevel (buffer : Bytes) (startWarp numberOfWarps compressionLevel : Nat)
    (addressPayload : U8s 20) (seed : U8s 32) (scoop : Nat) : Prop where
  whole : numberOfWarps * numScoops * scoopSize ≤ buffer.len
  scoops : ∀ warp nonce, warp < numberOfWarps → nonce < numScoops →
    scoopAt buffer ((warp * numScoops + nonce) * scoopSize) =
      levelScoop generateAndExtractScoop32 addressPayload seed scoop
        ((startWarp + warp) * numScoops + nonce) compressionLevel

theorem calculateQualityRaw_level (platform : Platform) (addressPayload : U8s 20)
    (seed : U8s 32) (nonce compression scoop : Nat) (gensig : U8s 32)
    (scoopLt : scoop < numScoops) :
    calculateQualityRaw platform addressPayload seed nonce compression scoop gensig =
      .ok (shabal256Lite (levelScoop generateAndExtractScoop32 addressPayload seed scoop nonce
        compression) gensig) := by
  rw [calculateQualityRaw, if_neg (Nat.not_le.mpr scoopLt),
    generateScoop_level generateAndExtractScoop32 addressPayload seed scoop
      (generateNonces_single platform) scoopLt]
  simp only [Except.map, findBestQuality_single]

/-- What is submitted is the quality of the nonce it names, and no nonce of the task has
a better one. -/
theorem calcQualities_valid (platform reference : Platform) (task : HashingTask)
    (addressPayload : U8s 20) (seed : U8s 32) (scoop : Nat) (scoopLt : scoop < numScoops)
    (holds : HoldsLevel task.buffer task.startWarp task.numberOfWarps task.compressionLevel
      addressPayload seed scoop)
    (positive : 0 < task.numberOfWarps) :
    let sent := (calcQualities platform task).2.nonceSubmission
    calculateQualityRaw reference addressPayload seed sent.nonce sent.compression scoop
        task.generationSignatureBytes = .ok sent.rawQuality ∧
      task.startWarp * numScoops ≤ sent.nonce ∧
      sent.nonce < (task.startWarp + task.numberOfWarps) * numScoops := by
  intro sent
  have found := findBestQuality_least platform task.buffer (task.numberOfWarps * numScoops)
    task.generationSignatureBytes (Nat.mul_pos positive (by decide)) holds.whole
  have nonce : sent.nonce = task.startWarp * numScoops +
      (findBestQuality platform task.buffer (task.numberOfWarps * numScoops)
        task.generationSignatureBytes).2 := rfl
  have quality : sent.rawQuality =
      (findBestQuality platform task.buffer (task.numberOfWarps * numScoops)
        task.generationSignatureBytes).1 := rfl
  rw [nonce, quality]
  generalize findBestQuality platform task.buffer (task.numberOfWarps * numScoops)
    task.generationSignatureBytes = best at found
  have warpLt : best.2 / numScoops < task.numberOfWarps :=
    (Nat.div_lt_iff_lt_mul (by decide)).mpr found.inside
  have split : best.2 / numScoops * numScoops + best.2 % numScoops = best.2 := by
    rw [Nat.mul_comm]
    exact Nat.div_add_mod _ _
  have address : task.startWarp * numScoops + best.2 =
      (task.startWarp + best.2 / numScoops) * numScoops + best.2 % numScoops := by
    rw [Nat.add_mul, Nat.add_assoc, split]
  have scoopEq := holds.scoops (best.2 / numScoops) (best.2 % numScoops) warpLt
    (Nat.mod_lt _ (by decide))
  rw [split] at scoopEq
  refine ⟨?_, Nat.le_add_right _ _, ?_⟩
  · rw [calculateQualityRaw_level reference _ _ _ _ _ _ scoopLt, ← found.attained, scoopQuality,
      scoopEq, address]
    rfl
  · rw [Nat.add_mul]
    exact Nat.add_lt_add_left found.inside _

end Pocx.Hasher
