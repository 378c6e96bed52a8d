import Pocx.Miner.Hasher

set_option autoImplicit false

namespace Pocx.Ocl

open ByteStore
open PlotFile (scoopSize numScoops)
open Hashlib Hashlib.Shabal256
open Hasher (HashingTask SubmissionParameters submission calcQualities)

/-- The blocks `M0` to `MF` of a work-item, from the words of its scoop. -/
def firstBlock (word : Nat → UInt32) (gensig : U8s 32) : Words 16 := halves (leWord gensig.get) word

def secondBlock (word : Nat → UInt32) : Words 16 :=
  halves (fun i => word (8 + i)) fun i => if i = 0 then 0x80 else 0

/-- The three rounds of the finalization and the quality. -/
def finalization (block : Words 16) (state : State) : UInt64 :=
  qualityOf (finalRound block (finalRound block (finalRound block state))).b

/-- `find_best_quality` of the kernel. Both blocks end with `INPUT_BLOCK_SUB`, `SWAP_BC` and
`INCR_W`. -/
def kernelQuality (word : Nat → UInt32) (gensig : U8s 32) : UInt64 :=
  finalization (secondBlock word) (absorb (secondBlock word) (absorb (firstBlock word gensig) init))

/-- The context, with what the results buffer still holds. -/
structure GpuContext where
  maxNonces : Nat
  resultsBuffer : Nat → UInt64

/-- The words that work-item `gid` reads; `scoop_offset` is a `uint`. -/
def workItemWord (data : Bytes) (gid i : Nat) : UInt32 :=
  leWord data.byte (gid * 16 % 2 ^ 32 + i)

/-- The results buffer behind the run. The kernel gets `num_nonces` as a `uint`. -/
def GpuContext.results (gpu : GpuContext) (data : Bytes) (gensig : U8s 32) (numNonces i : Nat) :
    UInt64 :=
  if i < numNonces % 2 ^ 32 then kernelQuality (workItemWord data i) gensig
  else gpu.resultsBuffer i

/-- `process_task`: what it sends over `tx_nonce_data`. -/
def GpuContext.processTask (gpu : GpuContext) (platform : Platform) (task : HashingTask) :
    Nat × SubmissionParameters :=
  let numNonces := task.numberOfWarps * numScoops
  if gpu.maxNonces < numNonces then calcQualities platform task
  else
    submission task
      (ArgMin.search (gpu.results task.buffer task.generationSignatureBytes numNonces) 0 numNonces
        (UInt64.ofNat (2 ^ 64 - 1), 0))

/-- What `process_task` leaves in the results buffer. -/
def GpuContext.resultsAfter (gpu : GpuContext) (task : HashingTask) : Nat → UInt64 :=
  let numNonces := task.numberOfWarps * numScoops
  if gpu.maxNonces < numNonces then gpu.resultsBuffer
  else gpu.results task.buffer task.generationSignatureBytes numNonces

/-- Whichever side has computed it, what is sent names the task it is for. -/
theorem processTask_submission (gpu : GpuContext) (platform : Platform) (task : HashingTask) :
    ∃ best, gpu.processTask platform task = submission task best := by
  simp only [GpuContext.processTask]
  split
  · exact ⟨_, rfl⟩
  · exact ⟨_, rfl⟩

theorem halves_congr (first second first' second' : Nat → UInt32)
    (sameFirst : ∀ i < 8, first i = first' i) (sameSecond : ∀ i < 8, second i = second' i) :
    halves first second = halves first' second' := by
  apply Vector.ext
  intro i iLt
  rw [halves, halves, Vector.getElem_ofFn, Vector.getElem_ofFn]
  split
  · rename_i low
    exact sameFirst i low
  · exact sameSecond (i - 8) (by omega)

/-- The words of a scoop. -/
def scoopWord (scoop : Scoop) : Nat → UInt32 := leWord (U8s.get scoop.byte)

/-- A work-item reads the scoop of its id, modulo `2 ^ 28`. -/
theorem kernelQuality_workItem (data : Bytes) (gensig : U8s 32) (gid : Nat) :
    kernelQuality (workItemWord data gid) gensig =
      kernelQuality (scoopWord (scoopAt data (gid % 2 ^ 28 * scoopSize))) gensig := by
  have wrapped : gid * 16 % 2 ^ 32 = gid % 2 ^ 28 * 16 := by omega
  have word (i : Nat) (iLt : i < 16) : workItemWord data gid i =
      scoopWord (scoopAt data (gid % 2 ^ 28 * scoopSize)) i := by
    rw [workItemWord, wrapped, scoopWord, ShabalLanes.leWord_scoopAt _ _ _ iLt]
  have first : firstBlock (workItemWord data gid) gensig =
      firstBlock (scoopWord (scoopAt data (gid % 2 ^ 28 * scoopSize))) gensig :=
    halves_congr _ _ _ _ (fun _ _ => rfl) fun i iLt => word i (by omega)
  have second : secondBlock (workItemWord data gid) =
      secondBlock (scoopWord (scoopAt data (gid % 2 ^ 28 * scoopSize))) :=
    halves_congr _ _ _ _ (fun i iLt => word (8 + i) (by omega)) fun _ _ => rfl
  rw [kernelQuality, kernelQuality, first, second]

/-- The state that the CPU hands to the finalization: the second block is permuted, and
neither subtracted nor swapped. -/
def permuted (scoop : Scoop) (gensig : U8s 32) : State :=
  applyP (secondBlock (scoopWord scoop)) (xorW (inputBlockAdd (secondBlock (scoopWord scoop))
    (absorb (firstBlock (scoopWord scoop) gensig) init)))

theorem shabal256Lite_finalization (scoop : Scoop) (gensig : U8s 32) :
    shabal256Lite scoop gensig =
      finalization (secondBlock (scoopWord scoop)) (permuted scoop gensig) := by
  simp only [shabal256Lite, finalization, permuted, close, secondBlock, firstBlock, scoopWord]

/-- The kernel goes on with the steps between two blocks where the CPU is done with them. -/
theorem kernelQuality_finalization (scoop : Scoop) (gensig : U8s 32) :
    kernelQuality (scoopWord scoop) gensig =
      finalization (secondBlock (scoopWord scoop))
        (incrW (swapBC (inputBlockSub (secondBlock (scoopWord scoop)) (permuted scoop gensig)))) := by
  rw [kernelQuality, permuted, ← absorb]

theorem incrW_wLow (state : State) : (incrW state).wLow = state.wLow + 1 := rfl

theorem swapBC_wLow (state : State) : (swapBC state).wLow = state.wLow := rfl

theorem inputBlockSub_wLow (data : Words 16) (state : State) :
    (inputBlockSub data state).wLow = state.wLow := rfl

/-- The finalization starts from different states on both sides. -/
theorem permuted_ne (scoop : Scoop) (gensig : U8s 32) :
    incrW (swapBC (inputBlockSub (secondBlock (scoopWord scoop)) (permuted scoop gensig))) ≠
      permuted scoop gensig := by
  generalize permuted scoop gensig = state
  intro same
  have counter := congrArg State.wLow same
  rw [incrW_wLow, swapBC_wLow, inputBlockSub_wLow] at counter
  have value := congrArg UInt32.toNat counter
  rw [UInt32.toNat_add] at value
  have small := state.wLow.toNat_lt
  have one : (1 : UInt32).toNat = 1 := rfl
  omega

/-- For every scoop and signature, the finalization of the kernel starts from another state than that
of the CPU. -/
theorem kernel_finalizes_other_state (scoop : Scoop) (gensig : U8s 32) :
    ∃ cpu gpu : State, gpu ≠ cpu ∧
      shabal256Lite scoop gensig = finalization (secondBlock (scoopWord scoop)) cpu ∧
      kernelQuality (scoopWord scoop) gensig = finalization (secondBlock (scoopWord scoop)) gpu :=
  ⟨_, _, permuted_ne scoop gensig, shabal256Lite_finalization scoop gensig,
    kernelQuality_finalization scoop gensig⟩

/-- A task with other scoops and another generation signature. -/
def withScoops (task : HashingTask) (buffer : Bytes) (gensig : U8s 32) : HashingTask :=
  { task with
    buffer := buffer
    generationSignatureBytes := gensig }

/-- For all scoops and generation signatures the GPU sends what the CPU sends. -/
def SendsAlike (gpu : GpuContext) (platform : Platform) (task : HashingTask) : Prop :=
  ∀ (buffer : Bytes) (gensig : U8s 32), task.numberOfWarps * numScoops * scoopSize ≤ buffer.len →
    gpu.processTask platform (withScoops task buffer gensig) =
      calcQualities platform (withScoops task buffer gensig)

/-- Without nonces the kernel does not run, and with too many the CPU takes the task over. -/
theorem sendsAlike_of_idle {gpu : GpuContext} (platform : Platform) {task : HashingTask}
    (idle : task.numberOfWarps = 0 ∨ gpu.maxNonces < task.numberOfWarps * numScoops) :
    SendsAlike gpu platform task := by
  intro buffer gensig whole
  have nonces : (withScoops task buffer gensig).numberOfWarps = task.numberOfWarps := rfl
  rcases idle with none | many
  · have fits : ¬ gpu.maxNonces < 0 := Nat.not_lt_zero _
    have empty : 0 * scoopSize ≤ (withScoops task buffer gensig).buffer.len := by
      rw [Nat.zero_mul]
      exact Nat.zero_le _
    simp only [GpuContext.processTask, nonces, none, Nat.zero_mul, if_neg fits, calcQualities,
      ArgMin.search_zero]
    rw [findBestQuality_eq platform _ 0 _ empty, ArgMin.search_zero]
  · simp only [GpuContext.processTask, nonces, if_pos many]

def zeroScoop : Scoop := ⟨fun _ => 0⟩

/-- Scoops of zeros. -/
def zeroScoops (numNonces : Nat) : Bytes := ⟨numNonces * scoopSize, fun _ => 0⟩

theorem zeroScoops_scoop (numNonces i : Nat) :
    scoopAt (zeroScoops numNonces) (i * scoopSize) = zeroScoop := rfl

def zeroSignature : U8s 32 := fun _ => 0

def oneSignature : U8s 32 := fun _ => 1

theorem zeroSignature_kernelQuality :
    kernelQuality (scoopWord zeroScoop) zeroSignature ≠ shabal256Lite zeroScoop zeroSignature := by
  decide +kernel

theorem oneSignature_kernelQuality :
    kernelQuality (scoopWord zeroScoop) oneSignature ≠ shabal256Lite zeroScoop oneSignature := by
  decide +kernel

theorem signatures_apart :
    shabal256Lite zeroScoop zeroSignature ≠ shabal256Lite zeroScoop oneSignature := by
  decide +kernel

/-- What is sent alike for scoops of zeros has the quality of their scoop. -/
theorem least_of_same {gpu : GpuContext} {platform : Platform} {task : HashingTask}
    {numNonces : Nat} (count : task.numberOfWarps * numScoops = numNonces)
    (positive : 0 < numNonces) (fits : numNonces ≤ gpu.maxNonces) {gensig : U8s 32}
    (same : gpu.processTask platform (withScoops task (zeroScoops numNonces) gensig) =
      calcQualities platform (withScoops task (zeroScoops numNonces) gensig)) :
    ∃ best, ArgMin.Least (gpu.results (zeroScoops numNonces) gensig numNonces) numNonces best ∧
      best.1 = shabal256Lite zeroScoop gensig := by
  have least := ArgMin.search_least (gpu.results (zeroScoops numNonces) gensig numNonces) numNonces
    (UInt64.ofNat (2 ^ 64 - 1)) positive fun _ _ => le_maxQuality _
  have leastCpu := findBestQuality_least platform (zeroScoops numNonces) numNonces gensig positive
    (Nat.le_refl _)
  have cpu : (findBestQuality platform (zeroScoops numNonces) numNonces gensig).1 =
      shabal256Lite zeroScoop gensig := leastCpu.attained.symm
  simp only [GpuContext.processTask, calcQualities, withScoops, count] at same
  rw [if_neg (Nat.not_lt.mpr fits)] at same
  have quality := congrArg (fun sent => sent.2.nonceSubmission.rawQuality) same
  simp only [submission] at quality
  exact ⟨_, least, quality.trans cpu⟩

theorem results_written {gpu : GpuContext} {numNonces i : Nat} {gensig : U8s 32}
    (reached : i < numNonces % 2 ^ 32) :
    gpu.results (zeroScoops numNonces) gensig numNonces i =
      kernelQuality (scoopWord zeroScoop) gensig := by
  rw [GpuContext.results, if_pos reached, kernelQuality_workItem, zeroScoops_scoop]

theorem results_stale {gpu : GpuContext} {data : Bytes} {numNonces i : Nat} {gensig : U8s 32}
    (unreached : ¬ i < numNonces % 2 ^ 32) :
    gpu.results data gensig numNonces i = gpu.resultsBuffer i := by
  rw [GpuContext.results, if_neg unreached]

/-- On scoops of zeros the GPU sends the quality of the CPU only if the results buffer holds it
from before, where the kernel does not write. -/
theorem SendsAlike.stale {gpu : GpuContext} {platform : Platform} {task : HashingTask}
    (alike : SendsAlike gpu platform task) {numNonces : Nat}
    (count : task.numberOfWarps * numScoops = numNonces) (positive : 0 < numNonces)
    (fits : numNonces ≤ gpu.maxNonces) {gensig : U8s 32}
    (wrong : kernelQuality (scoopWord zeroScoop) gensig ≠ shabal256Lite zeroScoop gensig) :
    (∃ i < numNonces, ¬ i < numNonces % 2 ^ 32 ∧
        gpu.resultsBuffer i = shabal256Lite zeroScoop gensig) ∧
      ∀ i < numNonces, ¬ i < numNonces % 2 ^ 32 →
        shabal256Lite zeroScoop gensig ≤ gpu.resultsBuffer i := by
  have whole : task.numberOfWarps * numScoops * scoopSize ≤ (zeroScoops numNonces).len := by
    rw [count]
    exact Nat.le_refl _
  obtain ⟨best, least, quality⟩ := least_of_same count positive fits (alike _ gensig whole)
  constructor
  · have attained := least.attained.trans quality
    have unreached : ¬ best.2 < numNonces % 2 ^ 32 := by
      intro reached
      rw [results_written reached] at attained
      exact wrong attained
    rw [results_stale unreached] at attained
    exact ⟨best.2, least.inside, unreached, attained⟩
  · intro i iLt unreached
    have bound := least.least i iLt
    rw [quality, results_stale unreached] at bound
    exact bound

/-- The GPU sends what the CPU sends, whatever the scoops and the generation signature, exactly
when the kernel does not run. -/
theorem processTask_agrees_iff (gpu : GpuContext) (platform : Platform) (task : HashingTask) :
    SendsAlike gpu platform task ↔
      task.numberOfWarps = 0 ∨ gpu.maxNonces < task.numberOfWarps * numScoops := by
  constructor
  · intro alike
    by_contra runs
    obtain ⟨some, fits⟩ := not_or.mp runs
    have positive : 0 < task.numberOfWarps * numScoops :=
      Nat.mul_pos (Nat.pos_of_ne_zero some) (by decide)
    have fits := Nat.not_lt.mp fits
    -- Stale results cannot hold the least quality for both signatures.
    obtain ⟨⟨i, iLt, unreached, held⟩, above⟩ :=
      alike.stale rfl positive fits zeroSignature_kernelQuality
    obtain ⟨⟨j, jLt, unreached', held'⟩, above'⟩ :=
      alike.stale rfl positive fits oneSignature_kernelQuality
    have le := above j jLt unreached'
    have ge := above' i iLt unreached
    rw [held'] at le
    rw [held] at ge
    exact signatures_apart (UInt64.le_antisymm le ge)
  · exact sendsAlike_of_idle platform

/-- A task of one warp of zeros. -/
def zeroTask : HashingTask where
  buffer := zeroScoops numScoops
  chainId := 0
  chainName := ""
  blockCount := 0
  generationSignatureBytes := zeroSignature
  accountId := ""
  seed := ""
  blockHash := ""
  blockHeight := 0
  baseTarget := 0
  startWarp := 0
  numberOfWarps := 1
  compressionLevel := 1

/-- For a warp of zeros the GPU sends a quality that the CPU does not compute. -/
theorem zeroTask_disagrees :
    (GpuContext.mk numScoops fun _ => 0).processTask (scalarPlatform .other) zeroTask ≠
      calcQualities (scalarPlatform .other) zeroTask := by
  intro same
  have count : zeroTask.numberOfWarps * numScoops = numScoops := rfl
  obtain ⟨best, least, quality⟩ := least_of_same count (by decide) (by decide) same
  have attained := least.attained.trans quality
  rw [results_written least.inside] at attained
  exact zeroSignature_kernelQuality attained

end Pocx.Ocl
