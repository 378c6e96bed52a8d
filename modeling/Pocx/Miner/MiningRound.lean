import Mathlib.Data.List.Basic
import Pocx.Miner.MinedPlot
import Pocx.Miner.NonceFilter
import Pocx.Miner.Ocl

set_option autoImplicit false

namespace Pocx.MiningRound

open ByteStore
open PlotFile (scoopSize numScoops warpSize fileOffset)
open Hashlib
open Hasher (HashingTask SubmissionParameters calcQualities hexEncode)
open Ocl (GpuContext)
open NonceFilter (Miner MiningInfo ChainState Forwarded Competes ComputedFor Follows adjustedQuality
  maxQuality targetQuality)
open ReadDisk (CompressionConfig Plot ReadReply ScanMessage Supply plotAction readDisk xorChunk)
open Transition (System Reachable always)

section Hex

/-- The value of a hex digit. -/
def hexValue (c : Char) : Option Nat :=
  if '0' ≤ c ∧ c ≤ '9' then some (c.toNat - '0'.toNat)
  else if 'a' ≤ c ∧ c ≤ 'f' then some (c.toNat - 'a'.toNat + 10)
  else if 'A' ≤ c ∧ c ≤ 'F' then some (c.toNat - 'A'.toNat + 10)
  else none

def hexBytes : List Char → Option (List UInt8)
  | [] => some []
  | [_] => none
  | high :: low :: rest =>
    match hexValue high, hexValue low, hexBytes rest with
    | some high, some low, some bytes => some (UInt8.ofNat (16 * high + low) :: bytes)
    | _, _, _ => none

/-- `decode_generation_signature` -/
def decodeGenerationSignature (generationSignature : String) : Option (U8s 32) :=
  match hexBytes generationSignature.toList with
  | some bytes =>
    if sized : bytes.length = 32 then some fun i => bytes.get (i.cast sized.symm) else none
  | none => none

theorem hexValue_digit {c : Char} {value : Nat} (digit : hexValue c = some value) :
    value < 16 ∧ Nat.digitChar value = c.toLower := by
  have small : c.toNat < 128 := by
    simp only [hexValue] at digit
    split at digit
    · rename_i within
      exact Nat.lt_of_le_of_lt within.2 (by decide)
    · split at digit
      · rename_i within
        exact Nat.lt_of_le_of_lt within.2 (by decide)
      · split at digit
        · rename_i within
          exact Nat.lt_of_le_of_lt within.2 (by decide)
        · cases digit
  have each : ∀ code < 128, ∀ value, hexValue (Char.ofNat code) = some value →
      value < 16 ∧ Nat.digitChar value = (Char.ofNat code).toLower := by
    intro code below
    have checked : ∀ code < 128, (hexValue (Char.ofNat code)).all (fun value =>
        decide (value < 16 ∧ Nat.digitChar value = (Char.ofNat code).toLower)) = true := by
      decide +kernel
    intro value same
    have holds := checked code below
    rw [same] at holds
    exact of_decide_eq_true holds
  have found := each c.toNat small value
  rw [Char.ofNat_toNat] at found
  exact found digit

theorem hexBytes_digits {text : List Char} {bytes : List UInt8}
    (decoded : hexBytes text = some bytes) :
    (bytes.flatMap fun byte =>
      [Nat.digitChar (byte.toNat / 16), Nat.digitChar (byte.toNat % 16)]) =
      text.map Char.toLower := by
  induction text using hexBytes.induct generalizing bytes with
  | case1 =>
    cases decoded
    rfl
  | case2 c => cases decoded
  | case3 first second rest high low tail tailEq highEq lowEq ih =>
    rw [hexBytes, highEq, lowEq, tailEq] at decoded
    obtain rfl := Option.some.inj decoded
    obtain ⟨highLt, highDigit⟩ := hexValue_digit highEq
    obtain ⟨lowLt, lowDigit⟩ := hexValue_digit lowEq
    have byte : (UInt8.ofNat (16 * high + low)).toNat = 16 * high + low := by
      rw [UInt8.toNat_ofNat']
      omega
    have front : (16 * high + low) / 16 = high := by omega
    have back : (16 * high + low) % 16 = low := by omega
    rw [List.flatMap_cons, ih tailEq, byte, front, back, highDigit, lowDigit]
    rfl
  | case4 first second rest missing =>
    rw [hexBytes] at decoded
    split at decoded
    · rename_i high low tail highEq lowEq tailEq
      exact (missing _ _ _ highEq lowEq tailEq).elim
    · cases decoded

/-- Encoding what was decoded gives the text in lower case. -/
theorem hexEncode_decoded {generationSignature : String} {bytes : U8s 32}
    (decoded : decodeGenerationSignature generationSignature = some bytes) :
    hexEncode bytes = generationSignature.toLower := by
  rw [decodeGenerationSignature] at decoded
  split at decoded
  · rename_i list found
    split at decoded
    · rename_i sized
      obtain rfl := Option.some.inj decoded
      have listed : List.ofFn (fun i : Fin 32 => list.get (i.cast sized.symm)) = list := by
        apply List.ext_getElem
        · rw [List.length_ofFn, sized]
        · intro i first second
          rw [List.getElem_ofFn]
          rfl
      have lower : generationSignature.toLower = generationSignature.map Char.toLower := rfl
      rw [hexEncode, listed, hexBytes_digits found, lower, String.map_eq_internal]
    · cases decoded
  · cases decoded

end Hex

structure Block where
  info : MiningInfo
  height : Nat
  minimumCompressionLevel : Nat
  targetCompressionLevel : Nat

structure DecodedMiningInfo where
  generationSignatureBytes : U8s 32
  scoop : Nat

/-- `DecodedMiningInfo::new`, where it does not panic. -/
def DecodedMiningInfo.new (block : Block) : Option DecodedMiningInfo :=
  (decodeGenerationSignature block.info.generationSignature).map fun bytes =>
    { generationSignatureBytes := bytes
      scoop := calculateScoop block.height bytes }

/-- `validate_compression_setup`: how often a plot can be compressed on the fly. -/
def validateCompressionSetup (enableOnTheFlyCompression : Bool) (hddReadCacheInWarps : Nat) :
    Except String Nat :=
  if !enableOnTheFlyCompression then .ok 0
  else if hddReadCacheInWarps &&& (hddReadCacheInWarps - 1) ≠ 0 then
    .error ("hdd_read_cache_in_warps (" ++ toString hddReadCacheInWarps ++
      ") must be power of 2 for compression (2, 4, 8, 16, 32, ...)")
  else .ok hddReadCacheInWarps.log2

theorem validateCompressionSetup_power {hddReadCacheInWarps maxCompressionSteps : Nat}
    (positive : 0 < hddReadCacheInWarps)
    (validated : validateCompressionSetup true hddReadCacheInWarps = .ok maxCompressionSteps) :
    hddReadCacheInWarps = 2 ^ maxCompressionSteps := by
  simp only [validateCompressionSetup, Bool.not_true, Bool.false_eq_true, if_false] at validated
  split at validated
  · cases validated
  · rename_i single
    obtain rfl := Except.ok.inj validated
    obtain ⟨bits, power⟩ :=
      (Nat.and_sub_one_eq_zero_iff_isPowerOfTwo (Nat.ne_of_gt positive)).mp (not_not.mp single)
    rw [power, Nat.log2_two_pow]

/-- The plots of a disk, and what other threads decide for its reader. -/
structure Disk where
  plots : List Plot
  supply : Supply

/-- A round of `mining_round_impl`, with what earlier rounds have left to do when it starts. -/
structure Setup where
  miner : Miner
  platform : Platform
  gpuContext : Option GpuContext
  ioBench : Bool
  simd : Bool
  enableOnTheFlyCompression : Bool
  hddReadCacheInWarps : Nat
  cached : 0 < hddReadCacheInWarps
  maxCompressionSteps : Nat
  validated : validateCompressionSetup enableOnTheFlyCompression hddReadCacheInWarps =
    .ok maxCompressionSteps
  disks : List Disk
  buffers : ∀ disk ∈ disks, ∀ i buffer, disk.supply.rxEmptyBuffer i = some buffer →
    buffer.len = hddReadCacheInWarps * (numScoops * scoopSize)
  chainId : Nat
  chainName : String
  blockCount : Nat
  block : Block
  decoded : DecodedMiningInfo
  decodes : DecodedMiningInfo.new block = some decoded
  tasks : List HashingTask
  nonceData : List (Nat × SubmissionParameters)
  filter : NonceFilter.State
  reached : Reachable (NonceFilter.system miner) always filter
  listed : block.info ∈ filter.blocks chainId
  tasksComputed : ∀ task ∈ tasks, ∃ miningInfo ∈ filter.blocks task.chainId,
    task.blockHash = miningInfo.blockHash ∧
      hexEncode task.generationSignatureBytes = miningInfo.generationSignature.toLower
  nonceDataComputed : ∀ sent ∈ nonceData, ∃ miningInfo ∈ filter.blocks sent.1,
    ComputedFor sent.2.nonceSubmission miningInfo

section Setups

variable (setup : Setup)

def Setup.compressionConfig : Option CompressionConfig :=
  if setup.enableOnTheFlyCompression then
    some
      { minCompressionLevel := setup.block.minimumCompressionLevel
        targetCompressionLevel := setup.block.targetCompressionLevel
        maxCompressionSteps := setup.maxCompressionSteps }
  else none

def Setup.round : ReadDisk.Round where
  chainId := setup.chainId
  chainName := setup.chainName
  blockCount := setup.blockCount
  generationSignatureBytes := setup.decoded.generationSignatureBytes
  blockHash := setup.block.info.blockHash
  blockHeight := setup.block.height
  baseTarget := setup.block.info.baseTarget

/-- The round starts on the newest block of its chain. -/
def Setup.Newest : Prop := (setup.filter.blocks setup.chainId).head? = some setup.block.info

/-- What the reader of a disk sends. -/
def Setup.messages (disk : Disk) : List ScanMessage :=
  readDisk disk.supply (xorChunk setup.simd setup.platform.target) setup.compressionConfig
    setup.decoded.scoop disk.plots

/-- The round hashes, and on the CPU. -/
structure Setup.OnCpu : Prop where
  hashes : setup.ioBench = false
  noGpu : setup.gpuContext = none

/-- What the hasher sends for a data message. -/
def Setup.sends (reply : ReadReply) : Nat × SubmissionParameters :=
  calcQualities setup.platform (setup.round.hashingTask reply)

end Setups

/-- The messages of each disk that the round has not received, its counts, the results buffer of the
GPU, the tasks of the hasher pool, the channel of the nonces and the filter behind it. -/
structure State where
  unread : List (List ScanMessage)
  finishedCount : Nat
  interruptedCount : Nat
  concluded : Bool
  resultsBuffer : Nat → UInt64
  tasks : List HashingTask
  nonceData : List (Nat × SubmissionParameters)
  filter : NonceFilter.State

/-- The round receives the next message of a disk, a task of the pool is run, the submission task
takes a nonce, and a mining info comes. -/
inductive Label
  | receive (disk : Nat)
  | hash (index : Nat)
  | submit
  | miningInfo (chainId : Nat) (miningInfo : MiningInfo)

section Steps

variable (setup : Setup)

/-- With a GPU the round hashes a task itself, and sends what it has found. -/
def State.hash (state : State) (task : HashingTask) : State :=
  match setup.gpuContext with
  | some gpu =>
    let gpu := { gpu with resultsBuffer := state.resultsBuffer }
    { state with
      resultsBuffer := gpu.resultsAfter task
      nonceData := state.nonceData ++ [gpu.processTask setup.platform task] }
  | none => { state with tasks := state.tasks ++ [task] }

def State.count (state : State) : ScanMessage → State
  | .scanFinished => { state with finishedCount := state.finishedCount + 1 }
  | .scanInterrupted => { state with interruptedCount := state.interruptedCount + 1 }
  | .warpsProcessed _ => state
  | .data _ reply =>
    if setup.ioBench then state else state.hash setup (setup.round.hashingTask reply)

/-- A turn of the loop over the messages. It ends when all disks have finished or were
interrupted. -/
def State.receive (state : State) (disk : Nat) (message : ScanMessage) (rest : List ScanMessage) :
    State :=
  let after := state.count setup message
  { after with
    unread := state.unread.set disk rest
    concluded := after.interruptedCount + after.finishedCount == setup.disks.length }

def State.step (state : State) : Label → Option State
  | .receive disk =>
    match state.concluded, state.unread[disk]? with
    | false, some (message :: rest) => some (state.receive setup disk message rest)
    | _, _ => none
  | .hash index =>
    state.tasks[index]?.map fun task =>
      { state with
        tasks := state.tasks.eraseIdx index
        nonceData := state.nonceData ++ [calcQualities setup.platform task] }
  | .submit =>
    match state.nonceData with
    | [] => none
    | (chainId, parameters) :: rest =>
      (NonceFilter.step setup.miner state.filter (.nonce chainId parameters)).map fun filter =>
        { state with nonceData := rest, filter := filter }
  | .miningInfo chainId miningInfo =>
    (NonceFilter.step setup.miner state.filter (.miningInfo chainId miningInfo)).map fun filter =>
      { state with filter := filter }

def Setup.start : State where
  unread := setup.disks.map setup.messages
  finishedCount := 0
  interruptedCount := 0
  concluded := false
  resultsBuffer := setup.gpuContext.elim (fun _ => 0) GpuContext.resultsBuffer
  tasks := setup.tasks
  nonceData := setup.nonceData
  filter := setup.filter

def system : System State Label where
  initial state := state = setup.start
  step := State.step setup

/-- No other block comes for the chain of the round. -/
def keepsBlock (_ : State) : Label → Prop
  | .miningInfo chainId miningInfo =>
    chainId = setup.chainId → miningInfo.blockHash = setup.block.info.blockHash
  | _ => True

end Steps

section Filter

variable {miner : Miner}

/-- Every recorded quality is that of a nonce forwarded with the signature of the block. -/
def Recorded (chainId : Nat) (chainState : ChainState) (forwarded : List Forwarded) : Prop :=
  ∀ accountId quality, chainState.accountIdToBestQuality.lookup accountId = some quality →
    quality = maxQuality ∨ ∃ sent ∈ forwarded, sent.chainId = chainId ∧
      sent.parameters.nonceSubmission.generationSignature =
        chainState.generationSignature.toLower ∧
      sent.parameters.nonceSubmission.accountId = accountId ∧ sent.quality = quality

theorem Recorded.forward {chainId : Nat} {chainState : ChainState} {forwarded : List Forwarded}
    (recorded : Recorded chainId chainState forwarded) (new : Forwarded) :
    Recorded chainId chainState (new :: forwarded) := by
  intro accountId quality present
  rcases recorded accountId quality present with top | ⟨sent, member, same⟩
  · exact Or.inl top
  · exact Or.inr ⟨sent, List.mem_cons_of_mem _ member, same⟩

/-- The filter holds the newest block of each chain and its targets, and the qualities it has
recorded since. -/
structure Filtered (miner : Miner) (state : NonceFilter.State) : Prop where
  follows : ∀ chainId miningInfo, (state.blocks chainId).head? = some miningInfo →
    Follows miner chainId (state.chainStates chainId) miningInfo
  unknown : ∀ chainId accountId, accountId ∉ miner.knownAccountPayloads →
    (state.chainStates chainId).accountIdToTargetQuality.lookup accountId = none
  recorded : ∀ chainId, Recorded chainId (state.chainStates chainId) state.forwarded

theorem Filtered.changeBlock {state : NonceFilter.State} (filtered : Filtered miner state)
    (changed : Nat) (miningInfo : MiningInfo) :
    Filtered miner { state with
      chainStates := Function.update state.chainStates changed
        ((state.chainStates changed).updateMiningInfo miningInfo (miner.chains changed)
          miner.knownAccountPayloads)
      blocks := Function.update state.blocks changed (miningInfo :: state.blocks changed) } := by
  obtain ⟨follows, unknown, recorded⟩ := filtered
  refine ⟨?_, ?_, ?_⟩
  · intro chainId newest head
    by_cases same : chainId = changed
    · subst same
      simp only [Function.update_self, List.head?_cons, Option.some.injEq] at head ⊢
      subst head
      exact NonceFilter.updateMiningInfo_follows miner chainId _ miningInfo (unknown chainId)
    · simp only [Function.update_of_ne same] at head ⊢
      exact follows chainId newest head
  · intro chainId accountId stranger
    by_cases same : chainId = changed
    · subst same
      simp only [Function.update_self, ChainState.updateMiningInfo]
      rw [KeyedMap.lookup_insertAll, if_neg stranger, unknown chainId accountId stranger]
    · simp only [Function.update_of_ne same]
      exact unknown chainId accountId stranger
  · intro chainId
    by_cases same : chainId = changed
    · subst same
      simp only [Function.update_self]
      intro accountId quality present
      exact Or.inl (KeyedMap.lookup_setAll _ _ _ _ present)
    · simp only [Function.update_of_ne same]
      exact recorded chainId

theorem Filtered.forward {state : NonceFilter.State} (filtered : Filtered miner state) (sender : Nat)
    (parameters : SubmissionParameters) (chainState : ChainState)
    (submitted : (state.chainStates sender).submit parameters.nonceSubmission = some chainState) :
    Filtered miner { state with
      chainStates := Function.update state.chainStates sender chainState
      forwarded :=
        { chainId := sender
          parameters := parameters
          quality := adjustedQuality parameters.nonceSubmission.rawQuality
            (state.chainStates sender).baseTarget } :: state.forwarded } := by
  obtain ⟨follows, unknown, recorded⟩ := filtered
  obtain ⟨signature, rfl⟩ := NonceFilter.submit_some _ _ _ submitted
  refine ⟨?_, ?_, ?_⟩
  · intro chainId newest head
    have before := follows chainId newest head
    by_cases same : chainId = sender
    · subst same
      simp only [Function.update_self]
      exact ⟨before.generationSignature, before.blockHash, before.baseTarget,
        before.submissionMode, before.target⟩
    · simp only [Function.update_of_ne same]
      exact before
  · intro chainId accountId stranger
    have before := unknown chainId accountId stranger
    by_cases same : chainId = sender
    · subst same
      simp only [Function.update_self]
      exact before
    · simp only [Function.update_of_ne same]
      exact before
  · intro chainId
    by_cases same : chainId = sender
    · subst same
      simp only [Function.update_self]
      intro accountId quality present
      simp only [KeyedMap.lookup_insert] at present
      split at present
      · rename_i own
        obtain rfl := Option.some.inj present
        exact Or.inr ⟨_, List.mem_cons_self, rfl, signature.symm, own.symm, rfl⟩
      · exact (recorded chainId).forward _ accountId quality present
    · simp only [Function.update_of_ne same]
      exact (recorded chainId).forward _

theorem filtered_reachable {state : NonceFilter.State}
    (reached : Reachable (NonceFilter.system miner) always state) : Filtered miner state := by
  refine reached.invariant (Filtered miner) ?_ ?_
  · rintro _ rfl
    refine ⟨by simp, fun _ _ _ => rfl, ?_⟩
    intro chainId accountId quality present
    cases present
  · intro before event after filtered _ taken
    rcases NonceFilter.step_cases miner before after event taken with
      rfl | ⟨changed, miningInfo, -, rfl⟩ | ⟨sender, parameters, chainState, -, submitted, rfl⟩
    · exact filtered
    · exact filtered.changeBlock changed miningInfo
    · exact filtered.forward sender parameters chainState submitted

/-- A quality that the filter need not forward: it misses the target of its account, or one as good
was forwarded under the generation signature of the block. -/
def Considered (miner : Miner) (state : NonceFilter.State) (chainId : Nat) (miningInfo : MiningInfo)
    (accountId : String) (quality : UInt64) : Prop :=
  targetQuality miner chainId miningInfo accountId ≤ quality ∨
    ∃ sent ∈ state.forwarded, sent.chainId = chainId ∧
      Competes (miner.chains chainId).submissionMode accountId sent ∧
      sent.parameters.nonceSubmission.generationSignature = miningInfo.generationSignature.toLower ∧
      sent.quality ≤ quality

theorem Considered.step {state after : NonceFilter.State} {chainId : Nat} {miningInfo : MiningInfo}
    {accountId : String} {quality : UInt64} {event : NonceFilter.Event}
    (considered : Considered miner state chainId miningInfo accountId quality)
    (taken : NonceFilter.step miner state event = some after) :
    Considered miner after chainId miningInfo accountId quality := by
  rcases considered with target | ⟨sent, member, same⟩
  · exact Or.inl target
  · refine Or.inr ⟨sent, ?_, same⟩
    rcases NonceFilter.step_cases miner state after event taken with
      rfl | ⟨changed, miningInfo, -, rfl⟩ | ⟨sender, parameters, chainState, -, submitted, rfl⟩
    · exact member
    · exact member
    · exact List.mem_cons_of_mem _ member

/-- The filter considers every nonce of the newest block. -/
theorem step_considers {state after : NonceFilter.State} (filtered : Filtered miner state)
    {chainId : Nat} {miningInfo : MiningInfo}
    (current : (state.blocks chainId).head? = some miningInfo) {parameters : SubmissionParameters}
    (signature : parameters.nonceSubmission.generationSignature =
      miningInfo.generationSignature.toLower)
    (taken : NonceFilter.step miner state (.nonce chainId parameters) = some after) :
    Considered miner after chainId miningInfo parameters.nonceSubmission.accountId
      (adjustedQuality parameters.nonceSubmission.rawQuality miningInfo.baseTarget) := by
  have follows := filtered.follows chainId miningInfo current
  by_cases target : targetQuality miner chainId miningInfo parameters.nonceSubmission.accountId ≤
      adjustedQuality parameters.nonceSubmission.rawQuality miningInfo.baseTarget
  · exact Or.inl target
  have below := UInt64.not_le.mp target
  have top : adjustedQuality parameters.nonceSubmission.rawQuality miningInfo.baseTarget <
      maxQuality := UInt64.lt_of_lt_of_le below (Hashlib.le_maxQuality _)
  have sameSignature : (state.chainStates chainId).generationSignature.toLower =
      parameters.nonceSubmission.generationSignature := by
    rw [follows.generationSignature, signature]
  simp only [NonceFilter.step, Option.ite_none_right_eq_some] at taken
  obtain ⟨-, taken⟩ := taken
  cases submitted : (state.chainStates chainId).submit parameters.nonceSubmission with
  | some chainState =>
    rw [submitted] at taken
    obtain rfl := Option.some.inj taken
    refine Or.inr ⟨_, List.mem_cons_self, rfl, Or.inr rfl, signature, ?_⟩
    rw [follows.baseTarget]
    exact UInt64.le_refl _
  | none =>
    rw [submitted] at taken
    obtain rfl := Option.some.inj taken
    by_contra missed
    have best : adjustedQuality parameters.nonceSubmission.rawQuality miningInfo.baseTarget <
        (state.chainStates chainId).bestQuality parameters.nonceSubmission.accountId := by
      apply NonceFilter.lt_bestQuality _ _ _ top
      intro other quality competes present
      rcases filtered.recorded chainId other quality present with
        rfl | ⟨sent, member, chain, sentSignature, account, rfl⟩
      · exact top
      · by_contra better
        apply missed
        refine Or.inr ⟨sent, member, chain, ?_, ?_, UInt64.not_lt.mp better⟩
        · rw [Competes, account, ← follows.submissionMode]
          exact competes
        · rw [sentSignature, follows.generationSignature]
    rw [ChainState.submit, if_pos sameSignature, follows.baseTarget] at submitted
    simp only [follows.target] at submitted
    rw [if_pos ⟨best, below⟩] at submitted
    cases submitted

theorem nonce_blocks {state after : NonceFilter.State} {chainId : Nat}
    {parameters : SubmissionParameters}
    (taken : NonceFilter.step miner state (.nonce chainId parameters) = some after) :
    after.blocks = state.blocks := by
  simp only [NonceFilter.step, Option.ite_none_right_eq_some] at taken
  obtain ⟨-, taken⟩ := taken
  split at taken
  · obtain rfl := Option.some.inj taken
    rfl
  · obtain rfl := Option.some.inj taken
    rfl

theorem miningInfo_blocks {state after : NonceFilter.State} {changed chainId : Nat}
    {miningInfo known : MiningInfo}
    (taken : NonceFilter.step miner state (.miningInfo changed miningInfo) = some after)
    (listed : known ∈ state.blocks chainId) : known ∈ after.blocks chainId := by
  simp only [NonceFilter.step] at taken
  split at taken
  · obtain rfl := Option.some.inj taken
    by_cases same : chainId = changed
    · subst same
      simp only [Function.update_self]
      exact List.mem_cons_of_mem _ listed
    · simp only [Function.update_of_ne same]
      exact listed
  · obtain rfl := Option.some.inj taken
    exact listed

theorem nonce_forwarded {state after : NonceFilter.State} {chainId : Nat}
    {parameters : SubmissionParameters}
    (taken : NonceFilter.step miner state (.nonce chainId parameters) = some after) :
    after.forwarded = state.forwarded ∨
      ∃ quality, after.forwarded = ⟨chainId, parameters, quality⟩ :: state.forwarded := by
  rcases NonceFilter.step_cases miner state after _ taken with
    rfl | ⟨changed, miningInfo, event, -⟩ | ⟨sender, sent, chainState, event, -, rfl⟩
  · exact Or.inl rfl
  · cases event
  · cases event
    exact Or.inr ⟨_, rfl⟩

theorem miningInfo_forwarded {state after : NonceFilter.State} {chainId : Nat}
    {miningInfo : MiningInfo}
    (taken : NonceFilter.step miner state (.miningInfo chainId miningInfo) = some after) :
    after.forwarded = state.forwarded := by
  rcases NonceFilter.step_cases miner state after _ taken with
    rfl | ⟨changed, changedInfo, -, rfl⟩ | ⟨sender, sent, chainState, event, -, -⟩
  · rfl
  · rfl
  · cases event

/-- What was forwarded was computed for a block that its chain went through. -/
theorem forwarded_computed {state : NonceFilter.State}
    (reached : Reachable (NonceFilter.system miner) always state) :
    ∀ sent ∈ state.forwarded, ∃ known ∈ state.blocks sent.chainId,
      ComputedFor sent.parameters.nonceSubmission known := by
  refine reached.invariant (fun state => ∀ sent ∈ state.forwarded,
    ∃ known ∈ state.blocks sent.chainId,
      ComputedFor sent.parameters.nonceSubmission known) ?_ ?_
  · rintro _ rfl sent none
    cases none
  · intro before event after computed _ taken
    cases event with
    | miningInfo changed miningInfo =>
      rw [miningInfo_forwarded taken]
      intro sent member
      obtain ⟨known, listed, same⟩ := computed sent member
      exact ⟨known, miningInfo_blocks taken listed, same⟩
    | nonce chainId parameters =>
      have arrived : NonceFilter.step miner before (.nonce chainId parameters) = some after := taken
      rw [nonce_blocks arrived]
      rcases nonce_forwarded arrived with same | ⟨quality, grown⟩
      · rw [same]
        exact computed
      · simp only [NonceFilter.step, Option.ite_none_right_eq_some] at arrived
        rw [grown]
        exact List.forall_mem_cons.mpr ⟨arrived.1, computed⟩

end Filter

section Counts

variable {α : Type} {holds : α → Bool} {items : List α} {index : Nat} {before after : α}

theorem countP_set_same (found : items[index]? = some before) (same : holds after = holds before) :
    (items.set index after).countP holds = items.countP holds := by
  obtain ⟨inside, rfl⟩ := List.getElem?_eq_some_iff.mp found
  rw [List.countP_set inside, same]
  by_cases held : holds items[index] = true
  · have positive := List.countP_pos_iff.mpr ⟨_, List.getElem_mem inside, held⟩
    rw [if_pos held]
    omega
  · rw [if_neg held]
    rfl

theorem countP_set_drop (found : items[index]? = some before) (held : holds before = true)
    (dropped : holds after = false) :
    (items.set index after).countP holds + 1 = items.countP holds := by
  obtain ⟨inside, rfl⟩ := List.getElem?_eq_some_iff.mp found
  have positive := List.countP_pos_iff.mpr ⟨_, List.getElem_mem inside, held⟩
  rw [List.countP_set inside, if_pos held, dropped, if_neg Bool.false_ne_true]
  omega

end Counts

section Readers

variable {setup : Setup} {state after : State}

def isFinished : ScanMessage → Bool
  | .scanFinished => true
  | _ => false

/-- A reader that has finished sends nothing more. -/
theorem messages_finish (setup : Setup) (disk : Disk) {read rest : List ScanMessage}
    (sent : setup.messages disk = read ++ .scanFinished :: rest) : rest = [] := by
  have unfinished := ReadDisk.readPlots_seen ReadDisk.finishedOf_blind disk.supply
    setup.decoded.scoop (xorChunk setup.simd setup.platform.target) setup.compressionConfig
    disk.plots.zipIdx (fun _ _ _ => rfl) ⟨0, 0, []⟩
  have absent (reader : ReadDisk.Reader) (none : reader.seen ReadDisk.finishedOf = []) :
      ScanMessage.scanFinished ∉ reader.messages := by
    intro listed
    have noticed : () ∈ reader.seen ReadDisk.finishedOf := List.mem_filterMap.mpr ⟨_, listed, rfl⟩
    rw [none] at noticed
    cases noticed
  rw [Setup.messages, readDisk] at sent
  generalize ReadDisk.readPlots disk.supply (xorChunk setup.simd setup.platform.target)
    setup.compressionConfig setup.decoded.scoop disk.plots.zipIdx ⟨0, 0, []⟩ = outcome
    at unfinished sent
  cases outcome with
  | error reader =>
    simp only at sent
    have listed : ScanMessage.scanFinished ∈ reader.messages := by
      rw [sent]
      exact List.mem_append_right _ List.mem_cons_self
    exact absurd listed (absent reader unfinished)
  | ok reader =>
    have last : reader.messages ++ [.scanFinished] = read ++ .scanFinished :: rest := sent
    rcases List.eq_nil_or_concat rest with none | ⟨front, message, concat⟩
    · exact none
    · rw [concat, List.concat_eq_append, ← List.cons_append, ← List.append_assoc] at last
      have front := (List.append_inj' last rfl).1
      have listed : ScanMessage.scanFinished ∈ reader.messages := by
        rw [front]
        exact List.mem_append_right _ List.mem_cons_self
      exact absurd listed (absent reader unfinished)

/-- What a data message has led to: its task waits for the hasher pool, its nonce for the
submission task, or the filter has considered it. -/
def Handled (setup : Setup) (state : State) (reply : ReadReply) : Prop :=
  setup.round.hashingTask reply ∈ state.tasks ∨ setup.sends reply ∈ state.nonceData ∨
    Considered setup.miner state.filter setup.chainId setup.block.info reply.accountId
      (adjustedQuality (setup.sends reply).2.nonceSubmission.rawQuality setup.block.info.baseTarget)

/-- A round has received the messages of each disk up to some point, and no block has come. -/
structure Invariant (setup : Setup) (state : State) : Prop where
  reached : Reachable (NonceFilter.system setup.miner) always state.filter
  current : (state.filter.blocks setup.chainId).head? = some setup.block.info
  received : ∀ (index : Nat) disk, setup.disks[index]? = some disk →
    ∃ read rest, state.unread[index]? = some rest ∧ setup.messages disk = read ++ rest ∧
      ∀ plot reply, .data plot reply ∈ read → Handled setup state reply
  length : state.unread.length = setup.disks.length
  counted : state.finishedCount + state.unread.countP (fun rest => rest.any isFinished) =
    (setup.disks.map setup.messages).countP fun sent => sent.any isFinished
  ended : state.concluded = true → state.interruptedCount + state.finishedCount = setup.disks.length

theorem start_invariant (setup : Setup) (newest : setup.Newest) : Invariant setup setup.start := by
  refine ⟨setup.reached, newest, ?_, List.length_map _, Nat.zero_add _, by simp [Setup.start]⟩
  intro index disk found
  refine ⟨[], setup.messages disk, ?_, rfl, by simp⟩
  rw [Setup.start, List.getElem?_map, found, Option.map_some]

theorem decoded_signature (setup : Setup) :
    hexEncode setup.decoded.generationSignatureBytes =
      setup.block.info.generationSignature.toLower := by
  obtain ⟨bytes, decoded, same⟩ := Option.map_eq_some_iff.mp setup.decodes
  rw [← same]
  exact hexEncode_decoded decoded

theorem Handled.hash {reply : ReadReply} (handled : Handled setup state reply) {index : Nat}
    {task : HashingTask} (found : state.tasks[index]? = some task) :
    Handled setup { state with
      tasks := state.tasks.eraseIdx index
      nonceData := state.nonceData ++ [calcQualities setup.platform task] } reply := by
  obtain ⟨inside, rfl⟩ := List.getElem?_eq_some_iff.mp found
  rcases handled with waits | sent | considered
  · rw [← (List.getElem_cons_eraseIdx_perm inside).mem_iff, List.mem_cons] at waits
    rcases waits with same | other
    · refine Or.inr (Or.inl (List.mem_append_right _ ?_))
      rw [Setup.sends, same]
      exact List.mem_cons_self
    · exact Or.inl other
  · exact Or.inr (Or.inl (List.mem_append_left _ sent))
  · exact Or.inr (Or.inr considered)

theorem Handled.submit {reply : ReadReply} (handled : Handled setup state reply)
    (filtered : Filtered setup.miner state.filter)
    (current : (state.filter.blocks setup.chainId).head? = some setup.block.info) {chainId : Nat}
    {parameters : SubmissionParameters} {rest : List (Nat × SubmissionParameters)}
    (channel : state.nonceData = (chainId, parameters) :: rest) {filter : NonceFilter.State}
    (taken : NonceFilter.step setup.miner state.filter (.nonce chainId parameters) = some filter) :
    Handled setup { state with nonceData := rest, filter := filter } reply := by
  rcases handled with waits | sent | considered
  · exact Or.inl waits
  · rw [channel] at sent
    rcases List.mem_cons.mp sent with own | later
    · obtain ⟨rfl, rfl⟩ := Prod.mk.inj own
      exact Or.inr (Or.inr (step_considers filtered current (decoded_signature setup) taken))
    · exact Or.inr (Or.inl later)
  · exact Or.inr (Or.inr (considered.step taken))

/-- A data message moves neither the counts nor the filter. -/
theorem count_data (setup : Setup) (state : State) (plot : Nat) (reply : ReadReply) :
    (state.count setup (.data plot reply)).filter = state.filter ∧
      (state.count setup (.data plot reply)).unread = state.unread ∧
      (state.count setup (.data plot reply)).finishedCount = state.finishedCount ∧
      (state.count setup (.data plot reply)).interruptedCount = state.interruptedCount := by
  simp only [State.count, State.hash]
  split
  · exact ⟨rfl, rfl, rfl, rfl⟩
  · split
    · exact ⟨rfl, rfl, rfl, rfl⟩
    · exact ⟨rfl, rfl, rfl, rfl⟩

/-- Without a GPU the task of a data message goes to the pool, unless the round only reads. -/
theorem count_noGpu (noGpu : setup.gpuContext = none) (state : State) (plot : Nat)
    (reply : ReadReply) :
    state.count setup (.data plot reply) =
      if setup.ioBench then state
      else { state with tasks := state.tasks ++ [setup.round.hashingTask reply] } := by
  simp only [State.count, State.hash, noGpu]

theorem count_onCpu (cpu : setup.OnCpu) (state : State) (plot : Nat) (reply : ReadReply) :
    state.count setup (.data plot reply) =
      { state with tasks := state.tasks ++ [setup.round.hashingTask reply] } := by
  rw [count_noGpu cpu.noGpu, cpu.hashes, if_neg Bool.false_ne_true]

theorem Handled.receive (cpu : setup.OnCpu) {reply : ReadReply}
    (handled : Handled setup state reply) (disk : Nat) (message : ScanMessage)
    (rest : List ScanMessage) : Handled setup (state.receive setup disk message rest) reply := by
  cases message with
  | data plot other =>
    simp only [State.receive, count_onCpu cpu]
    rcases handled with waits | handled
    · exact Or.inl (List.mem_append_left _ waits)
    · exact Or.inr handled
  | scanFinished => exact handled
  | scanInterrupted => exact handled
  | warpsProcessed warps => exact handled

/-- The task of a data message is in the pool when it is received. -/
theorem receive_data (cpu : setup.OnCpu) (state : State) (disk plot : Nat) (reply : ReadReply)
    (rest : List ScanMessage) :
    Handled setup (state.receive setup disk (.data plot reply) rest) reply := by
  simp only [State.receive, count_onCpu cpu]
  exact Or.inl (List.mem_append_right _ List.mem_cons_self)

theorem receive_counts (state : State) {disk : Nat} {message : ScanMessage}
    {rest : List ScanMessage} (found : state.unread[disk]? = some (message :: rest))
    (last : message = .scanFinished → rest = []) :
    (state.receive setup disk message rest).finishedCount +
        (state.receive setup disk message rest).unread.countP (fun rest => rest.any isFinished) =
      state.finishedCount + state.unread.countP (fun rest => rest.any isFinished) := by
  have others (unfinished : isFinished message = false) :
      (state.unread.set disk rest).countP (fun rest => rest.any isFinished) =
        state.unread.countP (fun rest => rest.any isFinished) := by
    apply countP_set_same found
    rw [List.any_cons, unfinished, Bool.false_or]
  cases message with
  | scanFinished =>
    obtain rfl := last rfl
    have dropped : (state.unread.set disk []).countP (fun rest => rest.any isFinished) + 1 =
        state.unread.countP (fun rest => rest.any isFinished) := countP_set_drop found rfl rfl
    simp only [State.receive, State.count]
    omega
  | scanInterrupted => exact congrArg (state.finishedCount + ·) (others rfl)
  | warpsProcessed warps => exact congrArg (state.finishedCount + ·) (others rfl)
  | data plot reply =>
    obtain ⟨-, unread, finished, -⟩ := count_data setup state plot reply
    simp only [State.receive, finished]
    exact congrArg (state.finishedCount + ·) (others rfl)

theorem receive_filter (state : State) (disk : Nat) (message : ScanMessage)
    (rest : List ScanMessage) : (state.receive setup disk message rest).filter = state.filter := by
  cases message with
  | data plot reply => exact (count_data setup state plot reply).1
  | scanFinished => rfl
  | scanInterrupted => rfl
  | warpsProcessed warps => rfl

theorem receive_unread (state : State) (disk : Nat) (message : ScanMessage)
    (rest : List ScanMessage) :
    (state.receive setup disk message rest).unread = state.unread.set disk rest := rfl

theorem Invariant.receive (cpu : setup.OnCpu) (invariant : Invariant setup state) {disk : Nat}
    {message : ScanMessage} {rest : List ScanMessage}
    (found : state.unread[disk]? = some (message :: rest)) :
    Invariant setup (state.receive setup disk message rest) := by
  obtain ⟨reached, current, received, length, counted, -⟩ := invariant
  obtain ⟨inside, -⟩ := List.getElem?_eq_some_iff.mp found
  have inDisks : disk < setup.disks.length := length ▸ inside
  have own := List.getElem?_eq_getElem inDisks
  have finishing : message = .scanFinished → rest = [] := by
    rintro rfl
    obtain ⟨read, unread, unreadEq, sent, -⟩ := received disk _ own
    rw [found] at unreadEq
    obtain rfl := Option.some.inj unreadEq
    exact messages_finish setup _ sent
  refine ⟨?_, ?_, ?_, ?_, ?_, ?_⟩
  · rw [receive_filter]
    exact reached
  · rw [receive_filter]
    exact current
  · intro index other listed
    obtain ⟨read, unread, unreadEq, sent, handled⟩ := received index other listed
    rw [receive_unread, List.getElem?_set]
    by_cases same : disk = index
    · subst same
      rw [found] at unreadEq
      obtain rfl := Option.some.inj unreadEq
      refine ⟨read ++ [message], rest, by rw [if_pos rfl, if_pos inside], ?_, ?_⟩
      · rw [sent, List.append_assoc, List.singleton_append]
      · intro plot reply member
        rcases List.mem_append.mp member with before | new
        · exact (handled plot reply before).receive cpu disk message rest
        · rw [← List.mem_singleton.mp new]
          exact receive_data cpu state disk plot reply rest
    · refine ⟨read, unread, by rw [if_neg same, unreadEq], sent, ?_⟩
      intro plot reply member
      exact (handled plot reply member).receive cpu disk message rest
  · rw [receive_unread, List.length_set, length]
  · rw [receive_counts state found finishing, counted]
  · intro concluded
    exact beq_iff_eq.mp concluded

/-- A mining info of another chain, or of the same block, leaves the block. -/
theorem miningInfo_current {filter next : NonceFilter.State}
    (filtered : Filtered setup.miner filter)
    (current : (filter.blocks setup.chainId).head? = some setup.block.info) {chainId : Nat}
    {miningInfo : MiningInfo}
    (kept : chainId = setup.chainId → miningInfo.blockHash = setup.block.info.blockHash)
    (taken : NonceFilter.step setup.miner filter (.miningInfo chainId miningInfo) = some next) :
    (next.blocks setup.chainId).head? = some setup.block.info := by
  simp only [NonceFilter.step] at taken
  split at taken
  · rename_i changed
    obtain rfl := Option.some.inj taken
    have other : setup.chainId ≠ chainId := by
      rintro rfl
      apply changed
      rw [kept rfl, (filtered.follows setup.chainId setup.block.info current).blockHash]
    simp only [Function.update_of_ne other]
    exact current
  · obtain rfl := Option.some.inj taken
    exact current

theorem step_invariant (cpu : setup.OnCpu) {label : Label} (invariant : Invariant setup state)
    (kept : keepsBlock setup state label) (taken : (system setup).step state label = some after) :
    Invariant setup after := by
  have filtered := filtered_reachable invariant.reached
  cases label with
  | receive disk =>
    simp only [system, State.step] at taken
    split at taken
    · rename_i found
      obtain rfl := Option.some.inj taken
      exact invariant.receive cpu found
    · cases taken
  | hash index =>
    obtain ⟨task, found, rfl⟩ := Option.map_eq_some_iff.mp taken
    obtain ⟨reached, current, received, length, counted, ended⟩ := invariant
    refine ⟨reached, current, ?_, length, counted, ended⟩
    intro disk plots listed
    obtain ⟨read, rest, unread, sent, handled⟩ := received disk plots listed
    exact ⟨read, rest, unread, sent, fun plot reply member => (handled plot reply member).hash found⟩
  | submit =>
    simp only [system, State.step] at taken
    split at taken
    · cases taken
    · rename_i chainId parameters rest channel
      obtain ⟨filter, submitted, rfl⟩ := Option.map_eq_some_iff.mp taken
      obtain ⟨reached, current, received, length, counted, ended⟩ := invariant
      have moved : (NonceFilter.system setup.miner).step state.filter (.nonce chainId parameters) =
          some filter := submitted
      refine ⟨reached.next trivial moved, ?_, ?_, length, counted, ended⟩
      · rw [nonce_blocks submitted]
        exact current
      · intro disk plots listed
        obtain ⟨read, unread, unreadEq, sent, handled⟩ := received disk plots listed
        exact ⟨read, unread, unreadEq, sent, fun plot reply member =>
          (handled plot reply member).submit filtered current channel submitted⟩
  | miningInfo chainId miningInfo =>
    obtain ⟨filter, came, rfl⟩ := Option.map_eq_some_iff.mp taken
    obtain ⟨reached, current, received, length, counted, ended⟩ := invariant
    have moved : (NonceFilter.system setup.miner).step state.filter
        (.miningInfo chainId miningInfo) = some filter := came
    refine ⟨reached.next trivial moved, miningInfo_current filtered current kept came, ?_, length,
      counted, ended⟩
    intro disk plots listed
    obtain ⟨read, rest, unread, sent, handled⟩ := received disk plots listed
    refine ⟨read, rest, unread, sent, ?_⟩
    intro plot reply member
    rcases handled plot reply member with waits | passes | considered
    · exact Or.inl waits
    · exact Or.inr (Or.inl passes)
    · exact Or.inr (Or.inr (considered.step came))

theorem invariant_reachable (cpu : setup.OnCpu) (newest : setup.Newest)
    (reached : Reachable (system setup) (keepsBlock setup) state) : Invariant setup state := by
  refine reached.invariant (Invariant setup) ?_ ?_
  · rintro _ rfl
    exact start_invariant setup newest
  · intro before label after invariant kept taken
    exact step_invariant cpu invariant kept taken

/-- When a round ends uninterrupted, every disk has finished and all its data are handled. -/
theorem Invariant.finished (invariant : Invariant setup state) (concluded : state.concluded = true)
    (uninterrupted : state.interruptedCount = 0) {disk : Disk} (listed : disk ∈ setup.disks) :
    .scanFinished ∈ setup.messages disk ∧
      ∀ plot reply, .data plot reply ∈ setup.messages disk → Handled setup state reply := by
  have total := invariant.ended concluded
  have counted := invariant.counted
  have most := List.countP_le_length (p := fun sent => sent.any isFinished)
    (l := setup.disks.map setup.messages)
  rw [List.length_map] at most
  have all : (setup.disks.map setup.messages).countP (fun sent => sent.any isFinished) =
      (setup.disks.map setup.messages).length := by
    rw [List.length_map]
    omega
  have none : state.unread.countP (fun rest => rest.any isFinished) = 0 := by omega
  obtain ⟨message, member, finishing⟩ :=
    List.any_eq_true.mp (List.countP_eq_length.mp all _ (List.mem_map_of_mem listed))
  have finished : .scanFinished ∈ setup.messages disk := by
    cases message with
    | scanFinished => exact member
    | scanInterrupted => cases finishing
    | warpsProcessed warps => cases finishing
    | data plot reply => cases finishing
  refine ⟨finished, ?_⟩
  obtain ⟨index, found⟩ := List.mem_iff_getElem?.mp listed
  obtain ⟨read, rest, unread, sent, handled⟩ := invariant.received index disk found
  have behind : .scanFinished ∉ rest := by
    intro later
    apply List.countP_eq_zero.mp none rest (List.mem_of_getElem? unread)
    exact List.any_eq_true.mpr ⟨_, later, rfl⟩
  have inRead : .scanFinished ∈ read := by
    rw [sent] at finished
    exact (List.mem_append.mp finished).resolve_right behind
  obtain ⟨front, back, split⟩ := List.append_of_mem inRead
  have last : setup.messages disk = front ++ .scanFinished :: (back ++ rest) := by
    rw [sent, split, List.append_assoc, List.cons_append]
  have nothing : back ++ rest = [] := messages_finish setup disk last
  obtain ⟨-, rfl⟩ := List.append_eq_nil_iff.mp nothing
  intro plot reply data
  rw [sent, List.append_nil] at data
  exact handled plot reply data

end Readers

section Plots

variable {setup : Setup}

/-- The file holds a scoop of every nonce of its level. -/
structure HoldsScoop (plot : Plot) (seed : U8s 32) (scoop : Nat) : Prop where
  len : plot.numberOfWarps * warpSize ≤ plot.content.len
  scoops : ∀ nonce < plot.numberOfWarps * numScoops,
    scoopAt plot.content (scoopAddress (plot.numberOfWarps * numScoops) scoop nonce) =
      levelScoop generateAndExtractScoop32 plot.base58Decoded seed scoop nonce plot.compression

theorem plotted_holdsScoop {plotter : Platform} {plot : Plot} {seed : U8s 32}
    (plotted : ReadDisk.Plotted plotter plot seed) {scoop : Nat} (scoopLt : scoop < numScoops) :
    HoldsScoop plot seed scoop :=
  ⟨Nat.le_of_eq plotted.len.symm, fun nonce nonceLt => plotted.level scoop nonce scoopLt nonceLt⟩

/-- The plot of the level reads like the file. -/
theorem HoldsScoop.sameRow {plot : Plot} {seed : U8s 32} {scoop : Nat}
    (holds : HoldsScoop plot seed scoop) (scoopLt : scoop < numScoops) :
    ReadDisk.SameRow (ReadDisk.levelPlot plot.base58Decoded seed plot.seed plot.compression
      plot.numberOfWarps) scoop plot.content := by
  refine ⟨Nat.le_refl _, holds.len, ?_⟩
  intro i inRow
  have inRow : i < plot.numberOfWarps * numScoops * scoopSize := inRow
  have column : i / scoopSize < plot.numberOfWarps * numScoops :=
    (Nat.div_lt_iff_lt_mul (by decide)).mpr inRow
  have level := (ReadDisk.levelPlot_plotted (scalarPlatform .other) plot.base58Decoded seed plot.seed
    plot.compression plot.numberOfWarps).level scoop (i / scoopSize) scoopLt column
  have same := level.trans (holds.scoops (i / scoopSize) column).symm
  have byte := congrArg (fun scoop => scoop.byte ⟨i % scoopSize, mod_scoopSize_lt i⟩) same
  have warps : (ReadDisk.levelPlot plot.base58Decoded seed plot.seed plot.compression
    plot.numberOfWarps).numberOfWarps = plot.numberOfWarps := rfl
  rw [warps, ReadDisk.row_address]
  exact byte

/-- A plot of a disk that the round mines, for a seed. -/
structure Mined (setup : Setup) (disk : Disk) (index : Nat) (plot : Plot) (seed : U8s 32) :
    Prop where
  found : disk.plots[index]? = some plot
  holds : HoldsScoop plot seed setup.decoded.scoop
  level : 1 ≤ plot.compression
  fromStart : plot.readProgress = 0
  kept : ∀ reason, plotAction plot setup.compressionConfig ≠ .skip reason
  levelFits : plot.compression + (plotAction plot setup.compressionConfig).steps ≤ 255

theorem scoop_lt (setup : Setup) : setup.decoded.scoop < numScoops := by
  obtain ⟨bytes, -, same⟩ := Option.map_eq_some_iff.mp setup.decodes
  rw [← same]
  exact calculateScoop_lt _ _

theorem compressionConfig_power {settings : CompressionConfig}
    (configured : setup.compressionConfig = some settings) :
    setup.hddReadCacheInWarps = 2 ^ settings.maxCompressionSteps := by
  have validated := setup.validated
  rw [Setup.compressionConfig] at configured
  split at configured
  · rename_i enabled
    obtain rfl := Option.some.inj configured
    rw [enabled] at validated
    exact validateCompressionSetup_power setup.cached validated
  · cases configured

/-- The data messages of a plot are valid, and tell of all its warps when its disk has finished. -/
theorem Mined.observed {disk : Disk} (listed : disk ∈ setup.disks) {index : Nat} {plot : Plot}
    {seed : U8s 32} (mined : Mined setup disk index plot seed) :
    (∀ reply, .data index reply ∈ setup.messages disk →
        ReadDisk.ValidReply plot seed setup.decoded.scoop
          (plotAction plot setup.compressionConfig).steps reply) ∧
      (.scanFinished ∈ setup.messages disk →
        ReadDisk.reported ((setup.messages disk).filterMap (ReadDisk.dataOf index)) =
          List.range (plot.numberOfWarps /
            2 ^ (plotAction plot setup.compressionConfig).steps)) := by
  obtain ⟨found, holds, level, fromStart, kept, levelFits⟩ := mined
  have scoopLt := scoop_lt setup
  have same := holds.sameRow scoopLt
  obtain ⟨front, back, split, apartFront, apartBack⟩ := ReadDisk.zipIdx_split disk.plots index _ found
  obtain ⟨payload, seedText, compression, numberOfWarps, content, readProgress⟩ := plot
  simp only at fromStart
  subst fromStart
  let whole := ReadDisk.levelPlot payload seed seedText compression numberOfWarps
  have mineable : ReadDisk.Mineable whole (plotAction whole setup.compressionConfig)
      setup.hddReadCacheInWarps :=
    ReadDisk.plotAction_mineable level setup.cached (fun _ => compressionConfig_power) levelFits
  have scanned := ReadDisk.readPlots_scanned
    (ReadDisk.levelPlot_plotted (scalarPlatform .other) payload seed seedText compression
      numberOfWarps) scoopLt mineable kept
    (ReadDisk.xorChunk_dvd setup.simd setup.platform.target) (setup.buffers disk listed) rfl index
    front back apartFront apartBack ⟨0, 0, []⟩ rfl
  rw [← ReadDisk.readPlots_withContent same] at scanned
  have entry : (whole.withContent content, index) = (⟨payload, seedText, compression, numberOfWarps,
    content, 0⟩, index) := rfl
  rw [entry, ← split] at scanned
  obtain ⟨valid, covered⟩ := scanned
  obtain ⟨submitted, finishes⟩ := ReadDisk.readDisk_observed valid covered
  refine ⟨?_, finishes⟩
  intro reply member
  obtain ⟨positive, levels, within, replyLevel, account, seedSent⟩ := submitted reply member
  exact ⟨positive, levels, within, replyLevel, account, seedSent⟩

/-- When its disk has finished, a data message tells of each nonce of a plot. -/
theorem Mined.told {disk : Disk} (listed : disk ∈ setup.disks) {index : Nat} {plot : Plot}
    {seed : U8s 32} (mined : Mined setup disk index plot seed)
    (finished : .scanFinished ∈ setup.messages disk) {nonce : Nat}
    (nonceLt : nonce <
      plot.numberOfWarps / 2 ^ (plotAction plot setup.compressionConfig).steps * numScoops) :
    ∃ reply, .data index reply ∈ setup.messages disk ∧
      ReadDisk.ValidReply plot seed setup.decoded.scoop
        (plotAction plot setup.compressionConfig).steps reply ∧
      reply.warpOffset ≤ nonce / numScoops ∧
      nonce / numScoops < reply.warpOffset + reply.numberOfWarps := by
  obtain ⟨valid, complete⟩ := mined.observed listed
  have warpLt : nonce / numScoops <
      plot.numberOfWarps / 2 ^ (plotAction plot setup.compressionConfig).steps :=
    (Nat.div_lt_iff_lt_mul (by decide)).mpr nonceLt
  have reported := List.mem_range.mpr warpLt
  rw [← complete finished] at reported
  obtain ⟨reply, data, behind, below⟩ := ReadDisk.told_of_reported reported
  exact ⟨reply, data, valid reply data, behind, below⟩

/-- What is sent for a data message is at least as good as each of its nonces. -/
theorem sends_least {plot : Plot} {seed : U8s 32} {steps : Nat} {reply : ReadReply}
    (reference : Platform)
    (valid : ReadDisk.ValidReply plot seed setup.decoded.scoop steps reply) {nonce : Nat}
    (behind : reply.warpOffset ≤ nonce / numScoops)
    (below : nonce / numScoops < reply.warpOffset + reply.numberOfWarps) :
    ∃ quality, calculateQualityRaw reference plot.base58Decoded seed nonce (plot.compression + steps)
        setup.decoded.scoop setup.decoded.generationSignatureBytes = .ok quality ∧
      (setup.sends reply).2.nonceSubmission.rawQuality ≤ quality := by
  refine ⟨_, Hasher.calculateQualityRaw_level reference _ _ _ _ _ _ (scoop_lt setup), ?_⟩
  have found := findBestQuality_least setup.platform reply.buffer (reply.numberOfWarps * numScoops)
    setup.decoded.generationSignatureBytes (Nat.mul_pos valid.positive (by decide)) valid.holds.whole
  have inWarp : nonce % numScoops < numScoops := Nat.mod_lt _ (by decide)
  have warp : nonce / numScoops - reply.warpOffset < reply.numberOfWarps := by omega
  have parts : nonce / numScoops * numScoops + nonce % numScoops = nonce := Nat.div_add_mod' _ _
  have scoopEq := valid.holds.scoops _ _ warp inWarp
  rw [Nat.add_sub_cancel' behind, parts, valid.level] at scoopEq
  have inside : (nonce / numScoops - reply.warpOffset) * numScoops + nonce % numScoops <
      reply.numberOfWarps * numScoops := by
    have rows := Nat.mul_le_mul_right numScoops (Nat.succ_le_of_lt warp)
    rw [Nat.succ_mul] at rows
    omega
  have least := found.least _ inside
  rw [scoopQuality, scoopEq] at least
  exact least

end Plots

end Pocx.MiningRound
