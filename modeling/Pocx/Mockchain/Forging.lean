import Mathlib.Algebra.Ring.Nat
import Mathlib.Logic.Function.Basic
import Pocx.Address.Address
import Pocx.Lib.Transition

set_option autoImplicit false

namespace Pocx.Mockchain

open Address (Bs58 Segwit NetworkId AddressError encodeAddress decodeAddress)
open Transition (System)

/-- `u64::MAX` -/
def maxQuality : Nat := 2 ^ 64 - 1

/-- `as i32` -/
def asI32 (value : Nat) : Int := (BitVec.ofNat 32 value).toInt

/-- The network of the configuration, and what is used of the crates `hex`, `bs58`, `bech32`
and `pocx_hashlib`. The two bounds of a base target and the forging time of a quality are computed in
floating point. -/
structure PoCXConfig where
  networkId : NetworkId
  blockTimeSeconds : Nat
  minimumCompressionLevel : Nat
  targetCompressionLevel : Nat
  minBaseTarget : Nat → Nat
  maxBaseTarget : Nat → Nat
  qualityAdjToTime : Nat → Nat → Nat
  bs58 : Bs58
  segwit : Segwit
  hexEncode : List UInt8 → List Char
  hexDecode : List Char → Option (List UInt8)
  toLowercase : List Char → List Char
  calculateBestQualityInRange (payload seed : List UInt8) (nonce minCompression maxCompression
    height : Nat) (generationSignature : List UInt8) : Option Nat
  calculateNextGenerationSignature (generationSignature publicKey : List UInt8) : List UInt8

/-- The generation signature is kept as bytes; its text is their `hex::encode`. -/
structure MiningInfo where
  generationSignature : List UInt8
  baseTarget : Nat
  height : Nat
  blockHash : List Char
  targetQuality : Nat

structure SubmitNonceParams where
  blockHash : List Char
  height : Nat
  generationSignature : List Char
  accountId : List Char
  seed : List Char
  nonce : Nat

inductive ProtocolError
  | invalidSubmission (message : String)
  | wrongHeight (expected submitted : Nat)
  | invalidParams (message : String)
  | internalError (message : String)
deriving DecidableEq

/-- What `submit_nonce` carries behind its checks. -/
structure Submission where
  height : Nat
  generator : List Char
  seed : List Char
  nonce : Nat
  quality : Nat
  pocTime : Nat
deriving DecidableEq

structure Block where
  height : Int
  baseTarget : Nat
  generationSignature : List Char
  generator : List Char
  seed : List Char
  nonce : Int
  pocTime : Int

section functions

variable (config : PoCXConfig)

/-- The payload of an account id, 40 hex characters. -/
def addressPayload (accountId : List Char) : Except ProtocolError (List UInt8) :=
  let length := (accountId.map Char.utf8Size).sum
  if length = 40 then
    match config.hexDecode accountId with
    | none =>
      .error (.invalidParams "Invalid address payload! Expected 40 hex characters (20 bytes).")
    | some payload =>
      if payload.length = 20 then .ok payload
      else
        .error (.invalidParams "Invalid address payload! Expected 40 hex characters (20 bytes).")
  else
    .error (.invalidParams
      ("Invalid address payload length! Expected 40 hex characters, got " ++ toString length ++
        "."))

def seedBytes (seed : List Char) : Except ProtocolError (List UInt8) :=
  match config.hexDecode seed with
  | none => .error (.invalidParams "Invalid seed format")
  | some bytes =>
    if bytes.length = 32 then .ok bytes else .error (.invalidParams "Seed must be 32 bytes")

/-- `submit_nonce` up to the lock: the checks against the mining info it has read. -/
def checkNonce (miningInfo : MiningInfo) (params : SubmitNonceParams) :
    Except ProtocolError Submission := do
  if config.toLowercase params.blockHash ≠ config.toLowercase miningInfo.blockHash then
    throw (.invalidSubmission "unexpected block hash, stale submission?")
  if params.height ≠ miningInfo.height then
    throw (.wrongHeight miningInfo.height params.height)
  if config.toLowercase params.generationSignature ≠
      config.toLowercase (config.hexEncode miningInfo.generationSignature) then
    throw (.invalidSubmission "unexpected generation signature, fork?")
  let payload ← addressPayload config params.accountId
  let generator ←
    match encodeAddress config.bs58 config.segwit payload config.networkId with
    | .error _ => throw (.invalidParams "Failed to encode address")
    | .ok address => pure address
  let seed ← seedBytes config params.seed
  let quality ←
    match config.calculateBestQualityInRange payload seed params.nonce
      config.minimumCompressionLevel config.targetCompressionLevel miningInfo.height
      miningInfo.generationSignature with
    | none => throw (.internalError "Failed to calculate quality")
    | some quality => pure quality
  let qualityAdjusted := quality / miningInfo.baseTarget
  if miningInfo.targetQuality < qualityAdjusted then
    throw (.invalidSubmission
      ("quality " ++ toString qualityAdjusted ++ " exceeds target quality: " ++
        toString miningInfo.targetQuality))
  return {
    height := miningInfo.height
    generator := generator
    seed := params.seed
    nonce := params.nonce
    quality := quality
    pocTime := config.qualityAdjToTime qualityAdjusted config.blockTimeSeconds }

/-- `genesis_base_target` -/
def genesisBaseTarget (blockTime : Nat) : Nat := 2 ^ 42 / blockTime

/-- The difficulty adjustment of `forge_block`, after `blocks` blocks in `elapsed` seconds. -/
def nextBaseTarget (baseTarget elapsed blocks : Nat) : Nat :=
  let raw := baseTarget * elapsed % 2 ^ 64 / (blocks * config.blockTimeSeconds % 2 ^ 64)
  let limited := min (max raw (config.minBaseTarget baseTarget)) (config.maxBaseTarget baseTarget)
  max (min limited (genesisBaseTarget config.blockTimeSeconds)) 1

/-- `forge_block`: the new mining info and the block that is stored; `none` where it returns
early. `elapsed` is what `get_elapsed_time` returns, the block hash is random. -/
def forgeBlock (miningInfo : MiningInfo) (submission : Submission)
    (elapsed : Option (Nat × Nat)) (blockHash : List Char) : Option (MiningInfo × Block) :=
  if miningInfo.height ≠ submission.height then none
  else
    match decodeAddress config.bs58 config.segwit submission.generator with
    | .error _ => none
    | .ok (payload, networkId) =>
      if networkId ≠ config.networkId then none
      else
        elapsed.map fun (seconds, blocks) =>
          let newHeight := miningInfo.height + 1
          let newBaseTarget := nextBaseTarget config miningInfo.baseTarget seconds blocks
          let newGenerationSignature :=
            config.calculateNextGenerationSignature miningInfo.generationSignature
              (payload ++ List.replicate 44 0)
          ({ generationSignature := newGenerationSignature
             baseTarget := newBaseTarget
             height := newHeight
             blockHash := blockHash
             targetQuality := maxQuality },
            { height := asI32 newHeight
              baseTarget := newBaseTarget
              generationSignature := config.hexEncode newGenerationSignature
              generator := submission.generator
              seed := submission.seed
              nonce := asI32 submission.nonce
              pocTime := asI32 submission.pocTime })

end functions

/-- A spawned task sleeps until it is awake. The interrupt ends it only as long as it sleeps; where
both are ready `select!` takes any of them. -/
structure ForgingTask where
  submission : Submission
  interrupted : Bool
  awake : Bool

/-- The shared state, the calls that wait for the lock, and the tasks. `recorded` and `beaten`
keep all submissions that were compared, as they were or were not better. -/
structure State where
  miningInfo : MiningInfo
  blocks : List Block
  bestQuality : Nat
  tripwire : Option Nat
  calls : Nat → Option Submission
  tasks : Nat → Option ForgingTask
  recorded : List Submission
  beaten : List Submission

/-- The atomic steps. A call reads the mining info, and later holds the lock of the best
quality; `latest` tells that `get_latest_block` found a block. A task wakes up or ends
interrupted, and an awake one holds the lock. -/
inductive Label
  | getMiningInfo (call : Nat) (params : SubmitNonceParams)
  | compare (call task : Nat) (latest : Bool)
  | wake (task : Nat)
  | interrupted (task : Nat)
  | forge (task : Nat) (elapsed : Option (Nat × Nat)) (blockHash : List Char)

/-- The interrupter of the last spawned task fires. -/
def interrupt (tripwire : Option Nat) (tasks : Nat → Option ForgingTask) :
    Nat → Option ForgingTask :=
  match tripwire with
  | none => tasks
  | some last =>
    Function.update tasks last
      ((tasks last).map fun sleeping => { sleeping with interrupted := true })

/-- `submit_nonce` under the lock. -/
def State.compare (state : State) (submission : Submission) (task : Nat) (latest : Bool) :
    State :=
  if submission.quality < state.bestQuality then
    let recorded := { state with
      bestQuality := submission.quality
      recorded := submission :: state.recorded }
    if latest then
      { recorded with
        tripwire := some task
        tasks := Function.update (interrupt state.tripwire state.tasks) task
          (some { submission := submission, interrupted := false, awake := false }) }
    else recorded
  else { state with beaten := submission :: state.beaten }

/-- The handler of an awake task. The best quality is reset whether a block was forged or
not. -/
def State.forge (config : PoCXConfig) (state : State) (submission : Submission)
    (elapsed : Option (Nat × Nat)) (blockHash : List Char) : State :=
  match forgeBlock config state.miningInfo submission elapsed blockHash with
  | none => { state with bestQuality := maxQuality }
  | some (miningInfo, block) =>
    { state with
      miningInfo := miningInfo
      blocks := block :: state.blocks
      bestQuality := maxQuality }

def step (config : PoCXConfig) (state : State) : Label → Option State
  | .getMiningInfo call params =>
    match state.calls call with
    | some _ => none
    | none =>
      match checkNonce config state.miningInfo params with
      | .error _ => some state
      | .ok submission =>
        some { state with calls := Function.update state.calls call (some submission) }
  | .compare call task latest =>
    match state.calls call, state.tasks task with
    | some submission, none =>
      some ({ state with calls := Function.update state.calls call none }.compare submission task
        latest)
    | _, _ => none
  | .wake task =>
    match state.tasks task with
    | none => none
    | some sleeping =>
      if sleeping.awake then none
      else
        some { state with
          tasks := Function.update state.tasks task (some { sleeping with awake := true }) }
  | .interrupted task =>
    match state.tasks task with
    | none => none
    | some sleeping =>
      if sleeping.interrupted && !sleeping.awake then
        some { state with tasks := Function.update state.tasks task none }
      else none
  | .forge task elapsed blockHash =>
    match state.tasks task with
    | none => none
    | some awake =>
      if awake.awake then
        some ({ state with tasks := Function.update state.tasks task none }.forge config
          awake.submission elapsed blockHash)
      else none

/-- The mock chain from its start, on any chain. -/
def system (config : PoCXConfig) : System State Label where
  initial := fun state =>
    state.bestQuality = maxQuality ∧ state.tripwire = none ∧ (∀ call, state.calls call = none) ∧
      (∀ task, state.tasks task = none) ∧ state.recorded = [] ∧ state.beaten = []
  step := step config

/-- The least quality of the submissions for a height, `u64::MAX` where there is none. -/
def leastQuality (height : Nat) : List Submission → Nat
  | [] => maxQuality
  | submission :: rest =>
    if submission.height = height then min submission.quality (leastQuality height rest)
    else leastQuality height rest

/-- `best_quality` is the least quality recorded for the chain's current height. -/
def BestRecorded (state : State) : Prop :=
  state.bestQuality = leastQuality state.miningInfo.height state.recorded

/-- The submission of the task that takes a step under the lock. -/
def Label.forges (state : State) : Label → Option Submission
  | .forge task _ _ => (state.tasks task).map ForgingTask.submission
  | _ => none

/-- A step that advances the chain does so by one height with the block of a submission recorded
for the old one, and none that was compared for it before was better. -/
def ForgesBest (before : State) (label : Label) (after : State) : Prop :=
  after.miningInfo.height ≠ before.miningInfo.height →
    after.miningInfo.height = before.miningInfo.height + 1 ∧
      ∃ submission block, label.forges before = some submission ∧
        after.blocks = block :: before.blocks ∧ block.generator = submission.generator ∧
        block.seed = submission.seed ∧ block.nonce = asI32 submission.nonce ∧
        submission ∈ before.recorded ∧ submission.height = before.miningInfo.height ∧
        ∀ other ∈ before.recorded ++ before.beaten, other.height = before.miningInfo.height →
          submission.quality ≤ other.quality

/-- `forge_block` gets through its checks behind the height. -/
def Forgeable (config : PoCXConfig) (submission : Submission) (elapsed : Option (Nat × Nat)) :
    Prop :=
  elapsed.isSome ∧ ∃ payload, decodeAddress config.bs58 config.segwit submission.generator =
    .ok (payload, config.networkId)

/-- The step meets what the code counts on. A better submission is recorded at the height it was
checked against. A task that gets the lock at its height belongs to the best submission and
gets through, and one that gets it later finds nothing recorded. -/
def Fine (config : PoCXConfig) (state : State) : Label → Prop
  | .compare call _ _ =>
    ∀ submission, state.calls call = some submission → submission.quality < state.bestQuality →
      submission.height = state.miningInfo.height
  | .forge task elapsed _ =>
    ∀ awake, state.tasks task = some awake →
      if awake.submission.height = state.miningInfo.height then
        awake.submission.quality = state.bestQuality ∧ Forgeable config awake.submission elapsed
      else state.bestQuality = maxQuality
  | _ => True

end Pocx.Mockchain
