import Pocx.Hashlib.Quality
import Pocx.Lib.KeyedSum

set_option autoImplicit false

namespace Pocx.Hashlib.BatchValidation

open PlotFile (numScoops)

inductive SurrenderPolicy
  | stopOnFirst
  | continueAll
deriving DecidableEq

structure ProofInput where
  addressPayload : U8s 20
  seed : U8s 32
  nonce : Nat
  compression : Nat
  blockHeight : Nat
  generationSignature : U8s 32
  baseTarget : UInt64
  claimedQuality : Option UInt64

structure ValidationResult where
  quality : UInt64
  deadline : UInt64
  isValid : Bool
  error : Option HashError

structure BatchValidationResult where
  results : List ValidationResult
  earlySurrender : Bool
  surrenderIndex : Option Nat

structure WorkUnit where
  proofIndex : Nat
  addressPayload : U8s 20
  seed : U8s 32
  baseNonce : Nat
  scoop : Nat

/-- Unit `i` of a proof with `numUncompressed` units. -/
def workUnit (proofIndex : Nat) (input : ProofInput) (scoop numUncompressed i : Nat) : WorkUnit :=
  let warp := input.nonce / numScoops
  let nonceInWarp := input.nonce % numScoops
  let scoopX := if i % 2 = 0 then scoop else nonceInWarp
  let nonceInWarpX := if i % 2 = 0 then nonceInWarp else scoop
  let warpX := numUncompressed * warp + i
  { proofIndex := proofIndex
    addressPayload := input.addressPayload
    seed := input.seed
    baseNonce := warpX * numScoops + nonceInWarpX
    scoop := scoopX }

/-- `expand_work_units` -/
def expandWorkUnits (proofIndex : Nat) (input : ProofInput) (scoop : Nat) : List WorkUnit :=
  let numUncompressed := 1 <<< input.compression
  (List.range numUncompressed).map (workUnit proofIndex input scoop numUncompressed)

/-- The units of all proofs, in one vector. -/
def workUnits (inputs : List ProofInput) : List WorkUnit :=
  inputs.zipIdx.flatMap fun proof =>
    expandWorkUnits proof.2 proof.1
      (calculateScoop proof.1.blockHeight proof.1.generationSignature)

/-- The scalar scoop of a unit. -/
def unitScoop (unit : WorkUnit) : Scoop :=
  generateAndExtractScoop32 unit.addressPayload unit.seed unit.baseNonce unit.scoop

/-- The functions `generate_and_extract_scoops_*` by their width. A lane extracts what the
scalar function does. -/
structure BatchLanes where
  extract : Nat → List WorkUnit → List Scoop
  lane : ∀ width units, units.length = width → extract width units = units.map unitScoop

/-- The widths `process_work_range` tries, the widest first. -/
def batchWidths : Target → List Nat
  | .x86 avx512f avx2 avx sse2 =>
    (if avx512f then [16] else []) ++ (if avx2 then [8] else []) ++
      if avx || sse2 then [4] else []
  | .aarch64 => [4]
  | .other => []

/-- `process_batch_simd`: what it hands to `accumulate_scoop`, in order. -/
def processBatchSimd (lanes : BatchLanes) (width : Nat) (units : List WorkUnit) :
    List (Nat × Scoop) :=
  (units.map WorkUnit.proofIndex).zip (lanes.extract width units)

/-- The first width that the remaining units fill. -/
def batchWidth (target : Target) (remaining : Nat) : Option Nat :=
  (batchWidths target).find? fun width => width ≤ remaining

/-- `process_work_range`, with the fuel to visit every unit. Nothing sets the surrender
flag it polls. -/
def processWorkRange (target : Target) (lanes : BatchLanes) :
    Nat → List WorkUnit → List (Nat × Scoop)
  | 0, _ => []
  | _ + 1, [] => []
  | fuel + 1, unit :: rest =>
    match batchWidth target (unit :: rest).length with
    | some width =>
      processBatchSimd lanes width ((unit :: rest).take width) ++
        processWorkRange target lanes fuel ((unit :: rest).drop width)
    | none => (unit.proofIndex, unitScoop unit) :: processWorkRange target lanes fuel rest

/-- The chunks of the work units, `step_by(chunk_size)`. -/
def chunks (chunkSize : Nat) (units : List WorkUnit) : List (List WorkUnit) :=
  (List.range ((units.length + chunkSize - 1) / chunkSize)).map fun k =>
    (units.drop (k * chunkSize)).take chunkSize

/-- `num_threads`; one hardware thread is left alone. -/
def numThreads (target : Target) (hwThreads totalWork : Nat) : Nat :=
  let width := target.simdWidth
  min (max (hwThreads - 1) 1) ((totalWork + width - 1) / width)

/-- What the threads hand to `accumulate_scoop`, thread by thread. -/
def threadTasks (target : Target) (lanes : BatchLanes) (hwThreads : Nat)
    (units : List WorkUnit) : List (List (Nat × Scoop)) :=
  let threads := numThreads target hwThreads units.length
  if threads ≤ 1 then [processWorkRange target lanes units.length units]
  else
    (chunks ((units.length + threads - 1) / threads) units).map fun chunk =>
      processWorkRange target lanes chunk.length chunk

/-- Quality finalization of one proof. -/
def finalize (input : ProofInput) (proofIndex : Nat) (xorResult : Scoop) : ValidationResult :=
  let quality := shabal256Lite xorResult input.generationSignature
  let deadline :=
    if input.baseTarget = 0 then UInt64.ofNat (2 ^ 64 - 1) else quality / input.baseTarget
  match input.claimedQuality with
  | none => ⟨quality, deadline, true, none⟩
  | some claimed =>
    if quality = claimed then ⟨quality, deadline, true, none⟩
    else ⟨quality, deadline, false, some (.qualityMismatch claimed quality proofIndex)⟩

/-- One turn of the finalization loop. -/
def finalizeTurn (policy : SurrenderPolicy) (accumulators : Nat → Scoop)
    (batch : BatchValidationResult) (proof : ProofInput × Nat) : BatchValidationResult :=
  let result := finalize proof.1 proof.2 (accumulators proof.2)
  let surrenders := !result.isValid && decide (policy = .stopOnFirst)
  { results := batch.results ++ [result]
    earlySurrender := batch.earlySurrender || surrenders
    surrenderIndex :=
      if surrenders && batch.surrenderIndex.isNone then some proof.2 else batch.surrenderIndex }

/-- `validate_proofs`, with the calls of `accumulate_scoop` in the order in which the
threads get hold of the accumulators. -/
def validateProofs (inputs : List ProofInput) (policy : SurrenderPolicy)
    (order : List (Nat × Scoop)) : BatchValidationResult :=
  let accumulators := order.foldl KeyedSum.accumulate fun _ => 0
  inputs.zipIdx.foldl (finalizeTurn policy accumulators) ⟨[], false, none⟩

end Pocx.Hashlib.BatchValidation
