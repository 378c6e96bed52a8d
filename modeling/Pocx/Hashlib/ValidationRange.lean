import Pocx.Hashlib.BatchValidationSpec
import Pocx.Lib.Panicking

set_option autoImplicit false

namespace Pocx.Hashlib.ValidationRange

open BatchValidation (ProofInput WorkUnit SurrenderPolicy BatchValidationResult BatchLanes
  threadTasks Fits)
open ByteStore
open Panicking
open PlotFile (scoopSize numScoops nonceSize)

/-- The nonce of an uncompressed scoop, `warp_x * NUM_SCOOPS + nonce_in_warp_x`. -/
def uncompressedNonce (overflowChecks : Bool) (numUncompressed warp i nonceInWarpX : Nat) :
    Except Panic Nat := do
  let product ← fit 64 overflowChecks (numUncompressed * warp)
  let warpX ← fit 64 overflowChecks (product + i)
  let start ← fit 64 overflowChecks (warpX * numScoops)
  fit 64 overflowChecks (start + nonceInWarpX)

section expansion

variable (overflowChecks : Bool) (proofIndex : Nat) (input : ProofInput) (scoop : Nat)

/-- Unit `i` of a proof. -/
def workUnit (numUncompressed i : Nat) : Except Panic WorkUnit := do
  let warp := input.nonce / numScoops
  let nonceInWarp := input.nonce % numScoops
  let scoopX := if i % 2 = 0 then scoop else nonceInWarp
  let nonceInWarpX := if i % 2 = 0 then nonceInWarp else scoop
  let nonceX ← uncompressedNonce overflowChecks numUncompressed warp i nonceInWarpX
  return {
    proofIndex := proofIndex
    addressPayload := input.addressPayload
    seed := input.seed
    baseNonce := nonceX
    scoop := scoopX }

/-- The size of a `WorkUnit` in memory, a multiple of its alignment. -/
def workUnitSize : Nat := 80

/-- `expand_work_units` -/
def expandWorkUnits : Except Panic (List WorkUnit) := do
  let numUncompressed ← shiftOne 64 overflowChecks input.compression
  let _ ← withCapacity workUnitSize numUncompressed
  (List.range numUncompressed).mapM (workUnit overflowChecks proofIndex input scoop numUncompressed)

/-- The loop over the proofs, which collects the units of all in one vector. -/
def expandProofs : List (ProofInput × Nat) → List WorkUnit → Nat → Except Panic (List WorkUnit)
  | [], workUnits, _ => .ok workUnits
  | (input, idx) :: rest, workUnits, capacity => do
    let scoop := calculateScoop input.blockHeight input.generationSignature
    let units ← expandWorkUnits overflowChecks idx input scoop
    let capacity ← reserve workUnitSize capacity (workUnits.length + units.length)
    expandProofs rest (workUnits ++ units) capacity

end expansion

/-- What reaches the accumulators for a vector of units: the contributions of all threads, in
some order. -/
structure Schedule (target : Target) (lanes : BatchLanes) (hwThreads : Nat) where
  order : List WorkUnit → List (Nat × Scoop)
  interleaves : ∀ units, (order units).Perm (threadTasks target lanes hwThreads units).flatten

variable {target : Target} {lanes : BatchLanes} {hwThreads : Nat}

/-- `validate_proofs`; it returns no `Err`. -/
def validateProofs (overflowChecks : Bool) (schedule : Schedule target lanes hwThreads)
    (inputs : List ProofInput) (policy : SurrenderPolicy) :
    Except Panic BatchValidationResult :=
  match inputs with
  | [] => .ok ⟨[], false, none⟩
  | inputs => do
    let workUnits ← expandProofs overflowChecks inputs.zipIdx [] 0
    return BatchValidation.validateProofs inputs policy (schedule.order workUnits)

section generation

variable (overflowChecks : Bool) (generateNonces : GenerateNonces (U8s 20) (U8s 32))
  (addressPayload : U8s 20) (seed : U8s 32) (scoop nonce : Nat)

/-- The loop of `generate_scoop` from some turn on: the result so far and the nonce buffer. -/
def generateTurns (numUncompressed : Nat) :
    List Nat → Scoop × Bytes → Except Panic (Except HashError Scoop)
  | [], state => .ok (.ok state.1)
  | i :: rest, state => do
    let warp := nonce / numScoops
    let nonceInWarp := nonce % numScoops
    let scoopX := if i % 2 = 0 then scoop else nonceInWarp
    let nonceInWarpX := if i % 2 = 0 then nonceInWarp else scoop
    let nonceX ← uncompressedNonce overflowChecks numUncompressed warp i nonceInWarpX
    match generateNonces state.2 0 addressPayload seed nonceX 1 with
    | .error error => return .error error
    | .ok nonceBuffer =>
      generateTurns numUncompressed rest
        (state.1 + scoopAt nonceBuffer (scoopX * scoopSize), nonceBuffer)

/-- `generate_scoop` -/
def generateScoop (compression : Nat) : Except Panic (Except HashError Scoop) := do
  let numUncompressed ← fit 64 overflowChecks (2 ^ compression)
  generateTurns overflowChecks generateNonces addressPayload seed scoop nonce numUncompressed
    (List.range numUncompressed) (0, ⟨nonceSize, fun _ => 0⟩)

end generation

/-- `calculate_quality_from_height` -/
def calculateQualityFromHeight (overflowChecks : Bool) (platform : Platform) (input : ProofInput) :
    Except Panic (Except HashError UInt64) := do
  let scoop := calculateScoop input.blockHeight input.generationSignature
  if numScoops ≤ scoop then return .error (.invalidInput scoop)
  else
    let data ← generateScoop overflowChecks (generateNonces platform) input.addressPayload
      input.seed scoop input.nonce input.compression
    return data.map fun data => (findBestQuality platform data.bytes 1 input.generationSignature).1

/-- With overflow checks on, an operation that leaves its range stops the computation. So both
functions return without one, wrap nothing where the checks are off, and find the same quality. -/
def InRange (platform : Platform) (schedule : Schedule platform.target lanes hwThreads)
    (inputs : List ProofInput) (policy : SurrenderPolicy) : Prop :=
  ∃ batch, (∀ overflowChecks, validateProofs overflowChecks schedule inputs policy = .ok batch) ∧
    ∀ (index : Nat) (input : ProofInput), inputs[index]? = some input →
      ∃ result outcome, batch.results[index]? = some result ∧
        (∀ overflowChecks,
          calculateQualityFromHeight overflowChecks platform input = .ok outcome) ∧
        ∀ quality, outcome = .ok quality → quality = result.quality

/-- The capacity of the vector of all units, from some capacity and length on. -/
def unitsCapacity (capacity len : Nat) : List ProofInput → Nat
  | [] => capacity
  | input :: rest =>
    unitsCapacity (grown capacity (len + 2 ^ input.compression)) (len + 2 ^ input.compression) rest

theorem uncompressedNonce_ok {numUncompressed warp i nonceInWarpX : Nat}
    (small : (numUncompressed * warp + i) * numScoops + nonceInWarpX < 2 ^ 64)
    (overflowChecks : Bool) :
    uncompressedNonce overflowChecks numUncompressed warp i nonceInWarpX =
      .ok ((numUncompressed * warp + i) * numScoops + nonceInWarpX) := by
  have start : (numUncompressed * warp + i) * numScoops < 2 ^ 64 :=
    Nat.lt_of_le_of_lt (Nat.le_add_right _ _) small
  have warpX : numUncompressed * warp + i < 2 ^ 64 :=
    Nat.lt_of_le_of_lt (Nat.le_mul_of_pos_right _ (by decide)) start
  have product : numUncompressed * warp < 2 ^ 64 :=
    Nat.lt_of_le_of_lt (Nat.le_add_right _ _) warpX
  exact bind_eq_ok.mpr ⟨_, fit_ok product _, bind_eq_ok.mpr ⟨_, fit_ok warpX _,
    bind_eq_ok.mpr ⟨_, fit_ok start _, fit_ok small _⟩⟩⟩

theorem uncompressedNonce_checked {numUncompressed warp i nonceInWarpX nonceX : Nat}
    (computed : uncompressedNonce true numUncompressed warp i nonceInWarpX = .ok nonceX) :
    (numUncompressed * warp + i) * numScoops + nonceInWarpX < 2 ^ 64 := by
  obtain ⟨_, product, computed⟩ := bind_eq_ok.mp computed
  obtain ⟨-, rfl⟩ := fit_checked.mp product
  obtain ⟨_, warpX, computed⟩ := bind_eq_ok.mp computed
  obtain ⟨-, rfl⟩ := fit_checked.mp warpX
  obtain ⟨_, start, computed⟩ := bind_eq_ok.mp computed
  obtain ⟨-, rfl⟩ := fit_checked.mp start
  exact (fit_checked.mp computed).1

theorem fits_iff (input : ProofInput) :
    Fits input ↔ input.compression ≤ 63 ∧
      (2 ^ input.compression * (input.nonce / numScoops) + 2 ^ input.compression) * 4096 ≤
        2 ^ 64 := by
  rw [Fits, Nat.mul_add_one]
  rfl

/-- The bound on a proof is that on its last unit. -/
theorem fits_of_last {input : ProofInput} {nonceInWarpX : Nat} (shift : input.compression ≤ 63)
    (last : (2 ^ input.compression * (input.nonce / numScoops) + (2 ^ input.compression - 1)) *
      numScoops + nonceInWarpX < 2 ^ 64) : Fits input := by
  have positive : 0 < 2 ^ input.compression := Nat.two_pow_pos _
  have scoops : numScoops = 4096 := rfl
  refine (fits_iff input).mpr ⟨shift, ?_⟩
  rw [scoops] at last ⊢
  generalize 2 ^ input.compression * (input.nonce / 4096) = start at last ⊢
  generalize 2 ^ input.compression = count at positive last ⊢
  omega

/-- Every unit of a proof within the bound has a nonce in range. -/
theorem unit_small {input : ProofInput} (fits : Fits input) {i nonceInWarpX : Nat}
    (inside : i < 2 ^ input.compression) (cell : nonceInWarpX < numScoops) :
    (2 ^ input.compression * (input.nonce / numScoops) + i) * numScoops + nonceInWarpX <
      2 ^ 64 := by
  have bound := ((fits_iff input).mp fits).2
  have scoops : numScoops = 4096 := rfl
  rw [scoops] at bound cell ⊢
  generalize 2 ^ input.compression * (input.nonce / 4096) = start at bound ⊢
  omega

theorem last_listed (compression : Nat) : 2 ^ compression - 1 ∈ List.range (2 ^ compression) :=
  List.mem_range.mpr (Nat.sub_one_lt_of_lt (Nat.two_pow_pos _))

theorem cell_lt (nonce : Nat) {scoop : Nat} (scoopLt : scoop < numScoops) (i : Nat) :
    (if i % 2 = 0 then nonce % numScoops else scoop) < numScoops := by
  split
  · exact Nat.mod_lt _ (by decide)
  · exact scoopLt

theorem capacity_small {input : ProofInput} (fits : Fits input) :
    workUnitSize * 2 ^ input.compression < 2 ^ 63 := by
  have bound := ((fits_iff input).mp fits).2
  have size : workUnitSize = 80 := rfl
  rw [size]
  omega

theorem workUnit_ok {input : ProofInput} (fits : Fits input) {scoop i : Nat}
    (scoopLt : scoop < numScoops) (inside : i < 2 ^ input.compression) (overflowChecks : Bool)
    (proofIndex : Nat) :
    workUnit overflowChecks proofIndex input scoop (2 ^ input.compression) i =
      .ok (BatchValidation.workUnit proofIndex input scoop (2 ^ input.compression) i) := by
  have small := unit_small fits inside (cell_lt input.nonce scoopLt i)
  exact bind_eq_ok.mpr ⟨_, uncompressedNonce_ok small overflowChecks, rfl⟩

theorem expandWorkUnits_ok {input : ProofInput} (fits : Fits input) {scoop : Nat}
    (scoopLt : scoop < numScoops) (overflowChecks : Bool) (proofIndex : Nat) :
    expandWorkUnits overflowChecks proofIndex input scoop =
      .ok (BatchValidation.expandWorkUnits proofIndex input scoop) := by
  have shift : input.compression < 64 := Nat.lt_succ_of_le fits.1
  have room : withCapacity workUnitSize (2 ^ input.compression) = .ok (2 ^ input.compression) :=
    if_pos (capacity_small fits)
  have units := mapM_ok fun i listed =>
    workUnit_ok fits scoopLt (List.mem_range.mp listed) overflowChecks proofIndex
  have count : 1 <<< input.compression = 2 ^ input.compression := by
    rw [Nat.shiftLeft_eq, Nat.one_mul]
  rw [BatchValidation.expandWorkUnits, count]
  exact bind_eq_ok.mpr ⟨_, shiftOne_ok shift overflowChecks, bind_eq_ok.mpr ⟨_, room, units⟩⟩

theorem fits_of_expandWorkUnits {input : ProofInput} {scoop proofIndex : Nat}
    {units : List WorkUnit} (expanded : expandWorkUnits true proofIndex input scoop = .ok units) :
    Fits input := by
  obtain ⟨_, shifted, expanded⟩ := bind_eq_ok.mp expanded
  obtain ⟨shift, rfl⟩ := shiftOne_checked.mp shifted
  obtain ⟨_, -, expanded⟩ := bind_eq_ok.mp expanded
  obtain ⟨unit, last⟩ := ok_of_mapM expanded _ (last_listed input.compression)
  obtain ⟨_, nonce, -⟩ := bind_eq_ok.mp last
  exact fits_of_last (Nat.le_of_lt_succ shift) (uncompressedNonce_checked nonce)

theorem expandWorkUnits_length (proofIndex : Nat) (input : ProofInput) (scoop : Nat) :
    (BatchValidation.expandWorkUnits proofIndex input scoop).length = 2 ^ input.compression := by
  rw [BatchValidation.expandWorkUnits, List.length_map, List.length_range, Nat.shiftLeft_eq,
    Nat.one_mul]

theorem le_unitsCapacity (inputs : List ProofInput) (capacity len : Nat) :
    capacity ≤ unitsCapacity capacity len inputs := by
  induction inputs generalizing capacity len with
  | nil => exact Nat.le_refl capacity
  | cons input rest ih => exact Nat.le_trans (le_grown _ _) (ih _ _)

theorem expandProofs_ok (overflowChecks : Bool) (inputs : List ProofInput) (start : Nat)
    (workUnits : List WorkUnit) (capacity : Nat) (fits : ∀ input ∈ inputs, Fits input)
    (room : workUnitSize * unitsCapacity capacity workUnits.length inputs < 2 ^ 63) :
    expandProofs overflowChecks (inputs.zipIdx start) workUnits capacity =
      .ok (workUnits ++ (inputs.zipIdx start).flatMap fun proof =>
        BatchValidation.expandWorkUnits proof.2 proof.1
          (calculateScoop proof.1.blockHeight proof.1.generationSignature)) := by
  induction inputs generalizing start workUnits capacity with
  | nil => exact congrArg Except.ok (List.append_nil workUnits).symm
  | cons input rest ih =>
    have held : workUnitSize * capacity < 2 ^ 63 :=
      Nat.lt_of_le_of_lt (Nat.mul_le_mul_left _ (le_unitsCapacity (input :: rest) _ _)) room
    have units := expandWorkUnits_ok (fits input List.mem_cons_self)
      (calculateScoop_lt input.blockHeight input.generationSignature) overflowChecks start
    have length := expandWorkUnits_length start input
      (calculateScoop input.blockHeight input.generationSignature)
    have next : workUnitSize * grown capacity (workUnits.length + 2 ^ input.compression) <
        2 ^ 63 :=
      Nat.lt_of_le_of_lt (Nat.mul_le_mul_left _ (le_unitsCapacity rest _ _)) room
    rw [unitsCapacity, ← length, ← List.length_append] at room
    have later := ih (start + 1) _ _ (fun other listed => fits other (List.mem_cons_of_mem _ listed))
      room
    rw [List.append_assoc, List.length_append] at later
    rw [← length] at next
    exact bind_eq_ok.mpr ⟨_, units, bind_eq_ok.mpr ⟨_, (reserve_ok_iff held).mpr ⟨next, rfl⟩, later⟩⟩

theorem of_expandProofs (inputs : List ProofInput) (start : Nat) (workUnits : List WorkUnit)
    (capacity : Nat) (held : workUnitSize * capacity < 2 ^ 63) {all : List WorkUnit}
    (expanded : expandProofs true (inputs.zipIdx start) workUnits capacity = .ok all) :
    (∀ input ∈ inputs, Fits input) ∧
      workUnitSize * unitsCapacity capacity workUnits.length inputs < 2 ^ 63 := by
  induction inputs generalizing start workUnits capacity with
  | nil => exact ⟨fun _ listed => (nomatch listed), held⟩
  | cons input rest ih =>
    obtain ⟨units, expansion, expanded⟩ := bind_eq_ok.mp expanded
    have fits := fits_of_expandWorkUnits expansion
    rw [expandWorkUnits_ok fits (calculateScoop_lt _ _)] at expansion
    obtain rfl := Except.ok.inj expansion
    obtain ⟨_, reserved, expanded⟩ := bind_eq_ok.mp expanded
    obtain ⟨next, rfl⟩ := (reserve_ok_iff held).mp reserved
    obtain ⟨others, room⟩ := ih (start + 1) _ _ next expanded
    rw [List.length_append, expandWorkUnits_length] at room
    refine ⟨?_, room⟩
    intro other listed
    rcases List.mem_cons.mp listed with rfl | behind
    · exact fits
    · exact others other behind

/-- In range the loop of `generate_scoop` is the unbounded one. -/
theorem generateTurns_ok {generateNonces : GenerateNonces (U8s 20) (U8s 32)} (input : ProofInput)
    {scoop : Nat} (overflowChecks : Bool) (fits : Fits input) (scoopLt : scoop < numScoops)
    (turns : List Nat) (inside : ∀ i ∈ turns, i < 2 ^ input.compression)
    (state : Scoop × Bytes) :
    generateTurns overflowChecks generateNonces input.addressPayload input.seed scoop input.nonce
        (2 ^ input.compression) turns state =
      .ok ((turns.foldlM (generateTurn generateNonces input.addressPayload input.seed scoop
        input.nonce input.compression) state).map Prod.fst) := by
  induction turns generalizing state with
  | nil => rfl
  | cons i rest ih =>
    have small := unit_small fits (inside i List.mem_cons_self) (cell_lt input.nonce scoopLt i)
    have later := ih fun j listed => inside j (List.mem_cons_of_mem _ listed)
    rw [generateTurns, List.foldlM_cons]
    refine bind_eq_ok.mpr ⟨_, uncompressedNonce_ok small overflowChecks, ?_⟩
    cases generated : generateNonces state.2 0 input.addressPayload input.seed
        ((2 ^ input.compression * (input.nonce / numScoops) + i) * numScoops +
          if i % 2 = 0 then input.nonce % numScoops else scoop) 1 with
    | error failure =>
      have turn : generateTurn generateNonces input.addressPayload input.seed scoop input.nonce
          input.compression state i = .error failure := by
        simp only [generateTurn, generated]
      rw [turn]
      rfl
    | ok buffer =>
      have turn : generateTurn generateNonces input.addressPayload input.seed scoop input.nonce
          input.compression state i = .ok (state.1 + scoopAt buffer
            ((if i % 2 = 0 then scoop else input.nonce % numScoops) * scoopSize), buffer) := by
        simp only [generateTurn, generated]
      rw [turn]
      exact later _

/-- Where the loop returns, every nonce was in range. -/
theorem of_generateTurns {generateNonces : GenerateNonces (U8s 20) (U8s 32)}
    {raw : U8s 20 → U8s 32 → Nat → Nat → Scoop} (single : PlacesSingle generateNonces raw)
    {addressPayload : U8s 20} {seed : U8s 32} {scoop nonce numUncompressed : Nat}
    (turns : List Nat) (state : Scoop × Bytes) (sized : state.2.len = nonceSize)
    {outcome : Except HashError Scoop}
    (returned : generateTurns true generateNonces addressPayload seed scoop nonce numUncompressed
      turns state = .ok outcome) :
    ∀ i ∈ turns, ∃ nonceInWarpX,
      (numUncompressed * (nonce / numScoops) + i) * numScoops + nonceInWarpX < 2 ^ 64 := by
  induction turns generalizing state with
  | nil => exact fun _ listed => nomatch listed
  | cons i rest ih =>
    obtain ⟨nonceX, computed, returned⟩ := bind_eq_ok.mp returned
    obtain ⟨buffer, generated, sized', -⟩ := single state.2 addressPayload seed nonceX sized
    rw [generated] at returned
    intro j listed
    rcases List.mem_cons.mp listed with rfl | behind
    · exact ⟨_, uncompressedNonce_checked computed⟩
    · exact ih _ sized' returned j behind

theorem generateScoop_ok {generateNonces : GenerateNonces (U8s 20) (U8s 32)} (input : ProofInput)
    {scoop : Nat} (overflowChecks : Bool) (fits : Fits input) (scoopLt : scoop < numScoops) :
    generateScoop overflowChecks generateNonces input.addressPayload input.seed scoop input.nonce
        input.compression =
      .ok (Hashlib.generateScoop generateNonces input.addressPayload input.seed scoop input.nonce
        input.compression) := by
  have power : 2 ^ input.compression < 2 ^ 64 :=
    Nat.pow_lt_pow_right (by decide) (Nat.lt_succ_of_le fits.1)
  refine bind_eq_ok.mpr ⟨_, fit_ok power overflowChecks, ?_⟩
  exact generateTurns_ok input overflowChecks fits scoopLt _ (fun _ => List.mem_range.mp) _

theorem calculateQualityFromHeight_ok (platform : Platform) {input : ProofInput}
    (fits : Fits input) (overflowChecks : Bool) :
    calculateQualityFromHeight overflowChecks platform input =
      .ok (BatchValidation.referenceQuality platform input) := by
  have scoopLt := calculateScoop_lt input.blockHeight input.generationSignature
  rw [calculateQualityFromHeight, BatchValidation.referenceQuality,
    Hashlib.calculateQualityFromHeight, calculateQualityRaw]
  rw [if_neg (Nat.not_le.mpr scoopLt), if_neg (Nat.not_le.mpr scoopLt)]
  exact bind_eq_ok.mpr ⟨_, generateScoop_ok input overflowChecks fits scoopLt, rfl⟩

/-- The single-proof reference stays in range exactly within the same bound. -/
theorem calculateQualityFromHeight_checked_iff (platform : Platform) (input : ProofInput) :
    (∃ outcome, calculateQualityFromHeight true platform input = .ok outcome) ↔ Fits input := by
  have scoopLt := calculateScoop_lt input.blockHeight input.generationSignature
  constructor
  · rintro ⟨outcome, returned⟩
    rw [calculateQualityFromHeight] at returned
    rw [if_neg (Nat.not_le.mpr scoopLt)] at returned
    obtain ⟨_, generated, -⟩ := bind_eq_ok.mp returned
    obtain ⟨_, power, generated⟩ := bind_eq_ok.mp generated
    obtain ⟨small, rfl⟩ := fit_checked.mp power
    obtain ⟨_, last⟩ := of_generateTurns (generateNonces_single platform) _ _ rfl generated _
      (last_listed input.compression)
    rw [Nat.pow_lt_pow_iff_right (by decide)] at small
    exact fits_of_last (Nat.le_of_lt_succ small) last
  · exact fun fits => ⟨_, calculateQualityFromHeight_ok platform fits true⟩

theorem validateProofs_ok (overflowChecks : Bool) (schedule : Schedule target lanes hwThreads)
    (inputs : List ProofInput) (policy : SurrenderPolicy) (fits : ∀ input ∈ inputs, Fits input)
    (room : workUnitSize * unitsCapacity 0 0 inputs < 2 ^ 63) :
    validateProofs overflowChecks schedule inputs policy =
      .ok (BatchValidation.validateProofs inputs policy
        (schedule.order (BatchValidation.workUnits inputs))) := by
  cases inputs with
  | nil => rfl
  | cons input rest =>
    have expanded := expandProofs_ok overflowChecks (input :: rest) 0 [] 0 fits room
    exact bind_eq_ok.mpr ⟨_, expanded, rfl⟩

theorem of_validateProofs (schedule : Schedule target lanes hwThreads) (inputs : List ProofInput)
    (policy : SurrenderPolicy) {batch : BatchValidationResult}
    (returned : validateProofs true schedule inputs policy = .ok batch) :
    (∀ input ∈ inputs, Fits input) ∧ workUnitSize * unitsCapacity 0 0 inputs < 2 ^ 63 := by
  cases inputs with
  | nil => exact ⟨fun _ listed => (nomatch listed), by decide⟩
  | cons input rest =>
    obtain ⟨_, expanded, -⟩ := bind_eq_ok.mp returned
    exact of_expandProofs (input :: rest) 0 [] 0 (by decide) expanded

/-- No input makes the validation leave the range of 64 bits exactly when the nonces of every proof
fit and the vector of all units does. -/
theorem validation_in_range_iff (platform : Platform)
    (schedule : Schedule platform.target lanes hwThreads) (inputs : List ProofInput)
    (policy : SurrenderPolicy) :
    InRange platform schedule inputs policy ↔
      (∀ input ∈ inputs, Fits input) ∧ workUnitSize * unitsCapacity 0 0 inputs < 2 ^ 63 := by
  constructor
  · rintro ⟨batch, returned, -⟩
    exact of_validateProofs schedule inputs policy (returned true)
  · rintro ⟨fits, room⟩
    have interleaved := schedule.interleaves (BatchValidation.workUnits inputs)
    refine ⟨_, fun checks => validateProofs_ok checks schedule inputs policy fits room, ?_⟩
    intro index input found
    refine ⟨_, _, BatchValidation.validateProofs_result platform lanes hwThreads inputs policy _
      interleaved found, calculateQualityFromHeight_ok platform
        (fits input (List.mem_of_getElem? found)), ?_⟩
    intro quality reference
    rw [BatchValidation.referenceQuality_eq platform lanes hwThreads inputs _ interleaved index
      input found] at reference
    rw [BatchValidation.finalize_quality]
    exact (Except.ok.inj reference).symm

/-- Compression 64: the shift and the power leave their range. Unchecked, the shift is masked to one
unit, while the power is wrapped to none, so the reference hashes an empty scoop. -/
theorem shift_and_power_part :
    let platform := scalarPlatform (.x86 false true true true)
    let schedule : Schedule platform.target BatchValidation.scalarLanes 4 :=
      ⟨fun units => (threadTasks platform.target BatchValidation.scalarLanes 4 units).flatten,
        fun _ => List.Perm.refl _⟩
    let input : ProofInput := ⟨fun _ => 0, fun _ => 0, 0, 64, 7, fun _ => 0, 1, none⟩
    ¬ InRange platform schedule [input] .continueAll ∧
      validateProofs true schedule [input] .continueAll = .error .overflow ∧
      (∀ scoop, ∃ unit, expandWorkUnits false 0 input scoop = .ok [unit]) ∧
      ∀ scoop, generateScoop false (generateNonces platform) input.addressPayload input.seed scoop
        input.nonce input.compression = .ok (.ok 0) := by
  intro platform schedule input
  have wrapped : fit 64 false (2 ^ 64) = .ok 0 := by
    rw [fit, if_neg (Nat.lt_irrefl _)]
    rfl
  have masked : shiftOne 64 false 64 = .ok 1 := rfl
  have unit (scoop i : Nat) (listed : i ∈ List.range 1) : workUnit false 0 input scoop 1 i =
      .ok (BatchValidation.workUnit 0 input scoop 1 i) := by
    obtain rfl := List.mem_singleton.mp listed
    have none : input.nonce = 0 := rfl
    have small : (1 * (input.nonce / numScoops) + 0) * numScoops +
        (if 0 % 2 = 0 then input.nonce % numScoops else scoop) < 2 ^ 64 := by
      rw [none, if_pos rfl]
      decide
    exact bind_eq_ok.mpr ⟨_, uncompressedNonce_ok small false, rfl⟩
  have single (scoop : Nat) : expandWorkUnits false 0 input scoop =
      .ok [BatchValidation.workUnit 0 input scoop 1 0] :=
    bind_eq_ok.mpr ⟨1, masked, bind_eq_ok.mpr ⟨1, rfl, mapM_ok (unit scoop)⟩⟩
  refine ⟨?_, rfl, fun scoop => ⟨_, single scoop⟩,
    fun scoop => bind_eq_ok.mpr ⟨0, wrapped, rfl⟩⟩
  rintro ⟨batch, returned, -⟩
  have fits := (of_validateProofs schedule [input] _ (returned true)).1 input List.mem_cons_self
  exact absurd fits.1 (by decide)

theorem unitsCapacity_le (inputs : List ProofInput) (capacity len : Nat) :
    unitsCapacity capacity len inputs ≤ max capacity
      (max 4 (2 * (len + (inputs.map fun input => 2 ^ input.compression).sum))) := by
  induction inputs generalizing capacity len with
  | nil => exact Nat.le_max_left _ _
  | cons input rest ih =>
    have later := ih (grown capacity (len + 2 ^ input.compression)) (len + 2 ^ input.compression)
    rw [unitsCapacity, List.map_cons, List.sum_cons]
    refine Nat.le_trans later ?_
    rw [grown]
    split <;> omega

/-- The vector of all units is no obstacle up to `2 ^ 55` of them. -/
theorem units_have_room {inputs : List ProofInput}
    (few : (inputs.map fun input => 2 ^ input.compression).sum ≤ 2 ^ 55) :
    workUnitSize * unitsCapacity 0 0 inputs < 2 ^ 63 := by
  have bound := unitsCapacity_le inputs 0 0
  have size : workUnitSize = 80 := rfl
  rw [size]
  omega

end Pocx.Hashlib.ValidationRange
