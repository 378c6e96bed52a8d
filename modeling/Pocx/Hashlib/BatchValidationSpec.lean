import Mathlib.Tactic.Ring
import Pocx.Hashlib.BatchValidation

set_option autoImplicit false

namespace Pocx.Hashlib.BatchValidation

open PlotFile (numScoops)

/-- What a unit contributes. -/
def unitEntry (unit : WorkUnit) : Nat × Scoop := (unit.proofIndex, unitScoop unit)

theorem batchWidth_spec (target : Target) (remaining width : Nat)
    (found : batchWidth target remaining = some width) : 0 < width ∧ width ≤ remaining := by
  have fits := List.find?_some found
  have listed := List.mem_of_find?_eq_some found
  refine ⟨?_, of_decide_eq_true fits⟩
  cases target with
  | x86 avx512f avx2 avx sse2 =>
    simp only [batchWidths, List.mem_append] at listed
    rcases listed with (wide | medium) | narrow
    · split at wide
      · rw [List.mem_singleton.mp wide]
        decide
      · cases wide
    · split at medium
      · rw [List.mem_singleton.mp medium]
        decide
      · cases medium
    · split at narrow
      · rw [List.mem_singleton.mp narrow]
        decide
      · cases narrow
  | aarch64 =>
    rw [List.mem_singleton.mp listed]
    decide
  | other => cases listed

theorem processBatchSimd_eq (lanes : BatchLanes) (width : Nat) (units : List WorkUnit)
    (full : units.length = width) : processBatchSimd lanes width units = units.map unitEntry := by
  rw [processBatchSimd, lanes.lane width units full, List.zip_map']
  rfl

/-- No unit is dropped at the border of a batch. The induction is on the fuel. -/
theorem processWorkRange_eq (target : Target) (lanes : BatchLanes) (fuel : Nat)
    (units : List WorkUnit) (enough : units.length ≤ fuel) :
    processWorkRange target lanes fuel units = units.map unitEntry := by
  induction fuel generalizing units with
  | zero =>
    rw [List.length_eq_zero_iff.mp (Nat.le_zero.mp enough)]
    rfl
  | succ fuel ih =>
    cases units with
    | nil => rfl
    | cons unit rest =>
      rw [processWorkRange]
      cases found : batchWidth target (unit :: rest).length with
      | some width =>
        obtain ⟨positive, fits⟩ := batchWidth_spec target _ width found
        have full : ((unit :: rest).take width).length = width := List.length_take_of_le fits
        have shorter : ((unit :: rest).drop width).length ≤ fuel := by
          rw [List.length_drop]
          omega
        simp only
        rw [processBatchSimd_eq lanes width _ full, ih _ shorter, ← List.map_append,
          List.take_append_drop]
      | none =>
        have shorter : rest.length ≤ fuel := Nat.le_of_succ_le_succ enough
        simp only [ih rest shorter, List.map_cons, unitEntry]

/-- The first chunks are a prefix of the units. -/
theorem chunks_prefix (chunkSize : Nat) (units : List WorkUnit) (count : Nat) :
    ((List.range count).map fun k => (units.drop (k * chunkSize)).take chunkSize).flatten =
      units.take (count * chunkSize) := by
  induction count with
  | zero => simp only [List.range_zero, List.map_nil, List.flatten_nil, Nat.zero_mul, List.take_zero]
  | succ count ih =>
    rw [List.range_succ, List.map_append, List.flatten_append, ih, List.map_singleton,
      List.flatten_singleton, Nat.succ_mul, List.take_add]

theorem chunks_flatten (chunkSize : Nat) (positive : 0 < chunkSize) (units : List WorkUnit) :
    (chunks chunkSize units).flatten = units := by
  rw [chunks, chunks_prefix]
  apply List.take_of_length_le
  have whole := Nat.div_add_mod (units.length + chunkSize - 1) chunkSize
  have rest := Nat.mod_lt (units.length + chunkSize - 1) positive
  rw [Nat.mul_comm] at whole
  omega

/-- However the units are split among threads, each contributes once. -/
theorem threadTasks_flatten (target : Target) (lanes : BatchLanes) (hwThreads : Nat)
    (units : List WorkUnit) :
    (threadTasks target lanes hwThreads units).flatten = units.map unitEntry := by
  simp only [threadTasks]
  generalize numThreads target hwThreads units.length = threads
  split
  · rw [List.flatten_singleton, processWorkRange_eq target lanes _ units (Nat.le_refl _)]
  · rename_i several
    have chunkwise : ((fun chunk => processWorkRange target lanes chunk.length chunk) :
        List WorkUnit → List (Nat × Scoop)) = List.map unitEntry := by
      funext chunk
      exact processWorkRange_eq target lanes _ chunk (Nat.le_refl _)
    rw [chunkwise, ← List.map_flatten]
    cases units with
    | nil =>
      simp only [chunks, List.drop_nil, List.take_nil, List.map_const', List.flatten_replicate_nil,
        List.map_nil]
    | cons unit rest =>
      have positive : 0 < ((unit :: rest).length + threads - 1) / threads := by
        rw [List.length_cons]
        apply Nat.div_pos
        · omega
        · omega
      rw [chunks_flatten _ positive]

theorem sum_map_range (term : Nat → Scoop) (count : Nat) :
    ((List.range count).map term).sum = ∑ i ∈ Finset.range count, term i := by
  induction count with
  | zero => rfl
  | succ count ih =>
    rw [List.range_succ, List.map_append, List.sum_append, ih, Finset.sum_range_succ,
      List.map_singleton, List.sum_singleton]

theorem workUnit_scoop (proofIndex : Nat) (input : ProofInput) (scoop i : Nat) :
    unitScoop (workUnit proofIndex input scoop (2 ^ input.compression) i) =
      generateTerm generateAndExtractScoop32 input.addressPayload input.seed scoop input.nonce
        input.compression i := by
  rw [unitScoop, workUnit, generateTerm]
  by_cases even : i % 2 = 0
  · rw [if_pos even, if_pos even, if_pos even]
  · rw [if_neg even, if_neg even, if_neg even]

/-- The units of a proof are the terms of `generate_scoop`. -/
theorem expandWorkUnits_scoops (proofIndex : Nat) (input : ProofInput) (scoop : Nat) :
    (expandWorkUnits proofIndex input scoop).map unitScoop =
      (List.range (2 ^ input.compression)).map
        (generateTerm generateAndExtractScoop32 input.addressPayload input.seed scoop input.nonce
          input.compression) := by
  have count : 1 <<< input.compression = 2 ^ input.compression := by
    rw [Nat.shiftLeft_eq, Nat.one_mul]
  rw [expandWorkUnits, count, List.map_map]
  apply List.map_congr_left
  intro i _
  exact workUnit_scoop proofIndex input scoop i

theorem workUnit_index (proofIndex : Nat) (input : ProofInput) (scoop numUncompressed i : Nat) :
    (workUnit proofIndex input scoop numUncompressed i).proofIndex = proofIndex := rfl

theorem expandWorkUnits_entries (proofIndex : Nat) (input : ProofInput) (scoop : Nat) :
    (expandWorkUnits proofIndex input scoop).map unitEntry =
      ((expandWorkUnits proofIndex input scoop).map unitScoop).map fun value =>
        (proofIndex, value) := by
  rw [List.map_map]
  apply List.map_congr_left
  intro unit listed
  obtain ⟨i, -, rfl⟩ := List.mem_map.mp listed
  rw [unitEntry, workUnit_index, Function.comp_apply]

/-- Of the blocks of an enumerated list, one carries the index. -/
theorem flatMap_index {α β : Type} (list : List α) (block : α × Nat → List β) (start index : Nat)
    (item : α) (found : list[index]? = some item) :
    ((list.zipIdx start).flatMap fun entry =>
      if entry.2 = start + index then block entry else []) = block (item, start + index) := by
  induction list generalizing start index with
  | nil => cases found
  | cons first rest ih =>
    rw [List.zipIdx_cons, List.flatMap_cons]
    cases index with
    | zero =>
      cases found
      have later : ((rest.zipIdx (start + 1)).flatMap fun entry =>
          if entry.2 = start + 0 then block entry else []) = [] := by
        apply List.flatMap_eq_nil_iff.mpr
        intro entry listed
        have behind := List.le_snd_of_mem_zipIdx listed
        rw [if_neg (by omega)]
      rw [later, List.append_nil]
      exact if_pos rfl
    | succ index =>
      have next := ih (start + 1) index found
      have shift : start + 1 + index = start + (index + 1) := by omega
      rw [shift] at next
      rw [next, if_neg (by omega), List.nil_append]

/-- The accumulator of a proof ends up with the XOR of all its units. -/
theorem accumulator_eq (target : Target) (lanes : BatchLanes) (hwThreads : Nat)
    (inputs : List ProofInput) (order : List (Nat × Scoop))
    (interleaved : order.Perm (threadTasks target lanes hwThreads (workUnits inputs)).flatten)
    (index : Nat) (input : ProofInput) (found : inputs[index]? = some input) :
    order.foldl KeyedSum.accumulate (fun _ => 0) index =
      ∑ i ∈ Finset.range (2 ^ input.compression),
        generateTerm generateAndExtractScoop32 input.addressPayload input.seed
          (calculateScoop input.blockHeight input.generationSignature) input.nonce
          input.compression i := by
  rw [threadTasks_flatten] at interleaved
  have blocks : KeyedSum.valuesOf index ((workUnits inputs).map unitEntry) =
      (expandWorkUnits index input
        (calculateScoop input.blockHeight input.generationSignature)).map unitScoop := by
    have own := flatMap_index inputs
      (fun proof => (expandWorkUnits proof.2 proof.1
        (calculateScoop proof.1.blockHeight proof.1.generationSignature)).map unitScoop)
      0 index input found
    rw [Nat.zero_add] at own
    rw [← own, workUnits, List.map_flatMap, KeyedSum.valuesOf, List.filter_flatMap,
      List.map_flatMap]
    congr 1
    funext proof
    rw [expandWorkUnits_entries]
    exact KeyedSum.valuesOf_block index proof.2 _
  rw [KeyedSum.foldl_accumulate_perm _ interleaved, KeyedSum.foldl_accumulate, blocks,
    expandWorkUnits_scoops, sum_map_range, zero_add]

/-- The quality of a proof by the single-proof reference. -/
def referenceQuality (platform : Platform) (input : ProofInput) : Except HashError UInt64 :=
  calculateQualityFromHeight platform input.addressPayload input.seed input.nonce
    input.compression input.blockHeight input.generationSignature

/-- The claim of proof `index` differs from its reference quality. -/
def Mismatches (platform : Platform) (inputs : List ProofInput) (index : Nat) : Prop :=
  ∃ input claimed quality, inputs[index]? = some input ∧ input.claimedQuality = some claimed ∧
    referenceQuality platform input = .ok quality ∧ quality ≠ claimed

/-- A batch result that reports what validating proof by proof would. -/
structure Agrees (platform : Platform) (inputs : List ProofInput) (policy : SurrenderPolicy)
    (batch : BatchValidationResult) : Prop where
  length : batch.results.length = inputs.length
  result : ∀ (index : Nat) (input : ProofInput), inputs[index]? = some input →
    ∃ result : ValidationResult, batch.results[index]? = some result ∧
      referenceQuality platform input = .ok result.quality ∧
      result.deadline =
        (if input.baseTarget = 0 then UInt64.ofNat (2 ^ 64 - 1)
        else result.quality / input.baseTarget) ∧
      (result.isValid = false ↔ ∃ claimed, input.claimedQuality = some claimed ∧
        result.quality ≠ claimed)
  early : batch.earlySurrender = true ↔
    policy = .stopOnFirst ∧ ∃ index, Mismatches platform inputs index
  index : ∀ index, batch.surrenderIndex = some index ↔
    policy = .stopOnFirst ∧ Mismatches platform inputs index ∧
      ∀ before < index, ¬ Mismatches platform inputs before

theorem finalize_quality (input : ProofInput) (proofIndex : Nat) (xorResult : Scoop) :
    (finalize input proofIndex xorResult).quality =
      shabal256Lite xorResult input.generationSignature := by
  simp only [finalize]
  split
  · rfl
  · split
    · rfl
    · rfl

theorem finalize_deadline (input : ProofInput) (proofIndex : Nat) (xorResult : Scoop) :
    (finalize input proofIndex xorResult).deadline =
      if input.baseTarget = 0 then UInt64.ofNat (2 ^ 64 - 1)
      else (finalize input proofIndex xorResult).quality / input.baseTarget := by
  rw [finalize_quality]
  simp only [finalize]
  split
  · rfl
  · split
    · rfl
    · rfl

theorem finalize_isValid (input : ProofInput) (proofIndex : Nat) (xorResult : Scoop) :
    (finalize input proofIndex xorResult).isValid = false ↔
      ∃ claimed, input.claimedQuality = some claimed ∧
        (finalize input proofIndex xorResult).quality ≠ claimed := by
  rw [finalize_quality]
  simp only [finalize]
  cases input.claimedQuality with
  | none => simp
  | some claimed =>
    by_cases same : shabal256Lite xorResult input.generationSignature = claimed
    · simp [same]
    · simp [same]

theorem not_mismatches_beyond (platform : Platform) (inputs : List ProofInput) (index : Nat)
    (beyond : inputs.length ≤ index) : ¬ Mismatches platform inputs index := by
  rintro ⟨input, claimed, quality, found, -⟩
  rw [List.getElem?_eq_none beyond] at found
  cases found

/-- One more proof adds its own index at most. -/
theorem mismatches_append (platform : Platform) (done : List ProofInput) (input : ProofInput)
    (xorResult : Scoop)
    (exact : referenceQuality platform input =
      .ok (shabal256Lite xorResult input.generationSignature)) (index : Nat) :
    Mismatches platform (done ++ [input]) index ↔
      Mismatches platform done index ∨
        index = done.length ∧ (finalize input done.length xorResult).isValid = false := by
  rcases Nat.lt_trichotomy index done.length with inside | last | beyond
  · rw [Mismatches, List.getElem?_append_left inside]
    constructor
    · exact Or.inl
    · rintro (mismatch | ⟨last, -⟩)
      · exact mismatch
      · omega
  · rw [last, Mismatches, List.getElem?_concat_length, finalize_isValid, finalize_quality]
    constructor
    · rintro ⟨_, claimed, quality, ⟨⟩, claims, reference, differs⟩
      rw [exact] at reference
      cases reference
      exact Or.inr ⟨rfl, claimed, claims, differs⟩
    · rintro (mismatch | ⟨-, claimed, claims, differs⟩)
      · exact absurd mismatch (not_mismatches_beyond platform done _ (Nat.le_refl _))
      · exact ⟨input, claimed, _, rfl, claims, exact, differs⟩
  · have beyondBoth : ¬ Mismatches platform (done ++ [input]) index := by
      apply not_mismatches_beyond
      rw [List.length_append, List.length_singleton]
      exact beyond
    constructor
    · intro mismatch
      exact absurd mismatch beyondBoth
    · rintro (mismatch | ⟨last, -⟩)
      · exact absurd mismatch (not_mismatches_beyond platform done _ (Nat.le_of_lt beyond))
      · omega

/-- What the finalization loop keeps over the proofs it has done. -/
structure Finalized (platform : Platform) (policy : SurrenderPolicy)
    (accumulators : Nat → Scoop) (done : List ProofInput) (batch : BatchValidationResult) :
    Prop where
  results : batch.results = done.zipIdx.map fun proof =>
    finalize proof.1 proof.2 (accumulators proof.2)
  early : batch.earlySurrender = true ↔
    policy = .stopOnFirst ∧ ∃ index, Mismatches platform done index
  flagged : batch.surrenderIndex.isSome = batch.earlySurrender
  index : ∀ index, batch.surrenderIndex = some index →
    Mismatches platform done index ∧ ∀ before < index, ¬ Mismatches platform done before

theorem Finalized.turn {platform : Platform} {policy : SurrenderPolicy}
    {accumulators : Nat → Scoop} {done : List ProofInput} {batch : BatchValidationResult}
    (state : Finalized platform policy accumulators done batch) (input : ProofInput)
    (exact : referenceQuality platform input =
      .ok (shabal256Lite (accumulators done.length) input.generationSignature)) :
    Finalized platform policy accumulators (done ++ [input])
      (finalizeTurn policy accumulators batch (input, done.length)) := by
  have adds := mismatches_append platform done input _ exact
  refine ⟨?_, ?_, ?_, ?_⟩
  · rw [finalizeTurn, state.results, List.zipIdx_append, List.map_append, Nat.zero_add,
      List.zipIdx_singleton, List.map_singleton]
  · simp only [finalizeTurn, Bool.or_eq_true, Bool.and_eq_true, Bool.not_eq_true',
      decide_eq_true_eq, state.early, adds]
    constructor
    · rintro (⟨stops, index, mismatch⟩ | ⟨invalid, stops⟩)
      · exact ⟨stops, index, Or.inl mismatch⟩
      · exact ⟨stops, done.length, Or.inr ⟨rfl, invalid⟩⟩
    · rintro ⟨stops, index, mismatch | ⟨-, invalid⟩⟩
      · exact Or.inl ⟨stops, index, mismatch⟩
      · exact Or.inr ⟨invalid, stops⟩
  · simp only [finalizeTurn, ← state.flagged]
    generalize (!(finalize input done.length (accumulators done.length)).isValid &&
      decide (policy = .stopOnFirst)) = surrenders
    cases batch.surrenderIndex with
    | none =>
      cases surrenders with
      | false => rfl
      | true => rfl
    | some index => rw [Option.isNone_some, Bool.and_false, Option.isSome_some, Bool.true_or]; rfl
  · intro index found
    have flagged := state.flagged
    have early := state.early
    simp only [finalizeTurn] at found
    cases known : batch.surrenderIndex with
    | some first =>
      rw [known, Option.isNone_some, Bool.and_false, if_neg Bool.false_ne_true] at found
      cases found
      obtain ⟨mismatch, least⟩ := state.index index known
      refine ⟨(adds index).mpr (Or.inl mismatch), ?_⟩
      intro before earlier later
      rcases (adds before).mp later with sooner | ⟨last, -⟩
      · exact least before earlier sooner
      · exact not_mismatches_beyond platform done index (by omega) mismatch
    | none =>
      rw [known, Option.isNone_none, Bool.and_true] at found
      rw [known, Option.isSome_none] at flagged
      split at found
      · rename_i surrenders
        cases found
        rw [Bool.and_eq_true, Bool.not_eq_true', decide_eq_true_eq] at surrenders
        refine ⟨(adds _).mpr (Or.inr ⟨rfl, surrenders.1⟩), ?_⟩
        intro before earlier later
        rcases (adds before).mp later with sooner | ⟨last, -⟩
        · have set := early.mpr ⟨surrenders.2, before, sooner⟩
          rw [← flagged] at set
          cases set
        · omega
      · cases found

/-- The whole finalization loop, by induction from the last proof. -/
theorem finalized (platform : Platform) (policy : SurrenderPolicy) (accumulators : Nat → Scoop)
    (inputs : List ProofInput)
    (exact : ∀ index input, inputs[index]? = some input →
      referenceQuality platform input =
        .ok (shabal256Lite (accumulators index) input.generationSignature)) :
    Finalized platform policy accumulators inputs
      (inputs.zipIdx.foldl (finalizeTurn policy accumulators) ⟨[], false, none⟩) := by
  induction inputs using List.reverseRecOn with
  | nil =>
    refine ⟨rfl, ?_, rfl, nofun⟩
    constructor
    · nofun
    · rintro ⟨-, index, mismatch⟩
      exact absurd mismatch (not_mismatches_beyond platform [] index (Nat.zero_le _))
  | append_singleton done input ih =>
    have before : ∀ index proof, done[index]? = some proof →
        referenceQuality platform proof =
          .ok (shabal256Lite (accumulators index) proof.generationSignature) := by
      intro index proof found
      apply exact
      rw [List.getElem?_append_left (List.getElem?_eq_some_iff.mp found).1, found]
    have last := exact done.length input List.getElem?_concat_length
    rw [List.zipIdx_append, Nat.zero_add, List.zipIdx_singleton, List.foldl_append,
      List.foldl_cons, List.foldl_nil]
    exact (ih before).turn input last

theorem referenceQuality_eq (platform : Platform) (lanes : BatchLanes) (hwThreads : Nat)
    (inputs : List ProofInput) (order : List (Nat × Scoop))
    (interleaved :
      order.Perm (threadTasks platform.target lanes hwThreads (workUnits inputs)).flatten)
    (index : Nat) (input : ProofInput) (found : inputs[index]? = some input) :
    referenceQuality platform input =
      .ok (shabal256Lite (order.foldl KeyedSum.accumulate (fun _ => 0) index)
        input.generationSignature) := by
  rw [referenceQuality, calculateQualityFromHeight_eq,
    accumulator_eq platform.target lanes hwThreads inputs order interleaved index input found]

theorem validateProofs_result (platform : Platform) (lanes : BatchLanes) (hwThreads : Nat)
    (inputs : List ProofInput) (policy : SurrenderPolicy) (order : List (Nat × Scoop))
    (interleaved :
      order.Perm (threadTasks platform.target lanes hwThreads (workUnits inputs)).flatten)
    {index : Nat} {input : ProofInput} (found : inputs[index]? = some input) :
    (validateProofs inputs policy order).results[index]? =
      some (finalize input index (order.foldl KeyedSum.accumulate (fun _ => 0) index)) := by
  have exact := referenceQuality_eq platform lanes hwThreads inputs order interleaved
  rw [validateProofs, (finalized platform policy _ inputs exact).results, List.getElem?_map,
    List.getElem?_zipIdx, found, Option.map_some, Option.map_some, Nat.zero_add]

/-- The nonces that a proof expands to fit in 64 bits. -/
def Fits (input : ProofInput) : Prop :=
  input.compression ≤ 63 ∧
    2 ^ input.compression * (input.nonce / numScoops + 1) * numScoops ≤ 2 ^ 64

theorem workUnit_baseNonce_lt (proofIndex : Nat) (input : ProofInput) (fits : Fits input)
    (scoop i : Nat) (scoopLt : scoop < numScoops) (inside : i < 2 ^ input.compression) :
    (workUnit proofIndex input scoop (2 ^ input.compression) i).baseNonce < 2 ^ 64 := by
  have cell : (if i % 2 = 0 then input.nonce % numScoops else scoop) < numScoops := by
    split
    · exact Nat.mod_lt _ (by decide)
    · exact scoopLt
  calc (workUnit proofIndex input scoop (2 ^ input.compression) i).baseNonce
      < (2 ^ input.compression * (input.nonce / numScoops) + i) * numScoops + numScoops :=
        Nat.add_lt_add_left cell _
    _ = (2 ^ input.compression * (input.nonce / numScoops) + (i + 1)) * numScoops := by ring
    _ ≤ (2 ^ input.compression * (input.nonce / numScoops) + 2 ^ input.compression) * numScoops := by
        apply Nat.mul_le_mul_right
        omega
    _ = 2 ^ input.compression * (input.nonce / numScoops + 1) * numScoops := by ring
    _ ≤ 2 ^ 64 := fits.2

/-- Under the bound no nonce of the expansion wraps around. -/
theorem workUnits_baseNonce_lt (inputs : List ProofInput) (fits : ∀ input ∈ inputs, Fits input)
    (unit : WorkUnit) (listed : unit ∈ workUnits inputs) : unit.baseNonce < 2 ^ 64 := by
  obtain ⟨⟨input, index⟩, proof, expanded⟩ := List.mem_flatMap.mp listed
  have count : 1 <<< input.compression = 2 ^ input.compression := by
    rw [Nat.shiftLeft_eq, Nat.one_mul]
  rw [expandWorkUnits, count] at expanded
  obtain ⟨i, inside, rfl⟩ := List.mem_map.mp expanded
  exact workUnit_baseNonce_lt _ _ (fits input (List.fst_mem_of_mem_zipIdx proof)) _ _
    (calculateScoop_lt _ _) (List.mem_range.mp inside)

/-- Batch validation agrees with validation proof by proof, for every split of the units and
every order of the accumulations. -/
theorem validateProofs_agrees (platform : Platform) (lanes : BatchLanes) (hwThreads : Nat)
    (inputs : List ProofInput) (policy : SurrenderPolicy) (order : List (Nat × Scoop))
    (fits : ∀ input ∈ inputs, Fits input)
    (interleaved :
      order.Perm (threadTasks platform.target lanes hwThreads (workUnits inputs)).flatten) :
    Agrees platform inputs policy (validateProofs inputs policy order) ∧
      ∀ unit ∈ workUnits inputs, unit.baseNonce < 2 ^ 64 := by
  have exact := referenceQuality_eq platform lanes hwThreads inputs order interleaved
  have state := finalized platform policy _ inputs exact
  refine ⟨⟨?_, ?_, state.early, ?_⟩, workUnits_baseNonce_lt inputs fits⟩
  · rw [validateProofs, state.results, List.length_map, List.length_zipIdx]
  · intro index input found
    refine ⟨finalize input index (order.foldl KeyedSum.accumulate (fun _ => 0) index), ?_, ?_,
      finalize_deadline _ _ _, finalize_isValid _ _ _⟩
    · exact validateProofs_result platform lanes hwThreads inputs policy order interleaved found
    · rw [finalize_quality]
      exact exact index input found
  · intro index
    constructor
    · intro found
      have set : (validateProofs inputs policy order).earlySurrender = true := by
        rw [validateProofs, ← state.flagged]
        rw [validateProofs] at found
        rw [found, Option.isSome_some]
      exact ⟨(state.early.mp set).1, state.index index found⟩
    · rintro ⟨stops, mismatch, least⟩
      have set := state.early.mpr ⟨stops, index, mismatch⟩
      rw [← state.flagged] at set
      obtain ⟨first, found⟩ := Option.isSome_iff_exists.mp set
      obtain ⟨own, leastOwn⟩ := state.index first found
      rcases Nat.lt_trichotomy first index with earlier | same | later
      · exact absurd own (least first earlier)
      · rw [← same]
        exact found
      · exact absurd mismatch (leastOwn index later)

/-- Lanes that call the scalar function. -/
def scalarLanes : BatchLanes where
  extract _ units := units.map unitScoop
  lane _ _ _ := rfl

/-- Proofs of three plots, at compressions 4, 2 and 1, the last two with claimed qualities. -/
def threeProofs : List ProofInput :=
  [⟨fun _ => 1, fun _ => 2, 5000, 4, 7, fun _ => 3, 24, none⟩,
    ⟨fun _ => 1, fun _ => 5, 4095, 2, 8, fun _ => 6, 24, some 0⟩,
    ⟨fun _ => 9, fun _ => 0, 70000, 1, 9, fun _ => 8, 0, some 1⟩]

/-- On AVX2 and four hardware threads their 22 units make three chunks, accumulated here in the
reverse order. -/
theorem validateProofs_agrees_three_proofs :
    let platform := scalarPlatform (.x86 false true true true)
    let tasks := threadTasks platform.target scalarLanes 4 (workUnits threeProofs)
    let order := tasks.flatten.reverse
    tasks.length = 3 ∧
      Agrees platform threeProofs .stopOnFirst (validateProofs threeProofs .stopOnFirst order) ∧
      ∀ unit ∈ workUnits threeProofs, unit.baseNonce < 2 ^ 64 := by
  intro platform tasks order
  have fits : ∀ proof ∈ threeProofs, Fits proof := by
    simp only [threeProofs, List.forall_mem_cons, Fits]
    decide
  have threads : tasks.length = 3 := by
    change (threadTasks (.x86 false true true true) scalarLanes 4 (workUnits threeProofs)).length = 3
    decide +kernel
  exact ⟨threads, validateProofs_agrees platform scalarLanes 4 threeProofs .stopOnFirst order fits
    (List.reverse_perm _)⟩

end Pocx.Hashlib.BatchValidation
