import Mathlib.Algebra.Order.Floor.Div
import Mathlib.Data.Nat.Prime.Basic
import Pocx.Lib.Panicking
import Pocx.Plotter.GpuRing
import Pocx.Plotter.RingLoop

set_option autoImplicit false

namespace Pocx.RingMemory

open GpuRing (address address_eq)
open Panicking (Panic bind_eq_ok fit fit_ok fit_eq_ok subtract subtract_ok)
open PlotFile (nonceSize)
open RingLoop (compressBatch)

/-- `MAX_RING_SPLITS` -/
def maxRingSplits : Nat := 4

/-- `NONCES_VECTOR` -/
def noncesVector : Nat := 16

/-- `compute_ring_size`, with the bounds of `u64`. -/
def computeRingSize (overflowChecks : Bool) (worksize : Nat) : Except Panic Nat := do
  let sum ← fit 64 overflowChecks (worksize + compressBatch)
  subtract 64 overflowChecks sum (RingLoop.gcd worksize compressBatch)

/-- `ring_buffer_bytes` -/
def ringBufferBytes (overflowChecks : Bool) (ringSize : Nat) : Except Panic Nat :=
  fit 64 overflowChecks (ringSize * nonceSize)

def computeRingSplits (ringBytes maxAlloc : Nat) : Except Panic Nat :=
  if ringBytes ≤ maxAlloc then .ok 1
  else if maxAlloc = 0 then .error .divisionByZero
  else if ringBytes ⌈/⌉ maxAlloc ≤ maxRingSplits then .ok (ringBytes ⌈/⌉ maxAlloc)
  else .error .failedAssertion

/-- `!(NONCES_VECTOR - 1)` -/
def vectorMask : Nat := 2 ^ 64 - 1 - (noncesVector - 1)

/-- A ring is split in two or more, so the sum stays below `2^64`. -/
def noncesPerSubAligned (ringSize numSplits : Nat) : Nat :=
  (ringSize ⌈/⌉ numSplits + noncesVector - 1) &&& vectorMask

/-- Which of the four sub-buffers the split kernels take for a slot of the ring. -/
def resolveSplitBuf (nonce noncesPerSub : Nat) : Nat :=
  if nonce / noncesPerSub = 0 then 0
  else if nonce / noncesPerSub = 1 then 1
  else if nonce / noncesPerSub = 2 then 2
  else 3

/-- The buffers that a context asks its driver for. -/
inductive Request
  | firstRing
  | subBuffer (i : Nat)
  | dummy
  | ring
deriving DecidableEq

/-- The device memory behind a ring, in bytes. -/
inductive Buffers
  | single (bytes : Nat)
  | split (subBuffers : List Nat) (noncesPerSub : Nat)
deriving DecidableEq

/-- `GpuRingContext::new` from the worksize on. The driver grants a request or refuses it; the
error names the request that it refused. -/
def allocateRing (overflowChecks : Bool) (grants : Request → Nat → Bool)
    (worksize maxAlloc : Nat) : Except Panic (Except Request (Nat × Buffers)) := do
  let ringSize ← computeRingSize overflowChecks worksize
  let ringBytes ← ringBufferBytes overflowChecks ringSize
  if compressBatch * nonceSize ≤ maxAlloc ∧ grants .firstRing ringBytes then
    return .ok (ringSize, .single ringBytes)
  let numSplits ← computeRingSplits ringBytes maxAlloc
  if 1 < numSplits then
    let noncesPerSub := noncesPerSubAligned ringSize numSplits
    let subBytes ← fit 64 overflowChecks (noncesPerSub * nonceSize)
    let sizes := (List.range maxRingSplits).map fun i => if i < numSplits then subBytes else 4
    match sizes.zipIdx.find? fun (size, i) => !grants (.subBuffer i) size with
    | some (_, i) => return .error (.subBuffer i)
    | none =>
      if grants .dummy 4 then return .ok (ringSize, .split sizes noncesPerSub)
      else return .error .dummy
  else if grants .ring ringBytes then return .ok (ringSize, .single ringBytes)
  else return .error .ring

/-- The kernels keep the words of a ring apart and inside a buffer of so many words. -/
structure Addressed (ringSize words : Nat) : Prop where
  injective : ∀ slot slot' hash hash' word word', slot < ringSize → slot' < ringSize →
    hash < 8192 → hash' < 8192 → word < 8 → word' < 8 →
    address slot hash word = address slot' hash' word' →
    slot = slot' ∧ hash = hash' ∧ word = word'
  inside : ∀ slot hash word, slot < ringSize → hash < 8192 → word < 8 →
    address slot hash word < words

/-- The split kernels find every slot of a ring in one of its real sub-buffers, and the device
allows sub-buffers of that size. -/
structure SplitAddressed (ringSize numSplits noncesPerSub maxAlloc : Nat) : Prop where
  covers : ringSize ≤ numSplits * noncesPerSub
  real : ∀ slot, slot < ringSize → resolveSplitBuf slot noncesPerSub < numSplits
  inside : ∀ slot hash word, slot < ringSize → hash < 8192 → word < 8 →
    address (slot % noncesPerSub) hash word < noncesPerSub * nonceSize / 4
  injective : ∀ slot slot' hash hash' word word', slot < ringSize → slot' < ringSize →
    hash < 8192 → hash' < 8192 → word < 8 → word' < 8 →
    resolveSplitBuf slot noncesPerSub = resolveSplitBuf slot' noncesPerSub →
    address (slot % noncesPerSub) hash word = address (slot' % noncesPerSub) hash' word' →
    slot = slot' ∧ hash = hash' ∧ word = word'
  allowed : noncesPerSub * nonceSize ≤ maxAlloc

/-- A ring for this worksize is addressed soundly, as one buffer and where it is split. -/
def RingAddressed (overflowChecks : Bool) (worksize maxAlloc : Nat) : Prop :=
  ∃ ringSize ringBytes, computeRingSize overflowChecks worksize = .ok ringSize ∧
    ringBufferBytes overflowChecks ringSize = .ok ringBytes ∧
    Addressed ringSize (ringBytes / 4) ∧
    ∀ numSplits, computeRingSplits ringBytes maxAlloc = .ok numSplits → 1 < numSplits →
      SplitAddressed ringSize numSplits (noncesPerSubAligned ringSize numSplits) maxAlloc

/-- Every word that the kernels reach lies in a buffer of the ring, and the parts of a split ring
are within the limit of the device. -/
def Buffers.Hold (ringSize maxAlloc : Nat) : Buffers → Prop
  | .single bytes => Addressed ringSize (bytes / 4)
  | .split subBuffers noncesPerSub =>
    ∀ slot hash word, slot < ringSize → hash < 8192 → word < 8 →
      ∃ bytes, subBuffers[resolveSplitBuf slot noncesPerSub]? = some bytes ∧ bytes ≤ maxAlloc ∧
        address (slot % noncesPerSub) hash word < bytes / 4

/-- The ring is made of whole groups of sixteen slots, and its size in bytes is below `2^64`.
Without overflow checks the worksizes close to `2^64` get a small ring. -/
def WholeGroups (overflowChecks : Bool) (worksize : Nat) : Prop :=
  worksize % 16 ∈ [0, 1, 2, 4, 8] ∧
    (worksize + compressBatch ≤ 2 ^ 46 ∨
      overflowChecks = false ∧ 2 ^ 64 < worksize + compressBatch)

/-- The slots of the ring, with the sum wrapped around. -/
def ringSlots (worksize : Nat) : Nat :=
  (worksize + compressBatch - Nat.gcd worksize compressBatch) % 2 ^ 64

/-- As many buffers as cover the ring at the limit of the device still cover it with whole groups
of sixteen slots in each. -/
def GroupsCover (worksize maxAlloc : Nat) : Prop :=
  let splits := ringSlots worksize * nonceSize ⌈/⌉ maxAlloc
  1 < splits → splits ≤ maxRingSplits →
    ringSlots worksize ≤ splits * (maxAlloc / (noncesVector * nonceSize) * noncesVector)

theorem address_injective {slot slot' hash hash' word word' : Nat} (hashLt : hash < 8192)
    (hashLt' : hash' < 8192) (wordLt : word < 8) (wordLt' : word' < 8)
    (same : address slot hash word = address slot' hash' word') :
    slot = slot' ∧ hash = hash' ∧ word = word' := by
  rw [address_eq, address_eq] at same
  omega

theorem address_le {slot last hash word : Nat} (le : slot ≤ last) (hashLt : hash < 8192)
    (wordLt : word < 8) : address slot hash word ≤ address last 8191 7 := by
  have place : hash * 8 + word ≤ 65535 := by omega
  have words (a b k : Nat) : (a * 8192 + b) * 8 + k = a * 65536 + (b * 8 + k) := by omega
  rw [address_eq, address_eq, words, words]
  generalize hash * 8 + word = k at place
  omega

/-- The last word of the last slot lies highest. -/
theorem address_inside_iff (ringSize words : Nat) :
    (∀ slot hash word, slot < ringSize → hash < 8192 → word < 8 →
      address slot hash word < words) ↔ ringSize = 0 ∨ address (ringSize - 1) 8191 7 < words := by
  constructor
  · intro inside
    by_cases empty : ringSize = 0
    · exact Or.inl empty
    · exact Or.inr (inside (ringSize - 1) 8191 7 (by omega) (by decide) (by decide))
  · rintro (rfl | last) slot hash word slotLt hashLt wordLt
    · exact absurd slotLt (Nat.not_lt_zero slot)
    · exact Nat.lt_of_le_of_lt (address_le (by omega) hashLt wordLt) last

theorem addressed_iff (ringSize words : Nat) :
    Addressed ringSize words ↔ ringSize = 0 ∨ address (ringSize - 1) 8191 7 < words := by
  rw [← address_inside_iff]
  constructor
  · exact fun addressed => addressed.inside
  · intro inside
    exact ⟨fun _ _ _ _ _ _ _ _ hashLt hashLt' wordLt wordLt' =>
      address_injective hashLt hashLt' wordLt wordLt', inside⟩

theorem nonceSize_eq : nonceSize = 4 * 65536 := by decide

/-- A buffer of the ring's own size holds whole groups only. -/
theorem addressed_whole_iff (ringSize : Nat) :
    Addressed ringSize (ringSize * nonceSize / 4) ↔ ringSize % 16 = 0 := by
  rw [addressed_iff, address_eq, nonceSize_eq]
  omega

/-- Where the size in bytes wraps around, the buffer is too small for the last slot. -/
theorem not_addressed_wrapped {ringSize : Nat} (large : 2 ^ 64 ≤ ringSize * nonceSize) :
    ¬ Addressed ringSize (ringSize * nonceSize % 2 ^ 64 / 4) := by
  rw [addressed_iff, address_eq]
  rw [nonceSize_eq] at large ⊢
  have size : ringSize * (4 * 65536) % 2 ^ 64 / 4 = ringSize % 2 ^ 46 * 65536 := by omega
  have small : ringSize % 2 ^ 46 < 2 ^ 46 := Nat.mod_lt _ (by decide)
  rw [size]
  omega

theorem and_vectorMask {n : Nat} (small : n < 2 ^ 64) :
    n &&& vectorMask = n / noncesVector * noncesVector := by
  have mask : vectorMask = (2 ^ 60 - 1) <<< 4 := by decide
  have rounded : n / noncesVector * noncesVector = n >>> 4 <<< 4 := by
    rw [Nat.shiftRight_eq_div_pow, Nat.shiftLeft_eq]
    rfl
  rw [mask, rounded]
  apply Nat.eq_of_testBit_eq
  intro i
  rw [Nat.testBit_and, Nat.testBit_shiftLeft, Nat.testBit_shiftLeft, Nat.testBit_shiftRight,
    Nat.testBit_two_pow_sub_one]
  by_cases low : 4 ≤ i
  · have place : 4 + (i - 4) = i := by omega
    rw [place]
    by_cases high : i < 64
    · have inside : i - 4 < 60 := by omega
      simp [low, inside]
    · have absent : n.testBit i = false :=
        Nat.testBit_lt_two_pow (Nat.lt_of_lt_of_le small (Nat.pow_le_pow_right (by decide) (by omega)))
      simp [absent]
  · simp [low]

theorem sub_lt_iff {g x y : Nat} (left : g ∣ x) (right : g ∣ y) (positive : 0 < x) :
    x - g < y ↔ x ≤ y := by
  obtain ⟨a, rfl⟩ := left
  obtain ⟨b, rfl⟩ := right
  have unit : 0 < g := Nat.pos_of_mul_pos_right positive
  have some : 0 < a := Nat.pos_of_mul_pos_left positive
  calc
    g * a - g < g * b ↔ g * (a - 1) < g * b := by rw [Nat.mul_sub_one]
    _ ↔ a - 1 < b := Nat.mul_lt_mul_left unit
    _ ↔ a ≤ b := by omega
    _ ↔ g * a ≤ g * b := (Nat.mul_le_mul_left_iff unit).symm

/-- The remainder of the ring size is that of the worksize without its lowest bit. -/
theorem ringSize_mod_sixteen (worksize : Nat) :
    (worksize + compressBatch - Nat.gcd worksize compressBatch) % 16 = 0 ↔
      worksize % 16 ∈ [0, 1, 2, 4, 8] := by
  have batch : compressBatch = 2 ^ 13 := rfl
  have whole : Nat.gcd worksize compressBatch ∣ 2 ^ 13 := Nat.gcd_dvd_right worksize compressBatch
  obtain ⟨k, kLe, power⟩ := (Nat.dvd_prime_pow Nat.prime_two).mp whole
  have divides : 2 ^ k ∣ worksize := power ▸ Nat.gcd_dvd_left worksize compressBatch
  have highest (small : k < 13) : ¬ 2 ^ (k + 1) ∣ worksize := by
    intro more
    have batch_more : 2 ^ (k + 1) ∣ compressBatch := batch ▸ Nat.pow_dvd_pow 2 small
    have both := Nat.dvd_gcd more batch_more
    rw [power, Nat.pow_dvd_pow_iff_le_right (by decide)] at both
    omega
  rw [power, batch]
  simp only [List.mem_cons, List.not_mem_nil, or_false]
  by_cases group : 4 ≤ k
  · have sixteen : 16 ∣ 2 ^ k := Nat.pow_dvd_pow 2 group
    have worksize_group : 16 ∣ worksize := sixteen.trans divides
    omega
  · have one := highest (by omega)
    obtain rfl | rfl | rfl | rfl : k = 0 ∨ k = 1 ∨ k = 2 ∨ k = 3 := by omega
    all_goals omega

theorem computeRingSize_ok_iff {overflowChecks : Bool} {worksize ringSize : Nat}
    (word : worksize < 2 ^ 64) :
    computeRingSize overflowChecks worksize = .ok ringSize ↔
      (overflowChecks = true → worksize + compressBatch < 2 ^ 64) ∧
        ringSize = ringSlots worksize := by
  have batch : compressBatch = 8192 := rfl
  have divisor : Nat.gcd worksize compressBatch ≤ compressBatch :=
    Nat.gcd_le_right worksize (by decide)
  rw [computeRingSize, ringSlots, RingLoop.gcd_eq]
  generalize Nat.gcd worksize compressBatch = g at divisor
  rw [batch] at divisor ⊢
  by_cases small : worksize + 8192 < 2 ^ 64
  · have exact : (worksize + 8192 - g) % 2 ^ 64 = worksize + 8192 - g :=
      Nat.mod_eq_of_lt (by omega)
    have computed : (fit 64 overflowChecks (worksize + 8192) >>= fun sum =>
        subtract 64 overflowChecks sum g) = .ok (worksize + 8192 - g) := by
      rw [fit_ok small]
      exact subtract_ok (by omega) 64 overflowChecks
    rw [computed, exact, Except.ok.injEq]
    exact ⟨fun same => ⟨fun _ => small, same.symm⟩, fun same => same.2.symm⟩
  · cases overflowChecks with
    | true =>
      rw [fit, if_neg small, if_pos rfl]
      constructor
      · intro failed
        cases failed
      · exact fun checked => absurd (checked.1 rfl) small
    | false =>
      have computed : (fit 64 false (worksize + 8192) >>= fun sum => subtract 64 false sum g) =
          .ok ((worksize + 8192 - g) % 2 ^ 64) := by
        rw [fit, if_neg small]
        change subtract 64 false ((worksize + 8192) % 2 ^ 64) g = _
        by_cases room : g ≤ (worksize + 8192) % 2 ^ 64
        · rw [subtract_ok room, Except.ok.injEq]
          omega
        · rw [subtract, if_neg room]
          apply congrArg Except.ok
          omega
      rw [computed, Except.ok.injEq]
      exact ⟨fun same => ⟨fun checked => absurd checked Bool.false_ne_true, same.symm⟩,
        fun same => same.2.symm⟩

theorem ringSlots_mod_sixteen (worksize : Nat) :
    ringSlots worksize % 16 = 0 ↔ worksize % 16 ∈ [0, 1, 2, 4, 8] := by
  have sixteen : 16 ∣ 2 ^ 64 := by decide
  rw [ringSlots, Nat.mod_mod_of_dvd _ sixteen, ringSize_mod_sixteen]

theorem ringSlots_small_iff {overflowChecks : Bool} {worksize : Nat} (word : worksize < 2 ^ 64)
    (checked : overflowChecks = true → worksize + compressBatch < 2 ^ 64) :
    ringSlots worksize * nonceSize < 2 ^ 64 ↔
      worksize + compressBatch ≤ 2 ^ 46 ∨
        overflowChecks = false ∧ 2 ^ 64 < worksize + compressBatch := by
  have batch : compressBatch = 8192 := rfl
  have left : Nat.gcd worksize compressBatch ∣ worksize + compressBatch :=
    Nat.dvd_add (Nat.gcd_dvd_left _ _) (Nat.gcd_dvd_right _ _)
  have bytes : compressBatch ∣ 2 ^ 46 := by decide
  have words : compressBatch ∣ 2 ^ 64 := by decide
  have positive : 0 < worksize + compressBatch := by omega
  have inBytes := sub_lt_iff left ((Nat.gcd_dvd_right _ _).trans bytes) positive
  have inWords := sub_lt_iff left ((Nat.gcd_dvd_right _ _).trans words) positive
  have size : ringSlots worksize * nonceSize < 2 ^ 64 ↔ ringSlots worksize < 2 ^ 46 := by
    rw [nonceSize_eq]
    omega
  rw [size, ringSlots]
  by_cases large : 2 ^ 64 < worksize + compressBatch
  · have unchecked : overflowChecks = false := by
      cases overflowChecks with
      | false => rfl
      | true =>
        have small := checked rfl
        omega
    have wraps : ¬ worksize + compressBatch - Nat.gcd worksize compressBatch < 2 ^ 64 := by
      rw [inWords]
      omega
    have wrapped : (worksize + compressBatch - Nat.gcd worksize compressBatch) % 2 ^ 64 <
        2 ^ 46 := by omega
    exact iff_of_true wrapped (Or.inr ⟨unchecked, large⟩)
  · have exact : (worksize + compressBatch - Nat.gcd worksize compressBatch) % 2 ^ 64 =
        worksize + compressBatch - Nat.gcd worksize compressBatch :=
      Nat.mod_eq_of_lt (inWords.mpr (by omega))
    rw [exact, inBytes]
    exact ⟨Or.inl, fun either => either.elim id fun wrapped => absurd wrapped.2 large⟩

theorem computeRingSplits_many_iff (ringBytes maxAlloc numSplits : Nat) :
    computeRingSplits ringBytes maxAlloc = .ok numSplits ∧ 1 < numSplits ↔
      numSplits = ringBytes ⌈/⌉ maxAlloc ∧ 1 < numSplits ∧ numSplits ≤ maxRingSplits := by
  rw [computeRingSplits]
  by_cases whole : ringBytes ≤ maxAlloc
  · have one : ringBytes ⌈/⌉ maxAlloc ≤ 1 := by
      by_cases none : maxAlloc = 0
      · rw [none, ceilDiv_zero]
        decide
      · rw [ceilDiv_le_iff_le_mul (Nat.pos_of_ne_zero none), Nat.mul_one]
        exact whole
    rw [if_pos whole, Except.ok.injEq]
    omega
  · rw [if_neg whole]
    by_cases none : maxAlloc = 0
    · rw [if_pos none, none, ceilDiv_zero]
      exact iff_of_false (fun failed => nomatch failed.1) (by omega)
    · rw [if_neg none]
      by_cases few : ringBytes ⌈/⌉ maxAlloc ≤ maxRingSplits
      · rw [if_pos few, Except.ok.injEq]
        omega
      · rw [if_neg few]
        exact iff_of_false (fun failed => nomatch failed.1) (by omega)

theorem noncesPerSubAligned_eq {ringSize numSplits : Nat}
    (small : ringSize ⌈/⌉ numSplits + noncesVector - 1 < 2 ^ 64) :
    noncesPerSubAligned ringSize numSplits =
      (ringSize ⌈/⌉ numSplits + noncesVector - 1) / noncesVector * noncesVector :=
  and_vectorMask small

theorem resolveSplitBuf_eq {nonce noncesPerSub : Nat} (real : nonce / noncesPerSub < 4) :
    resolveSplitBuf nonce noncesPerSub = nonce / noncesPerSub := by
  rw [resolveSplitBuf]
  generalize nonce / noncesPerSub = sub at real
  split_ifs <;> omega

/-- Sub-buffers of whole groups that cover the ring are addressed soundly, if the device allows
their size. -/
theorem splitAddressed {ringSize numSplits noncesPerSub maxAlloc : Nat}
    (few : numSplits ≤ maxRingSplits) (aligned : noncesPerSub % 16 = 0)
    (covers : ringSize ≤ numSplits * noncesPerSub)
    (allowed : noncesPerSub * nonceSize ≤ maxAlloc) :
    SplitAddressed ringSize numSplits noncesPerSub maxAlloc := by
  have inRing {slot : Nat} (slotLt : slot < ringSize) :
      slot / noncesPerSub < numSplits ∧ resolveSplitBuf slot noncesPerSub = slot / noncesPerSub := by
    have real : slot / noncesPerSub < numSplits :=
      Nat.div_lt_of_lt_mul (Nat.mul_comm _ _ ▸ Nat.lt_of_lt_of_le slotLt covers)
    exact ⟨real, resolveSplitBuf_eq (Nat.lt_of_lt_of_le real few)⟩
  have positive {slot : Nat} (slotLt : slot < ringSize) : 0 < noncesPerSub := by
    apply Nat.pos_of_ne_zero
    rintro rfl
    omega
  constructor
  case covers => exact covers
  case allowed => exact allowed
  case real =>
    intro slot slotLt
    rw [(inRing slotLt).2]
    exact (inRing slotLt).1
  case inside =>
    intro slot hash word slotLt
    exact ((addressed_whole_iff noncesPerSub).mpr aligned).inside _ _ _
      (Nat.mod_lt slot (positive slotLt))
  case injective =>
    intro slot slot' hash hash' word word' slotLt slotLt' hashLt hashLt' wordLt wordLt' buffer same
    obtain ⟨rest, sameHash, sameWord⟩ := address_injective hashLt hashLt' wordLt wordLt' same
    rw [(inRing slotLt).2, (inRing slotLt').2] at buffer
    have sameSlot : slot = slot' := by
      rw [← Nat.div_add_mod slot noncesPerSub, buffer, rest, Nat.div_add_mod]
    exact ⟨sameSlot, sameHash, sameWord⟩

theorem splitAddressed_iff {ringSize numSplits maxAlloc : Nat} (small : ringSize < 2 ^ 46)
    (many : 1 < numSplits) (few : numSplits ≤ maxRingSplits) :
    SplitAddressed ringSize numSplits (noncesPerSubAligned ringSize numSplits) maxAlloc ↔
      ringSize ≤ numSplits * (maxAlloc / (noncesVector * nonceSize) * noncesVector) := by
  have positive : 0 < numSplits := Nat.zero_lt_of_lt many
  have pieces : ringSize ≤ numSplits * (ringSize ⌈/⌉ numSplits) := le_smul_ceilDiv positive
  have below : ringSize ⌈/⌉ numSplits ≤ ringSize := by
    rw [ceilDiv_le_iff_le_mul positive]
    exact Nat.le_mul_of_pos_left ringSize positive
  have vector : noncesVector = 16 := rfl
  have rounded : noncesPerSubAligned ringSize numSplits =
      (ringSize ⌈/⌉ numSplits + 15) / 16 * 16 :=
    noncesPerSubAligned_eq (by omega)
  have allowed_iff : noncesPerSubAligned ringSize numSplits * nonceSize ≤ maxAlloc ↔
      ringSize ≤ numSplits * (maxAlloc / (noncesVector * nonceSize) * noncesVector) := by
    rw [← ceilDiv_le_iff_le_mul positive, rounded, vector, nonceSize_eq]
    omega
  constructor
  · exact fun addressed => allowed_iff.mp addressed.allowed
  · intro cover
    refine splitAddressed few ?_ ?_ (allowed_iff.mpr cover)
    · rw [rounded, Nat.mul_mod_left]
    · calc
        ringSize ≤ numSplits * (ringSize ⌈/⌉ numSplits) := pieces
        _ ≤ numSplits * noncesPerSubAligned ringSize numSplits :=
          Nat.mul_le_mul_left _ (by omega)

theorem splits_addressed_iff {ringSize maxAlloc : Nat} (small : ringSize < 2 ^ 46) :
    (∀ numSplits, computeRingSplits (ringSize * nonceSize) maxAlloc = .ok numSplits →
      1 < numSplits →
        SplitAddressed ringSize numSplits (noncesPerSubAligned ringSize numSplits) maxAlloc) ↔
      (1 < ringSize * nonceSize ⌈/⌉ maxAlloc → ringSize * nonceSize ⌈/⌉ maxAlloc ≤ maxRingSplits →
        ringSize ≤ (ringSize * nonceSize ⌈/⌉ maxAlloc) *
          (maxAlloc / (noncesVector * nonceSize) * noncesVector)) := by
  constructor
  · intro addressed many few
    have computed := (computeRingSplits_many_iff _ _ _).mpr ⟨rfl, many, few⟩
    exact (splitAddressed_iff small many few).mp (addressed _ computed.1 many)
  · intro cover numSplits computed many
    obtain ⟨rfl, -, few⟩ := (computeRingSplits_many_iff _ _ _).mp ⟨computed, many⟩
    exact (splitAddressed_iff small many few).mpr (cover many few)

/-- The ring is addressed soundly exactly when it is made of whole groups of sixteen slots and
splitting it leaves whole groups within the limit of the device. -/
theorem ring_addressed_iff (overflowChecks : Bool) (worksize maxAlloc : UInt64) :
    RingAddressed overflowChecks worksize.toNat maxAlloc.toNat ↔
      WholeGroups overflowChecks worksize.toNat ∧
        GroupsCover worksize.toNat maxAlloc.toNat := by
  have word := worksize.toNat_lt
  generalize worksize.toNat = worksize at word
  generalize maxAlloc.toNat = maxAlloc
  constructor
  · rintro ⟨ringSize, ringBytes, size, bytes, addressed, splits⟩
    obtain ⟨checked, rfl⟩ := (computeRingSize_ok_iff word).mp size
    by_cases small : ringSlots worksize * nonceSize < 2 ^ 64
    · obtain rfl := (fit_eq_ok small overflowChecks).mp bytes
      have whole := (addressed_whole_iff _).mp addressed
      have slots : ringSlots worksize < 2 ^ 46 := by
        rw [nonceSize_eq] at small
        omega
      exact ⟨⟨(ringSlots_mod_sixteen worksize).mp whole, (ringSlots_small_iff word checked).mp small⟩,
        (splits_addressed_iff slots).mp splits⟩
    · rw [ringBufferBytes, fit, if_neg small] at bytes
      cases overflowChecks with
      | true => cases bytes
      | false =>
        obtain rfl := Except.ok.inj bytes
        exact absurd addressed (not_addressed_wrapped (Nat.le_of_not_lt small))
  · rintro ⟨⟨groups, bounds⟩, cover⟩
    have checked : overflowChecks = true → worksize + compressBatch < 2 ^ 64 := by
      rintro rfl
      have small := bounds.resolve_right (by simp)
      omega
    have small := (ringSlots_small_iff word checked).mpr bounds
    have slots : ringSlots worksize < 2 ^ 46 := by
      rw [nonceSize_eq] at small
      omega
    refine ⟨ringSlots worksize, ringSlots worksize * nonceSize, ?_, ?_, ?_, ?_⟩
    · exact (computeRingSize_ok_iff word).mpr ⟨checked, rfl⟩
    · exact fit_ok small overflowChecks
    · exact (addressed_whole_iff _).mpr ((ringSlots_mod_sixteen worksize).mpr groups)
    · exact (splits_addressed_iff slots).mpr cover

/-- The limit of a device is 715827883 bytes, a third of the smallest ring: three sub-buffers of
2736 nonces are larger. Three work items make a ring of 8194 slots, two of them beyond the last
whole group. -/
theorem sub_buffers_exceed_limit :
    (∀ overflowChecks, ¬ RingAddressed overflowChecks 8192 715827883) ∧
      ∀ overflowChecks, ¬ RingAddressed overflowChecks 3 (2 ^ 31) := by
  constructor
  · rintro overflowChecks ⟨ringSize, ringBytes, size, bytes, -, splits⟩
    obtain ⟨-, rfl⟩ := (computeRingSize_ok_iff (by decide)).mp size
    obtain rfl := (fit_eq_ok (by decide) overflowChecks).mp bytes
    have three : computeRingSplits (ringSlots 8192 * nonceSize) 715827883 = .ok 3 := rfl
    have allowed := (splits 3 three (by decide)).allowed
    exact absurd allowed (by decide)
  · rintro overflowChecks ⟨ringSize, ringBytes, size, bytes, addressed, -⟩
    obtain ⟨-, rfl⟩ := (computeRingSize_ok_iff (by decide)).mp size
    obtain rfl := (fit_eq_ok (by decide) overflowChecks).mp bytes
    rw [addressed_whole_iff] at addressed
    exact absurd addressed (by decide)

/-- A limit in whole groups is no obstacle. -/
theorem groupsCover_of_dvd {maxAlloc : Nat} (groups : noncesVector * nonceSize ∣ maxAlloc)
    (worksize : Nat) : GroupsCover worksize maxAlloc := by
  intro many _
  obtain ⟨count, rfl⟩ := groups
  have unit : 0 < noncesVector * nonceSize := by decide
  have positive : 0 < noncesVector * nonceSize * count := by
    apply Nat.pos_of_ne_zero
    intro none
    rw [none, ceilDiv_zero] at many
    cases many
  have covers : ringSlots worksize * nonceSize ≤ noncesVector * nonceSize * count *
      (ringSlots worksize * nonceSize ⌈/⌉ (noncesVector * nonceSize * count)) :=
    le_smul_ceilDiv positive
  generalize ringSlots worksize * nonceSize ⌈/⌉ (noncesVector * nonceSize * count) = splits
    at covers ⊢
  rw [Nat.mul_div_cancel_left count unit]
  have bytes : noncesVector * nonceSize * count * splits =
      splits * (count * noncesVector) * nonceSize := by
    rw [Nat.mul_comm _ splits, Nat.mul_right_comm noncesVector, Nat.mul_comm noncesVector,
      Nat.mul_assoc splits]
  rw [bytes] at covers
  exact Nat.le_of_mul_le_mul_right covers (by decide)

/-- What a context allocates holds its ring, whatever the driver grants. -/
theorem allocateRing_holds {overflowChecks : Bool} {grants : Request → Nat → Bool}
    {worksize maxAlloc ringSize : Nat} {buffers : Buffers} (limit : maxAlloc < 2 ^ 64)
    (sound : RingAddressed overflowChecks worksize maxAlloc)
    (allocated : allocateRing overflowChecks grants worksize maxAlloc =
      .ok (.ok (ringSize, buffers))) :
    buffers.Hold ringSize maxAlloc := by
  obtain ⟨slots, ringBytes, size, bytes, addressed, splits⟩ := sound
  rw [allocateRing, bind_eq_ok] at allocated
  obtain ⟨_, size', allocated⟩ := allocated
  obtain rfl := Except.ok.inj (size.symm.trans size')
  rw [bind_eq_ok] at allocated
  obtain ⟨_, bytes', allocated⟩ := allocated
  obtain rfl := Except.ok.inj (bytes.symm.trans bytes')
  split at allocated
  case isTrue =>
    cases allocated
    exact addressed
  case isFalse =>
    rw [bind_eq_ok] at allocated
    obtain ⟨numSplits, computed, allocated⟩ := allocated
    split at allocated
    case isTrue many =>
      rw [bind_eq_ok] at allocated
      obtain ⟨subBytes, sub, allocated⟩ := allocated
      have addressed := splits numSplits computed many
      have small := Nat.lt_of_le_of_lt addressed.allowed limit
      obtain rfl := (fit_eq_ok small overflowChecks).mp sub
      dsimp only at allocated
      split at allocated
      · cases allocated
      · split at allocated
        · cases allocated
          intro slot hash word slotLt hashLt wordLt
          have real := addressed.real slot slotLt
          have few := ((computeRingSplits_many_iff _ _ _).mp ⟨computed, many⟩).2.2
          refine ⟨_, ?_, addressed.allowed, addressed.inside slot hash word slotLt hashLt wordLt⟩
          rw [List.getElem?_map, List.getElem?_range (Nat.lt_of_lt_of_le real few),
            Option.map_some, if_pos real]
        · cases allocated
    case isFalse =>
      split at allocated
      · cases allocated
        exact addressed
      · cases allocated

end Pocx.RingMemory
