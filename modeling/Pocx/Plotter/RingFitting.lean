import Mathlib.Data.Nat.Size
import Pocx.Plotter.RingMemory

set_option autoImplicit false

namespace Pocx.RingMemory

open Panicking (Panic bind_eq_ok fit fit_ok ok_bind)
open PlotFile (nonceSize)
open RingLoop (compressBatch)

/-- `leading_zeros` of a `usize` -/
def leadingZeros (n : Nat) : Nat := 64 - Nat.size n

def prevPowerOfTwo (n : Nat) : Nat := if n ≤ 1 then 1 else 1 <<< (64 - 1 - leadingZeros n)

/-- The size in bytes of the ring for a worksize. -/
def ringBytesOf (overflowChecks : Bool) (worksize : Nat) : Except Panic Nat := do
  let ringSize ← computeRingSize overflowChecks worksize
  ringBufferBytes overflowChecks ringSize

theorem half_lt {kws : Nat} (many : ¬ kws ≤ 1) : kws / 2 < kws :=
  Nat.div_lt_self (by omega) (by decide)

/-- The loop of `fit_kws_to_max_alloc`. -/
def halveKws (overflowChecks : Bool) (target effectiveCores kws : Nat) : Except Panic Nat := do
  let worksize ← fit 64 overflowChecks (kws * effectiveCores)
  let ringBytes ← ringBytesOf overflowChecks worksize
  if done : ringBytes ≤ target ∨ kws ≤ 1 then return kws
  else halveKws overflowChecks target effectiveCores (kws / 2)
termination_by kws
decreasing_by exact half_lt fun few => done (.inr few)

def fitKwsToMaxAlloc (overflowChecks : Bool) (deviceKws cores maxAlloc kwsOverride : Nat)
    (trustOversizeAlloc : Bool) : Except Panic (Nat × Nat × Bool) :=
  if kwsOverride ≠ 0 then .ok (kwsOverride, cores, false)
  else if trustOversizeAlloc then .ok (deviceKws, cores, false)
  else do
    let target := max maxAlloc (compressBatch * nonceSize)
    let effectiveCores := prevPowerOfTwo cores
    let kws ← halveKws overflowChecks target effectiveCores deviceKws
    return (kws, effectiveCores, effectiveCores < cores || kws < deviceKws)

/-- `GpuRingContext::new` from what the device tells. -/
def newContext (overflowChecks : Bool) (grants : Request → Nat → Bool)
    (workGroupSize cores maxAlloc kwsOverride : Nat) (trustOversizeAlloc : Bool) :
    Except Panic (Except Request (Nat × Buffers)) := do
  let deviceKws := if kwsOverride ≠ 0 then kwsOverride else workGroupSize
  let (kernelWorkgroupSize, effectiveCores, _) ←
    fitKwsToMaxAlloc overflowChecks deviceKws cores maxAlloc kwsOverride trustOversizeAlloc
  let worksize ← fit 64 overflowChecks (kernelWorkgroupSize * effectiveCores)
  allocateRing overflowChecks grants worksize maxAlloc

/-- A ring for this worksize takes no more bytes. -/
def Fits (target worksize : Nat) : Prop :=
  (worksize + compressBatch - Nat.gcd worksize compressBatch) * nonceSize ≤ target

theorem prevPowerOfTwo_eq {n : Nat} (positive : 1 ≤ n) (small : n < 2 ^ 64) :
    prevPowerOfTwo n = 2 ^ (Nat.size n - 1) := by
  have bits : Nat.size n ≤ 64 := Nat.size_le.mpr small
  have bitsPos : 0 < Nat.size n := Nat.size_pos.mpr positive
  rw [prevPowerOfTwo]
  by_cases one : n ≤ 1
  · have same : n = 1 := Nat.le_antisymm one positive
    rw [if_pos one, same, Nat.size_one]
    rfl
  · have amount : 64 - 1 - leadingZeros n = Nat.size n - 1 := by
      rw [leadingZeros]
      omega
    rw [if_neg one, amount, Nat.one_shiftLeft]

/-- The largest power of two that is no larger. -/
theorem prevPowerOfTwo_bounds {n : Nat} (positive : 1 ≤ n) (small : n < 2 ^ 64) :
    prevPowerOfTwo n ≤ n ∧ n < 2 * prevPowerOfTwo n := by
  have bitsPos : 0 < Nat.size n := Nat.size_pos.mpr positive
  have above : n < 2 ^ Nat.size n := Nat.lt_size_self n
  rw [prevPowerOfTwo_eq positive small]
  refine ⟨Nat.lt_size.mp (Nat.sub_lt bitsPos Nat.one_pos), ?_⟩
  rw [← Nat.pow_succ', Nat.succ_eq_add_one, Nat.sub_add_cancel bitsPos]
  exact above

section fitting

variable {overflowChecks : Bool} {target effectiveCores kws : Nat}

theorem ringBytesOf_ok {worksize : Nat} (bounded : worksize + compressBatch ≤ 2 ^ 46)
    (overflowChecks : Bool) :
    ringBytesOf overflowChecks worksize =
      .ok ((worksize + compressBatch - Nat.gcd worksize compressBatch) * nonceSize) := by
  have word : worksize + compressBatch < 2 ^ 64 := Nat.lt_of_le_of_lt bounded (by decide)
  have worksizeLt : worksize < 2 ^ 64 := Nat.lt_of_le_of_lt (Nat.le_add_right _ _) word
  have slots : ringSlots worksize =
      worksize + compressBatch - Nat.gcd worksize compressBatch :=
    Nat.mod_eq_of_lt (Nat.lt_of_le_of_lt (Nat.sub_le _ _) word)
  have computed := (@computeRingSize_ok_iff overflowChecks _ _ worksizeLt).mpr
    ⟨fun _ => word, rfl⟩
  have small := (@ringSlots_small_iff overflowChecks _ worksizeLt fun _ => word).mpr (.inl bounded)
  have bytes : ringBufferBytes overflowChecks (ringSlots worksize) =
      .ok (ringSlots worksize * nonceSize) := fit_ok small overflowChecks
  rw [slots] at computed bytes
  rw [ringBytesOf, bind_eq_ok]
  exact ⟨_, computed, bytes⟩

/-- A turn of the loop. -/
theorem halveKws_fits (bounded : kws * effectiveCores + compressBatch ≤ 2 ^ 46)
    (done : Fits target (kws * effectiveCores) ∨ kws ≤ 1) :
    halveKws overflowChecks target effectiveCores kws = .ok kws := by
  have word : kws * effectiveCores < 2 ^ 64 :=
    Nat.lt_of_le_of_lt (Nat.le_of_add_right_le bounded) (by decide)
  rw [halveKws, fit_ok word, ok_bind, ringBytesOf_ok bounded, ok_bind]
  exact dif_pos done

theorem halveKws_halves (bounded : kws * effectiveCores + compressBatch ≤ 2 ^ 46)
    (notDone : ¬ (Fits target (kws * effectiveCores) ∨ kws ≤ 1)) :
    halveKws overflowChecks target effectiveCores kws =
      halveKws overflowChecks target effectiveCores (kws / 2) := by
  have word : kws * effectiveCores < 2 ^ 64 :=
    Nat.lt_of_le_of_lt (Nat.le_of_add_right_le bounded) (by decide)
  rw [halveKws, fit_ok word, ok_bind, ringBytesOf_ok bounded, ok_bind]
  exact dif_neg notDone

/-- The loop stops at the first halving that fits, or at a work group of one. -/
theorem halveKws_spec (bounded : kws * effectiveCores + compressBatch ≤ 2 ^ 46) :
    ∃ halvings, halveKws overflowChecks target effectiveCores kws = .ok (kws / 2 ^ halvings) ∧
      (Fits target (kws / 2 ^ halvings * effectiveCores) ∨ kws / 2 ^ halvings ≤ 1) ∧
      ∀ fewer < halvings, 1 < kws / 2 ^ fewer ∧
        ¬ Fits target (kws / 2 ^ fewer * effectiveCores) := by
  induction kws using Nat.strongRecOn with
  | ind kws ih =>
    by_cases done : Fits target (kws * effectiveCores) ∨ kws ≤ 1
    · refine ⟨0, ?_, ?_, fun fewer none => absurd none (Nat.not_lt_zero fewer)⟩
      · rw [Nat.pow_zero, Nat.div_one]
        exact halveKws_fits bounded done
      · rw [Nat.pow_zero, Nat.div_one]
        exact done
    · have many : ¬ kws ≤ 1 := fun few => done (.inr few)
      have half := Nat.mul_le_mul_right effectiveCores (Nat.div_le_self kws 2)
      have less := Nat.le_trans (Nat.add_le_add_right half compressBatch) bounded
      obtain ⟨halvings, found, fits, tooLarge⟩ := ih (kws / 2) (half_lt many) less
      have behind (count : Nat) : kws / 2 ^ (count + 1) = kws / 2 / 2 ^ count := by
        rw [Nat.pow_succ', ← Nat.div_div_eq_div_mul]
      refine ⟨halvings + 1, ?_, ?_, ?_⟩
      · rw [halveKws_halves bounded done, behind]
        exact found
      · rw [behind]
        exact fits
      · intro fewer earlier
        cases fewer with
        | zero =>
          rw [Nat.pow_zero, Nat.div_one]
          exact ⟨Nat.lt_of_not_le many, fun fits => done (.inl fits)⟩
        | succ before =>
          rw [behind]
          exact tooLarge before (Nat.lt_of_succ_lt_succ earlier)

/-- The ring of a worksize that divides the batch is the batch. -/
theorem fits_of_dvd {worksize : Nat} (divides : worksize ∣ compressBatch) :
    Fits (compressBatch * nonceSize) worksize := by
  rw [Fits, Nat.gcd_eq_left divides, Nat.add_sub_cancel_left]

theorem Fits.mono {worksize larger : Nat} (fits : Fits target worksize) (le : target ≤ larger) :
    Fits larger worksize :=
  Nat.le_trans fits le

/-- A power of two is a divisor of the larger ones. -/
theorem two_pow_dvd {a b : Nat} (le : 2 ^ a ≤ 2 ^ b) : 2 ^ a ∣ 2 ^ b :=
  Nat.pow_dvd_pow 2 ((Nat.pow_le_pow_iff_right (by decide)).mp le)

theorem prevPowerOfTwo_dvd {cores : Nat} (anyCore : 1 ≤ cores) (few : cores ≤ compressBatch) :
    prevPowerOfTwo cores ∣ compressBatch := by
  have small : cores < 2 ^ 64 := Nat.lt_of_le_of_lt few (by decide)
  have batch : compressBatch = 2 ^ 13 := rfl
  have le := Nat.le_trans (prevPowerOfTwo_bounds anyCore small).1 few
  rw [prevPowerOfTwo_eq anyCore small, batch] at le ⊢
  exact two_pow_dvd le

/-- Few enough cores leave a work group whose ring fits. -/
theorem halveKws_fitted (positive : 1 ≤ kws) (divides : effectiveCores ∣ compressBatch)
    (floor : compressBatch * nonceSize ≤ target)
    (bounded : kws * effectiveCores + compressBatch ≤ 2 ^ 46) :
    ∃ halvings, halveKws overflowChecks target effectiveCores kws = .ok (kws / 2 ^ halvings) ∧
      1 ≤ kws / 2 ^ halvings ∧ Fits target (kws / 2 ^ halvings * effectiveCores) ∧
      ∀ fewer < halvings, ¬ Fits target (kws / 2 ^ fewer * effectiveCores) := by
  obtain ⟨halvings, found, fits, tooLarge⟩ :=
    @halveKws_spec overflowChecks target effectiveCores kws bounded
  have group : 1 ≤ kws / 2 ^ halvings := by
    cases halvings with
    | zero =>
      rw [Nat.pow_zero, Nat.div_one]
      exact positive
    | succ before =>
      have last := (tooLarge before (Nat.lt_succ_self before)).1
      rw [Nat.pow_succ, ← Nat.div_div_eq_div_mul]
      exact Nat.div_pos last (by decide)
  refine ⟨halvings, found, group, ?_, fun fewer earlier => (tooLarge fewer earlier).2⟩
  rcases fits with fits | one
  · exact fits
  · rw [Nat.le_antisymm one group, Nat.one_mul]
    exact (fits_of_dvd divides).mono floor

/-- A ring of whole groups that is not split, or at a limit of whole groups. -/
theorem ringAddressed_of {worksize maxAlloc : Nat} (bounded : worksize + compressBatch ≤ 2 ^ 46)
    (groups : worksize % 16 ∈ [0, 1, 2, 4, 8]) (cover : GroupsCover worksize maxAlloc)
    (overflowChecks : Bool) : RingAddressed overflowChecks worksize maxAlloc := by
  have word : worksize + compressBatch < 2 ^ 64 := Nat.lt_of_le_of_lt bounded (by decide)
  have worksizeLt : worksize < 2 ^ 64 := Nat.lt_of_le_of_lt (Nat.le_add_right _ _) word
  have small := (@ringSlots_small_iff overflowChecks _ worksizeLt fun _ => word).mpr (.inl bounded)
  have slots : ringSlots worksize < 2 ^ 46 := by
    rw [nonceSize_eq] at small
    omega
  refine ⟨ringSlots worksize, ringSlots worksize * nonceSize, ?_, ?_, ?_, ?_⟩
  · exact (computeRingSize_ok_iff worksizeLt).mpr ⟨fun _ => word, rfl⟩
  · exact fit_ok small overflowChecks
  · exact (addressed_whole_iff _).mpr ((ringSlots_mod_sixteen worksize).mpr groups)
  · exact (splits_addressed_iff slots).mpr cover

/-- A ring that fits is not split. -/
theorem groupsCover_of_fits {worksize maxAlloc : Nat} (bounded : worksize + compressBatch ≤ 2 ^ 46)
    (fits : Fits maxAlloc worksize) : GroupsCover worksize maxAlloc := by
  intro many
  have word : worksize + compressBatch < 2 ^ 64 := Nat.lt_of_le_of_lt bounded (by decide)
  have slots : ringSlots worksize =
      worksize + compressBatch - Nat.gcd worksize compressBatch :=
    Nat.mod_eq_of_lt (Nat.lt_of_le_of_lt (Nat.sub_le _ _) word)
  have one : ringSlots worksize * nonceSize ⌈/⌉ maxAlloc ≤ 1 := by
    cases maxAlloc with
    | zero =>
      rw [ceilDiv_zero]
      exact Nat.zero_le 1
    | succ limit =>
      rw [ceilDiv_le_iff_le_mul (Nat.succ_pos limit), Nat.mul_one, slots]
      exact fits
  exact absurd many (Nat.not_lt.mpr one)

/-- A context keeps the size of its ring. -/
theorem allocateRing_size {grants : Request → Nat → Bool} {worksize maxAlloc ringSize : Nat}
    {buffers : Buffers} (allocated : allocateRing overflowChecks grants worksize maxAlloc =
      .ok (.ok (ringSize, buffers))) : computeRingSize overflowChecks worksize = .ok ringSize := by
  rw [allocateRing, bind_eq_ok] at allocated
  obtain ⟨slots, size, allocated⟩ := allocated
  rw [bind_eq_ok] at allocated
  obtain ⟨ringBytes, -, allocated⟩ := allocated
  rw [size]
  split at allocated
  · cases allocated
    rfl
  · rw [bind_eq_ok] at allocated
    obtain ⟨numSplits, -, allocated⟩ := allocated
    split at allocated
    · rw [bind_eq_ok] at allocated
      obtain ⟨subBytes, -, allocated⟩ := allocated
      dsimp only at allocated
      split at allocated
      · cases allocated
      · split at allocated
        · cases allocated
          rfl
        · cases allocated
    · split at allocated
      · cases allocated
        rfl
      · cases allocated

theorem two_pow_mod_sixteen (k : Nat) : 2 ^ k % 16 ∈ [0, 1, 2, 4, 8] := by
  by_cases small : k < 4
  · obtain rfl | rfl | rfl | rfl : k = 0 ∨ k = 1 ∨ k = 2 ∨ k = 3 := by omega
    all_goals decide
  · have divides : 2 ^ 4 ∣ 2 ^ k := Nat.pow_dvd_pow 2 (Nat.le_of_not_lt small)
    have none : 2 ^ k % 16 = 0 := Nat.mod_eq_zero_of_dvd divides
    rw [none]
    exact List.mem_cons_self

end fitting

/-- Without an override and on a vendor that is not trusted. -/
theorem fitKws_fitted {overflowChecks : Bool} {deviceKws cores : Nat} (positive : 1 ≤ deviceKws)
    (anyCore : 1 ≤ cores) (few : cores ≤ compressBatch)
    (bounded : deviceKws * cores + compressBatch ≤ 2 ^ 46) (maxAlloc : Nat) :
    ∃ halvings k, 2 ^ k ≤ cores ∧ cores < 2 * 2 ^ k ∧ 1 ≤ deviceKws / 2 ^ halvings ∧
      fitKwsToMaxAlloc overflowChecks deviceKws cores maxAlloc 0 false =
        .ok (deviceKws / 2 ^ halvings, 2 ^ k, 2 ^ k < cores || deviceKws / 2 ^ halvings < deviceKws) ∧
      Fits (max maxAlloc (compressBatch * nonceSize)) (deviceKws / 2 ^ halvings * 2 ^ k) ∧
      ∀ fewer < halvings, ¬ Fits (max maxAlloc (compressBatch * nonceSize))
        (deviceKws / 2 ^ fewer * 2 ^ k) := by
  have small : cores < 2 ^ 64 := Nat.lt_of_le_of_lt few (by decide)
  have bounds := prevPowerOfTwo_bounds anyCore small
  have divides := prevPowerOfTwo_dvd anyCore few
  have less := Nat.add_le_add_right (Nat.mul_le_mul_left deviceKws bounds.1) compressBatch
  have within := Nat.le_trans less bounded
  have power := prevPowerOfTwo_eq anyCore small
  rw [power] at bounds divides within
  obtain ⟨halvings, found, group, fits, tooLarge⟩ :=
    @halveKws_fitted overflowChecks _ _ _ positive divides (Nat.le_max_right maxAlloc _) within
  refine ⟨halvings, Nat.size cores - 1, bounds.1, bounds.2, group, ?_, fits, tooLarge⟩
  rw [fitKwsToMaxAlloc, if_neg (not_not_intro rfl), if_neg Bool.false_ne_true]
  simp only [power, found, ok_bind]
  rfl

/-- Without an override and on a vendor that is not trusted, a device with at most 8192 cores gets the
largest power of two of them and the largest halving of its work group whose ring fits into its
limit, or into the two gibibytes that a ring takes at least; there always is one. -/
theorem fitKws_largest (overflowChecks : Bool) (deviceKws cores maxAlloc : Nat)
    (positive : 1 ≤ deviceKws) (anyCore : 1 ≤ cores) (few : cores ≤ compressBatch)
    (bounded : deviceKws * cores + compressBatch ≤ 2 ^ 46) :
    ∃ halvings k, 2 ^ k ≤ cores ∧ cores < 2 * 2 ^ k ∧
      fitKwsToMaxAlloc overflowChecks deviceKws cores maxAlloc 0 false =
        .ok (deviceKws / 2 ^ halvings, 2 ^ k, 2 ^ k < cores || deviceKws / 2 ^ halvings < deviceKws) ∧
      Fits (max maxAlloc (compressBatch * nonceSize)) (deviceKws / 2 ^ halvings * 2 ^ k) ∧
      ∀ fewer < halvings, ¬ Fits (max maxAlloc (compressBatch * nonceSize))
        (deviceKws / 2 ^ fewer * 2 ^ k) := by
  obtain ⟨halvings, k, below, above, -, fitted⟩ := fitKws_fitted positive anyCore few bounded maxAlloc
  exact ⟨halvings, k, below, above, fitted⟩

/-- Ten cores at a limit of two gibibytes: a work group of 2048 is halved once. -/
theorem fitKws_largest_ten_cores :
    fitKwsToMaxAlloc true 2048 10 (2 ^ 31) 0 false = .ok (1024, 8, true) ∧
      Fits (2 ^ 31) (1024 * 8) ∧ ¬ Fits (2 ^ 31) (2048 * 8) := by
  obtain ⟨halvings, k, below, above, fitted, fits, tooLarge⟩ :=
    fitKws_largest true 2048 10 (2 ^ 31) (by decide) (by decide) (by decide) (by decide)
  have target : max (2 ^ 31) (compressBatch * nonceSize) = 2 ^ 31 := by decide
  rw [target] at fits tooLarge
  have ring : (2 : Nat) ^ 31 = compressBatch * nonceSize := by decide
  have half : Fits (2 ^ 31) (1024 * 8) := by
    rw [ring]
    exact fits_of_dvd (by decide)
  have whole : ¬ Fits (2 ^ 31) (2048 * 8) := by
    rw [Fits]
    decide
  have cores : k = 3 := by
    have least : k < 4 := (Nat.pow_lt_pow_iff_right (by decide : 1 < 2)).mp
      (Nat.lt_of_le_of_lt below (by decide))
    have most : 2 < k := by
      by_contra few
      have bound : 2 ^ k ≤ 2 ^ 2 := Nat.pow_le_pow_right (by decide) (Nat.not_lt.mp few)
      omega
    omega
  subst cores
  have once : halvings = 1 := by
    rcases Nat.lt_trichotomy halvings 1 with none | one | more
    · rw [Nat.lt_one_iff.mp none] at fits
      exact absurd fits whole
    · exact one
    · exact absurd half (tooLarge 1 more)
  subst once
  exact ⟨fitted, half, whole⟩

theorem newContext_eq {overflowChecks : Bool} {grants : Request → Nat → Bool}
    {deviceKws cores maxAlloc kws effectiveCores : Nat} {reduced : Bool}
    (fitted : fitKwsToMaxAlloc overflowChecks deviceKws cores maxAlloc 0 false =
      .ok (kws, effectiveCores, reduced)) (word : kws * effectiveCores < 2 ^ 64) :
    newContext overflowChecks grants deviceKws cores maxAlloc 0 false =
      allocateRing overflowChecks grants (kws * effectiveCores) maxAlloc := by
  have sized : (fit 64 overflowChecks (kws * effectiveCores) >>= fun worksize =>
      allocateRing overflowChecks grants worksize maxAlloc) =
        allocateRing overflowChecks grants (kws * effectiveCores) maxAlloc := by
    rw [fit_ok word, ok_bind]
  rw [newContext, if_neg (not_not_intro rfl), fitted]
  exact sized

/-- The context of a device of at most 8192 cores, without an override and on a vendor that is not
trusted, whose work group is a power of two and whose limit is no less than the smallest ring or
made of whole groups of nonces: its ring takes at most the limit, or two gibibytes, and every word
that the kernels reach lies in a buffer of it. -/
theorem newContext_holds (overflowChecks : Bool) (grants : Request → Nat → Bool)
    (k cores maxAlloc ringSize : Nat) (buffers : Buffers) (anyCore : 1 ≤ cores)
    (few : cores ≤ compressBatch) (bounded : 2 ^ k * cores + compressBatch ≤ 2 ^ 46)
    (limit : maxAlloc < 2 ^ 64)
    (floor : compressBatch * nonceSize ≤ maxAlloc ∨ noncesVector * nonceSize ∣ maxAlloc)
    (allocated : newContext overflowChecks grants (2 ^ k) cores maxAlloc 0 false =
      .ok (.ok (ringSize, buffers))) :
    ringSize * nonceSize ≤ max maxAlloc (compressBatch * nonceSize) ∧
      buffers.Hold ringSize maxAlloc := by
  obtain ⟨halvings, j, below, -, group, fitted, fits, -⟩ :=
    @fitKws_fitted overflowChecks _ _ Nat.one_le_two_pow anyCore few bounded maxAlloc
  have halves : 2 ^ halvings ≤ 2 ^ k := by
    by_contra larger
    rw [Nat.div_eq_of_lt (Nat.lt_of_not_le larger)] at group
    exact absurd group (by decide)
  have power : 2 ^ k / 2 ^ halvings * 2 ^ j = 2 ^ (k - halvings + j) := by
    rw [Nat.pow_div ((Nat.pow_le_pow_iff_right (by decide)).mp halves) (by decide), ← Nat.pow_add]
  have less : 2 ^ (k - halvings + j) + compressBatch ≤ 2 ^ 46 := by
    rw [← power]
    have smaller := Nat.mul_le_mul (Nat.div_le_self (2 ^ k) (2 ^ halvings)) below
    exact Nat.le_trans (Nat.add_le_add_right smaller _) bounded
  rw [power] at fits
  have word : 2 ^ (k - halvings + j) < 2 ^ 64 :=
    Nat.lt_of_le_of_lt (Nat.le_of_add_right_le less) (by decide)
  have cover : GroupsCover (2 ^ (k - halvings + j)) maxAlloc := by
    rcases floor with room | groups
    · rw [Nat.max_eq_left room] at fits
      exact groupsCover_of_fits less fits
    · exact groupsCover_of_dvd groups _
  have sound := ringAddressed_of less (two_pow_mod_sixteen _) cover overflowChecks
  have ring : allocateRing overflowChecks grants (2 ^ (k - halvings + j)) maxAlloc =
      .ok (.ok (ringSize, buffers)) := by
    have reduced := @newContext_eq overflowChecks grants _ _ _ _ _ _ fitted (power ▸ word)
    rw [power] at reduced
    rw [← reduced]
    exact allocated
  have wraps : 2 ^ (k - halvings + j) + compressBatch < 2 ^ 64 :=
    Nat.lt_of_le_of_lt less (by decide)
  have size : ringSize = ringSlots (2 ^ (k - halvings + j)) :=
    ((computeRingSize_ok_iff word).mp (allocateRing_size ring)).2
  have slots : ringSlots (2 ^ (k - halvings + j)) = 2 ^ (k - halvings + j) + compressBatch -
      Nat.gcd (2 ^ (k - halvings + j)) compressBatch :=
    Nat.mod_eq_of_lt (Nat.lt_of_le_of_lt (Nat.sub_le _ _) wraps)
  refine ⟨?_, allocateRing_holds limit sound ring⟩
  rw [size, slots]
  exact fits

/-- Ten cores with a work group of 256. -/
theorem tenCores_fitted {maxAlloc : Nat} (small : maxAlloc ≤ 2 ^ 31) :
    fitKwsToMaxAlloc true (2 ^ 8) 10 maxAlloc 0 false = .ok (256, 8, true) := by
  have target : max maxAlloc (compressBatch * nonceSize) = 2 ^ 31 := Nat.max_eq_right small
  have fits : Fits (2 ^ 31) (256 * 8) :=
    (fits_of_dvd (by decide : 256 * 8 ∣ compressBatch)).mono (by decide)
  have kws : halveKws true (2 ^ 31) 8 256 = .ok 256 := halveKws_fits (by decide) (.inl fits)
  have cores : prevPowerOfTwo 10 = 8 := prevPowerOfTwo_eq (by decide) (by decide)
  have group : 2 ^ 8 = 256 := by decide
  rw [fitKwsToMaxAlloc, target, cores, group, if_neg (not_not_intro rfl), if_neg Bool.false_ne_true]
  simp only [kws, ok_bind]
  rfl

/-- At two gibibytes their ring is one buffer, at one gibibyte two, with the two dummies that the
kernels take besides. -/
theorem newContext_holds_ten_cores :
    let one := Buffers.single (2 ^ 31)
    let two := Buffers.split [2 ^ 30, 2 ^ 30, 4, 4] 4096
    (newContext true (fun _ _ => true) (2 ^ 8) 10 (2 ^ 31) 0 false = .ok (.ok (8192, one)) ∧
      8192 * nonceSize ≤ 2 ^ 31 ∧ one.Hold 8192 (2 ^ 31)) ∧
    newContext true (fun _ _ => true) (2 ^ 8) 10 (2 ^ 30) 0 false = .ok (.ok (8192, two)) ∧
      two.Hold 8192 (2 ^ 30) := by
  intro one two
  have size : computeRingSize true 2048 = .ok 8192 :=
    (computeRingSize_ok_iff (by decide)).mpr ⟨fun _ => by decide, rfl⟩
  have value : 8192 * nonceSize = 2 ^ 31 := by decide
  have bytes : ringBufferBytes true 8192 = .ok (8192 * nonceSize) := fit_ok (by decide) true
  rw [value] at bytes
  have single : newContext true (fun _ _ => true) (2 ^ 8) 10 (2 ^ 31) 0 false =
      .ok (.ok (8192, one)) := by
    have room : compressBatch * nonceSize ≤ 2 ^ 31 := by decide
    rw [newContext_eq (tenCores_fitted (Nat.le_refl _)) (by decide), allocateRing, size, ok_bind,
      bytes, ok_bind, if_pos ⟨room, rfl⟩]
    rfl
  have split : newContext true (fun _ _ => true) (2 ^ 8) 10 (2 ^ 30) 0 false =
      .ok (.ok (8192, two)) := by
    have halves : computeRingSplits (2 ^ 31) (2 ^ 30) = .ok 2 := by decide
    have less : ¬ (compressBatch * nonceSize ≤ 2 ^ 30 ∧ true = true) := by decide
    have aligned : noncesPerSubAligned 8192 2 = 4096 := by decide
    have half : fit 64 true (4096 * nonceSize) = .ok (2 ^ 30) := fit_ok (by decide) true
    rw [newContext_eq (tenCores_fitted (by decide)) (by decide), allocateRing, size, ok_bind,
      bytes, ok_bind, if_neg less, halves, ok_bind, if_pos (by decide), aligned]
    dsimp only
    rw [half, ok_bind]
    rfl
  obtain ⟨fits, holds⟩ := newContext_holds true (fun _ _ => true) 8 10 (2 ^ 31) 8192 one
    (by decide) (by decide) (by decide) (by decide) (.inl (by decide)) single
  obtain ⟨-, holdsTwo⟩ := newContext_holds true (fun _ _ => true) 8 10 (2 ^ 30) 8192 two
    (by decide) (by decide) (by decide) (by decide) (.inr (by decide)) split
  exact ⟨⟨single, fits, holds⟩, split, holdsTwo⟩

end Pocx.RingMemory
