import Pocx.Hashlib.NoncegenPaths

set_option autoImplicit false

namespace Pocx.Hashlib

open ByteStore
open PlotFile (scoopSize numScoops nonceSize)

/-- The cache behind a call. -/
def cacheAfter (cache : Bytes) : Except HashError Bytes → Bytes
  | .ok after => after
  | .error _ => cache

/-- The call protects the cache. -/
structure Protected (target : Target) (cache : Bytes) (cacheOffset : Nat) (addressPayload : U8s 20)
    (seed : U8s 32) (startNonce numNonces : Nat) : Prop where
  refused : ∀ error,
    generateNonces (vectorPlatform target) cache cacheOffset addressPayload seed startNonce
      numNonces = .error error →
    cacheAfter cache (generateNonces (vectorPlatform target) cache cacheOffset addressPayload seed
      startNonce numNonces) = cache
  filled : ∀ after,
    generateNonces (vectorPlatform target) cache cacheOffset addressPayload seed startNonce
      numNonces = .ok after →
    Filled (generateAndExtractScoop32 addressPayload seed) cache after cacheOffset startNonce
      numNonces
  unfitting : cache.len / nonceSize < cacheOffset + numNonces →
    ∃ error, generateNonces (vectorPlatform target) cache cacheOffset addressPayload seed startNonce
      numNonces = .error error

section Protection

variable (cache : Bytes) (cacheOffset : Nat) (addressPayload : U8s 20) (seed : U8s 32)
  (startNonce numNonces : Nat)

theorem generateNonces_refused (target : Target)
    (small : cache.len < (cacheOffset + numNonces * nonceSize) % 2 ^ 64) :
    generateNonces (vectorPlatform target) cache cacheOffset addressPayload seed startNonce
        numNonces =
      .error (.bufferSizeError ((cacheOffset + numNonces * nonceSize) % 2 ^ 64) cache.len) := by
  simp only [generateNonces, if_pos small]

/-- Whatever passes the size test is run. -/
theorem generateNonces_passed (target : Target)
    (room : ¬ cache.len < (cacheOffset + numNonces * nonceSize) % 2 ^ 64) :
    ∃ after, generateNonces (vectorPlatform target) cache cacheOffset addressPayload seed startNonce
      numNonces = .ok after := by
  by_cases narrow : target.simdWidth = 1
  · exact ⟨_, generateNonces_scalar target cache cacheOffset addressPayload seed startNonce
      numNonces room narrow⟩
  · exact ⟨_, generateNonces_vector target cache cacheOffset addressPayload seed startNonce
      numNonces room narrow⟩

end Protection

/-- A single column that the target does not have is written all the same, over the rows behind. -/
theorem unpackShuffleScatter_overrun (source target : Bytes) (targetOffset : Nat)
    (sourceLen : source.len = nonceSize) (columns : 0 < target.len / nonceSize)
    (room : targetOffset * scoopSize + 4 ≤ target.len) :
    (unpackShuffleScatter source target targetOffset 1).byte (targetOffset * scoopSize) =
      (extractScoopFromInterleaved source 1 0 0).byte 0 := by
  have shift (copy : Copy) : dataOffset (target.len / nonceSize) targetOffset copy =
      dataOffset (target.len / nonceSize) 0 copy + targetOffset * scoopSize := by
    obtain ⟨i, j, k, b⟩ := copy
    simp only [dataOffset, Nat.add_mul k]
    omega
  have distinct : ((copies 1).map fun copy =>
      dataOffset (target.len / nonceSize) targetOffset copy + copy.2.2.2).Nodup := by
    apply List.Nodup.map_on _ (copies_nodup 1)
    intro copy listed copy' listed' same
    rw [shift, shift] at same
    exact dataOffset_injective (target.len / nonceSize) 0 1 columns copy copy' listed listed'
      (by omega)
  have listed : ((0, 0, 0, 0) : Copy) ∈ copies 1 := by
    rw [mem_copies]
    decide
  have address : dataOffset (target.len / nonceSize) targetOffset (0, 0, 0, 0) =
      targetOffset * scoopSize := by
    rw [shift]
    simp only [dataOffset, Nat.zero_mod, Nat.zero_mul, Nat.zero_add, Nat.zero_div, Nat.mul_zero]
  have small : bufferOffset 1 (0, 0, 0, 0) + 4 ≤ source.len := by
    rw [sourceLen]
    decide
  have written := Scatter.run_inside
    (fun copy =>
      !(decide (target.len < dataOffset (target.len / nonceSize) targetOffset copy + 4) ||
        decide (source.len < bufferOffset 1 copy + 4)))
    (fun copy => dataOffset (target.len / nonceSize) targetOffset copy + copy.2.2.2)
    (fun copy _ => source.byte (bufferOffset 1 copy + copy.2.2.2)) target.byte (copies 1) distinct
    (0, 0, 0, 0) listed (by
      rw [address, decide_eq_false (Nat.not_lt.mpr room), decide_eq_false (Nat.not_lt.mpr small)]
      rfl)
  simp only [address, Nat.add_zero] at written
  simp only [unpackShuffleScatter]
  exact written

theorem generateNonces32_overrun (cache : Bytes) (cacheOffset : Nat) (addressPayload : U8s 20)
    (seed : U8s 32) (startNonce : Nat) (columns : 0 < cache.len / nonceSize)
    (room : cacheOffset * scoopSize + 4 ≤ cache.len) :
    (generateNonces32 cache cacheOffset addressPayload seed startNonce 1).byte
        (cacheOffset * scoopSize) =
      (generateAndExtractScoop32 addressPayload seed startNonce 0).byte 0 := by
  have sized := hashNonce_len addressPayload seed startNonce ⟨nonceSize, fun _ => 0⟩ rfl
  rw [generateNonces32_one, unpackShuffleScatter_overrun _ _ _ sized columns room,
    generateAndExtractScoop32]

/-- A cache of two columns that differs from the nonce where the nonce lands. -/
def twoColumns : Bytes :=
  ⟨2 * nonceSize, fun _ =>
    (generateAndExtractScoop32 (fun _ => 3) (fun _ => 5) 7 0).byte 0 + 1⟩

/-- A nonce for the third of two columns: the call succeeds and the first column is damaged. -/
theorem unfitting_nonce_damages :
    ∃ after, generateNonces (vectorPlatform (.x86 false true true true)) twoColumns 2 (fun _ => 3)
        (fun _ => 5) 7 1 = .ok after ∧
      scoopAt after (scoopAddress 2 1 0) ≠ scoopAt twoColumns (scoopAddress 2 1 0) ∧
      ¬ Protected (.x86 false true true true) twoColumns 2 (fun _ => 3) (fun _ => 5) 7 1 := by
  have len : twoColumns.len = 2 * nonceSize := rfl
  have columns : twoColumns.len / nonceSize = 2 := by
    rw [len]
    exact Nat.mul_div_cancel _ (by decide)
  have room : ¬ twoColumns.len < (2 + 1 * nonceSize) % 2 ^ 64 := by
    rw [len]
    decide
  have wide : (Target.x86 false true true true).simdWidth ≠ 1 := by decide
  have done := generateNonces_vector (.x86 false true true true) twoColumns 2 (fun _ => 3)
    (fun _ => 5) 7 1 room wide
  have width : (Target.x86 false true true true).simdWidth = 8 := rfl
  have batches : 1 / 8 * 8 = 0 := rfl
  have rest : 1 % 8 = 1 := rfl
  have offset : (Target.x86 false true true true).remainderOffset 2 0 = 2 := rfl
  rw [width, batches, rest, offset, if_pos Nat.one_pos, generateNoncesVector_none,
    Nat.add_zero] at done
  refine ⟨_, done, ?_, ?_⟩
  · intro same
    have byte := congrFun (congrArg Scoop.byte same) 0
    have overrun := generateNonces32_overrun twoColumns 2 (fun _ => 3) (fun _ => 5) 7
      (by rw [columns]; decide) (by rw [len]; decide)
    have address : scoopAddress 2 1 0 + ((0 : Fin scoopSize) : Nat) = 2 * scoopSize := rfl
    simp only [scoopAt, address] at byte
    have filler : twoColumns.byte (2 * scoopSize) =
        (generateAndExtractScoop32 (fun _ => 3) (fun _ => 5) 7 0).byte 0 + 1 := rfl
    rw [filler] at byte
    exact succ_ne _ (byte.symm.trans overrun)
  · intro safe
    obtain ⟨error, refused⟩ := safe.unfitting (by rw [columns]; decide)
    rw [done] at refused
    cases refused

/-- On x86 the call protects the cache when the nonces fit or when the size test, which adds a column
to a number of bytes in 64 bits, refuses it. -/
theorem protected_iff (avx512f avx2 avx sse2 : Bool) (cache : Bytes) (cacheOffset : Nat)
    (addressPayload : U8s 20) (seed : U8s 32) (startNonce numNonces : Nat)
    (_nonces : startNonce + numNonces ≤ 2 ^ 64) :
    Protected (.x86 avx512f avx2 avx sse2) cache cacheOffset addressPayload seed startNonce
        numNonces ↔
      cacheOffset + numNonces ≤ cache.len / nonceSize ∨
        cache.len < (cacheOffset + numNonces * nonceSize) % 2 ^ 64 := by
  constructor
  · intro safe
    by_contra neither
    obtain ⟨unfit, room⟩ := not_or.mp neither
    obtain ⟨error, refused⟩ := safe.unfitting (Nat.lt_of_not_le unfit)
    obtain ⟨after, done⟩ := generateNonces_passed cache cacheOffset addressPayload seed startNonce
      numNonces (.x86 avx512f avx2 avx sse2) room
    rw [done] at refused
    cases refused
  · intro checked
    rcases checked with fits | small
    · have placed : ¬ NeonRemainder (.x86 avx512f avx2 avx sse2) numNonces := by
        rintro ⟨neon, -, -⟩
        cases neon
      obtain ⟨after, done, filled⟩ := generateNonces_filled (.x86 avx512f avx2 avx sse2) cache
        cacheOffset addressPayload seed startNonce numNonces placed fits
      refine ⟨?_, ?_, ?_⟩
      · intro error refused
        rw [done] at refused
        cases refused
      · intro after' done'
        rw [done] at done'
        injection done' with same
        rw [← same]
        exact filled
      · intro unfit
        exact absurd fits (Nat.not_le_of_lt unfit)
    · have refused := generateNonces_refused cache cacheOffset addressPayload seed startNonce
        numNonces (.x86 avx512f avx2 avx sse2) small
      refine ⟨?_, ?_, ?_⟩
      · intro error _
        rw [refused, cacheAfter]
      · intro after done
        rw [refused] at done
        cases done
      · intro _
        exact ⟨_, refused⟩

/-- One nonce in the last of three columns. -/
theorem protected_last_column :
    Protected (.x86 false true true true) ⟨3 * nonceSize, fun _ => 0⟩ 2 (fun _ => 3) (fun _ => 5) 7
      1 := by
  have whole : 3 * nonceSize / nonceSize = 3 := Nat.mul_div_cancel _ (by decide)
  apply (protected_iff false true true true ⟨3 * nonceSize, fun _ => 0⟩ 2 (fun _ => 3) (fun _ => 5)
    7 1 (by decide)).mpr
  exact Or.inl (by rw [whole])

end Pocx.Hashlib
