import Pocx.Hashlib.NoncegenVector

set_option autoImplicit false

namespace Pocx.Hashlib

open ByteStore
open PlotFile (scoopSize numScoops nonceSize)

/-- Nonce `startNonce + k` is in column `cacheOffset + k`, and no other byte is changed. -/
structure Filled (raw : Nat → Nat → Scoop) (cache after : Bytes)
    (cacheOffset startNonce numNonces : Nat) : Prop where
  len : after.len = cache.len
  nonces : ∀ scoop < numScoops, ∀ k < numNonces,
    scoopAt after (scoopAddress (cache.len / nonceSize) scoop (cacheOffset + k)) =
      raw (startNonce + k) scoop
  frame : ∀ place, (∀ scoop < numScoops, ∀ k < numNonces, ∀ z : Fin scoopSize,
      place ≠ scoopAddress (cache.len / nonceSize) scoop (cacheOffset + k) + z) →
    after.byte place = cache.byte place

section Filled

variable {raw : Nat → Nat → Scoop} {cache mid after after' : Bytes}
  {cacheOffset startNonce numNonces : Nat}

/-- There is one way to fill a cache. -/
theorem Filled.unique (filled : Filled raw cache after cacheOffset startNonce numNonces)
    (filled' : Filled raw cache after' cacheOffset startNonce numNonces) : after = after' := by
  have bytes : after.byte = after'.byte := by
    funext place
    by_cases written : ∃ scoop < numScoops, ∃ k < numNonces, ∃ z : Fin scoopSize,
        place = scoopAddress (cache.len / nonceSize) scoop (cacheOffset + k) + z
    · obtain ⟨scoop, scoopLt, k, kLt, z, rfl⟩ := written
      have same := (filled.nonces scoop scoopLt k kLt).trans (filled'.nonces scoop scoopLt k kLt).symm
      exact congrFun (congrArg Scoop.byte same) z
    · have apart : ∀ scoop < numScoops, ∀ k < numNonces, ∀ z : Fin scoopSize,
          place ≠ scoopAddress (cache.len / nonceSize) scoop (cacheOffset + k) + z := by
        intro scoop scoopLt k kLt z here
        exact written ⟨scoop, scoopLt, k, kLt, z, here⟩
      rw [filled.frame place apart, filled'.frame place apart]
  have lens : after.len = after'.len := filled.len.trans filled'.len.symm
  cases after
  cases after'
  simp only at bytes lens
  rw [bytes, lens]

theorem Filled.nothing (raw : Nat → Nat → Scoop) (cache : Bytes) (cacheOffset startNonce : Nat) :
    Filled raw cache cache cacheOffset startNonce 0 := by
  refine ⟨rfl, ?_, ?_⟩
  · intro scoop scoopLt k kLt
    exact absurd kLt (Nat.not_lt_zero k)
  · intro place apart
    rfl

theorem scoopAddress_apart {columns scoop column scoop' column' : Nat} (columnLt : column < columns)
    (columnLt' : column' < columns) (apart : column ≠ column') (z z' : Fin scoopSize) :
    scoopAddress columns scoop column + z ≠ scoopAddress columns scoop' column' + z' := by
  intro same
  rw [scoopAddress_cell, scoopAddress_cell] at same
  exact apart (Strided.cell_injective _ _ _ _ _ _ _ _ columnLt columnLt' z.isLt z'.isLt same).2.1

/-- Columns next to each other are filled one after the other. -/
theorem Filled.append {count : Nat}
    (first : Filled raw cache mid cacheOffset startNonce numNonces)
    (second : Filled raw mid after (cacheOffset + numNonces) (startNonce + numNonces) count)
    (fits : cacheOffset + (numNonces + count) ≤ cache.len / nonceSize) :
    Filled raw cache after cacheOffset startNonce (numNonces + count) := by
  obtain ⟨firstLen, firstNonces, firstFrame⟩ := first
  obtain ⟨secondLen, secondNonces, secondFrame⟩ := second
  rw [firstLen] at secondLen secondNonces secondFrame
  refine ⟨secondLen, ?_, ?_⟩
  · intro scoop scoopLt k kLt
    by_cases old : k < numNonces
    · rw [← firstNonces scoop scoopLt k old]
      apply Scoop.ext
      funext z
      apply secondFrame
      intro scoop' scoopLt' k' kLt' z'
      exact scoopAddress_apart (by omega) (by omega) (by omega) z z'
    · have here := secondNonces scoop scoopLt (k - numNonces) (by omega)
      have column : cacheOffset + numNonces + (k - numNonces) = cacheOffset + k := by omega
      have nonce : startNonce + numNonces + (k - numNonces) = startNonce + k := by omega
      rw [column, nonce] at here
      exact here
  · intro place apart
    rw [secondFrame, firstFrame]
    · intro scoop scoopLt k kLt z
      exact apart scoop scoopLt k (by omega) z
    · intro scoop scoopLt k kLt z
      rw [Nat.add_assoc]
      exact apart scoop scoopLt (numNonces + k) (by omega) z

/-- The other columns of a filled cache are as before. -/
theorem Filled.placed {addressPayload : U8s 20} {seed : U8s 32}
    {raw : U8s 20 → U8s 32 → Nat → Nat → Scoop}
    (filled : Filled (raw addressPayload seed) cache after cacheOffset startNonce numNonces)
    (fits : cacheOffset + numNonces ≤ cache.len / nonceSize) :
    Placed raw cache after cacheOffset addressPayload seed startNonce numNonces := by
  refine ⟨filled.len, ?_, ?_⟩
  · intro scoop k scoopLt kLt
    exact filled.nonces scoop scoopLt k kLt
  · intro scoop column scoopLt columnLt apart
    apply Scoop.ext
    funext z
    apply filled.frame
    intro scoop' scoopLt' k kLt z'
    exact scoopAddress_apart columnLt (by omega) (by omega) z z'

end Filled

section Turns

variable (raw : Nat → Nat → Scoop) (hash : Nat → Bytes → Bytes)
  (cacheOffset startNonce width : Nat)

/-- The loop of a generator over blocks of lanes, with the buffer that it keeps. -/
def turns (cache : Bytes) (count : Nat) : Bytes × Bytes :=
  (List.range count).foldl
    (fun (state : Bytes × Bytes) n =>
      (unpackShuffleScatter (hash n state.2) state.1 (cacheOffset + n * width) width,
        hash n state.2))
    (cache, ⟨nonceSize * width, fun _ => 0⟩)

theorem turns_zero (cache : Bytes) :
    turns hash cacheOffset width cache 0 = (cache, ⟨nonceSize * width, fun _ => 0⟩) := rfl

theorem turns_succ (cache : Bytes) (count : Nat) :
    turns hash cacheOffset width cache (count + 1) =
      (unpackShuffleScatter (hash count (turns hash cacheOffset width cache count).2)
        (turns hash cacheOffset width cache count).1 (cacheOffset + count * width) width,
      hash count (turns hash cacheOffset width cache count).2) := by
  rw [turns, List.range_succ, List.foldl_append, List.foldl_cons, List.foldl_nil]
  rfl

/-- Whatever the buffer holds before turn `n`, the turn leaves the raw nonces of its lanes in it. -/
def Hashes (n : Nat) : Prop :=
  ∀ buffer : Bytes, buffer.len = nonceSize * width →
    (hash n buffer).len = nonceSize * width ∧
    ∀ lane < width, ∀ scoop < numScoops,
      extractScoopFromInterleaved (hash n buffer) width lane scoop =
        raw (startNonce + n * width + lane) scoop

/-- Only the columns of the lanes are written, also where they do not fit. -/
theorem turns_frame (cache : Bytes) (count : Nat) :
    (turns hash cacheOffset width cache count).1.len = cache.len ∧
    ∀ place, (∀ scoop < numScoops, ∀ k < count * width, ∀ z : Fin scoopSize,
        place ≠ scoopAddress (cache.len / nonceSize) scoop (cacheOffset + k) + z) →
      (turns hash cacheOffset width cache count).1.byte place = cache.byte place := by
  induction count with
  | zero => exact ⟨rfl, fun _ _ => rfl⟩
  | succ count ih =>
    obtain ⟨len, frame⟩ := ih
    rw [turns_succ]
    refine ⟨(unpackShuffleScatter_len _ _ _ _).trans len, ?_⟩
    intro place apart
    simp only [Nat.add_mul, Nat.one_mul] at apart
    simp only
    rw [unpackShuffleScatter_frame, frame]
    · intro scoop scoopLt k kLt z
      exact apart scoop scoopLt k (by omega) z
    · intro scoop scoopLt lane laneLt z
      rw [len, Nat.add_assoc]
      exact apart scoop scoopLt (count * width + lane) (by omega) z

theorem turns_filled (cache : Bytes) (count : Nat)
    (hashes : ∀ n < count, Hashes raw hash startNonce width n)
    (fits : cacheOffset + count * width ≤ cache.len / nonceSize) :
    Filled raw cache (turns hash cacheOffset width cache count).1 cacheOffset startNonce
        (count * width) ∧
      (turns hash cacheOffset width cache count).2.len = nonceSize * width := by
  induction count with
  | zero =>
    rw [Nat.zero_mul]
    exact ⟨Filled.nothing raw cache cacheOffset startNonce, rfl⟩
  | succ count ih =>
    rw [Nat.add_mul, Nat.one_mul] at fits ⊢
    obtain ⟨filled, sized⟩ := ih (fun n nLt => hashes n (Nat.lt_succ_of_lt nLt)) (by omega)
    obtain ⟨len, lanes⟩ := hashes count (Nat.lt_succ_self count) _ sized
    rw [turns_succ]
    refine ⟨?_, len⟩
    have room : cacheOffset + count * width + width ≤
        (turns hash cacheOffset width cache count).1.len / nonceSize := by
      rw [filled.len]
      omega
    refine filled.append ⟨unpackShuffleScatter_len _ _ _ _, ?_, ?_⟩ fits
    · intro scoop scoopLt lane laneLt
      rw [unpackShuffleScatter_lane _ _ _ _ len room lane scoop laneLt scoopLt]
      exact lanes lane laneLt scoop scoopLt
    · exact unpackShuffleScatter_frame _ _ _ _

end Turns

section Generators

variable (addressPayload : U8s 20) (seed : U8s 32)

theorem generateNonces32_turns (cache : Bytes) (cacheOffset startNonce numNonces : Nat) :
    generateNonces32 cache cacheOffset addressPayload seed startNonce numNonces =
      (turns (fun n => hashNonce addressPayload seed (startNonce + n)) cacheOffset 1 cache
        numNonces).1 := by
  simp only [generateNonces32, turns, Nat.mul_one]

theorem generateNoncesVector_turns (width : Nat) (cache : Bytes)
    (cacheOffset startNonce numNonces : Nat) :
    generateNoncesVector width cache cacheOffset addressPayload seed startNonce numNonces =
      (turns (fun n => hashNonceVector width addressPayload seed (startNonce + n * width))
        cacheOffset width cache (numNonces / width)).1 := rfl

theorem generateNoncesVector_none (width : Nat) (cache : Bytes) (cacheOffset startNonce : Nat) :
    generateNoncesVector width cache cacheOffset addressPayload seed startNonce 0 = cache := by
  rw [generateNoncesVector_turns, Nat.zero_div, turns_zero]

theorem hashNonce_hashes (startNonce n : Nat) :
    Hashes (generateAndExtractScoop32 addressPayload seed)
      (fun n => hashNonce addressPayload seed (startNonce + n)) startNonce 1 n := by
  intro buffer sized
  rw [Nat.mul_one] at sized
  have len := hashNonce_len addressPayload seed (startNonce + n) buffer sized
  refine ⟨len.trans (Nat.mul_one nonceSize).symm, ?_⟩
  intro lane laneLt scoop scoopLt
  have single : lane = 0 := Nat.lt_one_iff.mp laneLt
  have tracks : Tracks (0 : Fin 1) 0 (hashNonce addressPayload seed (startNonce + n) buffer)
      (hashNonce addressPayload seed (startNonce + n) ⟨nonceSize, fun _ => 0⟩) := by
    refine ⟨len.trans (Nat.mul_one nonceSize).symm, hashNonce_len _ _ _ _ rfl, ?_⟩
    intro z _ zLt
    have place : lanePlace (0 : Fin 1) z = z := by
      simp only [lanePlace, Nat.mul_one, Fin.val_zero, Nat.add_zero]
      omega
    rw [place]
    exact hashNonce_buffer addressPayload seed _ sized rfl z zLt
  have scoops := tracks.extract (0 : Fin 1) scoopLt
  rw [single, Nat.mul_one, Nat.add_zero, generateAndExtractScoop32]
  exact scoops

theorem hashNonceVector_hashes {width : Nat} (positive : 0 < width) (startNonce n : Nat) :
    Hashes (generateAndExtractScoop32 addressPayload seed)
      (fun n => hashNonceVector width addressPayload seed (startNonce + n * width)) startNonce width
      n := by
  intro buffer sized
  have tracks (lane : Fin width) := @Tracks.nonce width lane addressPayload seed
    (startNonce + n * width) buffer ⟨nonceSize, fun _ => 0⟩ sized rfl
  refine ⟨(tracks ⟨0, positive⟩).vectorLen, ?_⟩
  intro lane laneLt scoop scoopLt
  exact (tracks ⟨lane, laneLt⟩).extract ⟨lane, laneLt⟩ scoopLt

theorem generateNonces32_filled (cache : Bytes) (cacheOffset startNonce numNonces : Nat)
    (fits : cacheOffset + numNonces ≤ cache.len / nonceSize) :
    Filled (generateAndExtractScoop32 addressPayload seed) cache
      (generateNonces32 cache cacheOffset addressPayload seed startNonce numNonces) cacheOffset
      startNonce numNonces := by
  have filled := turns_filled _ _ cacheOffset startNonce 1 cache numNonces
    (fun n _ => hashNonce_hashes addressPayload seed startNonce n) (by omega)
  rw [Nat.mul_one] at filled
  rw [generateNonces32_turns]
  exact filled.1

theorem generateNoncesVector_filled {width : Nat} (positive : 0 < width) (cache : Bytes)
    (cacheOffset startNonce batches : Nat)
    (fits : cacheOffset + batches * width ≤ cache.len / nonceSize) :
    Filled (generateAndExtractScoop32 addressPayload seed) cache
      (generateNoncesVector width cache cacheOffset addressPayload seed startNonce (batches * width))
      cacheOffset startNonce (batches * width) := by
  rw [generateNoncesVector_turns, Nat.mul_div_cancel _ positive]
  exact (turns_filled _ _ cacheOffset startNonce width cache batches
    (fun n _ => hashNonceVector_hashes addressPayload seed positive startNonce n) fits).1

/-- What the vector code leaves in its buffer does not depend on what it found there. -/
theorem hashNonceVector_buffer {width : Nat} (positive : 0 < width) (startNonce : Nat)
    {buffer buffer' : Bytes} (len : buffer.len = nonceSize * width)
    (len' : buffer'.len = nonceSize * width) :
    (hashNonceVector width addressPayload seed startNonce buffer).len = nonceSize * width ∧
    ∀ p < nonceSize * width,
      (hashNonceVector width addressPayload seed startNonce buffer).byte p =
        (hashNonceVector width addressPayload seed startNonce buffer').byte p := by
  have tracks (lane : Fin width) (vectors : Bytes) (sized : vectors.len = nonceSize * width) :=
    @Tracks.nonce width lane addressPayload seed startNonce vectors ⟨nonceSize, fun _ => 0⟩ sized rfl
  refine ⟨(tracks ⟨0, positive⟩ buffer len).vectorLen, ?_⟩
  intro p pLt
  have laneLt : p / 4 % width < width := Nat.mod_lt _ positive
  have place : lanePlace (⟨p / 4 % width, laneLt⟩ : Fin width) (4 * (p / 4 / width) + p % 4) = p := by
    have word : (4 * (p / 4 / width) + p % 4) / 4 = p / 4 / width := by omega
    have offset : (4 * (p / 4 / width) + p % 4) % 4 = p % 4 := by omega
    rw [lanePlace, word, offset, Nat.div_add_mod' (p / 4) width]
    omega
  have inside := (lanePlace_lt (⟨p / 4 % width, laneLt⟩ : Fin width) nonceSize
    (4 * (p / 4 / width) + p % 4) (by decide)).mp (by rw [place]; exact pLt)
  have first := (tracks ⟨_, laneLt⟩ buffer len).same _ (Nat.zero_le _) inside
  have second := (tracks ⟨_, laneLt⟩ buffer' len').same _ (Nat.zero_le _) inside
  rw [place] at first second
  exact first.trans second.symm

end Generators

/-- A target with its vector code; one turn is a call of it for the nonces of all lanes. -/
def vectorPlatform (target : Target) : Platform where
  target := target
  vectorTurn := fun width cache cacheOffset addressPayload seed startNonce =>
    generateNoncesVector width cache cacheOffset addressPayload seed startNonce width

/-- The turns with a buffer of their own do what the loop with its one buffer does. -/
theorem vectorTurns_eq (target : Target) (addressPayload : U8s 20) (seed : U8s 32) {width : Nat}
    (positive : 0 < width) (cache : Bytes) (cacheOffset startNonce batches : Nat) :
    (List.range batches).foldl
        (fun cache n =>
          (vectorPlatform target).vectorTurn width cache (cacheOffset + n * width) addressPayload
            seed (startNonce + n * width))
        cache =
      generateNoncesVector width cache cacheOffset addressPayload seed startNonce
        (batches * width) := by
  rw [generateNoncesVector_turns, Nat.mul_div_cancel _ positive]
  have loop : (List.range batches).foldl
        (fun cache n =>
          (vectorPlatform target).vectorTurn width cache (cacheOffset + n * width) addressPayload
            seed (startNonce + n * width))
        cache =
      (turns (fun n => hashNonceVector width addressPayload seed (startNonce + n * width))
        cacheOffset width cache batches).1 ∧
      (turns (fun n => hashNonceVector width addressPayload seed (startNonce + n * width))
        cacheOffset width cache batches).2.len = nonceSize * width := by
    induction batches with
    | zero => exact ⟨rfl, rfl⟩
    | succ batches ih =>
      obtain ⟨caches, sized⟩ := ih
      rw [List.range_succ, List.foldl_append, caches, turns_succ, List.foldl_cons, List.foldl_nil]
      have buffers := hashNonceVector_buffer addressPayload seed positive
        (startNonce + batches * width) sized
        (rfl : (⟨nonceSize * width, fun _ => 0⟩ : Bytes).len = nonceSize * width)
      have fresh := hashNonceVector_buffer addressPayload seed positive
        (startNonce + batches * width)
        (rfl : (⟨nonceSize * width, fun _ => 0⟩ : Bytes).len = nonceSize * width) sized
      refine ⟨?_, buffers.1⟩
      have single : width / width = 1 := Nat.div_self positive
      simp only [vectorPlatform, generateNoncesVector_turns, single]
      rw [turns_succ]
      simp only [turns_zero, Nat.zero_mul, Nat.add_zero]
      apply unpackShuffleScatter_congr
      · rw [fresh.1]
        exact buffers.1.symm
      · intro z zLt
        rw [fresh.1] at zLt
        exact fresh.2 z zLt
  exact loop.1

section Dispatch

variable (target : Target) (cache : Bytes) (cacheOffset : Nat) (addressPayload : U8s 20)
  (seed : U8s 32) (startNonce numNonces : Nat)

theorem generateNonces_scalar (room : ¬ cache.len < (cacheOffset + numNonces * nonceSize) % 2 ^ 64)
    (narrow : target.simdWidth = 1) :
    generateNonces (vectorPlatform target) cache cacheOffset addressPayload seed startNonce
        numNonces =
      .ok (generateNonces32 cache cacheOffset addressPayload seed startNonce numNonces) := by
  have width : (vectorPlatform target).target.simdWidth = 1 := narrow
  simp only [generateNonces, if_neg room, width, ↓reduceIte]

theorem generateNonces_vector (room : ¬ cache.len < (cacheOffset + numNonces * nonceSize) % 2 ^ 64)
    (wide : target.simdWidth ≠ 1) :
    generateNonces (vectorPlatform target) cache cacheOffset addressPayload seed startNonce
        numNonces =
      .ok
        (if 0 < numNonces % target.simdWidth then
          generateNonces32
            (generateNoncesVector target.simdWidth cache cacheOffset addressPayload seed startNonce
              (numNonces / target.simdWidth * target.simdWidth))
            (target.remainderOffset cacheOffset
              (numNonces / target.simdWidth * target.simdWidth))
            addressPayload seed
            (startNonce + numNonces / target.simdWidth * target.simdWidth)
            (numNonces % target.simdWidth)
        else
          generateNoncesVector target.simdWidth cache cacheOffset addressPayload seed startNonce
            (numNonces / target.simdWidth * target.simdWidth)) := by
  have width : (vectorPlatform target).target.simdWidth ≠ 1 := wide
  have positive : 0 < target.simdWidth := by
    rcases simdWidth_cases target with one | four | eight | sixteen
    · exact absurd one wide
    · omega
    · omega
    · omega
  simp only [generateNonces, if_neg room, if_neg width]
  simp only [vectorTurns_eq _ _ _ positive, show (vectorPlatform target).target = target from rfl]
  split
  · rfl
  · rfl

/-- Nonces that fit pass the size test. -/
theorem sizeTest_fits (fits : cacheOffset + numNonces ≤ cache.len / nonceSize) :
    ¬ cache.len < (cacheOffset + numNonces * nonceSize) % 2 ^ 64 := by
  have whole : cache.len / nonceSize * nonceSize ≤ cache.len := Nat.div_mul_le_self _ _
  have scaled := Nat.mul_le_mul_right nonceSize fits
  have bytes : cacheOffset ≤ cacheOffset * nonceSize := Nat.le_mul_of_pos_right _ (by decide)
  have wrapped := Nat.mod_le (cacheOffset + numNonces * nonceSize) (2 ^ 64)
  rw [Nat.add_mul] at scaled
  omega

/-- The NEON code comes to a remainder after a batch. -/
def NeonRemainder : Prop := target = .aarch64 ∧ 4 ≤ numNonces ∧ numNonces % 4 ≠ 0

theorem generateNonces_filled (placed : ¬ NeonRemainder target numNonces)
    (fits : cacheOffset + numNonces ≤ cache.len / nonceSize) :
    ∃ after, generateNonces (vectorPlatform target) cache cacheOffset addressPayload seed startNonce
        numNonces = .ok after ∧
      Filled (generateAndExtractScoop32 addressPayload seed) cache after cacheOffset startNonce
        numNonces := by
  have room := sizeTest_fits cache cacheOffset numNonces fits
  by_cases narrow : target.simdWidth = 1
  · rw [generateNonces_scalar _ _ _ _ _ _ _ room narrow]
    exact ⟨_, rfl, generateNonces32_filled addressPayload seed cache cacheOffset startNonce
      numNonces fits⟩
  · have positive : 0 < target.simdWidth := by
      rcases simdWidth_cases target with one | four | eight | sixteen
      · exact absurd one narrow
      · omega
      · omega
      · omega
    have parts : numNonces / target.simdWidth * target.simdWidth + numNonces % target.simdWidth =
        numNonces := Nat.div_add_mod' numNonces target.simdWidth
    have vectored := generateNoncesVector_filled addressPayload seed positive cache cacheOffset
      startNonce (numNonces / target.simdWidth) (by omega)
    rw [generateNonces_vector _ _ _ _ _ _ _ room narrow]
    refine ⟨_, rfl, ?_⟩
    split
    · rename_i rest
      have offset : target.remainderOffset cacheOffset
          (numNonces / target.simdWidth * target.simdWidth) =
          cacheOffset + numNonces / target.simdWidth * target.simdWidth := by
        cases target with
        | x86 => rfl
        | aarch64 =>
          have few : numNonces / 4 = 0 := by
            by_contra many
            apply placed
            refine ⟨rfl, by omega, ?_⟩
            exact Nat.ne_of_gt rest
          simp only [Target.remainderOffset, Target.simdWidth, few, Nat.zero_mul]
        | other => rfl
      rw [offset]
      have tail := generateNonces32_filled addressPayload seed _
        (cacheOffset + numNonces / target.simdWidth * target.simdWidth)
        (startNonce + numNonces / target.simdWidth * target.simdWidth)
        (numNonces % target.simdWidth) (by rw [vectored.len]; omega)
      have both := vectored.append tail (by omega)
      rw [parts] at both
      exact both
    · rename_i exact'
      have whole : numNonces / target.simdWidth * target.simdWidth = numNonces := by omega
      rw [whole] at vectored ⊢
      exact vectored

/-- The remainder of the NEON code lands behind its columns: the first of them stays as it was. -/
theorem neon_skips (remainder : NeonRemainder target numNonces)
    (fits : cacheOffset + numNonces ≤ cache.len / nonceSize) :
    ∃ after, generateNonces (vectorPlatform target) cache cacheOffset addressPayload seed startNonce
        numNonces = .ok after ∧
      after.byte (scoopAddress (cache.len / nonceSize) 0 (cacheOffset + numNonces / 4 * 4)) =
        cache.byte (scoopAddress (cache.len / nonceSize) 0 (cacheOffset + numNonces / 4 * 4)) := by
  obtain ⟨rfl, four, rest⟩ := remainder
  have room := sizeTest_fits cache cacheOffset numNonces fits
  have wide : Target.aarch64.simdWidth ≠ 1 := by decide
  rw [generateNonces_vector _ _ _ _ _ _ _ room wide]
  refine ⟨_, rfl, ?_⟩
  have tail : 0 < numNonces % Target.aarch64.simdWidth := Nat.pos_of_ne_zero rest
  rw [if_pos tail, generateNonces32_turns, generateNoncesVector_turns]
  simp only [Target.simdWidth, Target.remainderOffset]
  have vectored := turns_frame
    (fun n => hashNonceVector 4 addressPayload seed (startNonce + n * 4)) cacheOffset 4 cache
    (numNonces / 4 * 4 / 4)
  rw [(turns_frame _ _ _ _ _).2, vectored.2]
  · intro scoop scoopLt k kLt z
    have columnLt : cacheOffset + numNonces / 4 * 4 < cache.len / nonceSize := by omega
    have first : ((0 : Fin scoopSize) : Nat) = 0 := rfl
    have apart : scoopAddress (cache.len / nonceSize) 0 (cacheOffset + numNonces / 4 * 4) +
        ((0 : Fin scoopSize) : Nat) ≠
          scoopAddress (cache.len / nonceSize) scoop (cacheOffset + k) + z :=
      scoopAddress_apart columnLt (by omega) (by omega) 0 z
    rw [first, Nat.add_zero] at apart
    exact apart
  · intro scoop scoopLt k kLt z
    rw [vectored.1]
    have size : nonceSize = 262144 := by decide
    have grown : numNonces / 4 * 4 * 2 ≤ numNonces / 4 * 4 * nonceSize :=
      Nat.mul_le_mul_left _ (by decide)
    have ahead : (cacheOffset + numNonces / 4 * 4) * scoopSize <
        (cacheOffset + numNonces / 4 * 4 * nonceSize + k) * scoopSize :=
      Nat.mul_lt_mul_of_pos_right (by omega) (by decide)
    simp only [scoopAddress, Nat.zero_mul, Nat.zero_add]
    omega

/-- A cache for which the column that is skipped has to change. -/
theorem neon_unfilled (len : Nat) (remainder : NeonRemainder target numNonces)
    (fits : cacheOffset + numNonces ≤ len / nonceSize) :
    ∃ cache : Bytes, cache.len = len ∧ ∃ after,
      generateNonces (vectorPlatform target) cache cacheOffset addressPayload seed startNonce
        numNonces = .ok after ∧
      ¬ Filled (generateAndExtractScoop32 addressPayload seed) cache after cacheOffset startNonce
        numNonces := by
  refine ⟨⟨len, fun _ => (generateAndExtractScoop32 addressPayload seed
    (startNonce + numNonces / 4 * 4) 0).byte 0 + 1⟩, rfl, ?_⟩
  obtain ⟨after, done, skipped⟩ := neon_skips target ⟨len, fun _ =>
    (generateAndExtractScoop32 addressPayload seed (startNonce + numNonces / 4 * 4) 0).byte 0 + 1⟩
    cacheOffset addressPayload seed startNonce numNonces remainder fits
  refine ⟨after, done, ?_⟩
  intro filled
  obtain ⟨-, four, rest⟩ := remainder
  have scoop := filled.nonces 0 (by decide) (numNonces / 4 * 4) (by omega)
  have byte := congrFun (congrArg Scoop.byte scoop) 0
  have first : ((0 : Fin scoopSize) : Nat) = 0 := rfl
  simp only [scoopAt, first, Nat.add_zero] at byte
  rw [skipped] at byte
  exact succ_ne _ byte

end Dispatch

/-- Every target leaves the cache as the scalar code does, for all contents of the cache, except
that the NEON code misplaces a remainder behind a batch. -/
theorem generateNonces_agree_iff (target : Target) (columns cacheOffset : Nat)
    (addressPayload : U8s 20) (seed : U8s 32) (startNonce numNonces : Nat)
    (fits : cacheOffset + numNonces ≤ columns) (_nonces : startNonce + numNonces < 2 ^ 64) :
    (∀ cache : Bytes, cache.len = columns * nonceSize →
      generateNonces (vectorPlatform target) cache cacheOffset addressPayload seed startNonce
          numNonces =
        .ok (generateNonces32 cache cacheOffset addressPayload seed startNonce numNonces)) ↔
      ¬ (target = .aarch64 ∧ 4 ≤ numNonces ∧ numNonces % 4 ≠ 0) := by
  have whole : columns * nonceSize / nonceSize = columns := Nat.mul_div_cancel _ (by decide)
  have room (cache : Bytes) (len : cache.len = columns * nonceSize) :
      cacheOffset + numNonces ≤ cache.len / nonceSize := by
    rw [len, whole]
    exact fits
  constructor
  · intro agrees remainder
    obtain ⟨cache, len, after, done, unfilled⟩ := neon_unfilled target cacheOffset addressPayload
      seed startNonce numNonces (columns * nonceSize) remainder (by rw [whole]; exact fits)
    apply unfilled
    have scalar := done.symm.trans (agrees cache len)
    injection scalar with same
    rw [same]
    exact generateNonces32_filled addressPayload seed cache cacheOffset startNonce numNonces
      (room cache len)
  · intro placed cache len
    obtain ⟨after, done, filled⟩ := generateNonces_filled target cache cacheOffset addressPayload
      seed startNonce numNonces placed (room cache len)
    have scalar := generateNonces32_filled addressPayload seed cache cacheOffset startNonce numNonces
      (room cache len)
    rw [done, filled.unique scalar]

/-- A batch of four in the middle of a cache. -/
theorem generateNonces_agree_batch :
    generateNonces (vectorPlatform .aarch64) ⟨6 * nonceSize, fun _ => 0⟩ 1 (fun _ => 3) (fun _ => 5)
        7 4 =
      .ok (generateNonces32 ⟨6 * nonceSize, fun _ => 0⟩ 1 (fun _ => 3) (fun _ => 5) 7 4) :=
  (generateNonces_agree_iff .aarch64 6 1 (fun _ => 3) (fun _ => 5) 7 4 (by decide)
    (by decide)).mpr (fun remainder => remainder.2.2 rfl) ⟨6 * nonceSize, fun _ => 0⟩ rfl

/-- Five nonces with NEON: the fifth is lost. -/
theorem neon_loses_remainder :
    ∃ cache : Bytes, cache.len = 5 * nonceSize ∧
      generateNonces (vectorPlatform .aarch64) cache 0 (fun _ => 3) (fun _ => 5) 7 5 ≠
        .ok (generateNonces32 cache 0 (fun _ => 3) (fun _ => 5) 7 5) := by
  have whole : 5 * nonceSize / nonceSize = 5 := Nat.mul_div_cancel _ (by decide)
  obtain ⟨cache, len, after, done, unfilled⟩ := neon_unfilled .aarch64 0 (fun _ => 3) (fun _ => 5) 7
    5 (5 * nonceSize) ⟨rfl, by decide, by decide⟩ (by rw [whole])
  refine ⟨cache, len, ?_⟩
  intro agrees
  apply unfilled
  have scalar := done.symm.trans agrees
  injection scalar with same
  rw [same]
  exact generateNonces32_filled _ _ cache 0 7 5 (by rw [len, whole])

/-- The generators that place the raw nonces: all but the NEON code. -/
def vectorGenerator (target : Target) (other : target ≠ .aarch64) :
    NonceGenerator (U8s 20) (U8s 32) where
  raw := generateAndExtractScoop32
  generateNonces := generateNonces (vectorPlatform target)
  places := by
    intro cache cacheOffset addressPayload seed startNonce numNonces fits
    obtain ⟨after, done, filled⟩ := generateNonces_filled target cache cacheOffset addressPayload
      seed startNonce numNonces (fun remainder => other remainder.1) fits
    exact ⟨after, done, filled.placed fits⟩

end Pocx.Hashlib
