import Pocx.Hashlib.NoncegenScatter
import Pocx.Hashlib.ShabalLanes
import Pocx.Lib.ArgMin

set_option autoImplicit false

namespace Pocx.Hashlib

open ByteStore
open PlotFile (scoopSize numScoops nonceSize)
open Shabal256 (leWord)

def Scoop.bytes (scoop : Scoop) : Bytes := U8s.bytes scoop.byte

/-- The scalar loop of the quality searches over the scoops from `start` on. -/
def searchScoops (data : Bytes) (gensig : U8s 32) (start count : Nat) (best : UInt64 × Nat) :
    UInt64 × Nat :=
  (List.range count).foldl
    (fun best i =>
      let startIdx := (start + i) * scoopSize
      if startIdx + scoopSize ≤ data.len then
        let quality := shabal256Lite (scoopAt data startIdx) gensig
        if quality < best.1 then (quality, start + i) else best
      else best)
    best

/-- The search over the lanes of one batch. -/
def searchLanes (qualities : List UInt64) (startOffset : Nat) (best : UInt64 × Nat) :
    UInt64 × Nat :=
  qualities.zipIdx.foldl
    (fun best lane => if lane.1 < best.1 then (lane.1, startOffset + lane.2) else best) best

/-- `find_best_quality` with its variants: batches of all lanes, then the scoops left over. -/
def findBestQuality (platform : Platform) (data : Bytes) (numberOfNonces : Nat) (gensig : U8s 32) :
    UInt64 × Nat :=
  let width := platform.target.simdWidth
  if width = 1 then searchScoops data gensig 0 numberOfNonces (UInt64.ofNat (2 ^ 64 - 1), 0)
  else
    let best := (List.range (numberOfNonces / width)).foldl
      (fun best batch =>
        let startIdx := batch * width * scoopSize
        let endIdx := startIdx + width * scoopSize
        if endIdx ≤ data.len then
          searchLanes (shabal256LiteLanes width (window data startIdx endIdx) gensig)
            (batch * width) best
        else best)
      (UInt64.ofNat (2 ^ 64 - 1), 0)
    searchScoops data gensig (numberOfNonces / width * width) (numberOfNonces % width) best

/-- `calculate_scoop` -/
def calculateScoop (blockHeight : Nat) (gensig : U8s 32) : Nat :=
  let data (i : Nat) : UInt8 :=
    if i < 32 then gensig.get i
    else if i < 40 then beByte blockHeight (i - 32)
    else if i = 40 then 0x80
    else 0
  let hash := shabal256 ⟨0, fun _ => 0⟩ none (Vector.ofFn fun i => leWord data i)
  (hash.get 30 &&& 0x0F).toNat <<< 8 ||| (hash.get 31).toNat

/-- `calculate_quality_raw` -/
def calculateQualityRaw (platform : Platform) (addressPayload : U8s 20) (seed : U8s 32)
    (nonce compression scoop : Nat) (gensig : U8s 32) : Except HashError UInt64 :=
  if numScoops ≤ scoop then .error (.invalidInput scoop)
  else
    (generateScoop (generateNonces platform) addressPayload seed scoop nonce compression).map
      fun data => (findBestQuality platform data.bytes 1 gensig).1

/-- `calculate_quality_from_height` -/
def calculateQualityFromHeight (platform : Platform) (addressPayload : U8s 20) (seed : U8s 32)
    (nonce compression blockHeight : Nat) (gensig : U8s 32) : Except HashError UInt64 :=
  calculateQualityRaw platform addressPayload seed nonce compression
    (calculateScoop blockHeight gensig) gensig

/-- A platform whose vector paths run the scalar code. -/
def scalarPlatform (target : Target) : Platform where
  target := target
  vectorTurn width cache cacheOffset addressPayload seed startNonce :=
    generateNonces32 cache cacheOffset addressPayload seed startNonce width

theorem simdWidth_cases (target : Target) :
    target.simdWidth = 1 ∨ target.simdWidth = 4 ∨ target.simdWidth = 8 ∨ target.simdWidth = 16 := by
  cases target with
  | x86 avx512f avx2 avx sse2 =>
    simp only [Target.simdWidth]
    split
    · simp
    split
    · simp
    split
    · simp
    · simp
  | aarch64 => simp [Target.simdWidth]
  | other => simp [Target.simdWidth]

theorem hash_len (hash : U8s 32) : hash.bytes.len = hashSize := rfl

/-- Writing a hash into a nonce buffer keeps its size. -/
theorem writeHash_len (buffer : Bytes) (offset : Nat) (hash : U8s 32)
    (sized : buffer.len = nonceSize) (inside : offset + hashSize ≤ nonceSize) :
    (writeAt buffer offset hash.bytes).len = nonceSize := by
  rw [writeAt_within _ _ _ (by rw [sized, hash_len]; exact inside), sized]

theorem earlyRound_len (addressPayload : U8s 20) (seed : U8s 32) (nonce : Nat) (hash : U8s 32)
    (buffer : Bytes) (k : Nat) (sized : buffer.len = nonceSize) :
    (earlyRound addressPayload seed nonce hash buffer k).len = nonceSize := by
  apply writeHash_len _ _ _ sized
  have room : hashSize + hashSize ≤ nonceSize := by decide
  omega

theorem lateRound_len (buffer : Bytes) (k : Nat) (sized : buffer.len = nonceSize) :
    (lateRound buffer k).len = nonceSize := by
  apply writeHash_len _ _ _ sized
  have room : hashSize + hashSize ≤ nonceSize := by decide
  omega

theorem foldl_len (round : Bytes → Nat → Bytes)
    (keeps : ∀ buffer k, buffer.len = nonceSize → (round buffer k).len = nonceSize)
    (rounds : List Nat) (buffer : Bytes) (sized : buffer.len = nonceSize) :
    (rounds.foldl round buffer).len = nonceSize := by
  induction rounds generalizing buffer with
  | nil => exact sized
  | cons k rounds ih => exact ih _ (keeps buffer k sized)

theorem hashRounds_len (addressPayload : U8s 20) (seed : U8s 32) (nonce : Nat) (buffer : Bytes)
    (sized : buffer.len = nonceSize) :
    (hashRounds addressPayload seed nonce buffer).len = nonceSize := by
  have room : nonceSize - hashSize + hashSize ≤ nonceSize := by decide
  unfold hashRounds
  apply foldl_len _ lateRound_len
  apply foldl_len _ (earlyRound_len addressPayload seed nonce _)
  exact writeHash_len _ _ _ sized room

theorem xorFinal_len (buffer : Bytes) (final : U8s 32) :
    (xorFinal buffer final).len = buffer.len := rfl

theorem hashNonce_len (addressPayload : U8s 20) (seed : U8s 32) (nonce : Nat) (buffer : Bytes)
    (sized : buffer.len = nonceSize) :
    (hashNonce addressPayload seed nonce buffer).len = nonceSize := by
  rw [hashNonce, xorFinal_len, hashRounds_len _ _ _ _ sized]

theorem generateNonces32_one (cache : Bytes) (cacheOffset : Nat) (addressPayload : U8s 20)
    (seed : U8s 32) (nonce : Nat) :
    generateNonces32 cache cacheOffset addressPayload seed nonce 1 =
      unpackShuffleScatter (hashNonce addressPayload seed nonce ⟨nonceSize, fun _ => 0⟩) cache
        cacheOffset 1 := by
  simp only [generateNonces32, List.range_one, List.foldl_cons, List.foldl_nil, Nat.add_zero]

/-- One nonce in a buffer of its size: no vector path runs, and its scoops are those that
`generate_and_extract_scoop_32` extracts. -/
theorem generateNonces_single (platform : Platform) :
    PlacesSingle (generateNonces platform) generateAndExtractScoop32 := by
  intro cache addressPayload seed nonce sized
  have one : cache.len / nonceSize = 1 := by
    rw [sized]
    exact Nat.div_self (by decide)
  have required : (0 + 1 * nonceSize) % 2 ^ 64 = nonceSize := by decide
  have fits : ¬ cache.len < (0 + 1 * nonceSize) % 2 ^ 64 := by
    rw [required, sized]
    exact Nat.lt_irrefl _
  refine ⟨generateNonces32 cache 0 addressPayload seed nonce 1, ?_, ?_, ?_⟩
  · simp only [generateNonces, if_neg fits]
    split
    · rfl
    · rename_i wide
      have batches : 1 / platform.target.simdWidth = 0 ∧ 1 % platform.target.simdWidth = 1 := by
        rcases simdWidth_cases platform.target with width | width | width | width
        · exact absurd width wide
        · rw [width]
          decide
        · rw [width]
          decide
        · rw [width]
          decide
      have offset : platform.target.remainderOffset 0 0 = 0 := by
        cases platform.target with
        | x86 => rfl
        | aarch64 => simp only [Target.remainderOffset, Nat.zero_mul]
        | other => rfl
      rw [batches.1, batches.2, Nat.zero_mul, offset, if_pos Nat.one_pos]
      simp only [List.range_zero, List.foldl_nil, Nat.add_zero]
  · rw [generateNonces32_one, unpackShuffleScatter_len, sized]
  · intro scoop scoopLt
    have lane := unpackShuffleScatter_lane
      (hashNonce addressPayload seed nonce ⟨nonceSize, fun _ => 0⟩) cache 0 1
      ((hashNonce_len addressPayload seed _ _ rfl).trans (Nat.mul_one _).symm) (by rw [one]) 0 scoop
      (by decide) scoopLt
    rw [one, scoopAddress, Nat.mul_one, Nat.zero_add, Nat.zero_mul, Nat.add_zero] at lane
    rw [generateNonces32_one]
    exact lane

/-- The quality of scoop `i` of a buffer. -/
def scoopQuality (data : Bytes) (gensig : U8s 32) (i : Nat) : UInt64 :=
  shabal256Lite (scoopAt data (i * scoopSize)) gensig

theorem searchScoops_eq (data : Bytes) (gensig : U8s 32) (start count : Nat)
    (best : UInt64 × Nat) (whole : (start + count) * scoopSize ≤ data.len) :
    searchScoops data gensig start count best =
      ArgMin.search (scoopQuality data gensig) start count best := by
  induction count with
  | zero => rfl
  | succ count ih =>
    have before : (start + count) * scoopSize ≤ data.len :=
      Nat.le_trans (Nat.mul_le_mul_right _ (Nat.le_succ _)) whole
    have inside : (start + count) * scoopSize + scoopSize ≤ data.len := by
      rw [← Nat.add_assoc, Nat.add_mul _ 1, Nat.one_mul] at whole
      exact whole
    have step : searchScoops data gensig start (count + 1) best =
        if scoopQuality data gensig (start + count) <
            (searchScoops data gensig start count best).1 then
          (scoopQuality data gensig (start + count), start + count)
        else searchScoops data gensig start count best := by
      rw [searchScoops, List.range_succ, List.foldl_append]
      simp only [List.foldl_cons, List.foldl_nil, if_pos inside]
      rfl
    rw [step, ih before, ArgMin.search_succ]

theorem searchLanes_eq (value : Nat → UInt64) (startOffset width : Nat) (best : UInt64 × Nat) :
    searchLanes ((List.range width).map fun lane => value (startOffset + lane)) startOffset best =
      ArgMin.search value startOffset width best := by
  induction width with
  | zero => rfl
  | succ width ih =>
    rw [searchLanes, List.range_succ, List.map_append, List.zipIdx_append, List.foldl_append,
      ← searchLanes, ih, ArgMin.search_succ, List.length_map, List.length_range]
    simp only [List.map_singleton, List.zipIdx_singleton, List.foldl_cons, List.foldl_nil,
      Nat.zero_add]

/-- A batch of lanes is a stretch of the search. -/
theorem searchBatch_eq (data : Bytes) (gensig : U8s 32) (width batch : Nat)
    (best : UInt64 × Nat) :
    searchLanes (shabal256LiteLanes width
        (window data (batch * width * scoopSize) (batch * width * scoopSize + width * scoopSize))
        gensig) (batch * width) best =
      ArgMin.search (scoopQuality data gensig) (batch * width) width best := by
  have scoop (lane : Nat) :
      scoopAt (window data (batch * width * scoopSize)
        (batch * width * scoopSize + width * scoopSize)) (lane * scoopSize) =
      scoopAt data ((batch * width + lane) * scoopSize) := by
    apply Scoop.ext
    funext z
    simp only [scoopAt, window, Nat.add_mul, Nat.add_assoc]
  rw [shabal256LiteLanes_eq, ← searchLanes_eq]
  simp only [scoop, scoopQuality]

theorem batches_eq (data : Bytes) (gensig : U8s 32) (width batches : Nat) (best : UInt64 × Nat)
    (whole : batches * width * scoopSize ≤ data.len) :
    (List.range batches).foldl
        (fun best batch =>
          let startIdx := batch * width * scoopSize
          let endIdx := startIdx + width * scoopSize
          if endIdx ≤ data.len then
            searchLanes (shabal256LiteLanes width (window data startIdx endIdx) gensig)
              (batch * width) best
          else best)
        best =
      ArgMin.search (scoopQuality data gensig) 0 (batches * width) best := by
  induction batches with
  | zero =>
    rw [Nat.zero_mul]
    rfl
  | succ batches ih =>
    have inside : batches * width * scoopSize + width * scoopSize ≤ data.len := by
      rw [Nat.add_mul, Nat.one_mul, Nat.add_mul] at whole
      exact whole
    rw [List.range_succ, List.foldl_append, ih (by omega)]
    simp only [List.foldl_cons, List.foldl_nil, if_pos inside]
    rw [searchBatch_eq, Nat.add_mul, Nat.one_mul, ArgMin.search_add, Nat.zero_add]

/-- On every target the search looks at the scoops one by one. -/
theorem findBestQuality_eq (platform : Platform) (data : Bytes) (numberOfNonces : Nat)
    (gensig : U8s 32) (whole : numberOfNonces * scoopSize ≤ data.len) :
    findBestQuality platform data numberOfNonces gensig =
      ArgMin.search (scoopQuality data gensig) 0 numberOfNonces (UInt64.ofNat (2 ^ 64 - 1), 0) := by
  simp only [findBestQuality]
  split
  · exact searchScoops_eq data gensig 0 numberOfNonces _ (by rw [Nat.zero_add]; exact whole)
  · generalize platform.target.simdWidth = width
    have parts := Nat.div_add_mod numberOfNonces width
    rw [Nat.mul_comm] at parts
    have front : numberOfNonces / width * width * scoopSize ≤ data.len :=
      Nat.le_trans (Nat.mul_le_mul_right _ (by omega)) whole
    rw [batches_eq data gensig width _ _ front, searchScoops_eq data gensig _ _ _ (by rw [parts]; exact whole)]
    conv => rhs; rw [← parts, ArgMin.search_add, Nat.zero_add]

theorem le_maxQuality (quality : UInt64) : quality ≤ UInt64.ofNat (2 ^ 64 - 1) := by
  have top := quality.toNat_lt
  rw [UInt64.le_iff_toNat_le, UInt64.toNat_ofNat']
  omega

/-- The least quality and its first offset. -/
theorem findBestQuality_least (platform : Platform) (data : Bytes) (numberOfNonces : Nat)
    (gensig : U8s 32) (positive : 0 < numberOfNonces)
    (whole : numberOfNonces * scoopSize ≤ data.len) :
    ArgMin.Least (scoopQuality data gensig) numberOfNonces
      (findBestQuality platform data numberOfNonces gensig) := by
  rw [findBestQuality_eq platform data numberOfNonces gensig whole]
  exact ArgMin.search_least _ _ _ positive fun i _ => le_maxQuality _

theorem scoopAt_bytes (data : Scoop) : scoopAt data.bytes 0 = data := by
  apply Scoop.ext
  funext z
  simp only [scoopAt, Scoop.bytes, U8s.bytes, U8s.get, Nat.zero_add, Fin.ofNat_val_eq_self]

/-- The best of one scoop is that scoop. -/
theorem findBestQuality_single (platform : Platform) (data : Scoop) (gensig : U8s 32) :
    (findBestQuality platform data.bytes 1 gensig).1 = shabal256Lite data gensig := by
  have size : 1 * scoopSize ≤ data.bytes.len := Nat.le_of_eq (Nat.one_mul _)
  have least := findBestQuality_least platform data.bytes 1 gensig Nat.one_pos size
  have only : (findBestQuality platform data.bytes 1 gensig).2 = 0 := Nat.lt_one_iff.mp least.inside
  rw [← least.attained, only, scoopQuality, Nat.zero_mul, scoopAt_bytes]

theorem calculateScoop_lt (blockHeight : Nat) (gensig : U8s 32) :
    calculateScoop blockHeight gensig < numScoops := by
  simp only [calculateScoop]
  generalize shabal256 _ _ _ = hash
  apply Nat.or_lt_two_pow (n := 12)
  · rw [Nat.shiftLeft_eq]
    have low : (hash.get 30 &&& 0x0F).toNat ≤ 15 := by
      rw [UInt8.toNat_and]
      exact Nat.and_le_right
    omega
  · have byte := (hash.get 31).toNat_lt
    omega

/-- The quality of a proof is that of the XOR of its uncompressed scoops. -/
theorem calculateQualityFromHeight_eq (platform : Platform) (addressPayload : U8s 20)
    (seed : U8s 32) (nonce compression blockHeight : Nat) (gensig : U8s 32) :
    calculateQualityFromHeight platform addressPayload seed nonce compression blockHeight gensig =
      .ok (shabal256Lite
        (∑ i ∈ Finset.range (2 ^ compression),
          generateTerm generateAndExtractScoop32 addressPayload seed
            (calculateScoop blockHeight gensig) nonce compression i) gensig) := by
  have scoopLt := calculateScoop_lt blockHeight gensig
  rw [calculateQualityFromHeight, calculateQualityRaw, if_neg (Nat.not_le.mpr scoopLt),
    generateScoop_eq_sum _ _ _ _ (generateNonces_single platform) scoopLt]
  simp only [Except.map, findBestQuality_single]

end Pocx.Hashlib
