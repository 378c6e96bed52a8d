import Pocx.Hashlib.Quality

set_option autoImplicit false

namespace Pocx.Hashlib

open ByteStore
open PlotFile (scoopSize)

/-- The best pair that every search starts with. -/
def noQuality : UInt64 × Nat := (UInt64.ofNat (2 ^ 64 - 1), 0)

/-- `find_best_quality_32` -/
def findBestQuality32 (data : Bytes) (numberOfNonces : Nat) (gensig : U8s 32) : UInt64 × Nat :=
  searchScoops data gensig 0 numberOfNonces noQuality

/-- The batches of a vector search. A batch that is not wholly inside the data is skipped. -/
def searchBatches (width : Nat) (data : Bytes) (batches : Nat) (gensig : U8s 32) : UInt64 × Nat :=
  (List.range batches).foldl
    (fun best batch =>
      let startIdx := batch * width * scoopSize
      let endIdx := startIdx + width * scoopSize
      if endIdx ≤ data.len then
        searchLanes (shabal256LiteLanes width (window data startIdx endIdx) gensig)
          (batch * width) best
      else best)
    noQuality

/-- The vector searches, of `width` lanes. -/
def findBestQualityVector (width : Nat) (data : Bytes) (numberOfNonces : Nat) (gensig : U8s 32) :
    UInt64 × Nat :=
  searchScoops data gensig (numberOfNonces / width * width) (numberOfNonces % width)
    (searchBatches width data (numberOfNonces / width) gensig)

/-- `find_best_quality_128` -/
def findBestQuality128 : Bytes → Nat → U8s 32 → UInt64 × Nat := findBestQualityVector 4

/-- `find_best_quality_256` -/
def findBestQuality256 : Bytes → Nat → U8s 32 → UInt64 × Nat := findBestQualityVector 8

/-- `find_best_quality_512` -/
def findBestQuality512 : Bytes → Nat → U8s 32 → UInt64 × Nat := findBestQualityVector 16

/-- `find_best_quality_neon` -/
def findBestQualityNeon : Bytes → Nat → U8s 32 → UInt64 × Nat := findBestQualityVector 4

theorem findBestQuality_dispatch (platform : Platform) :
    findBestQuality platform =
      if platform.target.simdWidth = 1 then findBestQuality32
      else findBestQualityVector platform.target.simdWidth := by
  funext data numberOfNonces gensig
  simp only [findBestQuality]
  split
  · rfl
  · rfl

/-- The scoops that lie wholly inside the data. -/
def scoopsInside (data : Bytes) (numberOfNonces : Nat) : Nat :=
  min numberOfNonces (data.len / scoopSize)

/-- The scoops in front of the batch that the data ends in, or all of them. -/
def scoopsScanned (width : Nat) (data : Bytes) (numberOfNonces : Nat) : Nat :=
  if data.len / scoopSize < numberOfNonces / width * width then
    data.len / scoopSize / width * width
  else scoopsInside data numberOfNonces

/-- The least quality of the scoops inside the data, and its first offset. -/
def Best (data : Bytes) (numberOfNonces : Nat) (gensig : U8s 32) (best : UInt64 × Nat) : Prop :=
  if scoopsInside data numberOfNonces = 0 then best = noQuality
  else ArgMin.Least (scoopQuality data gensig) (scoopsInside data numberOfNonces) best

/-- No scoop of a batch that the data cuts short is better than all scoops in front of it. -/
def CutIdle (width : Nat) (data : Bytes) (numberOfNonces : Nat) (gensig : U8s 32) : Prop :=
  ∀ i, scoopsScanned width data numberOfNonces ≤ i → i < scoopsInside data numberOfNonces →
    scoopQuality data gensig i = noQuality.1 ∨
      ∃ j < scoopsScanned width data numberOfNonces,
        scoopQuality data gensig j ≤ scoopQuality data gensig i

theorem scoop_inside_iff (data : Bytes) (i : Nat) :
    i * scoopSize + scoopSize ≤ data.len ↔ i < data.len / scoopSize := by
  have one : i * scoopSize + scoopSize = (i + 1) * scoopSize := by
    rw [Nat.add_mul, Nat.one_mul]
  rw [one, ← Nat.le_div_iff_mul_le (by decide)]
  exact Nat.succ_le_iff

theorem searchScoops_succ (data : Bytes) (gensig : U8s 32) (start count : Nat)
    (best : UInt64 × Nat) :
    searchScoops data gensig start (count + 1) best =
      let before := searchScoops data gensig start count best
      if (start + count) * scoopSize + scoopSize ≤ data.len then
        if scoopQuality data gensig (start + count) < before.1 then
          (scoopQuality data gensig (start + count), start + count)
        else before
      else before := by
  rw [searchScoops, List.range_succ, List.foldl_append]
  rfl

/-- The scalar loop looks just at the scoops inside the data. -/
theorem searchScoops_inside (data : Bytes) (gensig : U8s 32) (start count : Nat)
    (best : UInt64 × Nat) :
    searchScoops data gensig start count best =
      ArgMin.search (scoopQuality data gensig) start
        (min (start + count) (data.len / scoopSize) - start) best := by
  induction count with
  | zero =>
    have none : min (start + 0) (data.len / scoopSize) - start = 0 := by omega
    rw [none]
    rfl
  | succ count ih =>
    rw [searchScoops_succ, ih]
    simp only [scoop_inside_iff]
    by_cases inside : start + count < data.len / scoopSize
    · have before : min (start + count) (data.len / scoopSize) - start = count := by omega
      have after : min (start + (count + 1)) (data.len / scoopSize) - start = count + 1 := by omega
      rw [before, after, ArgMin.search_succ, if_pos inside]
    · have same : min (start + (count + 1)) (data.len / scoopSize) - start =
        min (start + count) (data.len / scoopSize) - start := by omega
      rw [same, if_neg inside]

/-- The batches in front of the one that the data ends in are a stretch of the search. -/
theorem searchBatches_eq (width : Nat) (positive : 0 < width) (data : Bytes) (batches : Nat)
    (gensig : U8s 32) :
    searchBatches width data batches gensig =
      ArgMin.search (scoopQuality data gensig) 0
        (min batches (data.len / scoopSize / width) * width) noQuality := by
  have batch_inside (batch : Nat) :
      batch * width * scoopSize + width * scoopSize ≤ data.len ↔
        batch < data.len / scoopSize / width := by
    have whole : batch * width * scoopSize + width * scoopSize = (batch + 1) * width * scoopSize := by
      rw [Nat.add_mul batch, Nat.one_mul, Nat.add_mul]
    rw [whole, ← Nat.le_div_iff_mul_le (by decide), ← Nat.le_div_iff_mul_le positive]
    exact Nat.succ_le_iff
  induction batches with
  | zero =>
    rw [Nat.zero_min, Nat.zero_mul]
    rfl
  | succ batches ih =>
    rw [searchBatches, List.range_succ, List.foldl_append, ← searchBatches, ih]
    simp only [List.foldl_cons, List.foldl_nil, batch_inside]
    by_cases inside : batches < data.len / scoopSize / width
    · have before : min batches (data.len / scoopSize / width) = batches := by omega
      have after : min (batches + 1) (data.len / scoopSize / width) = batches + 1 := by omega
      rw [if_pos inside, before, after, searchBatch_eq, Nat.add_mul, Nat.one_mul, ArgMin.search_add,
        Nat.zero_add]
    · have same : min (batches + 1) (data.len / scoopSize / width) =
        min batches (data.len / scoopSize / width) := by omega
      rw [if_neg inside, same]

theorem findBestQuality32_eq (data : Bytes) (numberOfNonces : Nat) (gensig : U8s 32) :
    findBestQuality32 data numberOfNonces gensig =
      ArgMin.search (scoopQuality data gensig) 0 (scoopsInside data numberOfNonces) noQuality := by
  rw [findBestQuality32, searchScoops_inside, Nat.zero_add, Nat.sub_zero, scoopsInside]

theorem findBestQualityVector_eq (width : Nat) (positive : 0 < width) (data : Bytes)
    (numberOfNonces : Nat) (gensig : U8s 32) :
    findBestQualityVector width data numberOfNonces gensig =
      ArgMin.search (scoopQuality data gensig) 0 (scoopsScanned width data numberOfNonces)
        noQuality := by
  have parts := Nat.div_add_mod numberOfNonces width
  rw [Nat.mul_comm] at parts
  rw [findBestQualityVector, searchBatches_eq width positive, searchScoops_inside, parts,
    scoopsScanned]
  by_cases cut : data.len / scoopSize < numberOfNonces / width * width
  · have batches : data.len / scoopSize / width < numberOfNonces / width := by
      rw [Nat.div_lt_iff_lt_mul positive]
      exact cut
    have none : min numberOfNonces (data.len / scoopSize) - numberOfNonces / width * width = 0 := by
      omega
    rw [if_pos cut, Nat.min_eq_right (Nat.le_of_lt batches), none, ArgMin.search_zero]
  · have batches : numberOfNonces / width ≤ data.len / scoopSize / width := by
      rw [Nat.le_div_iff_mul_le positive]
      exact Nat.le_of_not_lt cut
    have all : numberOfNonces / width * width +
        (min numberOfNonces (data.len / scoopSize) - numberOfNonces / width * width) =
      scoopsInside data numberOfNonces := by
      rw [scoopsInside]
      omega
    rw [if_neg cut, Nat.min_eq_left batches]
    conv => rhs; rw [← all, ArgMin.search_add, Nat.zero_add]

theorem scoopsScanned_le (width : Nat) (data : Bytes) (numberOfNonces : Nat) :
    scoopsScanned width data numberOfNonces ≤ scoopsInside data numberOfNonces := by
  have parts := Nat.div_mul_le_self numberOfNonces width
  have batches := Nat.div_mul_le_self (data.len / scoopSize) width
  rw [scoopsScanned, scoopsInside]
  split
  · omega
  · exact Nat.le_refl _

/-- Every search finds the least quality, and its first offset. -/
theorem findBestQuality32_best (data : Bytes) (numberOfNonces : Nat) (gensig : U8s 32) :
    Best data numberOfNonces gensig (findBestQuality32 data numberOfNonces gensig) := by
  rw [findBestQuality32_eq, Best]
  split
  · rename_i none
    rw [none, ArgMin.search_zero]
  · rename_i some
    exact ArgMin.search_least _ _ _ (Nat.pos_of_ne_zero some) fun i _ => le_maxQuality _

/-- Where the search over the scanned scoops stands against another scoop. -/
theorem scanned_le_iff (data : Bytes) (gensig : U8s 32) (scanned i : Nat) :
    (ArgMin.search (scoopQuality data gensig) 0 scanned noQuality).1 ≤ scoopQuality data gensig i ↔
      scoopQuality data gensig i = noQuality.1 ∨
        ∃ j < scanned, scoopQuality data gensig j ≤ scoopQuality data gensig i := by
  constructor
  · intro below
    have reached : (ArgMin.search (scoopQuality data gensig) 0 scanned noQuality = noQuality ∧
          ∀ j < scanned, noQuality.1 ≤ scoopQuality data gensig j) ∨
        ArgMin.Least (scoopQuality data gensig) scanned
          (ArgMin.search (scoopQuality data gensig) 0 scanned noQuality) :=
      ArgMin.search_bound _ scanned _
    rcases reached with ⟨unchanged, -⟩ | found
    · rw [unchanged] at below
      exact Or.inl (UInt64.le_antisymm (le_maxQuality _) below)
    · rw [← found.attained] at below
      exact Or.inr ⟨_, found.inside, below⟩
  · have bounds := ArgMin.search_le (scoopQuality data gensig) 0 scanned noQuality
    rintro (top | ⟨j, inside, below⟩)
    · rw [top]
      exact bounds.1
    · have least := bounds.2 j inside
      rw [Nat.zero_add] at least
      exact UInt64.le_trans least below

/-- A vector search finds what the scalar one finds just where no batch is cut to its harm. -/
theorem findBestQualityVector_iff (width : Nat) (positive : 0 < width) (data : Bytes)
    (numberOfNonces : Nat) (gensig : U8s 32) :
    findBestQualityVector width data numberOfNonces gensig =
        findBestQuality32 data numberOfNonces gensig ↔
      CutIdle width data numberOfNonces gensig := by
  have parts := Nat.add_sub_of_le (scoopsScanned_le width data numberOfNonces)
  rw [findBestQualityVector_eq width positive, findBestQuality32_eq, ← parts, ArgMin.search_add,
    Nat.zero_add, eq_comm, ArgMin.search_stays]
  simp only [scanned_le_iff]
  constructor
  · intro above i lower upper
    obtain ⟨k, rfl⟩ := Nat.exists_eq_add_of_le lower
    exact above k (by omega)
  · intro idle k inside
    exact idle _ (Nat.le_add_right _ _) (by omega)

/-- What all searches have to find in the same data. -/
structure SearchesAgree (data : Bytes) (numberOfNonces : Nat) (gensig : U8s 32) : Prop where
  best : Best data numberOfNonces gensig (findBestQuality32 data numberOfNonces gensig)
  sse : findBestQuality128 data numberOfNonces gensig = findBestQuality32 data numberOfNonces gensig
  avx2 : findBestQuality256 data numberOfNonces gensig = findBestQuality32 data numberOfNonces gensig
  avx512 : findBestQuality512 data numberOfNonces gensig =
    findBestQuality32 data numberOfNonces gensig
  neon : findBestQualityNeon data numberOfNonces gensig = findBestQuality32 data numberOfNonces gensig

theorem searches_agree_iff (data : Bytes) (numberOfNonces : Nat) (gensig : U8s 32) :
    SearchesAgree data numberOfNonces gensig ↔
      CutIdle 4 data numberOfNonces gensig ∧ CutIdle 8 data numberOfNonces gensig ∧
        CutIdle 16 data numberOfNonces gensig := by
  have four := findBestQualityVector_iff 4 (by decide) data numberOfNonces gensig
  have eight := findBestQualityVector_iff 8 (by decide) data numberOfNonces gensig
  have sixteen := findBestQualityVector_iff 16 (by decide) data numberOfNonces gensig
  constructor
  · intro agree
    exact ⟨four.mp agree.sse, eight.mp agree.avx2, sixteen.mp agree.avx512⟩
  · rintro ⟨idle4, idle8, idle16⟩
    exact ⟨findBestQuality32_best data numberOfNonces gensig, four.mpr idle4, eight.mpr idle8,
      sixteen.mpr idle16, four.mpr idle4⟩

/-- Where the data holds all scoops that it is searched for, no batch is cut. -/
theorem cutIdle_of_whole (width : Nat) (data : Bytes) (numberOfNonces : Nat) (gensig : U8s 32)
    (whole : numberOfNonces * scoopSize ≤ data.len) : CutIdle width data numberOfNonces gensig := by
  intro i lower upper
  have room : numberOfNonces ≤ data.len / scoopSize := by
    rw [Nat.le_div_iff_mul_le (by decide)]
    exact whole
  have parts := Nat.div_mul_le_self numberOfNonces width
  rw [scoopsScanned, if_neg (by omega)] at lower
  omega

/-- One scoop of zeros, searched as the first of four. -/
theorem cut_batch_skipped :
    findBestQuality32 ⟨64, fun _ => 0⟩ 4 (fun _ => 0) = (0x9824d76d62cd4f2f, 0) ∧
      findBestQuality128 ⟨64, fun _ => 0⟩ 4 (fun _ => 0) = noQuality ∧
      ¬ SearchesAgree ⟨64, fun _ => 0⟩ 4 fun _ => 0 := by
  have quality : shabal256Lite (scoopAt ⟨64, fun _ => 0⟩ (0 * scoopSize)) (fun _ => 0) =
      0x9824d76d62cd4f2f := by
    decide +kernel
  have scalar : findBestQuality32 ⟨64, fun _ => 0⟩ 4 (fun _ => 0) = (0x9824d76d62cd4f2f, 0) := by
    have one : scoopsInside ⟨64, fun _ => 0⟩ 4 = 0 + 1 := rfl
    have smaller : (0x9824d76d62cd4f2f : UInt64) < noQuality.1 := by decide
    rw [findBestQuality32_eq, one, ArgMin.search_succ, ArgMin.search_zero, Nat.zero_add,
      scoopQuality, quality]
    exact if_pos smaller
  have vector : findBestQuality128 ⟨64, fun _ => 0⟩ 4 (fun _ => 0) = noQuality := by
    have none : scoopsScanned 4 ⟨64, fun _ => 0⟩ 4 = 0 := rfl
    rw [findBestQuality128, findBestQualityVector_eq 4 (by decide), none, ArgMin.search_zero]
  refine ⟨scalar, vector, ?_⟩
  intro agree
  have same := agree.sse
  rw [scalar, vector] at same
  exact absurd (congrArg Prod.fst same) (by decide)

end Pocx.Hashlib
