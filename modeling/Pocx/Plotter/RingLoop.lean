import Mathlib.Algebra.Order.Group.Nat
import Pocx.Lib.RingQueue
import Pocx.Lib.Transition

set_option autoImplicit false

namespace Pocx.RingLoop

open RingQueue (Queue Fits wrap slot item)

/-- `COMPRESS_BATCH`: the nonces one helix compress cycle consumes. -/
def compressBatch : Nat := 8192

def gcd (a : Nat) : Nat → Nat
  | 0 => a
  | b + 1 => gcd (b + 1) (a % (b + 1))
termination_by b => b
decreasing_by exact Nat.mod_lt a (Nat.succ_pos b)

theorem gcd_eq (a b : Nat) : gcd a b = Nat.gcd a b := by
  induction a, b using gcd.induct with
  | case1 a => rw [gcd, Nat.gcd_zero_right]
  | case2 a b ih =>
    rw [gcd, ih, Nat.gcd_comm (b + 1), Nat.gcd_comm a, Nat.gcd_rec (b + 1) a]

def computeRingSize (worksize : Nat) : Nat :=
  worksize + compressBatch - gcd worksize compressBatch

/-- The part of the GPU context that the scheduler reads. `GpuRingContext::new`
sizes the ring for its worksize. -/
structure GpuRingContext where
  worksize : Nat
  ringSize : Nat
  isDgpu : Bool
  ringSize_eq : ringSize = computeRingSize worksize

/-- What the scheduler's main loop knows about the file it is working on. The
products are `u64`; the command line bounds `warps` by 10^6 and `compress` by 6, which
keeps them far from wrapping. -/
structure Params (Seed : Type) where
  gpu : GpuRingContext
  seed : Seed
  warps : Nat
  compress : Nat

variable {Seed : Type}

/-- `1u64 << (compress - 1)` helix passes make one warp. -/
def Params.passesPerWarp (params : Params Seed) : Nat := 1 <<< (params.compress - 1)

abbrev Params.worksize (params : Params Seed) : Nat := params.gpu.worksize

abbrev Params.ringSize (params : Params Seed) : Nat := params.gpu.ringSize

def Params.noncesForFile (params : Params Seed) : Nat :=
  params.warps * params.passesPerWarp * compressBatch

/-- The ring and the counters of the current path. A ring cell holds a nonce
hashed under a seed. -/
structure State (Seed : Type) where
  ring : Queue (Seed × Nat)
  globalNonces : Nat
  passInWarp : Nat
  warpOffset : Nat

/-- Nonces the compress calls of this file have consumed, the ones of earlier
visits to it included. -/
def State.consumed (params : Params Seed) (state : State Seed) : Nat :=
  (state.warpOffset * params.passesPerWarp + state.passInWarp) * compressBatch

/-- The condition of the fill loop. -/
def hasRoom (params : Params Seed) (state : State Seed) : Bool :=
  decide (state.ring.available + params.worksize ≤ params.ringSize) &&
    decide (state.globalNonces < params.noncesForFile)

/-- The condition of the compress loop. -/
def canCompress (state : State Seed) : Bool :=
  decide (compressBatch ≤ state.ring.available)

/-- One hash dispatch. Only `nonces_this_batch` work items write, the ring counts
`worksize` slots all the same. -/
def dispatch (params : Params Seed) (state : State Seed) : State Seed :=
  let noncesThisBatch := min params.worksize (params.noncesForFile - state.globalNonces)
  { state with
    ring := RingQueue.push params.ringSize params.worksize noncesThisBatch
      (fun gid => (params.seed, state.globalNonces + gid)) state.ring
    globalNonces := state.globalNonces + noncesThisBatch }

/-- The slots `(compress_start + k) % ring_size` that a compress call reads. -/
def compressInput (params : Params Seed) (state : State Seed) (k : Nat) : Seed × Nat :=
  let compressStart :=
    (state.ring.head + params.ringSize - state.ring.available) % params.ringSize
  state.ring.cells ((compressStart + k) % params.ringSize)

/-- One compress call and the pass and warp counters it moves. -/
def compress (params : Params Seed) (state : State Seed) : State Seed :=
  let popped := RingQueue.pop compressBatch state.ring
  if state.passInWarp + 1 = params.passesPerWarp then
    { state with ring := popped, passInWarp := 0, warpOffset := state.warpOffset + 1 }
  else { state with ring := popped, passInWarp := state.passInWarp + 1 }

theorem passesPerWarp_pos (params : Params Seed) : 0 < params.passesPerWarp := by
  rw [Params.passesPerWarp, Nat.shiftLeft_eq, Nat.one_mul]
  exact Nat.two_pow_pos _

theorem gcd_dvd_batch (worksize : Nat) : gcd worksize compressBatch ∣ compressBatch := by
  rw [gcd_eq]
  exact Nat.gcd_dvd_right _ _

theorem gcd_dvd_worksize (worksize : Nat) : gcd worksize compressBatch ∣ worksize := by
  rw [gcd_eq]
  exact Nat.gcd_dvd_left _ _

theorem gcd_le_batch (worksize : Nat) : gcd worksize compressBatch ≤ compressBatch :=
  Nat.le_of_dvd (by decide) (gcd_dvd_batch worksize)

/-- The ring takes a whole dispatch on top of less than a batch. -/
theorem ringSize_eq (params : Params Seed) :
    params.ringSize + gcd params.worksize compressBatch = params.worksize + compressBatch := by
  have small := gcd_le_batch params.worksize
  have size : params.ringSize =
      params.worksize + compressBatch - gcd params.worksize compressBatch :=
    params.gpu.ringSize_eq
  omega

theorem ringSize_pos (params : Params Seed) (positive : 0 < params.worksize) :
    0 < params.ringSize := by
  have size := ringSize_eq params
  have small := gcd_le_batch params.worksize
  omega

theorem compressInput_eq (params : Params Seed) (state : State Seed) :
    compressInput params state = item params.ringSize state.ring := rfl

/-- A compress call always consumes one batch. -/
theorem consumed_compress (params : Params Seed) (state : State Seed) :
    (compress params state).consumed params = state.consumed params + compressBatch := by
  unfold compress
  simp only
  split
  · rename_i last
    simp only [State.consumed, Nat.add_zero, ← last, Nat.add_mul, Nat.one_mul]
    omega
  · simp only [State.consumed, Nat.add_mul, Nat.one_mul]
    omega

@[simp] theorem compress_ring (params : Params Seed) (state : State Seed) :
    (compress params state).ring = RingQueue.pop compressBatch state.ring := by
  unfold compress
  simp only
  split <;> rfl

@[simp] theorem compress_globalNonces (params : Params Seed) (state : State Seed) :
    (compress params state).globalNonces = state.globalNonces := by
  unfold compress
  simp only
  split <;> rfl

@[simp] theorem consumed_dispatch (params : Params Seed) (state : State Seed) :
    (dispatch params state).consumed params = state.consumed params := rfl

/-- The ring between two operations on one file. Its first slots hold the file's
next nonces in order; the slots counted beyond them are the padding of a short
dispatch, and only the file's last dispatch is short. -/
structure Invariant (params : Params Seed) (state : State Seed) : Prop where
  fits : Fits params.ringSize state.ring
  aligned : gcd params.worksize compressBatch ∣ state.ring.available
  consumed_le : state.consumed params ≤ state.globalNonces
  hashed_le : 0 < state.ring.available → state.globalNonces ≤ params.noncesForFile
  live : state.globalNonces ≤ state.consumed params + state.ring.available
  unpadded : state.globalNonces < params.noncesForFile →
    state.consumed params + state.ring.available = state.globalNonces
  items : ∀ index, state.consumed params + index < state.globalNonces →
    item params.ringSize state.ring index = (params.seed, state.consumed params + index)
  pass_lt : state.passInWarp < params.passesPerWarp

/-- The start of a visit to a file: an empty ring and the hash counter at the
first nonce of the next warp. -/
def Fresh (params : Params Seed) (state : State Seed) : Prop :=
  state.ring.head = 0 ∧ state.ring.available = 0 ∧ state.passInWarp = 0 ∧
    state.globalNonces = state.consumed params

theorem fresh_invariant (params : Params Seed) (state : State Seed)
    (positive : 0 < params.worksize) (fresh : Fresh params state) : Invariant params state := by
  obtain ⟨head, available, pass, hashed⟩ := fresh
  refine ⟨⟨?_, ?_⟩, ?_, ?_, ?_, ?_, ?_, ?_, ?_⟩
  · rw [head]
    exact ringSize_pos params positive
  · omega
  · rw [available]
    exact Nat.dvd_zero _
  · omega
  · omega
  · omega
  · omega
  · intro index inside
    omega
  · rw [pass]
    exact passesPerWarp_pos params

/-- A dispatch appends the file's next nonces to the ring. -/
theorem dispatch_invariant (params : Params Seed) (state : State Seed)
    (inv : Invariant params state) (room : hasRoom params state = true) :
    Invariant params (dispatch params state) := by
  simp only [hasRoom, Bool.and_eq_true, decide_eq_true_eq] at room
  obtain ⟨space, remaining⟩ := room
  have exact := inv.unpadded remaining
  have short : min params.worksize (params.noncesForFile - state.globalNonces) ≤
      params.worksize := Nat.min_le_left _ _
  refine ⟨RingQueue.push_fits _ _ _ _ _ inv.fits space, ?_, ?_, ?_, ?_, ?_, ?_, inv.pass_lt⟩
  · exact (Nat.dvd_add_right inv.aligned).mpr (gcd_dvd_worksize params.worksize)
  · have below := inv.consumed_le
    simp only [consumed_dispatch]
    simp only [dispatch]
    omega
  · simp only [dispatch]
    omega
  · simp only [consumed_dispatch]
    simp only [dispatch, RingQueue.push]
    omega
  · intro more
    simp only [consumed_dispatch]
    simp only [dispatch, RingQueue.push] at more ⊢
    omega
  · intro index inside
    simp only [consumed_dispatch] at inside ⊢
    simp only [dispatch] at inside ⊢
    by_cases old : index < state.ring.available
    · rw [RingQueue.item_push_old _ _ _ _ _ inv.fits space short _ old]
      exact inv.items index (by omega)
    · have offset : state.ring.available + (index - state.ring.available) = index := by omega
      rw [← offset, RingQueue.item_push_new _ _ _ _ _ inv.fits space short _ (by omega)]
      congr 1
      omega

/-- While the file is unfinished a full batch of slots is a full batch of nonces. -/
theorem batch_live (params : Params Seed) (state : State Seed) (inv : Invariant params state)
    (enough : canCompress state = true) (unfinished : state.warpOffset < params.warps) :
    state.consumed params + compressBatch ≤ state.globalNonces := by
  simp only [canCompress, decide_eq_true_eq] at enough
  by_cases remaining : state.globalNonces < params.noncesForFile
  · have exact := inv.unpadded remaining
    omega
  · have complete : state.globalNonces = params.noncesForFile := by
      have bounded := inv.hashed_le (Nat.lt_of_lt_of_le (by decide) enough)
      omega
    have passes : state.warpOffset * params.passesPerWarp + state.passInWarp + 1 ≤
        params.warps * params.passesPerWarp := by
      have inWarp := inv.pass_lt
      calc
        _ ≤ state.warpOffset * params.passesPerWarp + params.passesPerWarp := by omega
        _ = (state.warpOffset + 1) * params.passesPerWarp := by rw [Nat.add_mul, Nat.one_mul]
        _ ≤ _ := Nat.mul_le_mul_right _ unfinished
    rw [complete]
    calc
      _ = (state.warpOffset * params.passesPerWarp + state.passInWarp + 1) * compressBatch := by
        rw [State.consumed, Nat.add_mul _ 1, Nat.one_mul]
      _ ≤ _ := Nat.mul_le_mul_right _ passes

/-- A compress call consumes exactly the file's next batch of nonces. -/
theorem compressInput_live (params : Params Seed) (state : State Seed)
    (inv : Invariant params state) (enough : canCompress state = true)
    (unfinished : state.warpOffset < params.warps) (k : Nat) (inside : k < compressBatch) :
    compressInput params state k = (params.seed, state.consumed params + k) := by
  have live := batch_live params state inv enough unfinished
  rw [compressInput_eq]
  exact inv.items k (by omega)

theorem compress_invariant (params : Params Seed) (state : State Seed)
    (inv : Invariant params state) (enough : canCompress state = true)
    (unfinished : state.warpOffset < params.warps) :
    Invariant params (compress params state) := by
  have batch := batch_live params state inv enough unfinished
  simp only [canCompress, decide_eq_true_eq] at enough
  have consumedLater := consumed_compress params state
  have room := inv.fits.available_le
  have live := inv.live
  refine ⟨?_, ?_, ?_, ?_, ?_, ?_, ?_, ?_⟩
  · rw [compress_ring]
    exact RingQueue.pop_fits _ _ _ inv.fits
  · rw [compress_ring, RingQueue.pop_available]
    exact Nat.dvd_sub inv.aligned (gcd_dvd_batch params.worksize)
  · rw [consumedLater, compress_globalNonces]
    exact batch
  · intro _
    rw [compress_globalNonces]
    exact inv.hashed_le (Nat.lt_of_lt_of_le (by decide) enough)
  · rw [consumedLater, compress_globalNonces, compress_ring]
    rw [RingQueue.pop_available]
    omega
  · intro more
    rw [compress_globalNonces] at more ⊢
    have exact := inv.unpadded more
    rw [consumedLater, compress_ring]
    rw [RingQueue.pop_available]
    omega
  · intro index inside
    rw [consumedLater, compress_globalNonces] at inside
    rw [compress_ring, consumedLater,
      RingQueue.item_pop _ _ _ inv.fits enough _ (by omega), inv.items _ (by omega),
      Nat.add_assoc]
  · have inWarp := inv.pass_lt
    unfold compress
    simp only
    split
    · exact passesPerWarp_pos params
    · simp only
      omega

end Pocx.RingLoop
