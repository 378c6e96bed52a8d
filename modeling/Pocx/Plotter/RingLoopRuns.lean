import Pocx.Plotter.RingLoop

set_option autoImplicit false

namespace Pocx.RingLoop

open RingQueue (wrap slot)
open Transition (System Reachable always run)

variable {Seed : Type}

inductive Op
  | dispatch
  | compress

/-- The two loop bodies on one file. The order in which the phases, with and without
the asynchronous early exit, take them is one of the orders allowed here. -/
def stepOp (params : Params Seed) (state : State Seed) : Op → Option (State Seed)
  | .dispatch => if hasRoom params state then some (dispatch params state) else none
  | .compress =>
      if canCompress state && decide (state.warpOffset < params.warps) then
        some (compress params state)
      else none

def system (params : Params Seed) : System (State Seed) Op where
  initial := fun state => Fresh params state ∧ state.warpOffset ≤ params.warps
  step := stepOp params

/-- The invariant of a visit that has not left the file. -/
def Within (params : Params Seed) (state : State Seed) : Prop :=
  Invariant params state ∧ state.warpOffset ≤ params.warps

theorem stepOp_dispatch {params : Params Seed} {before after : State Seed}
    (taken : stepOp params before .dispatch = some after) :
    hasRoom params before = true ∧ after = dispatch params before := by
  simp only [stepOp, Option.ite_none_right_eq_some, Option.some.injEq] at taken
  exact ⟨taken.1, taken.2.symm⟩

theorem stepOp_compress {params : Params Seed} {before after : State Seed}
    (taken : stepOp params before .compress = some after) :
    canCompress before = true ∧ before.warpOffset < params.warps ∧
      after = compress params before := by
  simp only [stepOp, Option.ite_none_right_eq_some, Option.some.injEq, Bool.and_eq_true,
    decide_eq_true_eq] at taken
  exact ⟨taken.1.1, taken.1.2, taken.2.symm⟩

theorem compress_warpOffset (params : Params Seed) (state : State Seed)
    (unfinished : state.warpOffset < params.warps) :
    (compress params state).warpOffset ≤ params.warps := by
  unfold compress
  simp only
  split
  · exact unfinished
  · exact Nat.le_of_lt unfinished

theorem stepOp_within (params : Params Seed) (before : State Seed) (op : Op)
    (after : State Seed) (within : Within params before)
    (taken : stepOp params before op = some after) : Within params after := by
  obtain ⟨inv, bounded⟩ := within
  cases op with
  | dispatch =>
    obtain ⟨room, rfl⟩ := stepOp_dispatch taken
    exact ⟨dispatch_invariant params before inv room, bounded⟩
  | compress =>
    obtain ⟨enough, unfinished, rfl⟩ := stepOp_compress taken
    exact ⟨compress_invariant params before inv enough unfinished,
      compress_warpOffset params before unfinished⟩

theorem reachable_within (params : Params Seed) (positive : 0 < params.worksize)
    (state : State Seed) (reached : Reachable (system params) always state) :
    Within params state :=
  reached.invariant (Within params)
    (by
      rintro start ⟨fresh, bounded⟩
      exact ⟨fresh_invariant params start positive fresh, bounded⟩)
    (fun before op after within _ taken => stepOp_within params before op after within taken)

/-- Nonces still to be hashed and nonces still to be consumed. -/
def measure (params : Params Seed) (state : State Seed) : Nat :=
  (params.noncesForFile - state.globalNonces) + (params.noncesForFile - state.consumed params)

theorem stepOp_decreases (params : Params Seed) (positive : 0 < params.worksize)
    (before : State Seed) (op : Op) (after : State Seed) (within : Within params before)
    (taken : stepOp params before op = some after) :
    measure params after < measure params before := by
  cases op with
  | dispatch =>
    obtain ⟨room, rfl⟩ := stepOp_dispatch taken
    simp only [hasRoom, Bool.and_eq_true, decide_eq_true_eq] at room
    simp only [measure, consumed_dispatch]
    simp only [dispatch]
    omega
  | compress =>
    obtain ⟨enough, unfinished, rfl⟩ := stepOp_compress taken
    have live := batch_live params before within.1 enough unfinished
    have batch : compressBatch = 8192 := rfl
    simp only [canCompress, decide_eq_true_eq] at enough
    have hashed := within.1.hashed_le (by omega)
    simp only [measure, consumed_compress, compress_globalNonces]
    omega

/-- A ring that takes no further dispatch holds a batch: what it holds is a multiple
of the common divisor of a dispatch and a batch. -/
theorem full_ring_compresses (params : Params Seed) (state : State Seed)
    (inv : Invariant params state)
    (full : params.ringSize < state.ring.available + params.worksize) :
    canCompress state = true := by
  obtain ⟨batches, batchEq⟩ := gcd_dvd_batch params.worksize
  obtain ⟨held, heldEq⟩ := inv.aligned
  have size := ringSize_eq params
  have more : compressBatch < state.ring.available + gcd params.worksize compressBatch := by
    omega
  have steps : batches < held + 1 := by
    apply Nat.lt_of_mul_lt_mul_left (a := gcd params.worksize compressBatch)
    rw [Nat.mul_add, Nat.mul_one, ← batchEq, ← heldEq]
    exact more
  simp only [canCompress, decide_eq_true_eq]
  rw [heldEq]
  conv =>
    lhs
    rw [batchEq]
  exact Nat.mul_le_mul_left _ (by omega)

/-- An unfinished file always has work for one of the two loops. -/
theorem unfinished_progress (params : Params Seed) (state : State Seed)
    (inv : Invariant params state) (unfinished : state.warpOffset < params.warps) :
    hasRoom params state = true ∨ canCompress state = true := by
  by_cases full : params.ringSize < state.ring.available + params.worksize
  · exact Or.inr (full_ring_compresses params state inv full)
  · by_cases remaining : state.globalNonces < params.noncesForFile
    · apply Or.inl
      simp only [hasRoom, Bool.and_eq_true, decide_eq_true_eq]
      exact ⟨by omega, remaining⟩
    · -- Everything is hashed, so the ring holds what the remaining passes consume.
      apply Or.inr
      have passes : state.warpOffset * params.passesPerWarp + state.passInWarp + 1 ≤
          params.warps * params.passesPerWarp := by
        have inWarp := inv.pass_lt
        calc
          _ ≤ state.warpOffset * params.passesPerWarp + params.passesPerWarp := by omega
          _ = (state.warpOffset + 1) * params.passesPerWarp := by rw [Nat.add_mul, Nat.one_mul]
          _ ≤ _ := Nat.mul_le_mul_right _ unfinished
      have batch : state.consumed params + compressBatch ≤ params.noncesForFile := by
        calc
          _ = (state.warpOffset * params.passesPerWarp + state.passInWarp + 1) *
              compressBatch := by rw [State.consumed, Nat.add_mul _ 1, Nat.one_mul]
          _ ≤ _ := Nat.mul_le_mul_right _ passes
      have live := inv.live
      simp only [canCompress, decide_eq_true_eq]
      omega

theorem unfinished_step (params : Params Seed) (state : State Seed)
    (within : Within params state) (unfinished : ¬ state.warpOffset = params.warps) :
    ∃ op after, (system params).step state op = some after := by
  have below : state.warpOffset < params.warps := by
    have bounded := within.2
    omega
  rcases unfinished_progress params state within.1 below with room | enough
  · exact ⟨.dispatch, dispatch params state, by simp only [system, stepOp, room, ↓reduceIte]⟩
  · exact ⟨.compress, compress params state, by
      simp only [system, stepOp, enough, below, decide_true, Bool.and_self, ↓reduceIte]⟩

/-- The ring of a file never overruns its unconsumed slots and never gets stuck, and
every file is finished after a bounded number of dispatches and compress calls. -/
theorem file_loop_safe_and_live (params : Params Seed) (positive : 1 ≤ params.worksize) :
    params.ringSize = params.worksize + 8192 - Nat.gcd params.worksize 8192 ∧
    (∀ state, Reachable (system params) always state →
      state.ring.available ≤ params.ringSize ∧
      (hasRoom params state = true → ∀ gid, gid < params.worksize →
        ∀ index, index < state.ring.available →
          (state.ring.head + gid) % params.ringSize ≠ slot params.ringSize state.ring index) ∧
      (state.warpOffset < params.warps →
        (state.ring.available + params.worksize ≤ params.ringSize ∧
          state.globalNonces < params.noncesForFile) ∨ 8192 ≤ state.ring.available)) ∧
    (∀ start, Fresh params start → start.warpOffset ≤ params.warps →
      (∀ ops final, run (system params) start ops = some final →
        ops.length ≤ 2 * params.noncesForFile) ∧
      ∃ ops final, run (system params) start ops = some final ∧
        final.warpOffset = params.warps) := by
  refine ⟨?_, ?_, ?_⟩
  · rw [← gcd_eq]
    exact params.gpu.ringSize_eq
  · intro state reached
    obtain ⟨inv, _⟩ := reachable_within params positive state reached
    refine ⟨inv.fits.available_le, ?_, ?_⟩
    · intro room gid inBatch index unconsumed
      simp only [hasRoom, Bool.and_eq_true, decide_eq_true_eq] at room
      exact RingQueue.batch_apart _ _ inv.fits params.worksize room.1 gid index inBatch
        unconsumed
    · intro unfinished
      rcases unfinished_progress params state inv unfinished with room | enough
      · simp only [hasRoom, Bool.and_eq_true, decide_eq_true_eq] at room
        exact Or.inl room
      · simp only [canCompress, decide_eq_true_eq] at enough
        exact Or.inr enough
  · intro start fresh bounded
    have within : Within params start := ⟨fresh_invariant params start positive fresh, bounded⟩
    constructor
    · intro ops final complete
      have bounded := Transition.run_bounded (Within params) (measure params)
        (stepOp_within params) (stepOp_decreases params positive) ops within complete
      have small : measure params start ≤ 2 * params.noncesForFile := by
        simp only [measure]
        omega
      exact Nat.le_trans bounded small
    · exact Transition.run_reaches (Within params) (fun state => state.warpOffset = params.warps)
        (measure params) (stepOp_within params) (stepOp_decreases params positive)
        (fun state holds unfinished => unfinished_step params state holds unfinished)
        start within

/-- A worksize that shares only a factor of 8 with the batch. -/
def oddContext : GpuRingContext where
  worksize := 3000
  ringSize := 11184
  isDgpu := false
  ringSize_eq := by rw [computeRingSize, gcd_eq]; rfl

theorem file_loop_odd_worksize :
    let params : Params Unit := ⟨oddContext, (), 3, 1⟩
    params.ringSize = 11184 ∧ ∃ ops final,
      run (system params) ⟨⟨fun _ => ((), 0), 0, 0⟩, 8192, 0, 1⟩ ops = some final ∧
        final.warpOffset = 3 :=
  have result := file_loop_safe_and_live (⟨oddContext, (), 3, 1⟩ : Params Unit) (by decide)
  ⟨rfl, (result.2.2 ⟨⟨fun _ => ((), 0), 0, 0⟩, 8192, 0, 1⟩
    ⟨rfl, rfl, rfl, by decide⟩ (by decide)).2⟩

end Pocx.RingLoop
