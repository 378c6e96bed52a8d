import Pocx.Plotter.RingLoopRuns
import Pocx.Plotter.RingScheduler

set_option autoImplicit false

namespace Pocx.RingScheduler

open Pocx.Plotter
open RingLoop (GpuRingContext Params compressBatch compressInput)
open RingQueue (Queue)
open Transition (System Reachable always run)

variable {Payload Seed : Type}

/-- The call consumes, in order, the nonces of its pass hashed under its file's seed. -/
def Right (task : PlotterTask Payload Seed) (call : Call Seed) : Prop :=
  call.pass < task.passesPerWarp ∧ ∀ k, k < compressBatch →
    call.input k =
      (call.seed, (call.warp * task.passesPerWarp + call.pass) * compressBatch + k)

/-- The nonce counter of a path stands at the first nonce of its next warp. -/
def AtNextWarp (task : PlotterTask Payload Seed) (entry : PathState Seed) : Prop :=
  entry.globalNonces = entry.warpOffset * task.passesPerWarp * compressBatch

/-- The ring and the counters are those of a visit to the file, from a fresh start. -/
def Visited (task : PlotterTask Payload Seed) (gpu : GpuRingContext) (path : Nat) (seed : Seed)
    (state : RingLoop.State Seed) : Prop :=
  Reachable (RingLoop.system (fileParams task gpu path seed)) always state

/-- The file of the path and the ring agree. -/
structure Active (task : PlotterTask Payload Seed) (gpu : GpuRingContext) (path : Nat)
    (entry : PathState Seed) (gpuSeed : Seed) (ring : Queue (Seed × Nat)) (pass : Nat) :
    Prop where
  seed_eq : gpuSeed = entry.seed
  ring_ok : RingLoop.Invariant (fileParams task gpu path gpuSeed) (view entry ring pass)
  unfinished : 0 < ring.available → entry.warpOffset < task.warps path
  visit : entry.warpOffset ≤ task.warps path →
    Visited task gpu path gpuSeed (view entry ring pass)

/-- The last pass of the warp at `warpOffset` is consumed. -/
structure Passed (task : PlotterTask Payload Seed) (gpu : GpuRingContext) (path : Nat)
    (entry : PathState Seed) (gpuSeed : Seed) (ring : Queue (Seed × Nat)) (pass : Nat) :
    Prop where
  seed_eq : gpuSeed = entry.seed
  pass_eq : pass = 0
  ring_ok : RingLoop.Invariant (fileParams task gpu path gpuSeed)
    (view { entry with warpOffset := entry.warpOffset + 1 } ring 0)
  unfinished : entry.warpOffset < task.warps path
  visit : Visited task gpu path gpuSeed
    (view { entry with warpOffset := entry.warpOffset + 1 } ring 0)
  room : ring.available + compressBatch ≤ gpu.ringSize

/-- What each phase knows of the current path. -/
def PhaseSound (task : PlotterTask Payload Seed) (gpu : GpuRingContext) (state : State Seed) :
    Prop :=
  let active := Active task gpu state.pathPointer (state.paths state.pathPointer) state.gpuSeed
    state.ring state.passInWarp
  let passed := Passed task gpu state.pathPointer (state.paths state.pathPointer) state.gpuSeed
    state.ring state.passInWarp
  match state.phase with
  | .top => allComplete task state.paths = true ∨ active
  | .fill => active
  | .compress => active
  | .transfer => passed
  | .done => True

/-- The paths other than the current one wait at their next warp. -/
structure Sound (task : PlotterTask Payload Seed) (gpu : GpuRingContext) (state : State Seed) :
    Prop where
  pointer_lt : state.pathPointer < task.outputPaths
  parked : ∀ path, path < task.outputPaths → path ≠ state.pathPointer →
    AtNextWarp task (state.paths path)
  calls_right : ∀ call, call ∈ state.calls → Right task call
  phase_sound : PhaseSound task gpu state

/-- A path switch in the middle of a file gives back no padded slot: what is left in
the ring are nonces of the file's remaining warps. -/
def rollsBackExactly (task : PlotterTask Payload Seed) (state : State Seed)
    (_ : Supply Seed) : Prop :=
  state.phase = .transfer → state.warpsInBuffer + 1 = task.escalate →
    (state.paths state.pathPointer).warpOffset + 1 < task.warps state.pathPointer →
    switchPath task state.paths state.pathPointer ≠ some state.pathPointer →
    state.ring.available ≤
      (task.warps state.pathPointer - ((state.paths state.pathPointer).warpOffset + 1)) *
        task.passesPerWarp * compressBatch

theorem switchPath_congr (task : PlotterTask Payload Seed) {old fresh : Nat → PathState Seed}
    (oldPath : Nat) (same : ∀ path, (fresh path).filesDone = (old path).filesDone) :
    switchPath task fresh oldPath = switchPath task old oldPath := by
  have unfinishedSame : unfinished task fresh = unfinished task old := by
    funext path
    simp only [unfinished, same path]
  simp only [switchPath, nextActive, unfinishedSame]

theorem start_active (task : PlotterTask Payload Seed) (gpu : GpuRingContext) (path : Nat)
    (entry : PathState Seed) (ring : Queue (Seed × Nat)) (positive : 0 < gpu.worksize)
    (parked : AtNextWarp task entry) (head : ring.head = 0) (available : ring.available = 0) :
    Active task gpu path entry entry.seed ring 0 := by
  have fresh : RingLoop.Fresh (fileParams task gpu path entry.seed) (view entry ring 0) :=
    ⟨head, available, rfl, parked⟩
  refine ⟨rfl, RingLoop.fresh_invariant _ _ positive fresh, ?_, fun inside => .start ⟨fresh, inside⟩⟩
  omega

theorem start_sound (task : PlotterTask Payload Seed) (gpu : GpuRingContext)
    (resumes : Nat → Nat) (drawn redrawn : Nat → Seed) (cells : Nat → Seed × Nat)
    (positive : 0 < gpu.worksize) (resumable : Resumable task resumes) :
    Sound task gpu (start task resumes drawn redrawn cells) := by
  have inside := startPointer_lt task (startPath task resumes drawn redrawn)
  have parked : ∀ path, path < task.outputPaths →
      AtNextWarp task (startPath task resumes drawn redrawn path) :=
    startPath_counter task resumes drawn redrawn resumable
  have uploaded : (start task resumes drawn redrawn cells).gpuSeed =
      (startPath task resumes drawn redrawn
        (startPointer task (startPath task resumes drawn redrawn))).seed := by
    simp only [start]
    split
    · rfl
    · rename_i kept
      simp only [Bool.or_eq_true, Bool.and_eq_true, decide_eq_true_eq, not_or, not_and,
        Decidable.not_not] at kept
      rw [kept.2, startPath]
      split
      · rename_i full
        simp only [kept.1 full, ↓reduceIte]
      · rfl
  refine ⟨inside, fun path pathLt _ => parked path pathLt, ?_, Or.inr ?_⟩
  · intro call listed
    cases listed
  · rw [uploaded]
    exact start_active task gpu _ _ _ positive (parked _ inside) rfl rfl

theorem Visited.dispatch {task : PlotterTask Payload Seed} {gpu : GpuRingContext} {path : Nat}
    {seed : Seed} {state : RingLoop.State Seed} (visited : Visited task gpu path seed state)
    (room : RingLoop.hasRoom (fileParams task gpu path seed) state = true) :
    Visited task gpu path seed (RingLoop.dispatch (fileParams task gpu path seed) state) := by
  have taken : (RingLoop.system (fileParams task gpu path seed)).step state .dispatch =
      some (RingLoop.dispatch (fileParams task gpu path seed) state) := if_pos room
  exact visited.next trivial taken

theorem Visited.compress {task : PlotterTask Payload Seed} {gpu : GpuRingContext} {path : Nat}
    {seed : Seed} {state : RingLoop.State Seed} (visited : Visited task gpu path seed state)
    (enough : RingLoop.canCompress state = true) (unfinished : state.warpOffset < task.warps path) :
    Visited task gpu path seed (RingLoop.compress (fileParams task gpu path seed) state) := by
  have inFile : state.warpOffset < (fileParams task gpu path seed).warps := unfinished
  have taken : (RingLoop.system (fileParams task gpu path seed)).step state .compress =
      some (RingLoop.compress (fileParams task gpu path seed) state) := by
    simp only [RingLoop.system, RingLoop.stepOp, enough, inFile, decide_true, Bool.and_self,
      ↓reduceIte]
  exact visited.next trivial taken

/-- A file that still has nonces to hash has a warp to compress. -/
theorem hasRoom_unfinished (task : PlotterTask Payload Seed) (gpu : GpuRingContext)
    (path : Nat) (entry : PathState Seed) (gpuSeed : Seed) (ring : Queue (Seed × Nat))
    (pass : Nat) (active : Active task gpu path entry gpuSeed ring pass)
    (room : RingLoop.hasRoom (fileParams task gpu path gpuSeed) (view entry ring pass) = true) :
    entry.warpOffset < task.warps path := by
  simp only [RingLoop.hasRoom, Bool.and_eq_true, decide_eq_true_eq] at room
  have nonces := Nat.lt_of_le_of_lt active.ring_ok.consumed_le room.2
  have passes : entry.warpOffset * task.passesPerWarp + pass <
      task.warps path * task.passesPerWarp := Nat.lt_of_mul_lt_mul_right nonces
  exact Nat.lt_of_mul_lt_mul_right (Nat.lt_of_le_of_lt (Nat.le_add_right _ _) passes)

theorem fill_sound (task : PlotterTask Payload Seed) (gpu : GpuRingContext)
    (state : State Seed) (sound : Sound task gpu state) (phase : state.phase = .fill)
    (room : RingLoop.hasRoom (fileParams task gpu state.pathPointer state.gpuSeed)
      (view (state.paths state.pathPointer) state.ring state.passInWarp) = true) :
    Sound task gpu (fill task gpu state) := by
  have active := sound.phase_sound
  simp only [PhaseSound, phase] at active
  refine ⟨sound.pointer_lt, ?_, sound.calls_right, ?_⟩
  · intro path inside apart
    change path ≠ state.pathPointer at apart
    change AtNextWarp task (setPath state.paths state.pathPointer _ path)
    rw [setPath_other _ _ _ _ apart]
    exact sound.parked path inside apart
  · simp only [PhaseSound, fill, phase, setPath_same]
    refine ⟨active.seed_eq, RingLoop.dispatch_invariant _ _ active.ring_ok room, ?_, ?_⟩
    · intro _
      exact hasRoom_unfinished task gpu _ (state.paths state.pathPointer) _ _ _ active room
    · intro inside
      exact (active.visit inside).dispatch room

/-- A compress call of an unfinished file goes on with the visit. -/
theorem Active.compressed {task : PlotterTask Payload Seed} {gpu : GpuRingContext} {path : Nat}
    {entry : PathState Seed} {gpuSeed : Seed} {ring : Queue (Seed × Nat)} {pass : Nat}
    (active : Active task gpu path entry gpuSeed ring pass)
    (enough : compressBatch ≤ ring.available) :
    RingLoop.Invariant (fileParams task gpu path gpuSeed)
        (RingLoop.compress (fileParams task gpu path gpuSeed) (view entry ring pass)) ∧
      Visited task gpu path gpuSeed
        (RingLoop.compress (fileParams task gpu path gpuSeed) (view entry ring pass)) := by
  have unfinished := active.unfinished (Nat.lt_of_lt_of_le (by decide) enough)
  exact ⟨RingLoop.compress_invariant _ _ active.ring_ok (decide_eq_true enough) unfinished,
    (active.visit (Nat.le_of_lt unfinished)).compress (decide_eq_true enough) unfinished⟩

theorem nextCall_right (task : PlotterTask Payload Seed) (gpu : GpuRingContext)
    (state : State Seed)
    (active : Active task gpu state.pathPointer (state.paths state.pathPointer) state.gpuSeed
      state.ring state.passInWarp)
    (enough : compressBatch ≤ state.ring.available) :
    Right task (nextCall task gpu state) := by
  have unfinished := active.unfinished (Nat.lt_of_lt_of_le (by decide) enough)
  refine ⟨active.ring_ok.pass_lt, ?_⟩
  intro k inside
  simp only [nextCall]
  rw [← active.seed_eq]
  exact RingLoop.compressInput_live _ _ active.ring_ok (decide_eq_true enough) unfinished k inside

/-- At the end of a warp the ring's compress has counted the warp, the scheduler
counts it with the transfer. -/
theorem compress_passed (task : PlotterTask Payload Seed) (gpu : GpuRingContext) (path : Nat)
    (entry : PathState Seed) (gpuSeed : Seed) (ring : Queue (Seed × Nat)) (pass : Nat)
    (active : Active task gpu path entry gpuSeed ring pass)
    (enough : compressBatch ≤ ring.available) (last : pass + 1 = task.passesPerWarp) :
    Passed task gpu path entry gpuSeed (RingQueue.pop compressBatch ring) 0 := by
  have unfinished := active.unfinished (Nat.lt_of_lt_of_le (by decide) enough)
  have later := active.compressed enough
  rw [RingLoop.compress, if_pos (show (view entry ring pass).passInWarp + 1 =
    (fileParams task gpu path gpuSeed).passesPerWarp from last)] at later
  refine ⟨active.seed_eq, rfl, later.1, unfinished, later.2, ?_⟩
  rw [RingQueue.pop_available, Nat.sub_add_cancel enough]
  exact active.ring_ok.fits.available_le

theorem compress_active (task : PlotterTask Payload Seed) (gpu : GpuRingContext) (path : Nat)
    (entry : PathState Seed) (gpuSeed : Seed) (ring : Queue (Seed × Nat)) (pass : Nat)
    (active : Active task gpu path entry gpuSeed ring pass)
    (enough : compressBatch ≤ ring.available) (more : ¬ pass + 1 = task.passesPerWarp) :
    Active task gpu path entry gpuSeed (RingQueue.pop compressBatch ring) (pass + 1) := by
  have unfinished := active.unfinished (Nat.lt_of_lt_of_le (by decide) enough)
  have later := active.compressed enough
  rw [RingLoop.compress, if_neg (show ¬ (view entry ring pass).passInWarp + 1 =
    (fileParams task gpu path gpuSeed).passesPerWarp from more)] at later
  exact ⟨active.seed_eq, later.1, fun _ => unfinished, fun _ => later.2⟩

theorem compress_sound (task : PlotterTask Payload Seed) (gpu : GpuRingContext)
    (state : State Seed) (sound : Sound task gpu state) (phase : state.phase = .compress)
    (enough : compressBatch ≤ state.ring.available) :
    Sound task gpu (compress task gpu state) := by
  have active := sound.phase_sound
  simp only [PhaseSound, phase] at active
  have calls : ∀ call, call ∈ state.calls ++ [nextCall task gpu state] → Right task call := by
    intro call listed
    rcases List.mem_append.mp listed with old | new
    · exact sound.calls_right call old
    · rw [List.mem_singleton.mp new]
      exact nextCall_right task gpu state active enough
  unfold compress
  split
  · rename_i last
    exact ⟨sound.pointer_lt, sound.parked, calls,
      compress_passed task gpu _ _ _ _ _ active enough last⟩
  · rename_i more
    refine ⟨sound.pointer_lt, sound.parked, calls, ?_⟩
    simp only [PhaseSound, ringCompress, phase]
    exact compress_active task gpu _ _ _ _ _ active enough more

/-- What a transfer and a flush leave alone. -/
structure Kept (before after : State Seed) : Prop where
  pointer : after.pathPointer = before.pathPointer
  gpuSeed : after.gpuSeed = before.gpuSeed
  ring : after.ring = before.ring
  pass : after.passInWarp = before.passInWarp
  calls : after.calls = before.calls
  others : ∀ path, path ≠ before.pathPointer → after.paths path = before.paths path

theorem Kept.trans {first second third : State Seed} (one : Kept first second)
    (two : Kept second third) : Kept first third := by
  refine ⟨two.pointer.trans one.pointer, two.gpuSeed.trans one.gpuSeed, two.ring.trans one.ring,
    two.pass.trans one.pass, two.calls.trans one.calls, ?_⟩
  intro path apart
  rw [two.others path (by rw [one.pointer]; exact apart), one.others path apart]

theorem transferWarp_kept (gpu : GpuRingContext) (supply : Supply Seed) (state : State Seed) :
    Kept state (transferWarp gpu supply state) ∧
      (transferWarp gpu supply state).warpsInBuffer = state.warpsInBuffer + 1 ∧
      (transferWarp gpu supply state).paths state.pathPointer =
        { state.paths state.pathPointer with
          warpOffset := (state.paths state.pathPointer).warpOffset + 1 } := by
  unfold transferWarp
  simp only
  split
  · exact ⟨⟨rfl, rfl, rfl, rfl, rfl, fun path apart => setPath_other _ _ _ _ apart⟩, rfl,
      setPath_same _ _ _⟩
  · exact ⟨⟨rfl, rfl, rfl, rfl, rfl, fun path apart => setPath_other _ _ _ _ apart⟩, rfl,
      setPath_same _ _ _⟩

theorem flushBuffer_kept (task : PlotterTask Payload Seed) (state : State Seed) (seed : Seed)
    (nextWarpOffset currentPath : Nat) :
    Kept state (flushBuffer task { state with pendingTransfer := false } seed nextWarpOffset
        currentPath) ∧
      (flushBuffer task { state with pendingTransfer := false } seed nextWarpOffset
        currentPath).paths = state.paths := by
  unfold flushBuffer
  simp only
  split
  · exact ⟨⟨rfl, rfl, rfl, rfl, rfl, fun _ _ => rfl⟩, rfl⟩
  · exact ⟨⟨rfl, rfl, rfl, rfl, rfl, fun _ _ => rfl⟩, rfl⟩

theorem flushFile_kept (task : PlotterTask Payload Seed) (drawn : Seed) (state : State Seed) :
    Kept state (flushFile task drawn state) ∧
      (atFileBoundary task state = false → (flushFile task drawn state).paths = state.paths) := by
  have flushed := flushBuffer_kept task state (state.paths state.pathPointer).seed
    (state.paths state.pathPointer).warpOffset state.pathPointer
  unfold flushFile
  simp only
  split
  · rename_i boundary
    refine ⟨⟨flushed.1.pointer, flushed.1.gpuSeed, flushed.1.ring, flushed.1.pass,
      flushed.1.calls, ?_⟩, ?_⟩
    · intro path apart
      rw [← flushed.1.pointer] at apart
      exact (setPath_other _ _ _ _ apart).trans (congrFun flushed.2 path)
    · intro inside
      rw [boundary] at inside
      cases inside
  · exact ⟨flushed.1, fun _ => flushed.2⟩

/-- The leftovers of an unfinished file are nonces of its remaining warps exactly
when giving them back leads to its next warp. -/
theorem rollBack_exact (params : Params Seed) (entry : PathState Seed)
    (ring : Queue (Seed × Nat)) (inv : RingLoop.Invariant params (view entry ring 0))
    (inside : entry.warpOffset ≤ params.warps) :
    entry.globalNonces =
        entry.warpOffset * params.passesPerWarp * compressBatch + ring.available ↔
      ring.available ≤
        (params.warps - entry.warpOffset) * params.passesPerWarp * compressBatch := by
  have consumed : (view entry ring 0).consumed params =
      entry.warpOffset * params.passesPerWarp * compressBatch := rfl
  have total : params.noncesForFile = entry.warpOffset * params.passesPerWarp * compressBatch +
      (params.warps - entry.warpOffset) * params.passesPerWarp * compressBatch := by
    rw [← Nat.add_mul, ← Nat.add_mul, Nat.add_sub_cancel' inside]
    rfl
  have below : (view entry ring 0).consumed params ≤ entry.globalNonces := inv.consumed_le
  have live : entry.globalNonces ≤ (view entry ring 0).consumed params + ring.available :=
    inv.live
  have unpadded : entry.globalNonces < params.noncesForFile →
      (view entry ring 0).consumed params + ring.available = entry.globalNonces := inv.unpadded
  have hashed : 0 < ring.available → entry.globalNonces ≤ params.noncesForFile := inv.hashed_le
  constructor
  · intro exact
    by_cases empty : ring.available = 0
    · omega
    · have bounded := hashed (by omega)
      omega
  · intro remaining
    by_cases more : entry.globalNonces < params.noncesForFile
    · have exact := unpadded more
      omega
    · by_cases empty : ring.available = 0
      · omega
      · have bounded := hashed (by omega)
        omega

/-- A discard leaves a fresh ring for the path it goes on with. -/
theorem discardRing_sound (task : PlotterTask Payload Seed) (gpu : GpuRingContext)
    (positive : 0 < gpu.worksize) (boundary : Bool) (next : Nat) (state : State Seed)
    (nextLt : next < task.outputPaths) (calls : ∀ call, call ∈ state.calls → Right task call)
    (parked : ∀ path, path < task.outputPaths → path ≠ state.pathPointer →
      AtNextWarp task (state.paths path))
    (pass : state.passInWarp = 0)
    (leaves : next ≠ state.pathPointer ∨ boundary = true)
    (rolled : boundary = false →
      (state.paths state.pathPointer).globalNonces =
        (state.paths state.pathPointer).warpOffset * task.passesPerWarp * compressBatch +
          state.ring.available) :
    Sound task gpu (discardRing boundary next state) := by
  have all : ∀ path, path < task.outputPaths →
      AtNextWarp task ((discardRing boundary next state).paths path) := by
    intro path inside
    simp only [discardRing]
    by_cases current : path = state.pathPointer
    · rw [current, setPath_same]
      cases boundary with
      | true => simp only [AtNextWarp, ↓reduceIte, Nat.zero_mul]
      | false =>
        have exact := rolled rfl
        simp only [AtNextWarp, Bool.false_eq_true, ↓reduceIte, wrappingSub, exact,
          Nat.le_add_left, Nat.add_sub_cancel]
    · rw [setPath_other _ _ _ _ current]
      exact parked path inside current
  refine ⟨nextLt, fun path inside _ => all path inside, calls, Or.inr ?_⟩
  have pass' : (discardRing boundary next state).passInWarp = 0 := pass
  rw [pass']
  exact start_active task gpu _ _ _ positive (all next nextLt) rfl rfl

/-- The thread stays with the file. -/
theorem resumed_sound (task : PlotterTask Payload Seed) (gpu : GpuRingContext)
    (state : State Seed) (pointerLt : state.pathPointer < task.outputPaths)
    (calls : ∀ call, call ∈ state.calls → Right task call)
    (parked : ∀ path, path < task.outputPaths → path ≠ state.pathPointer →
      AtNextWarp task (state.paths path))
    (active : Active task gpu state.pathPointer (state.paths state.pathPointer) state.gpuSeed
      state.ring state.passInWarp) :
    Sound task gpu { state with phase := resumePhase task gpu state } := by
  refine ⟨pointerLt, parked, calls, ?_⟩
  have phases : resumePhase task gpu state = .top ∨ resumePhase task gpu state = .compress := by
    unfold resumePhase
    split
    · exact Or.inl rfl
    · exact Or.inr rfl
  rcases phases with top | compress
  · simp only [PhaseSound, top]
    exact Or.inr active
  · simp only [PhaseSound, compress]
    exact active

theorem switch_sound (task : PlotterTask Payload Seed) (gpu : GpuRingContext)
    (positive : 0 < gpu.worksize) (boundary : Bool) (state : State Seed)
    (pointerLt : state.pathPointer < task.outputPaths)
    (calls : ∀ call, call ∈ state.calls → Right task call)
    (parked : ∀ path, path < task.outputPaths → path ≠ state.pathPointer →
      AtNextWarp task (state.paths path))
    (pass : state.passInWarp = 0)
    (active : boundary = false → Active task gpu state.pathPointer
      (state.paths state.pathPointer) state.gpuSeed state.ring state.passInWarp)
    (rolled : boundary = false →
      switchPath task state.paths state.pathPointer ≠ some state.pathPointer →
      (state.paths state.pathPointer).globalNonces =
        (state.paths state.pathPointer).warpOffset * task.passesPerWarp * compressBatch +
          state.ring.available) :
    Sound task gpu (switch task gpu boundary state) := by
  unfold switch
  split
  · rename_i missing
    exact ⟨pointerLt, parked, calls, Or.inl (switchPath_none pointerLt missing)⟩
  · rename_i next found
    split
    · rename_i leaves
      apply discardRing_sound task gpu positive boundary next state
        (switchPath_lt pointerLt found) calls parked pass leaves
      intro inside
      apply rolled inside
      rw [found]
      intro same
      rcases leaves with apart | ended
      · exact apart (Option.some.inj same)
      · rw [inside] at ended
        cases ended
    · rename_i stays
      have inside : boundary = false := by
        cases boundary with
        | false => rfl
        | true => exact absurd (Or.inr rfl) stays
      exact resumed_sound task gpu state pointerLt calls parked (active inside)

theorem Passed.active {task : PlotterTask Payload Seed} {gpu : GpuRingContext} {path : Nat}
    {entry : PathState Seed} {gpuSeed : Seed} {ring : Queue (Seed × Nat)} {pass : Nat}
    (passed : Passed task gpu path entry gpuSeed ring pass)
    (inside : entry.warpOffset + 1 ≠ task.warps path) :
    Active task gpu path { entry with warpOffset := entry.warpOffset + 1 } gpuSeed ring pass := by
  have unfinished := passed.unfinished
  refine ⟨passed.seed_eq, ?_, fun _ => ?_, fun _ => ?_⟩
  · rw [passed.pass_eq]
    exact passed.ring_ok
  · change entry.warpOffset + 1 < task.warps path
    omega
  · rw [passed.pass_eq]
    exact passed.visit

theorem transfer_sound (task : PlotterTask Payload Seed) (gpu : GpuRingContext)
    (positive : 0 < gpu.worksize) (supply : Supply Seed) (state : State Seed)
    (sound : Sound task gpu state) (phase : state.phase = .transfer)
    (exact : rollsBackExactly task state supply) :
    Sound task gpu (transfer task gpu supply state) := by
  have passed := sound.phase_sound
  simp only [PhaseSound, phase] at passed
  obtain ⟨movedKept, filled, movedEntry⟩ := transferWarp_kept gpu supply state
  obtain ⟨flushKept, flushPaths⟩ :=
    flushFile_kept task supply.seed (transferWarp gpu supply state)
  have kept := movedKept.trans flushKept
  have boundary : atFileBoundary task (transferWarp gpu supply state) =
      decide ((state.paths state.pathPointer).warpOffset + 1 =
        task.warps state.pathPointer) := by
    rw [atFileBoundary, movedKept.pointer, movedEntry]
  have unfinished := passed.unfinished
  unfold transfer
  simp only
  split
  · rename_i flushes
    have flushedEntry : atFileBoundary task (transferWarp gpu supply state) = false →
        (flushFile task supply.seed (transferWarp gpu supply state)).paths state.pathPointer =
          { state.paths state.pathPointer with
            warpOffset := (state.paths state.pathPointer).warpOffset + 1 } := by
      intro inside
      rw [flushPaths inside, movedEntry]
    apply switch_sound task gpu positive
    · rw [kept.pointer]
      exact sound.pointer_lt
    · rw [kept.calls]
      exact sound.calls_right
    · intro path pathLt apart
      rw [kept.pointer] at apart
      rw [kept.others path apart]
      exact sound.parked path pathLt apart
    · rw [kept.pass]
      exact passed.pass_eq
    · intro inside
      rw [kept.pointer, flushedEntry inside, kept.gpuSeed, kept.ring, kept.pass]
      rw [boundary, decide_eq_false_iff_not] at inside
      exact passed.active inside
    · intro inside leaves
      rw [kept.pointer] at leaves ⊢
      rw [flushedEntry inside, kept.ring]
      have full : state.warpsInBuffer + 1 = task.escalate := by
        rcases flushes with full | ended
        · rw [← filled]
          exact full
        · rw [inside] at ended
          cases ended
      have same : switchPath task
            (flushFile task supply.seed (transferWarp gpu supply state)).paths
            state.pathPointer = switchPath task state.paths state.pathPointer := by
        apply switchPath_congr
        intro path
        by_cases current : path = state.pathPointer
        · rw [current, flushedEntry inside]
        · rw [kept.others path current]
      rw [same] at leaves
      rw [boundary, decide_eq_false_iff_not] at inside
      have more : (state.paths state.pathPointer).warpOffset + 1 <
          task.warps state.pathPointer := by omega
      exact (rollBack_exact _ _ _ passed.ring_ok (Nat.le_of_lt more)).mpr
        (exact phase full more leaves)
  · rename_i stays
    have inside : ¬ (state.paths state.pathPointer).warpOffset + 1 =
        task.warps state.pathPointer := by
      intro ended
      apply stays
      rw [boundary]
      exact Or.inr (decide_eq_true ended)
    apply resumed_sound
    · rw [movedKept.pointer]
      exact sound.pointer_lt
    · rw [movedKept.calls]
      exact sound.calls_right
    · intro path pathLt apart
      rw [movedKept.pointer] at apart
      rw [movedKept.others path apart]
      exact sound.parked path pathLt apart
    · rw [movedKept.pointer, movedEntry, movedKept.gpuSeed, movedKept.ring, movedKept.pass]
      exact passed.active inside

theorem finish_sound (task : PlotterTask Payload Seed) (gpu : GpuRingContext)
    (state : State Seed) (sound : Sound task gpu state) :
    Sound task gpu (finish task state) := by
  unfold finish
  simp only
  split
  · obtain ⟨kept, paths⟩ := flushBuffer_kept task state (state.paths state.bufferPath).seed
      (state.paths state.bufferPath).warpOffset state.bufferPath
    refine ⟨?_, ?_, ?_, trivial⟩
    · simp only [kept.pointer]
      exact sound.pointer_lt
    · intro path inside apart
      simp only [kept.pointer] at apart
      simp only [paths]
      exact sound.parked path inside apart
    · simp only [kept.calls]
      exact sound.calls_right
  · exact ⟨sound.pointer_lt, sound.parked, sound.calls_right, trivial⟩

theorem step_sound (task : PlotterTask Payload Seed) (gpu : GpuRingContext)
    (positive : 0 < gpu.worksize) (before : State Seed) (supply : Supply Seed)
    (after : State Seed) (sound : Sound task gpu before)
    (exact : rollsBackExactly task before supply)
    (taken : step task gpu before supply = some after) : Sound task gpu after := by
  have known := sound.phase_sound
  unfold step at taken
  split at taken
  · rename_i phase
    simp only [PhaseSound, phase] at known
    split at taken
    · cases taken
      exact finish_sound task gpu before sound
    · rename_i more
      cases taken
      refine ⟨sound.pointer_lt, sound.parked, sound.calls_right, ?_⟩
      exact known.resolve_left more
  · rename_i phase
    simp only [PhaseSound, phase] at known
    split at taken
    · rename_i room
      cases taken
      exact fill_sound task gpu before sound phase room
    · cases taken
      exact ⟨sound.pointer_lt, sound.parked, sound.calls_right, known⟩
  · rename_i phase
    simp only [PhaseSound, phase] at known
    split at taken
    · rename_i enough
      cases taken
      exact compress_sound task gpu before sound phase (of_decide_eq_true enough)
    · cases taken
      exact ⟨sound.pointer_lt, sound.parked, sound.calls_right, Or.inr known⟩
  · rename_i phase
    cases taken
    exact transfer_sound task gpu positive supply before sound phase exact
  · cases taken

theorem reachable_sound (task : PlotterTask Payload Seed) (gpu : GpuRingContext)
    (resumes : Nat → Nat) (positive : 0 < gpu.worksize) (resumable : Resumable task resumes)
    (state : State Seed)
    (reached : Reachable (system task gpu resumes) (rollsBackExactly task) state) :
    Sound task gpu state :=
  reached.invariant (Sound task gpu)
    (by
      rintro start ⟨drawn, redrawn, cells, rfl⟩
      exact start_sound task gpu resumes drawn redrawn cells positive resumable)
    (fun before supply after sound exact taken =>
      step_sound task gpu positive before supply after sound exact taken)

/-- A ring that is filled in steps of at most a warp never holds the padding of a
file at a switch: what a warp leaves behind is shorter than a dispatch. -/
theorem small_worksize_rollsBackExactly (task : PlotterTask Payload Seed) (gpu : GpuRingContext)
    (small : gpu.worksize ≤ task.passesPerWarp * compressBatch) (state : State Seed)
    (supply : Supply Seed) (sound : Sound task gpu state) :
    rollsBackExactly task state supply := by
  intro phase _ more _
  have passed := sound.phase_sound
  simp only [PhaseSound, phase] at passed
  have size := RingLoop.ringSize_eq (fileParams task gpu state.pathPointer state.gpuSeed)
  have room := passed.room
  have leftover : state.ring.available ≤ gpu.worksize := by
    change gpu.ringSize + _ = gpu.worksize + compressBatch at size
    omega
  calc
    state.ring.available ≤ 1 * (task.passesPerWarp * compressBatch) := by omega
    _ ≤ (task.warps state.pathPointer - ((state.paths state.pathPointer).warpOffset + 1)) *
        (task.passesPerWarp * compressBatch) := Nat.mul_le_mul_right _ (by omega)
    _ = _ := by rw [Nat.mul_assoc]

/-- With such a worksize every run rolls back exactly. -/
theorem small_worksize_reachable (task : PlotterTask Payload Seed) (gpu : GpuRingContext)
    (resumes : Nat → Nat) (positive : 0 < gpu.worksize) (resumable : Resumable task resumes)
    (small : gpu.worksize ≤ task.passesPerWarp * compressBatch) (state : State Seed)
    (reached : Reachable (system task gpu resumes) always state) :
    Reachable (system task gpu resumes) (rollsBackExactly task) state :=
  reached.restrict (Sound task gpu)
    (fun state reached => reachable_sound task gpu resumes positive resumable state reached)
    (fun state supply sound =>
      small_worksize_rollsBackExactly task gpu small state supply sound)

/-- In every run whose path switches roll back exactly, every compress call consumes
the nonces of its own warp and pass under its file's seed, and every path that waits
stands at the first nonce of its next warp. -/
theorem compress_consumes_own_nonces (task : PlotterTask Payload Seed) (gpu : GpuRingContext)
    (resumes : Nat → Nat) (positive : 1 ≤ gpu.worksize) (resumable : Resumable task resumes)
    (state : State Seed)
    (reached : Reachable (system task gpu resumes) (rollsBackExactly task) state) :
    (∀ call, call ∈ state.calls →
      call.pass < task.passesPerWarp ∧ ∀ k, k < 8192 →
        call.input k = (call.seed, (call.warp * task.passesPerWarp + call.pass) * 8192 + k)) ∧
    (∀ path, path < task.outputPaths → path ≠ state.pathPointer →
      (state.paths path).globalNonces =
        (state.paths path).warpOffset * task.passesPerWarp * 8192) := by
  have sound := reachable_sound task gpu resumes positive resumable state reached
  exact ⟨sound.calls_right, sound.parked⟩

theorem flushFile_warpOffset (task : PlotterTask Payload Seed) (drawn : Seed) (state : State Seed)
    (path : Nat) :
    ((flushFile task drawn state).paths path).warpOffset = (state.paths path).warpOffset := by
  obtain ⟨kept, paths⟩ := flushBuffer_kept task state (state.paths state.pathPointer).seed
    (state.paths state.pathPointer).warpOffset state.pathPointer
  unfold flushFile
  simp only
  split
  · simp only [kept.pointer, paths]
    by_cases current : path = state.pathPointer
    · rw [current, setPath_same]
      rfl
    · rw [setPath_other _ _ _ _ current]
  · rw [paths]

theorem switch_warpOffset (task : PlotterTask Payload Seed) (gpu : GpuRingContext) (boundary : Bool)
    (state : State Seed) (path : Nat) :
    ((switch task gpu boundary state).paths path).warpOffset ≤ (state.paths path).warpOffset := by
  unfold switch
  split
  · exact Nat.le_refl _
  · split
    · simp only [discardRing]
      by_cases current : path = state.pathPointer
      · rw [current, setPath_same]
        split
        · exact Nat.zero_le _
        · exact Nat.le_refl _
      · rw [setPath_other _ _ _ _ current]
    · exact Nat.le_refl _

/-- A step counts at most one warp, that of the current path after its last pass. -/
theorem step_warpOffset (task : PlotterTask Payload Seed) (gpu : GpuRingContext)
    (before after : State Seed) (supply : Supply Seed)
    (taken : step task gpu before supply = some after) (path : Nat) :
    (after.paths path).warpOffset ≤ (before.paths path).warpOffset ∨
      before.phase = .transfer ∧ path = before.pathPointer ∧
        (after.paths path).warpOffset ≤ (before.paths path).warpOffset + 1 := by
  unfold step at taken
  split at taken
  · split at taken
    · cases taken
      obtain ⟨-, paths⟩ := flushBuffer_kept task before (before.paths before.bufferPath).seed
        (before.paths before.bufferPath).warpOffset before.bufferPath
      unfold finish
      simp only
      split
      · simp only [paths]
        exact Or.inl (Nat.le_refl _)
      · exact Or.inl (Nat.le_refl _)
    · cases taken
      exact Or.inl (Nat.le_refl _)
  · split at taken
    · cases taken
      simp only [fill]
      by_cases current : path = before.pathPointer
      · rw [current, setPath_same]
        exact Or.inl (Nat.le_refl _)
      · rw [setPath_other _ _ _ _ current]
        exact Or.inl (Nat.le_refl _)
    · cases taken
      exact Or.inl (Nat.le_refl _)
  · split at taken
    · cases taken
      unfold compress
      split
      · exact Or.inl (Nat.le_refl _)
      · exact Or.inl (Nat.le_refl _)
    · cases taken
      exact Or.inl (Nat.le_refl _)
  · rename_i phase
    cases taken
    obtain ⟨kept, -, movedEntry⟩ := transferWarp_kept gpu supply before
    have later : ((transfer task gpu supply before).paths path).warpOffset ≤
        ((transferWarp gpu supply before).paths path).warpOffset := by
      unfold transfer
      simp only
      split
      · rw [← flushFile_warpOffset task supply.seed (transferWarp gpu supply before) path]
        exact switch_warpOffset task gpu _ _ path
      · exact Nat.le_refl _
    by_cases current : path = before.pathPointer
    · subst current
      rw [movedEntry] at later
      exact Or.inr ⟨phase, rfl, later⟩
    · rw [kept.others path current] at later
      exact Or.inl later
  · cases taken

/-- No path counts more warps than its file has. -/
theorem reachable_bounded (task : PlotterTask Payload Seed) (gpu : GpuRingContext)
    (resumes : Nat → Nat) (positive : 0 < gpu.worksize) (resumable : Resumable task resumes)
    (warps : ∀ path, path < task.outputPaths → 1 ≤ task.warps path) (state : State Seed)
    (reached : Reachable (system task gpu resumes) (rollsBackExactly task) state) :
    ∀ path, path < task.outputPaths → (state.paths path).warpOffset ≤ task.warps path := by
  induction reached with
  | start initial =>
    obtain ⟨drawn, redrawn, cells, rfl⟩ := initial
    intro path inside
    exact startPath_warpOffset task resumes drawn redrawn path (warps path inside)
  | @next before after supply reached _ taken ih =>
    intro path inside
    have sound := reachable_sound task gpu resumes positive resumable before reached
    rcases step_warpOffset task gpu before after supply taken path with
      same | ⟨phase, rfl, counted⟩
    · exact Nat.le_trans same (ih path inside)
    · have passed := sound.phase_sound
      simp only [PhaseSound, phase] at passed
      exact Nat.le_trans counted passed.unfinished

/-- In every run whose path switches roll back exactly, the loops work on a visit to the file of
the current path, from an empty ring and the first nonce of its next warp, and go on with it until
the file is finished. -/
theorem visit_goes_on (task : PlotterTask Payload Seed) (gpu : GpuRingContext)
    (resumes : Nat → Nat) (positive : 1 ≤ gpu.worksize) (resumable : Resumable task resumes)
    (warps : ∀ path, path < task.outputPaths → 1 ≤ task.warps path) (state : State Seed)
    (reached : Reachable (system task gpu resumes) (rollsBackExactly task) state)
    (visiting : state.phase = .fill ∨ state.phase = .compress) :
    let params := fileParams task gpu state.pathPointer state.gpuSeed
    let current := view (state.paths state.pathPointer) state.ring state.passInWarp
    Reachable (RingLoop.system params) always current ∧
      (current.warpOffset < params.warps →
        RingLoop.hasRoom params current = true ∨ RingLoop.canCompress current = true) := by
  intro params current
  have sound := reachable_sound task gpu resumes positive resumable state reached
  have bounded := reachable_bounded task gpu resumes positive resumable warps state reached
  have active : Active task gpu state.pathPointer (state.paths state.pathPointer) state.gpuSeed
      state.ring state.passInWarp := by
    have known := sound.phase_sound
    rcases visiting with fills | compresses
    · simp only [PhaseSound, fills] at known
      exact known
    · simp only [PhaseSound, compresses] at known
      exact known
  exact ⟨active.visit (bounded _ sound.pointer_lt),
    RingLoop.unfinished_progress params current active.ring_ok⟩

/-- The file of the current path is not complete, but has no nonces left to hash, and the ring has
none to compress. -/
structure Hangs (task : PlotterTask Payload Seed) (gpu : GpuRingContext) (state : State Seed) :
    Prop where
  loops : state.phase = .top ∨ state.phase = .fill ∨ state.phase = .compress
  incomplete : allComplete task state.paths = false
  full : RingLoop.hasRoom (fileParams task gpu state.pathPointer state.gpuSeed)
    (view (state.paths state.pathPointer) state.ring state.passInWarp) = false
  empty : RingLoop.canCompress
    (view (state.paths state.pathPointer) state.ring state.passInWarp) = false

/-- The thread then turns its main loop without any work. -/
theorem Hangs.step {task : PlotterTask Payload Seed} {gpu : GpuRingContext}
    {before after : State Seed} (hangs : Hangs task gpu before) (supply : Supply Seed)
    (taken : step task gpu before supply = some after) :
    Hangs task gpu after ∧ after.calls = before.calls := by
  obtain ⟨loops, incomplete, full, empty⟩ := hangs
  rcases loops with top | fills | compresses
  · simp only [RingScheduler.step, top, incomplete, Bool.false_eq_true, if_false] at taken
    cases taken
    exact ⟨⟨Or.inr (Or.inl rfl), incomplete, full, empty⟩, rfl⟩
  · simp only [RingScheduler.step, fills, full, Bool.false_eq_true, if_false] at taken
    cases taken
    exact ⟨⟨Or.inr (Or.inr rfl), incomplete, full, empty⟩, rfl⟩
  · simp only [RingScheduler.step, compresses, empty, Bool.false_eq_true, if_false] at taken
    cases taken
    exact ⟨⟨Or.inl rfl, incomplete, full, empty⟩, rfl⟩

theorem Hangs.run {task : PlotterTask Payload Seed} {gpu : GpuRingContext} {resumes : Nat → Nat}
    {state final : State Seed} (hangs : Hangs task gpu state) (supplies : List (Supply Seed))
    (complete : run (system task gpu resumes) state supplies = some final) :
    Hangs task gpu final ∧ final.calls = state.calls :=
  Transition.run_invariant (fun later => Hangs task gpu later ∧ later.calls = state.calls)
    (fun _ supply _ later taken =>
      have moved := later.1.step supply taken
      ⟨moved.1, moved.2.trans later.2⟩)
    supplies ⟨hangs, rfl⟩ complete

/-- Two paths of two warps each, with a buffer of one warp. -/
def twoPaths : PlotterTask Unit Nat where
  addressPayload := ()
  seeds := fun _ => none
  warps := fun _ => 2
  numberOfPlots := fun _ => 1
  outputPaths := 2
  compress := 1
  escalate := 1
  outputPaths_pos := Nat.two_pos

def twoPathsStart : State Nat :=
  start twoPaths (fun _ => 0) (fun path => path) (fun path => path) (fun _ => (0, 0))

def smallContext : GpuRingContext where
  worksize := 6000
  ringSize := 14176
  isDgpu := false
  ringSize_eq := by rw [RingLoop.computeRingSize, RingLoop.gcd_eq]; rfl

def largeContext : GpuRingContext where
  worksize := 20480
  ringSize := 24576
  isDgpu := false
  ringSize_eq := by rw [RingLoop.computeRingSize, RingLoop.gcd_eq]; rfl

/-- A step of the thread that needs nothing from outside. -/
def idle : Supply Nat := ⟨0, fun _ => []⟩

theorem compress_consumes_own_nonces_two_paths :
    ∃ state : State Nat, state.calls.length = 3 ∧ ∀ call, call ∈ state.calls →
      ∀ k, k < 8192 → call.input k = (call.seed, (call.warp + call.pass) * 8192 + k) := by
  have complete : (run (system twoPaths smallContext fun _ => 0) twoPathsStart
      (List.replicate 17 idle)).any (fun state => state.calls.length == 3) = true := by
    decide +kernel
  obtain ⟨final, finished, three⟩ := (Option.any_eq_true _ _).mp complete
  have resumable : Resumable twoPaths (fun _ => 0) :=
    fun _ _ resumed => absurd resumed (Nat.lt_irrefl 0)
  have reached : Reachable (system twoPaths smallContext fun _ => 0) always final :=
    Reachable.run _ (.start ⟨_, _, _, rfl⟩) finished
  have right := compress_consumes_own_nonces twoPaths smallContext (fun _ => 0) (by decide)
    resumable final (small_worksize_reachable _ _ _ (by decide) resumable (by decide) _ reached)
  refine ⟨final, beq_iff_eq.mp three, ?_⟩
  intro call listed k inside
  have input := (right.1 call listed).2 k inside
  simpa only [show twoPaths.passesPerWarp = 1 from rfl, Nat.mul_one] using input

/-- With a worksize of 20480 the second warp of the first path starts at nonce 4096:
the switch after the first warp gives back 12288 slots, of which 4096 are padding. -/
theorem padded_rollBack_repeats_nonces :
    ¬ ∀ state, Reachable (system twoPaths largeContext fun _ => 0) always state →
      ∀ call, call ∈ state.calls → ∀ k, k < 8192 →
        call.input k =
          (call.seed, (call.warp * twoPaths.passesPerWarp + call.pass) * 8192 + k) := by
  intro claim
  have complete : (run (system twoPaths largeContext fun _ => 0) twoPathsStart
      (List.replicate 14 idle)).any (fun state => state.calls.any fun call =>
        call.warp == 1 && call.input 0 == (call.seed, 4096) && call.pass == 0) = true := by
    decide +kernel
  obtain ⟨final, finished, wrong⟩ := (Option.any_eq_true _ _).mp complete
  obtain ⟨call, listed, values⟩ := List.any_eq_true.mp wrong
  simp only [Bool.and_eq_true, beq_iff_eq] at values
  obtain ⟨⟨warp, input⟩, pass⟩ := values
  have right := claim final (Reachable.run _ (.start ⟨_, _, _, rfl⟩) finished) call listed 0
    (by decide)
  rw [input, warp, pass] at right
  have nonce : 4096 = (1 * 1 + 0) * 8192 + 0 := congrArg Prod.snd right
  omega

def hugeContext : GpuRingContext where
  worksize := 40960
  ringSize := 40960
  isDgpu := false
  ringSize_eq := by rw [RingLoop.computeRingSize, RingLoop.gcd_eq]; rfl

/-- With a worksize of 40960 the switch after the first warp of a path gives back 32768 slots, where
its counter stands at 16384: the counter wraps, and the second visit never makes its warp. -/
theorem padded_rollBack_hangs :
    ∃ state, Reachable (system twoPaths hugeContext fun _ => 0) always state ∧
      state.calls.length = 2 ∧
      ∀ supplies final, run (system twoPaths hugeContext fun _ => 0) state supplies = some final →
        final.phase ≠ .done ∧ final.calls = state.calls ∧
          allComplete twoPaths final.paths = false := by
  have complete : (run (system twoPaths hugeContext fun _ => 0) twoPathsStart
      (List.replicate 10 idle)).any (fun state =>
        state.calls.length == 2 && decide (state.phase = .top) &&
        !allComplete twoPaths state.paths &&
        !RingLoop.hasRoom (fileParams twoPaths hugeContext state.pathPointer state.gpuSeed)
          (view (state.paths state.pathPointer) state.ring state.passInWarp) &&
        !RingLoop.canCompress
          (view (state.paths state.pathPointer) state.ring state.passInWarp)) = true := by
    decide +kernel
  obtain ⟨state, finished, facts⟩ := (Option.any_eq_true _ _).mp complete
  simp only [Bool.and_eq_true, beq_iff_eq, decide_eq_true_eq, Bool.not_eq_true'] at facts
  obtain ⟨⟨⟨⟨two, top⟩, incomplete⟩, full⟩, empty⟩ := facts
  have hangs : Hangs twoPaths hugeContext state := ⟨Or.inl top, incomplete, full, empty⟩
  refine ⟨state, Reachable.run _ (.start ⟨_, _, _, rfl⟩) finished, two, ?_⟩
  intro supplies final ran
  obtain ⟨later, same⟩ := hangs.run supplies ran
  refine ⟨?_, same, later.incomplete⟩
  intro done
  rcases later.loops with top | fills | compresses
  · rw [done] at top
    cases top
  · rw [done] at fills
    cases fills
  · rw [done] at compresses
    cases compresses

end Pocx.RingScheduler
