import Pocx.Hashlib.Levels
import Pocx.Plotter.CpuScheduler

set_option autoImplicit false

namespace Pocx.CpuScheduler

open ByteStore
open Pocx.Plotter
open CpuCompressor
open CpuHasher (hashNoncesCpu hashNoncesCpu_spec)
open Hashlib
open PlotFile (scoopSize numScoops nonceSize warpSize)
open RingLoop (compressBatch)
open Transition (Reachable always)

variable {Payload Seed : Type}

/-- What pass `pass` of a warp adds: the straight nonce and its mirror. -/
def passTerm (task : PlotterTask Payload Seed) (generator : NonceGenerator Payload Seed)
    (seed : Seed) (warp scoop nonce pass : Nat) : Scoop :=
  let start := (warp * task.passesPerWarp + pass) * compressBatch
  generator.raw task.addressPayload seed (start + nonce) scoop +
    generator.raw task.addressPayload seed (start + (numScoops + scoop)) nonce

/-- The uncompressed nonces of a compressed scoop are those of the passes of its warp. -/
theorem generateScoop_passes (task : PlotterTask Payload Seed)
    (generator : NonceGenerator Payload Seed) (compressed : 1 ≤ task.compress) (seed : Seed)
    (warp scoop nonce : Nat) (scoopLt : scoop < numScoops) (nonceLt : nonce < numScoops) :
    generateScoop generator.generateNonces task.addressPayload seed scoop
        (warp * numScoops + nonce) task.compress =
      .ok (∑ pass ∈ Finset.range task.passesPerWarp,
        passTerm task generator seed warp scoop nonce pass) := by
  have passes : task.passesPerWarp = 2 ^ (task.compress - 1) := by
    rw [PlotterTask.passesPerWarp, Nat.shiftLeft_eq, Nat.one_mul]
  rw [generateScoop_level generator.raw task.addressPayload seed scoop generator.single scoopLt,
    levelScoop_pairs generator.raw task.addressPayload seed scoop warp nonce task.compress compressed
      nonceLt, ← passes]
  rfl

section Buffer

variable (task : PlotterTask Payload Seed) (generator : NonceGenerator Payload Seed)

/-- A slot of a write buffer has accumulated the first `passes` passes of a warp. -/
def Holds (buffer : Bytes) (slot : Nat) (seed : Seed) (warp passes : Nat) : Prop :=
  ∀ scoop nonce, scoop < numScoops → nonce < numScoops →
    slotAt buffer task.escalate slot scoop nonce =
      ∑ pass ∈ Finset.range passes, passTerm task generator seed warp scoop nonce pass

/-- The first `warps` slots of a write buffer hold the warps from `startWarp` on. -/
structure Complete (buffer : Bytes) (seed : Seed) (startWarp warps : Nat) : Prop where
  len : buffer.len = task.escalate * warpSize
  filled : ∀ slot, slot < warps →
    Holds task generator buffer slot seed (startWarp + slot) task.passesPerWarp

/-- The next slot holds the first passes of the next warp, or anything before the first. -/
structure Filling (buffer : Bytes) (seed : Seed) (startWarp warps passes : Nat) : Prop where
  complete : Complete task generator buffer seed startWarp warps
  room : warps < task.escalate
  current : 0 < passes → Holds task generator buffer warps seed (startWarp + warps) passes

variable {task generator}

theorem Filling.last {buffer : Bytes} {seed : Seed} {startWarp warps : Nat}
    (filling : Filling task generator buffer seed startWarp warps task.passesPerWarp) :
    Complete task generator buffer seed startWarp (warps + 1) := by
  refine ⟨filling.complete.len, ?_⟩
  intro slot slotLt
  by_cases earlier : slot < warps
  · exact filling.complete.filled slot earlier
  · have latest : slot = warps := by omega
    subst latest
    exact filling.current (passesPerWarp_pos task)

/-- The nonces of one pass, as the hasher leaves them in the scatter buffer. -/
def Hashed (task : PlotterTask Payload Seed) (generator : NonceGenerator Payload Seed)
    (scatterBuf : Bytes) (seed : Seed) (startNonce : Nat) : Prop :=
  ∀ scoop k, scoop < numScoops → k < compressBatch →
    scoopAt scatterBuf (scoopAddress compressBatch scoop k) =
      generator.raw task.addressPayload seed (startNonce + k) scoop

/-- One compress adds one pass to the slot and leaves the complete warps alone. -/
theorem Filling.pass {buffer scatterBuf : Bytes} {seed : Seed} {startWarp warps passes : Nat}
    (filling : Filling task generator buffer seed startWarp warps passes)
    (sized : scatterBuf.len = scatterSize)
    (hashed : Hashed task generator scatterBuf seed
      (((startWarp + warps) * task.passesPerWarp + passes) * compressBatch))
    (order : List Cell) (spawned : order.Perm (helixCells 1)) :
    Filling task generator
      (if passes = 0 then helixCompress scatterBuf buffer warps order
        else helixCompressXor scatterBuf buffer warps order)
      seed startWarp warps (passes + 1) := by
  have len := filling.complete.len
  have sourceLen : scatterBuf.len = 2 * warpSize := sized
  have columns : compressBatch = 2 * numScoops := rfl
  have term (scoop nonce : Nat) (scoopLt : scoop < numScoops) (nonceLt : nonce < numScoops) :
      scoopAt scatterBuf (scoopAddress (2 * numScoops) scoop nonce) +
          scoopAt scatterBuf (scoopAddress (2 * numScoops) nonce (numScoops + scoop)) =
        passTerm task generator seed (startWarp + warps) scoop nonce passes := by
    rw [passTerm, ← columns, hashed scoop nonce scoopLt (by omega),
      hashed nonce (numScoops + scoop) nonceLt (by omega)]
  refine ⟨⟨?_, ?_⟩, filling.room, ?_⟩
  · split
    · exact len
    · exact len
  · intro slot slotLt scoop nonce scoopLt nonceLt
    have other (combine : UInt8 → UInt8 → UInt8) :=
      helix_other combine scatterBuf buffer task.escalate warps order len filling.room spawned slot
        (Nat.lt_trans slotLt filling.room) (Nat.ne_of_lt slotLt) scoop nonce nonceLt
    rw [← filling.complete.filled slot slotLt scoop nonce scoopLt nonceLt]
    split
    · exact other _
    · exact other _
  · intro _ scoop nonce scoopLt nonceLt
    rw [Finset.sum_range_succ, ← term scoop nonce scoopLt nonceLt]
    by_cases first : passes = 0
    · subst first
      rw [if_pos rfl, helixCompress_slot scatterBuf buffer task.escalate warps order sourceLen len
        filling.room spawned scoop nonce scoopLt nonceLt, Finset.range_zero, Finset.sum_empty,
        zero_add]
    · rw [if_neg first, helixCompressXor_slot scatterBuf buffer task.escalate warps order sourceLen
        len filling.room spawned scoop nonce scoopLt nonceLt,
        filling.current (Nat.pos_of_ne_zero first) scoop nonce scoopLt nonceLt]

end Buffer

section Runs

variable (task : PlotterTask Payload Seed) (generator : NonceGenerator Payload Seed)

/-- A task for a writer carries the scoops that `generate_scoop` recomputes. -/
def Right : WriterTask Bytes Seed → Prop
  | .processTask buffer seed warpOffset warpsToWrite _ =>
    ∀ slot scoop nonce, slot < warpsToWrite → scoop < numScoops → nonce < numScoops →
      generateScoop generator.generateNonces task.addressPayload seed scoop
          ((warpOffset + slot) * numScoops + nonce) task.compress =
        .ok (slotAt buffer task.escalate slot scoop nonce)
  | .finalize _ _ => True
  | .endTask => True

def SentRight (sent : Nat → List (WriterTask Bytes Seed)) : Prop :=
  ∀ path writerTask, writerTask ∈ sent path → Right task generator writerTask

/-- The nonce counter of a path belongs to the warp and the pass it is at. -/
def Counted (entry : PathState Seed) (passes : Nat) : Prop :=
  entry.globalNonces = (entry.warpOffset * task.passesPerWarp + passes) * compressBatch

/-- The parts of the state that flushing leaves alone. -/
structure Steady (state : State Seed) (passes : Nat) : Prop where
  pointer_lt : state.pathPointer < task.outputPaths
  scatter_len : state.scatterBuf.len = scatterSize
  current : Counted task (state.paths state.pathPointer) passes
  parked : ∀ path, path < task.outputPaths → path ≠ state.pathPointer →
    Counted task (state.paths path) 0

/-- The write buffer belongs to the current path and ends at its current warp. -/
structure Held (state : State Seed) (buffer : Bytes) : Prop where
  holding : state.writeBuffer = some buffer
  path : state.bufferPath = state.pathPointer
  offset : state.bufferStartWarp + state.warpsInBuffer =
    (state.paths state.pathPointer).warpOffset

/-- A write buffer is in use from the first pass of its first warp on. -/
structure Holding (state : State Seed) : Prop where
  empty : state.writeBuffer = none → state.warpsInBuffer = 0 ∧ state.passInWarp = 0
  held : ∀ buffer, state.writeBuffer = some buffer →
    Held state buffer ∧
      Filling task generator buffer (state.paths state.pathPointer).seed state.bufferStartWarp
        state.warpsInBuffer state.passInWarp

/-- The state at the head of the main loop. -/
structure Active (state : State Seed) : Prop where
  steady : Steady task state state.passInWarp
  pass_lt : state.passInWarp < task.passesPerWarp
  holding : Holding task generator state

/-- The state in the loop body, behind a pass. -/
structure Passed (state : State Seed) : Prop where
  steady : Steady task state state.passInWarp
  buffer : ∃ buffer, Held state buffer ∧
    Filling task generator buffer (state.paths state.pathPointer).seed state.bufferStartWarp
      state.warpsInBuffer state.passInWarp

/-- The state behind the last pass of a warp, which is counted. -/
structure Counting (state : State Seed) : Prop where
  steady : Steady task state 0
  pass : state.passInWarp = 0
  warps_pos : 0 < state.warpsInBuffer
  warps_le : state.warpsInBuffer ≤ task.escalate
  buffer : ∃ buffer, Held state buffer ∧
    Complete task generator buffer (state.paths state.pathPointer).seed state.bufferStartWarp
      state.warpsInBuffer

/-- The state behind a flush. -/
structure Flushed (state : State Seed) : Prop where
  steady : Steady task state 0
  pass : state.passInWarp = 0
  warps : state.warpsInBuffer = 0
  buffer : state.writeBuffer = none

structure Sound (state : State Seed) : Prop where
  sent_right : SentRight task generator state.sent
  active : state.done = false → Active task generator state

/-- What hashing does to a state at the head of the loop. -/
structure HashedPass (before after : State Seed) : Prop where
  steady : Steady task after (before.passInWarp + 1)
  hashed : Hashed task generator after.scatterBuf (after.paths after.pathPointer).seed
    (((after.paths after.pathPointer).warpOffset * task.passesPerWarp + after.passInWarp) *
      compressBatch)
  holding : Holding task generator after
  pass : after.passInWarp = before.passInWarp
  sent : after.sent = before.sent

variable {task generator}

theorem Flushed.active {state : State Seed} (flushed : Flushed task state) :
    Active task generator state := by
  refine ⟨?_, ?_, ⟨fun _ => ⟨flushed.warps, flushed.pass⟩, ?_⟩⟩
  · rw [flushed.pass]
    exact flushed.steady
  · rw [flushed.pass]
    exact passesPerWarp_pos task
  · intro buffer held
    rw [flushed.buffer] at held
    cases held

theorem hashPass_spec {state : State Seed} (active : Active task generator state)
    (supply : Supply task) :
    ∃ after, hashPass task generator.generateNonces supply state = some after ∧
      HashedPass task generator state after := by
  obtain ⟨pointer_lt, scatter_len, current, parked⟩ := active.steady
  have sized : state.scatterBuf.len / nonceSize = compressBatch := by
    rw [scatter_len, scatterSize]
    exact Nat.mul_div_cancel _ (by decide)
  obtain ⟨scatterBuf, done, len, hashed⟩ := hashNoncesCpu_spec generator task.addressPayload
    (state.paths state.pathPointer).seed (state.paths state.pathPointer).globalNonces compressBatch
    supply.hashOrder state.scatterBuf sized supply.hashOrder_spawned
  rw [hashPass, done, Option.map_some]
  refine ⟨_, rfl, ⟨pointer_lt, len.trans scatter_len, ?_, ?_⟩, ?_, ⟨active.holding.empty, ?_⟩, rfl,
    rfl⟩
  · simp only [Counted, setPath_same] at current ⊢
    rw [current, ← Nat.add_assoc, Nat.add_mul _ 1, Nat.one_mul]
  · intro path inside apart
    simp only at apart ⊢
    rw [setPath_other _ _ _ _ apart]
    exact parked path inside apart
  · simp only [setPath_same]
    intro scoop k scoopLt kLt
    rw [← current]
    exact hashed scoop k scoopLt kLt
  · intro buffer inUse
    obtain ⟨held, filling⟩ := active.holding.held buffer inUse
    refine ⟨⟨inUse, held.path, ?_⟩, ?_⟩
    · simp only [setPath_same]
      exact held.offset
    · simp only [setPath_same]
      exact filling

theorem acquire_held {state : State Seed} (escalated : 1 ≤ task.escalate)
    (holding : Holding task generator state) (supply : Supply task) :
    ∃ buffer, Held (acquire task supply state) buffer ∧
      Filling task generator buffer
        ((acquire task supply state).paths (acquire task supply state).pathPointer).seed
        (acquire task supply state).bufferStartWarp (acquire task supply state).warpsInBuffer
        (acquire task supply state).passInWarp := by
  unfold acquire
  cases inUse : state.writeBuffer with
  | none =>
    obtain ⟨noWarps, noPass⟩ := holding.empty inUse
    simp only [Option.isNone_none, ↓reduceIte, noWarps, noPass]
    refine ⟨supply.buffer, ⟨rfl, rfl, rfl⟩, ⟨supply.buffer_len, ?_⟩, escalated, ?_⟩
    · intro slot slotLt
      exact absurd slotLt (Nat.not_lt_zero _)
    · intro started
      exact absurd started (Nat.lt_irrefl 0)
  | some buffer =>
    obtain ⟨held, filling⟩ := holding.held buffer inUse
    simp only [Option.isNone_some, Bool.false_eq_true, ↓reduceIte]
    exact ⟨buffer, held, filling⟩

/-- What taking a buffer leaves alone. -/
structure SameCounters (before after : State Seed) : Prop where
  paths : after.paths = before.paths
  pointer : after.pathPointer = before.pathPointer
  scatter : after.scatterBuf = before.scatterBuf
  pass : after.passInWarp = before.passInWarp
  warps : after.warpsInBuffer = before.warpsInBuffer
  sent : after.sent = before.sent
  done : after.done = before.done

theorem acquire_same (supply : Supply task) (state : State Seed) :
    SameCounters state (acquire task supply state) := by
  unfold acquire
  split
  · exact ⟨rfl, rfl, rfl, rfl, rfl, rfl, rfl⟩
  · exact ⟨rfl, rfl, rfl, rfl, rfl, rfl, rfl⟩

theorem SameCounters.steady {before after : State Seed} (same : SameCounters before after)
    {passes : Nat} (steady : Steady task before passes) : Steady task after passes := by
  obtain ⟨pointer_lt, scatter_len, current, parked⟩ := steady
  refine ⟨?_, ?_, ?_, ?_⟩
  · rw [same.pointer]
    exact pointer_lt
  · rw [same.scatter]
    exact scatter_len
  · rw [same.paths, same.pointer]
    exact current
  · rw [same.paths, same.pointer]
    exact parked

theorem compressPass_passed {state : State Seed} {buffer : Bytes}
    (steady : Steady task state (state.passInWarp + 1)) (held : Held state buffer)
    (filling : Filling task generator buffer (state.paths state.pathPointer).seed
      state.bufferStartWarp state.warpsInBuffer state.passInWarp)
    (hashed : Hashed task generator state.scatterBuf (state.paths state.pathPointer).seed
      (((state.bufferStartWarp + state.warpsInBuffer) * task.passesPerWarp + state.passInWarp) *
        compressBatch))
    (supply : Supply task) : Passed task generator (compressPass task supply state) := by
  have next := filling.pass steady.scatter_len hashed supply.helixOrder supply.helixOrder_spawned
  refine ⟨⟨steady.pointer_lt, steady.scatter_len, steady.current, steady.parked⟩, _,
    ⟨?_, held.path, held.offset⟩, next⟩
  simp only [compressPass, held.holding, Option.map_some]

/-- One pass of the loop body. -/
theorem HashedPass.passed {before state : State Seed} (escalated : 1 ≤ task.escalate)
    (pass : HashedPass task generator before state)
    (supply : Supply task) :
    Passed task generator (compressPass task supply (acquire task supply state)) := by
  obtain ⟨buffer, held, filling⟩ := acquire_held escalated pass.holding supply
  have same := acquire_same supply state
  refine compressPass_passed ?_ held filling ?_ supply
  · rw [same.pass, pass.pass]
    exact same.steady pass.steady
  · rw [held.offset, same.scatter, same.paths, same.pointer, same.pass]
    exact pass.hashed

theorem Passed.active {state : State Seed} (passed : Passed task generator state)
    (more : state.passInWarp < task.passesPerWarp) : Active task generator state := by
  obtain ⟨buffer, held, filling⟩ := passed.buffer
  refine ⟨passed.steady, more, ⟨?_, ?_⟩⟩
  · intro empty
    rw [held.holding] at empty
    cases empty
  · intro other inUse
    rw [held.holding] at inUse
    cases inUse
    exact ⟨held, filling⟩

/-- Behind the last pass a warp is complete. -/
theorem Passed.counting {state : State Seed} (passed : Passed task generator state)
    (last : state.passInWarp = task.passesPerWarp) :
    Counting task generator (completeWarp state) := by
  obtain ⟨buffer, held, filling⟩ := passed.buffer
  obtain ⟨pointer_lt, scatter_len, current, parked⟩ := passed.steady
  refine ⟨⟨pointer_lt, scatter_len, ?_, ?_⟩, rfl, Nat.succ_pos _, filling.room, buffer,
    ⟨held.holding, held.path, ?_⟩, ?_⟩
  · simp only [Counted, completeWarp, setPath_same] at current ⊢
    rw [current, last, Nat.add_mul _ 1, Nat.one_mul, Nat.add_zero]
  · intro path inside apart
    simp only [completeWarp] at apart ⊢
    rw [setPath_other _ _ _ _ apart]
    exact parked path inside apart
  · simp only [completeWarp, setPath_same, ← held.offset]
    omega
  · rw [last] at filling
    simp only [completeWarp, setPath_same]
    exact filling.last

theorem Counting.active {state : State Seed} (counting : Counting task generator state)
    (room : state.warpsInBuffer ≠ task.escalate) : Active task generator state := by
  obtain ⟨buffer, held, complete⟩ := counting.buffer
  have pass := counting.pass
  have steady := counting.steady
  rw [← pass] at steady
  refine ⟨steady, ?_, ⟨?_, ?_⟩⟩
  · rw [pass]
    exact passesPerWarp_pos task
  · intro empty
    rw [held.holding] at empty
    cases empty
  · intro other inUse
    rw [held.holding] at inUse
    cases inUse
    refine ⟨held, complete, ?_, ?_⟩
    · exact Nat.lt_of_le_of_ne counting.warps_le room
    · intro started
      rw [pass] at started
      exact absurd started (Nat.lt_irrefl 0)

theorem sentRight_send {sent : Nat → List (WriterTask Bytes Seed)}
    (right : SentRight task generator sent) (path : Nat) (writerTask : WriterTask Bytes Seed)
    (taskRight : Right task generator writerTask) :
    SentRight task generator (send sent path writerTask) := by
  intro other listed member
  by_cases same : other = path
  · subst same
    rw [send, Function.update_self] at member
    rcases List.mem_append.mp member with earlier | now
    · exact right other listed earlier
    · rw [List.mem_singleton.mp now]
      exact taskRight
  · rw [send, Function.update_of_ne same] at member
    exact right other listed member

/-- Complete warps are what `generate_scoop` recomputes. -/
theorem Complete.right {buffer : Bytes} {seed : Seed} {startWarp warps : Nat}
    (complete : Complete task generator buffer seed startWarp warps) (compressed : 1 ≤ task.compress)
    (numberOfWarps : Nat) :
    Right task generator (.processTask buffer seed startWarp warps numberOfWarps) := by
  intro slot scoop nonce slotLt scoopLt nonceLt
  rw [complete.filled slot slotLt scoop nonce scoopLt nonceLt,
    generateScoop_passes task generator compressed seed _ scoop nonce scoopLt nonceLt]

theorem flushBuffer_holding {state : State Seed} {buffer : Bytes}
    (holding : state.writeBuffer = some buffer) (seed : Seed) (nextWarpOffset currentPath : Nat) :
    flushBuffer task state seed nextWarpOffset currentPath =
      { state with
        writeBuffer := none
        sent := send state.sent state.bufferPath
          (.processTask buffer seed state.bufferStartWarp state.warpsInBuffer
            (task.warps currentPath))
        warpsInBuffer := 0
        bufferStartWarp := nextWarpOffset } := by
  simp only [flushBuffer, holding]

theorem completeFile_counted {entry : PathState Seed} {passes : Nat}
    (counted : Counted task entry passes) (drawn : Seed) (path : Nat) :
    Counted task (completeFile task drawn path entry) passes := counted

theorem Counting.flushFile {state : State Seed} (counting : Counting task generator state)
    (compressed : 1 ≤ task.compress) (right : SentRight task generator state.sent)
    (drawn : Seed) :
    Flushed task (flushFile task drawn state) ∧
      SentRight task generator (flushFile task drawn state).sent := by
  obtain ⟨buffer, held, complete⟩ := counting.buffer
  obtain ⟨pointer_lt, scatter_len, current, parked⟩ := counting.steady
  have sentRight := sentRight_send right state.bufferPath _
    (complete.right compressed (task.warps state.pathPointer))
  simp only [CpuScheduler.flushFile, flushBuffer_holding held.holding]
  by_cases boundary : atFileBoundary task state = true
  · simp only [boundary, ↓reduceIte]
    refine ⟨⟨⟨pointer_lt, scatter_len, ?_, ?_⟩, counting.pass, rfl, rfl⟩, sentRight⟩
    · simp only [setPath_same]
      exact completeFile_counted current drawn _
    · intro path inside apart
      simp only at apart ⊢
      rw [setPath_other _ _ _ _ apart]
      exact parked path inside apart
  · simp only [boundary]
    exact ⟨⟨⟨pointer_lt, scatter_len, current, parked⟩, counting.pass, rfl, rfl⟩, sentRight⟩

theorem sentRight_end {sent : Nat → List (WriterTask Bytes Seed)}
    (right : SentRight task generator sent) :
    SentRight task generator
      (fun path => if path < task.outputPaths then sent path ++ [.endTask] else sent path) := by
  intro path writerTask member
  simp only at member
  split at member
  · rcases List.mem_append.mp member with earlier | last
    · exact right path writerTask earlier
    · rw [List.mem_singleton.mp last]
      trivial
  · exact right path writerTask member

/-- Whatever is left in the write buffer when the loop ends are complete warps. -/
theorem finish_sound {state : State Seed} (compressed : 1 ≤ task.compress)
    (active : Active task generator state) (right : SentRight task generator state.sent) :
    Sound task generator (finish task state) := by
  refine ⟨?_, by nofun⟩
  simp only [finish]
  apply sentRight_end
  split
  · rename_i left
    cases inUse : state.writeBuffer with
    | none =>
      have empty := (active.holding.empty inUse).1
      omega
    | some buffer =>
      obtain ⟨held, filling⟩ := active.holding.held buffer inUse
      rw [flushBuffer_holding inUse, held.path]
      exact sentRight_send right _ _ (filling.complete.right compressed _)
  · exact right

theorem goOn_active {state : State Seed} (flushed : Flushed task state) (boundary : Bool)
    {next : Nat} (nextLt : next < task.outputPaths) :
    Active task generator (goOn boundary next state) := by
  obtain ⟨pointer_lt, scatter_len, current, parked⟩ := flushed.steady
  have counted (path : Nat) (inside : path < task.outputPaths) :
      Counted task ((goOn boundary next state).paths path) 0 := by
    simp only [goOn]
    by_cases old : path = state.pathPointer
    · subst old
      split
      · simp only [Counted, setPath_same, Nat.zero_mul, Nat.add_zero]
      · exact current
    · split
      · rw [setPath_other _ _ _ _ old]
        exact parked path inside old
      · exact parked path inside old
  apply Flushed.active
  exact ⟨⟨nextLt, scatter_len, counted next nextLt, fun path inside _ => counted path inside⟩,
    flushed.pass, flushed.warps, flushed.buffer⟩

theorem switch_sound {state : State Seed} (compressed : 1 ≤ task.compress)
    (flushed : Flushed task state) (right : SentRight task generator state.sent) (boundary : Bool) :
    Sound task generator (switch task boundary state) := by
  unfold switch
  cases found : switchPath task state.paths state.pathPointer with
  | none => exact finish_sound compressed flushed.active right
  | some next =>
    simp only
    split
    · exact ⟨right, fun _ =>
        goOn_active flushed boundary (switchPath_lt flushed.steady.pointer_lt found)⟩
    · exact ⟨right, fun _ => flushed.active⟩

theorem compressTurn_sound {before state : State Seed} (compressed : 1 ≤ task.compress)
    (escalated : 1 ≤ task.escalate) (pass_lt : before.passInWarp < task.passesPerWarp)
    (pass : HashedPass task generator before state)
    (right : SentRight task generator state.sent) (supply : Supply task) :
    Sound task generator (compressTurn task supply state) := by
  have after := pass.passed escalated supply
  have sent : (compressPass task supply (acquire task supply state)).sent = state.sent :=
    (acquire_same supply state).sent
  have pass_le : (compressPass task supply (acquire task supply state)).passInWarp ≤
      task.passesPerWarp := by
    simp only [compressPass, (acquire_same supply state).pass, pass.pass]
    exact pass_lt
  unfold compressTurn
  generalize compressPass task supply (acquire task supply state) = next at after sent pass_le ⊢
  rw [← sent] at right
  simp only
  split
  · rename_i last
    have counting := after.counting last
    split
    · obtain ⟨flushed, sentRight⟩ := counting.flushFile compressed right supply.seed
      exact switch_sound compressed flushed sentRight _
    · rename_i unfilled
      exact ⟨right, fun _ => counting.active (fun full => unfilled (Or.inl full))⟩
  · rename_i more
    exact ⟨right, fun _ => after.active (by omega)⟩

theorem step_sound {before after : State Seed} (compressed : 1 ≤ task.compress)
    (escalated : 1 ≤ task.escalate) (sound : Sound task generator before) (supply : Supply task)
    (taken : step task generator.generateNonces before supply = some after) :
    Sound task generator after := by
  unfold step at taken
  split at taken
  · cases taken
  · rename_i running
    have active := sound.active (Bool.eq_false_iff.mpr running)
    split at taken
    · cases taken
      exact finish_sound compressed active sound.sent_right
    · obtain ⟨hashed, done, pass⟩ := hashPass_spec active supply
      rw [done, Option.map_some, Option.some.injEq] at taken
      rw [← taken]
      exact compressTurn_sound compressed escalated active.pass_lt pass
        (by rw [pass.sent]; exact sound.sent_right) supply

theorem start_sound (resumes : Nat → Nat) (resumable : Resumable task resumes)
    (drawn redrawn : Nat → Seed) :
    Sound task generator (start task resumes drawn redrawn) := by
  have counted (path : Nat) (inside : path < task.outputPaths) :
      Counted task (startPath task resumes drawn redrawn path) 0 :=
    startPath_counter task resumes drawn redrawn resumable path inside
  have pointer := startPointer_lt task (startPath task resumes drawn redrawn)
  refine ⟨?_, ?_⟩
  · intro path writerTask member
    simp only [start, startTasks] at member
    split at member
    · rw [List.mem_singleton.mp member]
      trivial
    · cases member
  · intro _
    apply Flushed.active
    exact ⟨⟨pointer, rfl, counted _ pointer, fun path inside _ => counted path inside⟩, rfl, rfl,
      rfl⟩

/-- In every run each task for a writer carries, in each of its warp slots, the scoops
that `generate_scoop` computes for that warp. -/
theorem sent_scoops_recomputed (task : PlotterTask Payload Seed)
    (generator : NonceGenerator Payload Seed) (resumes : Nat → Nat) (compressed : 1 ≤ task.compress)
    (escalated : 1 ≤ task.escalate) (resumable : Resumable task resumes) (state : State Seed)
    (reached : Reachable (system task generator.generateNonces resumes) always state) (path : Nat) (buffer : Bytes)
    (seed : Seed) (warpOffset warpsToWrite numberOfWarps : Nat)
    (sent : .processTask buffer seed warpOffset warpsToWrite numberOfWarps ∈ state.sent path)
    (slot scoop nonce : Nat) (slotLt : slot < warpsToWrite) (scoopLt : scoop < numScoops)
    (nonceLt : nonce < numScoops) :
    generateScoop generator.generateNonces task.addressPayload seed scoop
        ((warpOffset + slot) * numScoops + nonce) task.compress =
      .ok (slotAt buffer task.escalate slot scoop nonce) := by
  have sound : Sound task generator state := by
    apply reached.invariant (Sound task generator)
    · rintro _ ⟨drawn, redrawn, rfl⟩
      exact start_sound resumes resumable drawn redrawn
    · intro before supply after sound _ taken
      exact step_sound compressed escalated sound supply taken
  exact sound.sent_right path _ sent slot scoop nonce slotLt scoopLt nonceLt

/-- One path with one plot of one warp. -/
def oneWarp : PlotterTask Unit Unit where
  addressPayload := ()
  seeds := fun _ => some ()
  warps := fun _ => 1
  numberOfPlots := fun _ => 1
  outputPaths := 1
  compress := 1
  escalate := 1
  outputPaths_pos := Nat.one_pos

theorem hashTasks_spawned :
    (CpuHasher.hashTasks compressBatch 0).Perm (CpuHasher.hashTasks compressBatch 0) :=
  List.Perm.refl _

theorem helixCells_spawned : (helixCells 1).Perm (helixCells 1) := List.Perm.refl _

/-- A stale buffer, and the tasks of the pool in the order they are spawned. -/
def oneSupply : Supply oneWarp where
  stop := false
  seed := ()
  buffer := ⟨1 * warpSize, fun _ => 7⟩
  buffer_len := rfl
  hashOrder := CpuHasher.hashTasks compressBatch 0
  hashOrder_spawned := hashTasks_spawned
  helixOrder := helixCells 1
  helixOrder_spawned := helixCells_spawned

/-- Some uncompressed nonces. -/
def oneGenerator : NonceGenerator Unit Unit :=
  .ofRaw fun _ _ nonce scoop => ⟨fun z => (nonce + scoop + z).toUInt8⟩

theorem sent_scoops_recomputed_one_warp :
    ∃ state buffer,
      Reachable (system oneWarp oneGenerator.generateNonces fun _ => 0) always state ∧
      .processTask buffer () 0 1 1 ∈ state.sent 0 ∧
      generateScoop oneGenerator.generateNonces () () 5 ((0 + 0) * numScoops + 9) 1 =
        .ok (slotAt buffer 1 0 5 9) := by
  let first := start oneWarp (fun _ => 0) (fun _ => ()) fun _ => ()
  obtain ⟨scatterBuf, hashed, -⟩ := hashNoncesCpu_spec oneGenerator () () 0 compressBatch
    oneSupply.hashOrder first.scatterBuf (Nat.mul_div_cancel _ (by decide)) oneSupply.hashOrder_spawned
  let state := compressTurn oneWarp oneSupply
    { first with
      scatterBuf := scatterBuf
      paths := setPath first.paths 0 { first.paths 0 with globalNonces := 0 + compressBatch } }
  have taken : (system oneWarp oneGenerator.generateNonces fun _ => 0).step first oneSupply =
      some state := by
    have pass : hashPass oneWarp oneGenerator.generateNonces oneSupply first = some _ :=
      congrArg (Option.map _) hashed
    exact congrArg (Option.map _) pass
  have reached : Reachable (system oneWarp oneGenerator.generateNonces fun _ => 0) always state :=
    .next (.start ⟨fun _ => (), fun _ => (), rfl⟩) trivial taken
  let buffer := helixCompress scatterBuf oneSupply.buffer 0 oneSupply.helixOrder
  have sent : .processTask buffer () 0 1 1 ∈ state.sent 0 := List.mem_singleton_self _
  exact ⟨state, buffer, reached, sent,
    sent_scoops_recomputed oneWarp oneGenerator (fun _ => 0) (by decide) (by decide)
      (fun _ _ _ => rfl) state reached 0 buffer () 0 1 1 sent 0 5 9 (by decide) (by decide)
      (by decide)⟩

end Runs

end Pocx.CpuScheduler
