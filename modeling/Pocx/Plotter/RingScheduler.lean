import Pocx.Plotter.Task

set_option autoImplicit false

namespace Pocx.RingScheduler

open Pocx.Plotter
open RingLoop (GpuRingContext Params compressBatch)
open RingQueue (Queue)
open Transition (System)

variable {Payload Seed : Type}

/-- One `gpu_ring_compress`: the path, file, warp and pass the counters name, the
seed of that file and the slots the kernel reads, in order. -/
structure Call (Seed : Type) where
  path : Nat
  file : Nat
  warp : Nat
  pass : Nat
  seed : Seed
  input : Nat → Seed × Nat

/-- What a write buffer holds in each of its warp slots: the calls accumulated there. -/
abbrev Buffer (Seed : Type) := Nat → List (Call Seed)

/-- Where the thread is: at the head of the main loop, in one of its two phases, or
between the last pass of a warp and the transfer of that warp. -/
inductive Phase
  | top
  | fill
  | compress
  | transfer
  | done
deriving DecidableEq

structure State (Seed : Type) where
  calls : List (Call Seed)
  paths : Nat → PathState Seed
  gpuSeed : Seed
  ring : Queue (Seed × Nat)
  compressedBuffer : List (Call Seed)
  passInWarp : Nat
  pathPointer : Nat
  writeBuffer : Option (Buffer Seed)
  warpsInBuffer : Nat
  bufferStartWarp : Nat
  bufferPath : Nat
  pendingTransfer : Bool
  sent : Nat → List (WriterTask (Buffer Seed) Seed)
  phase : Phase

/-- What a step may take from outside: a seed of the random generator and a write
buffer from the pool. The main thread keeps a sender of the pool, so `recv` does
not fail; a writer that fails requests a stop. -/
structure Supply (Seed : Type) where
  seed : Seed
  buffer : Buffer Seed

/-- The file of a path under the seed the GPU holds. -/
def fileParams (task : PlotterTask Payload Seed) (gpu : GpuRingContext) (path : Nat)
    (seed : Seed) : Params Seed where
  gpu := gpu
  seed := seed
  warps := task.warps path
  compress := task.compress

/-- The ring and the counters of the current path. -/
def view (entry : PathState Seed) (ring : Queue (Seed × Nat)) (passInWarp : Nat) :
    RingLoop.State Seed where
  ring := ring
  globalNonces := entry.globalNonces
  passInWarp := passInWarp
  warpOffset := entry.warpOffset

/-- `u64` subtraction as the release build performs it. -/
def wrappingSub (a b : Nat) : Nat := if b ≤ a then a - b else a + 2 ^ 64 - b

/-- The closure `flush_buffer`; the writer's channel is open. -/
def flushBuffer (task : PlotterTask Payload Seed) (state : State Seed) (seed : Seed)
    (nextWarpOffset currentPath : Nat) : State Seed :=
  match state.writeBuffer with
  | none => state
  | some buffer =>
    { state with
      writeBuffer := none
      sent := send state.sent state.bufferPath
        (.processTask buffer seed state.bufferStartWarp state.warpsInBuffer
          (task.warps currentPath))
      warpsInBuffer := 0
      bufferStartWarp := nextWarpOffset }

/-- One turn of the fill loop. -/
def fill (task : PlotterTask Payload Seed) (gpu : GpuRingContext) (state : State Seed) :
    State Seed :=
  let entry := state.paths state.pathPointer
  let dispatched :=
    RingLoop.dispatch (fileParams task gpu state.pathPointer state.gpuSeed)
      (view entry state.ring state.passInWarp)
  { state with
    ring := dispatched.ring
    paths := setPath state.paths state.pathPointer
      { entry with globalNonces := dispatched.globalNonces } }

/-- The call the counters name next. -/
def nextCall (task : PlotterTask Payload Seed) (gpu : GpuRingContext) (state : State Seed) :
    Call Seed where
  path := state.pathPointer
  file := (state.paths state.pathPointer).filesDone
  warp := (state.paths state.pathPointer).warpOffset
  pass := state.passInWarp
  seed := (state.paths state.pathPointer).seed
  input :=
    RingLoop.compressInput (fileParams task gpu state.pathPointer state.gpuSeed)
      (view (state.paths state.pathPointer) state.ring state.passInWarp)

/-- `gpu_ring_compress`, after the previous transfer has been waited for. The first
pass of a warp overwrites the compressed buffer. -/
def ringCompress (task : PlotterTask Payload Seed) (gpu : GpuRingContext) (state : State Seed) :
    State Seed :=
  { state with
    calls := state.calls ++ [nextCall task gpu state]
    compressedBuffer :=
      if 0 < state.passInWarp then state.compressedBuffer ++ [nextCall task gpu state]
      else [nextCall task gpu state]
    ring := RingQueue.pop compressBatch state.ring
    pendingTransfer := false }

/-- One turn of the compress loop up to the end of a warp. -/
def compress (task : PlotterTask Payload Seed) (gpu : GpuRingContext) (state : State Seed) :
    State Seed :=
  if state.passInWarp + 1 = task.passesPerWarp then
    { ringCompress task gpu state with passInWarp := 0, phase := .transfer }
  else { ringCompress task gpu state with passInWarp := state.passInWarp + 1 }

/-- Take a write buffer if none is held and copy the warp into its next slot. -/
def transferWarp (gpu : GpuRingContext) (supply : Supply Seed) (state : State Seed) :
    State Seed :=
  let entry := state.paths state.pathPointer
  let acquired :=
    if state.writeBuffer.isNone then
      { state with
        writeBuffer := some supply.buffer
        bufferStartWarp := entry.warpOffset
        bufferPath := state.pathPointer }
    else state
  { acquired with
    writeBuffer := acquired.writeBuffer.map fun buffer =>
      Function.update buffer acquired.warpsInBuffer acquired.compressedBuffer
    pendingTransfer := gpu.isDgpu
    warpsInBuffer := acquired.warpsInBuffer + 1
    paths := setPath acquired.paths acquired.pathPointer
      { entry with warpOffset := entry.warpOffset + 1 } }

/-- Discard the ring and go on with the path `next`. The leftovers of an unfinished
file are given back to its nonce counter; a finished file starts over. -/
def discardRing (atFileBoundary : Bool) (next : Nat) (state : State Seed) : State Seed :=
  let entry := state.paths state.pathPointer
  let rolledBack :=
    if atFileBoundary then { entry with warpOffset := 0, globalNonces := 0 }
    else { entry with globalNonces := wrappingSub entry.globalNonces state.ring.available }
  let paths := setPath state.paths state.pathPointer rolledBack
  { state with
    paths := paths
    ring := RingQueue.clear state.ring
    pathPointer := next
    gpuSeed := (paths next).seed
    bufferStartWarp := (paths next).warpOffset
    phase := .top }

/-- The test at the end of the loop body: with a transfer in flight a discrete GPU
goes back to hashing. -/
def resumePhase (task : PlotterTask Payload Seed) (gpu : GpuRingContext) (state : State Seed) :
    Phase :=
  if gpu.isDgpu && state.pendingTransfer &&
      decide ((state.paths state.pathPointer).globalNonces <
        (fileParams task gpu state.pathPointer state.gpuSeed).noncesForFile) then .top
  else .compress

def atFileBoundary (task : PlotterTask Payload Seed) (state : State Seed) : Bool :=
  decide ((state.paths state.pathPointer).warpOffset = task.warps state.pathPointer)

/-- Flush a full buffer or a complete file, and count the file if it is complete. -/
def flushFile (task : PlotterTask Payload Seed) (drawn : Seed) (state : State Seed) :
    State Seed :=
  let entry := state.paths state.pathPointer
  let flushed :=
    flushBuffer task { state with pendingTransfer := false } entry.seed entry.warpOffset
      state.pathPointer
  if atFileBoundary task state then
    { flushed with
      paths := setPath flushed.paths flushed.pathPointer
        (completeFile task drawn flushed.pathPointer entry) }
  else flushed

/-- Choose the path to go on with. -/
def switch (task : PlotterTask Payload Seed) (gpu : GpuRingContext) (boundary : Bool)
    (state : State Seed) : State Seed :=
  match switchPath task state.paths state.pathPointer with
  | none => { state with phase := .top }
  | some next =>
    if next ≠ state.pathPointer ∨ boundary then discardRing boundary next state
    else { state with phase := resumePhase task gpu state }

/-- Everything the loop body does once the last pass of a warp is compressed. -/
def transfer (task : PlotterTask Payload Seed) (gpu : GpuRingContext) (supply : Supply Seed)
    (state : State Seed) : State Seed :=
  let moved := transferWarp gpu supply state
  if moved.warpsInBuffer = task.escalate ∨ atFileBoundary task moved then
    switch task gpu (atFileBoundary task moved) (flushFile task supply.seed moved)
  else { moved with phase := resumePhase task gpu moved }

/-- Flush what is left and stop every writer. -/
def finish (task : PlotterTask Payload Seed) (state : State Seed) : State Seed :=
  let waited := { state with pendingTransfer := false }
  let flushed :=
    if 0 < waited.warpsInBuffer then
      flushBuffer task waited (waited.paths waited.bufferPath).seed
        (waited.paths waited.bufferPath).warpOffset waited.bufferPath
    else waited
  { flushed with
    sent := fun path =>
      if path < task.outputPaths then flushed.sent path ++ [.endTask] else flushed.sent path
    phase := .done }

/-- The thread without a stop request. -/
def step (task : PlotterTask Payload Seed) (gpu : GpuRingContext) (state : State Seed)
    (supply : Supply Seed) : Option (State Seed) :=
  match state.phase with
  | .top =>
    if allComplete task state.paths then some (finish task state)
    else some { state with phase := .fill }
  | .fill =>
    if RingLoop.hasRoom (fileParams task gpu state.pathPointer state.gpuSeed)
        (view (state.paths state.pathPointer) state.ring state.passInWarp) then
      some (fill task gpu state)
    else some { state with phase := .compress }
  | .compress =>
    if RingLoop.canCompress (view (state.paths state.pathPointer) state.ring state.passInWarp)
    then some (compress task gpu state)
    else some { state with phase := .top }
  | .transfer => some (transfer task gpu supply state)
  | .done => none

/-- The state in which the thread enters its main loop. The ring cells hold what the
allocation left there. -/
def start (task : PlotterTask Payload Seed) (resumes : Nat → Nat) (drawn redrawn : Nat → Seed)
    (cells : Nat → Seed × Nat) : State Seed :=
  let paths := startPath task resumes drawn redrawn
  let pointer := startPointer task paths
  let reupload :=
    (markerFull task resumes 0 && decide (1 < task.numberOfPlots 0)) || decide (pointer ≠ 0)
  { calls := []
    paths := paths
    gpuSeed := if reupload then (paths pointer).seed
      else (resumePath task resumes drawn 0).seed
    ring := ⟨cells, 0, 0⟩
    compressedBuffer := []
    passInWarp := 0
    pathPointer := pointer
    writeBuffer := none
    warpsInBuffer := 0
    bufferStartWarp := (paths pointer).warpOffset
    bufferPath := pointer
    pendingTransfer := false
    sent := startTasks task resumes drawn
    phase := .top }

def system (task : PlotterTask Payload Seed) (gpu : GpuRingContext) (resumes : Nat → Nat) :
    System (State Seed) (Supply Seed) where
  initial := fun state => ∃ drawn redrawn cells,
    state = start task resumes drawn redrawn cells
  step := step task gpu

end Pocx.RingScheduler
