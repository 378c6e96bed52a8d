import Pocx.Lib.Transition
import Pocx.Plotter.CpuCompressor
import Pocx.Plotter.CpuHasher
import Pocx.Plotter.Task

set_option autoImplicit false

namespace Pocx.CpuScheduler

open ByteStore
open Pocx.Plotter
open CpuCompressor (Cell helixCells helixCompress helixCompressXor)
open CpuHasher (hashTasks hashNoncesCpu)
open Hashlib (GenerateNonces)
open PlotFile (nonceSize warpSize)
open RingLoop (compressBatch)
open Transition (System)

variable {Payload Seed : Type}

/-- `SCATTER_SIZE` -/
def scatterSize : Nat := compressBatch * nonceSize

/-- The locals of the thread at the head of its main loop. -/
structure State (Seed : Type) where
  paths : Nat → PathState Seed
  scatterBuf : Bytes
  passInWarp : Nat
  pathPointer : Nat
  writeBuffer : Option Bytes
  warpsInBuffer : Nat
  bufferStartWarp : Nat
  bufferPath : Nat
  sent : Nat → List (WriterTask Bytes Seed)
  done : Bool

/-- What one turn takes from outside: whether a stop is requested, a seed of the random
generator, an empty write buffer with whatever it held before, and the orders in which
the pool runs its tasks. The main thread keeps a sender of the pool of buffers, so
`recv` does not fail; a writer that fails requests a stop. -/
structure Supply (task : PlotterTask Payload Seed) where
  stop : Bool
  seed : Seed
  buffer : Bytes
  buffer_len : buffer.len = task.escalate * warpSize
  hashOrder : List (Nat × Nat)
  hashOrder_spawned : hashOrder.Perm (hashTasks compressBatch 0)
  helixOrder : List Cell
  helixOrder_spawned : helixOrder.Perm (helixCells 1)

/-- The closure `flush_buffer`; the writer's channel is open. -/
def flushBuffer (task : PlotterTask Payload Seed) (state : State Seed) (seed : Seed)
    (nextWarpOffset currentPath : Nat) : State Seed :=
  match state.writeBuffer with
  | none => state
  | some buffer =>
    { state with
      writeBuffer := none
      sent := send state.sent state.bufferPath
        (.processTask buffer seed state.bufferStartWarp state.warpsInBuffer
          (task.warps currentPath))
      warpsInBuffer := 0
      bufferStartWarp := nextWarpOffset }

/-- Hash the next nonces of the current path into the scatter buffer. -/
def hashPass (task : PlotterTask Payload Seed) (generateNonces : GenerateNonces Payload Seed)
    (supply : Supply task) (state : State Seed) : Option (State Seed) :=
  let entry := state.paths state.pathPointer
  (hashNoncesCpu generateNonces state.scatterBuf task.addressPayload entry.seed entry.globalNonces
    supply.hashOrder).map fun scatterBuf =>
      { state with
        scatterBuf := scatterBuf
        paths := setPath state.paths state.pathPointer
          { entry with globalNonces := entry.globalNonces + compressBatch } }

/-- Take a write buffer if none is held. It is not cleared. -/
def acquire (task : PlotterTask Payload Seed) (supply : Supply task) (state : State Seed) :
    State Seed :=
  if state.writeBuffer.isNone then
    { state with
      writeBuffer := some supply.buffer
      bufferStartWarp := (state.paths state.pathPointer).warpOffset
      bufferPath := state.pathPointer }
  else state

def compressPass (task : PlotterTask Payload Seed) (supply : Supply task) (state : State Seed) :
    State Seed :=
  { state with
    writeBuffer := state.writeBuffer.map fun buf =>
      if state.passInWarp = 0 then
        helixCompress state.scatterBuf buf state.warpsInBuffer supply.helixOrder
      else helixCompressXor state.scatterBuf buf state.warpsInBuffer supply.helixOrder
    passInWarp := state.passInWarp + 1 }

/-- Count the warp that is complete. -/
def completeWarp (state : State Seed) : State Seed :=
  let entry := state.paths state.pathPointer
  { state with
    passInWarp := 0
    warpsInBuffer := state.warpsInBuffer + 1
    paths := setPath state.paths state.pathPointer
      { entry with warpOffset := entry.warpOffset + 1 } }

def atFileBoundary (task : PlotterTask Payload Seed) (state : State Seed) : Bool :=
  decide ((state.paths state.pathPointer).warpOffset = task.warps state.pathPointer)

/-- Flush a full buffer or a complete file, and count the file if it is complete. -/
def flushFile (task : PlotterTask Payload Seed) (drawn : Seed) (state : State Seed) :
    State Seed :=
  let entry := state.paths state.pathPointer
  let flushed := flushBuffer task state entry.seed entry.warpOffset state.pathPointer
  if atFileBoundary task state then
    { flushed with
      paths := setPath flushed.paths flushed.pathPointer
        (completeFile task drawn flushed.pathPointer entry) }
  else flushed

/-- Flush what is left and stop every writer. -/
def finish (task : PlotterTask Payload Seed) (state : State Seed) : State Seed :=
  let flushed :=
    if 0 < state.warpsInBuffer then
      flushBuffer task state (state.paths state.bufferPath).seed
        (state.paths state.bufferPath).warpOffset state.bufferPath
    else state
  { flushed with
    sent := fun path =>
      if path < task.outputPaths then flushed.sent path ++ [.endTask] else flushed.sent path
    done := true }

/-- Go on with the path `next`; a finished file starts over. -/
def goOn (boundary : Bool) (next : Nat) (state : State Seed) : State Seed :=
  let entry := state.paths state.pathPointer
  let paths :=
    if boundary then
      setPath state.paths state.pathPointer { entry with warpOffset := 0, globalNonces := 0 }
    else state.paths
  { state with
    paths := paths
    pathPointer := next
    bufferStartWarp := (paths next).warpOffset }

/-- Choose the path to go on with; where no path is active the loop ends. -/
def switch (task : PlotterTask Payload Seed) (boundary : Bool) (state : State Seed) :
    State Seed :=
  match switchPath task state.paths state.pathPointer with
  | none => finish task state
  | some next =>
    if next ≠ state.pathPointer ∨ boundary then goOn boundary next state else state

/-- The body of the main loop behind the hashing. -/
def compressTurn (task : PlotterTask Payload Seed) (supply : Supply task) (state : State Seed) :
    State Seed :=
  let passed := compressPass task supply (acquire task supply state)
  if passed.passInWarp = task.passesPerWarp then
    let counted := completeWarp passed
    if counted.warpsInBuffer = task.escalate ∨ atFileBoundary task counted then
      switch task (atFileBoundary task counted) (flushFile task supply.seed counted)
    else counted
  else passed

/-- One turn of the main loop; `none` behind its end and where the hasher panics. -/
def step (task : PlotterTask Payload Seed) (generateNonces : GenerateNonces Payload Seed)
    (state : State Seed) (supply : Supply task) : Option (State Seed) :=
  if state.done then none
  else if allComplete task state.paths || supply.stop then some (finish task state)
  else (hashPass task generateNonces supply state).map (compressTurn task supply)

/-- The state in which the thread enters its main loop. -/
def start (task : PlotterTask Payload Seed) (resumes : Nat → Nat) (drawn redrawn : Nat → Seed) :
    State Seed :=
  let paths := startPath task resumes drawn redrawn
  let pointer := startPointer task paths
  { paths := paths
    scatterBuf := ⟨scatterSize, fun _ => 0⟩
    passInWarp := 0
    pathPointer := pointer
    writeBuffer := none
    warpsInBuffer := 0
    bufferStartWarp := (paths pointer).warpOffset
    bufferPath := pointer
    sent := startTasks task resumes drawn
    done := false }

def system (task : PlotterTask Payload Seed) (generateNonces : GenerateNonces Payload Seed)
    (resumes : Nat → Nat) : System (State Seed) (Supply task) where
  initial := fun state => ∃ drawn redrawn, state = start task resumes drawn redrawn
  step := step task generateNonces

end Pocx.CpuScheduler
