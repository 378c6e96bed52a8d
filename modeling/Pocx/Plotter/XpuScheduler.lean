import Mathlib.Algebra.BigOperators.Intervals
import Mathlib.Logic.Function.Basic
import Pocx.Lib.ByteStore
import Pocx.Lib.RoundRobin
import Pocx.Lib.Transition
import Pocx.PlotFile.Layout

set_option autoImplicit false

namespace Pocx.XpuScheduler

open ByteStore
open PlotFile (numScoops warpSize)
open Transition (System)

/-- The part of `PlotterTask` that the scheduler and the compressor read. The vectors have
one entry for each of the `outputPaths` paths. -/
structure PlotterTask (Payload Seed : Type) where
  addressPayload : Payload
  seed : Option Seed
  warps : Nat → Nat
  numberOfPlots : Nat → Nat
  outputPaths : Nat
  compress : Nat
  cpuThreads : Nat
  outputPaths_pos : 0 < outputPaths

/-- What the scheduler sends to the compressor with a full buffer. -/
structure CompressorTask (Seed : Type) where
  buffer : Bytes
  seed : Seed
  warpOffset : Nat
  warpsToCompress : Nat
  numberOfWarps : Nat
  pathPointer : Nat

/-- The locals of the thread at the head of its loop, and what it has sent so far. -/
structure State (Seed : Type) where
  hashProgress : Nat → Nat
  plotfileProgress : Nat → Nat
  seeds : Nat → Seed
  pointer : Nat
  sent : List (CompressorTask Seed)
  done : Bool

/-- What one turn takes from outside: what `is_stop_requested` reports at its head and behind
its buffer, an empty buffer as the hashers leave it, a seed of the random generator, and
whether a worker's last request for work is still in the channel. -/
structure Supply (Payload Seed : Type) (task : PlotterTask Payload Seed) where
  stopBefore : Bool
  stopBehind : Bool
  buffer : Bytes
  buffer_len : 2 ^ task.compress * warpSize ≤ buffer.len
  seed : Seed
  leftover : Bool

variable {Payload Seed : Type}

def nextActivePath (task : PlotterTask Payload Seed) (plotfileProgress : Nat → Nat)
    (current : Nat) : Option Nat :=
  RoundRobin.next task.outputPaths
    (fun candidate => decide (plotfileProgress candidate < task.numberOfPlots candidate)) current

def warpsToHash (task : PlotterTask Payload Seed) (bufferSize : Nat) (state : State Seed) : Nat :=
  min (bufferSize / warpSize / 2 ^ task.compress)
    (task.warps state.pointer - state.hashProgress state.pointer)

def noncesToHash (task : PlotterTask Payload Seed) (bufferSize : Nat) (state : State Seed) : Nat :=
  2 ^ task.compress * warpsToHash task bufferSize state * numScoops

def noncesHashed (task : PlotterTask Payload Seed) (state : State Seed) : Nat :=
  2 ^ task.compress * state.hashProgress state.pointer * numScoops

/-- The control loop compares its counters only behind a message. Where no nonce is
requested, there is none apart from one that an earlier buffer left behind. -/
def awaited (task : PlotterTask Payload Seed) (supply : Supply Payload Seed task)
    (state : State Seed) : Bool :=
  decide (0 < noncesToHash task supply.buffer.len state) ||
    (supply.leftover && !state.sent.isEmpty)

/-- Queue the buffer for compressing. -/
def queue (task : PlotterTask Payload Seed) (buffer : Bytes) (state : State Seed) : State Seed :=
  { state with
    sent := state.sent ++ [
      { buffer := buffer
        seed := state.seeds state.pointer
        warpOffset := state.hashProgress state.pointer
        warpsToCompress := warpsToHash task buffer.len state
        numberOfWarps := task.warps state.pointer
        pathPointer := state.pointer }]
    hashProgress := Function.update state.hashProgress state.pointer
      (state.hashProgress state.pointer + warpsToHash task buffer.len state) }

/-- Count a complete file; the next one of its path starts over. -/
def countFile (task : PlotterTask Payload Seed) (drawn : Seed) (state : State Seed) : State Seed :=
  if state.hashProgress state.pointer = task.warps state.pointer then
    let filesDone := state.plotfileProgress state.pointer + 1
    { state with
      plotfileProgress := Function.update state.plotfileProgress state.pointer filesDone
      hashProgress :=
        if filesDone < task.numberOfPlots state.pointer then
          Function.update state.hashProgress state.pointer 0
        else state.hashProgress
      seeds :=
        if filesDone < task.numberOfPlots state.pointer then
          Function.update state.seeds state.pointer drawn
        else state.seeds }
  else state

/-- Go on with the next path that still has work. -/
def advance (task : PlotterTask Payload Seed) (stop : Bool) (state : State Seed) : State Seed :=
  match nextActivePath task state.plotfileProgress state.pointer with
  | some next =>
    { state with
      pointer := next
      done := stop }
  | none => { state with done := true }

/-- One turn of the loop over the empty buffers; `none` behind its end, and where the control
loop waits for ever. -/
def step (task : PlotterTask Payload Seed) (state : State Seed)
    (supply : Supply Payload Seed task) : Option (State Seed) :=
  if state.done then none
  else if supply.stopBefore then some { state with done := true }
  else if awaited task supply state then
    some (advance task supply.stopBehind
      (countFile task supply.seed (queue task supply.buffer state)))
  else none

/-- The state in which the thread enters its loop. -/
def start (task : PlotterTask Payload Seed) (resume : Nat) (drawn : Nat → Seed) : State Seed where
  hashProgress := Function.update (fun _ => 0) 0 resume
  plotfileProgress := fun _ => 0
  seeds := fun path => if path = 0 then task.seed.getD (drawn 0) else drawn path
  pointer := 0
  sent := []
  done := false

def system (task : PlotterTask Payload Seed) (resume : Nat) :
    System (State Seed) (Supply Payload Seed task) where
  initial state := ∃ drawn, state = start task resume drawn
  step := step task

/-- The number of warps after which `create_chunk_compressor_thread` ends. -/
def totalWarps (task : PlotterTask Payload Seed) (resume : Nat) : Nat :=
  (∑ path ∈ Finset.range task.outputPaths, task.warps path * task.numberOfPlots path) - resume

end Pocx.XpuScheduler
