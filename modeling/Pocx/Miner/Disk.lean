import Mathlib.Logic.Function.Basic
import Pocx.Lib.Transition
import Pocx.PlotFile.Layout

set_option autoImplicit false

namespace Pocx.Disk

open Pocx.PlotFile
open Transition (System)

/-- The plots of every disk, with their numbers of warps, and the size in bytes of the
read buffers, which hold at least one warp of a scoop. -/
structure Array where
  disks : Nat
  plots : Nat → Nat
  warps : Nat → Nat → Nat
  capacity : Nat
  capacity_ge : numScoops * scoopSize ≤ capacity

/-- `PoCXPlotFile::read`: the warps one call reads into the buffer. -/
def warpsToRead (numberOfWarps readProgress capacity : Nat) : Nat :=
  min (numberOfWarps - readProgress) (capacity / numScoops / scoopSize)

/-- The condition of the loop that fills a buffer. -/
def fillsOn (numberOfWarps readProgress capacity totalWarpsInBuffer : Nat) : Bool :=
  decide (totalWarpsInBuffer = 0) ||
    (decide (readProgress < numberOfWarps) &&
      decide (totalWarpsInBuffer * numScoops * scoopSize < capacity))

/-- A range of warps of one plot: what a `ScanMessage::Data` delivers. -/
structure ReadReply where
  disk : Nat
  plot : Nat
  warpOffset : Nat
  numberOfWarps : Nat
deriving DecidableEq

/-- Where the reader of a disk is: at a plot, in the loop that fills the buffer begun
at warp `start`, behind a read and before the interrupt check, or done. -/
inductive Reader
  | scanning (plot : Nat)
  | filling (plot start total : Nat)
  | checking (plot start total : Nat)
  | finished
  | interrupted
deriving DecidableEq

/-- The rounds of one block: a round is running, or the block is paused with a
snapshot of the progress, or it has left the miner. -/
inductive Phase
  | running
  | paused (scanProgress : Nat → Nat → Nat)
  | finished
  | dropped

/-- `delivered` lists the data messages of all rounds of the block. `thrown` records
the buffers that an interrupted reader gave back. -/
structure State where
  readProgress : Nat → Nat → Nat
  readers : Nat → Reader
  phase : Phase
  interrupt : Bool
  pause : Bool
  delivered : List ReadReply
  thrown : List ReadReply

def setProgress (progress : Nat → Nat → Nat) (disk plot value : Nat) : Nat → Nat → Nat :=
  Function.update progress disk (Function.update (progress disk) plot value)

def setReader (disk : Nat) (reader : Reader) (state : State) : State :=
  { state with readers := Function.update state.readers disk reader }

/-- The end of the loop body for a filled buffer: its warps go to the hasher. -/
def deliver (disk plot start total : Nat) (state : State) : State :=
  setReader disk (.scanning plot)
    { state with delivered := state.delivered ++ [⟨disk, plot, start, total⟩] }

/-- A successful read: it moves the progress before the interrupt check. -/
def readWarps (disk plot start total warpsRed : Nat) (state : State) : State :=
  setReader disk (.checking plot start (total + warpsRed))
    { state with
      readProgress := setProgress state.readProgress disk plot
        (state.readProgress disk plot + warpsRed) }

/-- The interrupted reader gives its buffer back. -/
def throwBuffer (disk plot start total : Nat) (state : State) : State :=
  setReader disk .interrupted
    { state with thrown := state.thrown ++ [⟨disk, plot, start, total⟩] }

/-- One step of `PoCXDisk::read_disk`, without read errors and compression. -/
def readDisk (array : Array) (disk : Nat) (state : State) : Option State :=
  match state.readers disk with
  | .scanning plot =>
    if plot < array.plots disk then
      if state.readProgress disk plot < array.warps disk plot then
        some (setReader disk (.filling plot (state.readProgress disk plot) 0) state)
      else some (setReader disk (.scanning (plot + 1)) state)
    else some (setReader disk .finished state)
  | .filling plot start total =>
    let progress := state.readProgress disk plot
    let warpsRed := warpsToRead (array.warps disk plot) progress array.capacity
    if fillsOn (array.warps disk plot) progress array.capacity total && warpsRed != 0 then
      some (readWarps disk plot start total warpsRed state)
    else if total = 0 then some (setReader disk (.scanning (plot + 1)) state)
    else some (deliver disk plot start total state)
  | .checking plot start total =>
    if state.interrupt then some (throwBuffer disk plot start total state)
    else some (setReader disk (.filling plot start total) state)
  | .finished => none
  | .interrupted => none

def reported (state : State) (disk : Nat) : Bool :=
  state.readers disk == .finished || state.readers disk == .interrupted

/-- `interrupted_count` is positive. -/
def someInterrupted (array : Array) (state : State) : Bool :=
  (List.range array.disks).any fun disk => state.readers disk == .interrupted

/-- The end of `mining_round_impl`. A paused block keeps the progress of every plot. -/
def endRound (array : Array) (state : State) : State :=
  if state.interrupt then
    if state.pause then
      if someInterrupted array state then { state with phase := .paused state.readProgress }
      else { state with phase := .finished }
    else { state with phase := .dropped }
  else { state with phase := .finished }

/-- The start of a round on `readProgress`: `plots.reset()` or `set_resume_info`. -/
def startRound (readProgress : Nat → Nat → Nat) (state : State) : State :=
  { state with
    readProgress := readProgress
    readers := fun _ => .scanning 0
    phase := .running
    interrupt := false
    pause := false }

inductive Action
  | read (disk : Nat)
  | interrupt
  | pause
  | endRound
  | otherRound (readProgress : Nat → Nat → Nat)
  | resume

/-- The rounds of a block. The scheduler raises the flags, and a round ends when every
disk has reported. While the block is paused, rounds of other blocks move the
progress of the plots. -/
def step (array : Array) (state : State) : Action → Option State
  | .read disk =>
    match state.phase with
    | .running => if disk < array.disks then readDisk array disk state else none
    | _ => none
  | .interrupt =>
    match state.phase with
    | .running => some { state with interrupt := true }
    | _ => none
  | .pause =>
    match state.phase with
    | .running =>
      if state.interrupt || state.pause then none
      else some { state with interrupt := true, pause := true }
    | _ => none
  | .endRound =>
    match state.phase with
    | .running =>
      if decide (0 < array.disks) && (List.range array.disks).all (reported state) then
        some (endRound array state)
      else none
    | _ => none
  | .otherRound readProgress =>
    match state.phase with
    | .paused _ => some { state with readProgress := readProgress }
    | _ => none
  | .resume =>
    match state.phase with
    | .paused scanProgress => some (startRound scanProgress state)
    | _ => none

def start : State where
  readProgress := fun _ _ => 0
  readers := fun _ => .scanning 0
  phase := .running
  interrupt := false
  pause := false
  delivered := []
  thrown := []

def system (array : Array) : System State Action where
  initial := fun state => state = start
  step := step array

theorem warpsToRead_le (numberOfWarps readProgress capacity : Nat) :
    warpsToRead numberOfWarps readProgress capacity ≤ numberOfWarps - readProgress :=
  Nat.min_le_left _ _

/-- A buffer of a warp always takes another warp of an unfinished plot. -/
theorem warpsToRead_pos (array : Array) (numberOfWarps readProgress : Nat)
    (remaining : readProgress < numberOfWarps) :
    0 < warpsToRead numberOfWarps readProgress array.capacity := by
  have room : 1 ≤ array.capacity / numScoops / scoopSize := by
    rw [Nat.div_div_eq_div_mul, Nat.le_div_iff_mul_le (by decide), Nat.one_mul]
    exact array.capacity_ge
  exact Nat.lt_min.mpr ⟨Nat.sub_pos_of_lt remaining, room⟩

end Pocx.Disk
