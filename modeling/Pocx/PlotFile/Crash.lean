import Pocx.Lib.Transition
import Pocx.PlotFile.Batches

set_option autoImplicit false

namespace Pocx.PlotFile.Crash

open ByteStore
open Transition (System)

/-- Where `preallocate` runs. On Windows `SetFileValidData` works for a process that may
manage the volume. -/
inductive Platform
  | unix
  | windows (validData : Bool)

/-- The bytes of a preallocated file. `SetFileValidData` shows what the disk held there; all
other ways to grow a file fill it with zeros. -/
def preallocate (platform : Platform) (stale : Nat → UInt8) : Nat → UInt8 :=
  match platform with
  | .windows true => stale
  | .windows false | .unix => fun _ => 0

/-- One `write_all` of the scoop loop. -/
def writeScoop (numberOfWarps : Nat) (batch : Batch) (scoop : Nat) (content : Bytes) :
    Option Bytes :=
  (batch.data.slice (fileOffset scoop 0 (batch.data.len / warpSize))
    (batch.warpsToWrite * numScoops * scoopSize)).map fun chunk =>
      writeAt content (fileOffset scoop batch.startWarp numberOfWarps) chunk

/-- The next write of a process on a plot. -/
inductive Point
  | crashed
  | idle
  | preallocating (stale : Nat → UInt8)
  | scoops (batch : Batch) (scoop : Nat)
  | progress (warpsWritten : Nat)
  | magic (warpsWritten : Nat)
  | finalizing

/-- The plot of a process and the files behind it, which survive a crash. `supplied` keeps
the last batch for each warp. -/
structure State where
  file : File
  point : Point
  supplied : Nat → Option Batch

inductive Label
  | openPlot (create directIo : Bool) (stale : Nat → UInt8)
  | write (batch : Batch)
  | run
  | crash

/-- A plot that `new` has opened. -/
def opened (numberOfWarps : Nat) (directIo : Bool) (files : Extension → Option Bytes) : File where
  numberOfWarps := numberOfWarps
  access := .readWrite
  directIo := directIo
  fileHandle := true
  extension := .tmp
  files := files

/-- `PoCXPlotFile::new`, up to its first write. -/
def newPlot (numberOfWarps : Nat) (create directIo : Bool) (stale : Nat → UInt8) (state : State) :
    Option State :=
  let file := opened numberOfWarps directIo state.file.files
  match state.file.files .tmp with
  | some _ => some { state with file := file, point := .idle }
  | none =>
    if create then some { state with file := file, point := .preallocating stale }
    else none

/-- A batch behind the reading of the progress, up to its first write. -/
def accept (state : State) (plot : File) (batch : Batch) (progress : Nat) : State :=
  if batch.startWarp ≠ progress then { state with file := plot }
  else if plot.numberOfWarps < batch.startWarp + batch.warpsToWrite then
    { state with file := plot }
  else
    { file := plot
      point := .scoops batch 0
      supplied := fun warp => if batch.covers warp then some batch else state.supplied warp }

/-- `write_optimised_buffer_into_plotfile`, up to its first write. -/
def beginWrite (state : State) (batch : Batch) : State :=
  match readResumeInfo state.file with
  | (.ok progress, plot) => accept state plot batch progress
  | (.error .noResumeInfo, plot) => accept state plot batch 0
  | (.error _, plot) => { state with file := plot }

/-- One elementary write. -/
def runPoint (platform : Platform) (state : State) : Option State :=
  match state.point with
  | .crashed | .idle => none
  | .preallocating stale =>
    some { state with
      file := state.file.setContent
        ⟨state.file.numberOfWarps * warpSize, preallocate platform stale⟩
      point := .progress 0 }
  | .scoops batch scoop =>
    let next :=
      if scoop + 1 < numScoops then Point.scoops batch (scoop + 1)
      else .progress (batch.startWarp + batch.warpsToWrite)
    if state.file.fileHandle then
      match writeScoop state.file.numberOfWarps batch scoop state.file.content with
      | some content => some { state with file := state.file.setContent content, point := next }
      | none => some { state with point := .crashed }
    else some { state with point := next }
  | .progress warpsWritten =>
    let plot := state.file.reopened
    let marked :=
      if plot.fileHandle then
        plot.setContent (writeAt plot.content (markerOffset plot.numberOfWarps)
          (asU8Le (UInt32.ofNat warpsWritten)))
      else plot
    some { state with file := marked, point := .magic warpsWritten }
  | .magic warpsWritten =>
    let marked :=
      if state.file.fileHandle then
        state.file.setContent (writeAt state.file.content
          (markerOffset state.file.numberOfWarps + 4) resumeMagic)
      else state.file
    some { state with
      file := marked
      point := if warpsWritten = state.file.numberOfWarps then .finalizing else .idle }
  | .finalizing =>
    match finalize state.file with
    | .ok file => some { state with file := file, point := .idle }
    | .error _ => some { state with point := .idle }

def step (numberOfWarps : Nat) (platform : Platform) (state : State) : Label → Option State
  | .openPlot create directIo stale =>
    match state.point with
    | .crashed => newPlot numberOfWarps create directIo stale state
    | _ => none
  | .write batch =>
    match state.point with
    | .idle => some (beginWrite state batch)
    | _ => none
  | .run => runPoint platform state
  | .crash => some { state with point := .crashed }

/-- At first there is no file. -/
def start (numberOfWarps : Nat) : State where
  file := opened numberOfWarps false fun _ => none
  point := .crashed
  supplied := fun _ => none

def system (numberOfWarps : Nat) (platform : Platform) : System State Label where
  initial state := state = start numberOfWarps
  step := step numberOfWarps platform

/-- The byte of a position in the content of a plot. -/
def byteOf (numberOfWarps : Nat) (content : Bytes) (scoop warp nonce offset : Nat) : UInt8 :=
  content.byte (fileOffset scoop warp numberOfWarps + (nonce * scoopSize + offset))

/-- The warps below `progress` hold what was supplied last, apart from the last eight bytes
of the plot. -/
def HoldsBelow (numberOfWarps : Nat) (supplied : Nat → Option Batch) (content : Bytes)
    (progress : Nat) : Prop :=
  ∀ scoop warp nonce offset, scoop < numScoops → warp < progress → nonce < numScoops →
    offset < scoopSize → ¬ AtMarker numberOfWarps scoop warp nonce offset →
    (supplied warp).map (fun batch => batch.byteFor scoop warp nonce offset) =
      some (byteOf numberOfWarps content scoop warp nonce offset)

/-- Every batch from `progress` on that stays in the plot is accepted. -/
def Accepts (file : File) (progress : Nat) : Prop :=
  ∀ batch : Batch, batch.startWarp = progress →
    progress + batch.warpsToWrite ≤ file.numberOfWarps →
    ∃ total final, writeOptimisedBufferIntoPlotfile file batch.data batch.startWarp
      batch.warpsToWrite = .ok (total, final)

/-- What `read_resume_info` tells about a plot is true, and the writer goes on from there. -/
def Resumable (supplied : Nat → Option Batch) (file : File) : Prop :=
  match (readResumeInfo file).1 with
  | .ok progress =>
    progress ≤ file.numberOfWarps ∧
      HoldsBelow file.numberOfWarps supplied file.content progress ∧ Accepts file progress
  | .error .noResumeInfo => Accepts file 0
  | .error _ => False

/-- A crash here leaves a plot to resume from, and so does the end of a call. -/
structure Safe (numberOfWarps : Nat) (state : State) : Prop where
  reopened : ∀ directIo, (state.file.files .tmp).isSome = true →
    Resumable state.supplied (opened numberOfWarps directIo state.file.files)
  resumed : state.point = .idle → Resumable state.supplied state.file

end Pocx.PlotFile.Crash
