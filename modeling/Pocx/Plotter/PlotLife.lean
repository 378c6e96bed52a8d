import Pocx.PlotFile.CrashContent
import Pocx.Plotter.CpuScheduler
import Pocx.Plotter.DiskWriter

set_option autoImplicit false

namespace Pocx.PlotLife

open ByteStore
open Pocx.Plotter
open Hashlib (GenerateNonces NonceGenerator generateScoop)
open PlotFile
open PlotFile.Crash (Platform Point newPlot beginWrite runPoint byteOf hasMagic progressOf preallocate)
open Transition (System)

variable {Payload Seed : Type}

/-- What the name of a plot tells. -/
structure PlotName (Payload Seed : Type) where
  addressPayload : Payload
  seed : Seed
  numberOfWarps : Nat
  compress : Nat

/-- What the writer of the path of the plot does: it waits for a task, or has opened the plot for
a batch, or is in the writes of a task, or has come to its end or failed. -/
inductive Phase
  | ready
  | opening (batch : Batch)
  | writing
  | ended

/-- A run of the plotter. `taken` counts the tasks that the writer has received. -/
structure Process (Payload Seed : Type) where
  task : PlotterTask Payload Seed
  path : Nat
  resumes : Nat → Nat
  scheduler : CpuScheduler.State Seed
  taken : Nat
  phase : Phase

/-- The plot on its disk, and the process that is plotting, if there is one. -/
structure State (Payload Seed : Type) where
  disk : Crash.State
  process : Option (Process Payload Seed)

/-- What happens next: a process starts with a task, its scheduler makes a turn, the writer takes a
task, goes on with the batch it has opened the plot for, makes one write, or drops the plot; or the
process ends, or is killed. -/
inductive Label (Payload Seed : Type)
  | launch (task : PlotterTask Payload Seed) (path : Nat) (others : Nat → Nat)
      (drawn redrawn : Nat → Seed)
  | schedule (supply : ∀ task : PlotterTask Payload Seed, CpuScheduler.Supply task)
  | take (directIo : Bool) (stale : Nat → UInt8)
  | begin
  | write
  | close
  | kill

section Steps

variable [DecidableEq Seed] (plot : PlotName Payload Seed) (platform : Platform)
  (generateNonces : GenerateNonces Payload Seed)

/-- The markers that `Plotter::run` reads. Those of other plots come from elsewhere. -/
def readResumes (disk : Crash.State) (task : PlotterTask Payload Seed) (path : Nat)
    (others : Nat → Nat) (other : Nat) : Nat :=
  if other = path ∧ task.seeds path = some plot.seed ∧ task.warps path = plot.numberOfWarps then
    DiskWriter.readResume (fun _ _ => disk.file.files) (some plot.seed) plot.numberOfWarps
  else others other

def launch (state : State Payload Seed) (task : PlotterTask Payload Seed) (path : Nat)
    (others : Nat → Nat) (drawn redrawn : Nat → Seed) : State Payload Seed :=
  let resumes := readResumes plot state.disk task path others
  { state with
    process := some
      { task := task
        path := path
        resumes := resumes
        scheduler := CpuScheduler.start task resumes drawn redrawn
        taken := 0
        phase := .ready } }

/-- The branch of `ProcessTask`, up to the reading of the progress. A plot that does not open ends
the writer. -/
def openFor (disk : Crash.State) (process : Process Payload Seed) (batch : Batch) (directIo : Bool)
    (stale : Nat → UInt8) : State Payload Seed :=
  match newPlot plot.numberOfWarps (batch.startWarp == 0) directIo stale disk with
  | some opened => ⟨opened, some { process with phase := .opening batch }⟩
  | none => ⟨disk, some { process with phase := .ended }⟩

/-- The branch of `Finalize`, up to the rename. -/
def openFinal (disk : Crash.State) (process : Process Payload Seed) (directIo : Bool)
    (stale : Nat → UInt8) : State Payload Seed :=
  match newPlot plot.numberOfWarps false directIo stale disk with
  | some opened => ⟨{ opened with point := .finalizing }, some { process with phase := .writing }⟩
  | none => ⟨disk, some process⟩

/-- The writer receives the next task. Those of other plots leave this one alone. -/
def takeTask (disk : Crash.State) (process : Process Payload Seed) (directIo : Bool)
    (stale : Nat → UInt8) : Option (State Payload Seed) :=
  match process.phase, (process.scheduler.sent process.path)[process.taken]? with
  | .ready, some writerTask =>
    let received := { process with taken := process.taken + 1 }
    match writerTask with
    | .endTask => some ⟨disk, some { received with phase := .ended }⟩
    | .finalize seed numberOfWarps =>
      if seed = plot.seed ∧ numberOfWarps = plot.numberOfWarps then
        some (openFinal plot disk received directIo stale)
      else some ⟨disk, some received⟩
    | .processTask buffer seed warpOffset warpsToWrite numberOfWarps =>
      if seed = plot.seed ∧ numberOfWarps = plot.numberOfWarps then
        -- The slices of a shorter buffer panic.
        if holds : warpsToWrite * warpSize ≤ buffer.len then
          some (openFor plot disk received ⟨buffer, warpOffset, warpsToWrite, holds⟩ directIo stale)
        else some ⟨disk, some { received with phase := .ended }⟩
      else some ⟨disk, some received⟩
  | _, _ => none

/-- `write_optimised_buffer_into_plotfile`, up to its first write. A batch that is refused ends
the writer. -/
def beginBatch (disk : Crash.State) (process : Process Payload Seed) :
    Option (State Payload Seed) :=
  match process.phase, disk.point with
  | .opening batch, .idle =>
    let begun := beginWrite disk batch
    match begun.point with
    | .scoops _ _ => some ⟨begun, some { process with phase := .writing }⟩
    | _ => some ⟨{ begun with point := .crashed }, some { process with phase := .ended }⟩
  | _, _ => none

/-- The writer drops the plot behind its last write. -/
def closePlot (disk : Crash.State) (process : Process Payload Seed) :
    Option (State Payload Seed) :=
  match process.phase, disk.point with
  | .writing, .idle => some ⟨{ disk with point := .crashed }, some { process with phase := .ready }⟩
  | _, _ => none

def step (state : State Payload Seed) (label : Label Payload Seed) : Option (State Payload Seed) :=
  match label, state.process with
  | .launch task path others drawn redrawn, none =>
    some (launch plot state task path others drawn redrawn)
  | .schedule supply, some process =>
    (CpuScheduler.step process.task generateNonces process.scheduler (supply process.task)).map
      fun scheduler => { state with process := some { process with scheduler := scheduler } }
  | .take directIo stale, some process => takeTask plot state.disk process directIo stale
  | .begin, some process => beginBatch state.disk process
  | .write, some _ => (runPoint platform state.disk).map fun disk => { state with disk := disk }
  | .close, some process => closePlot state.disk process
  | .kill, some _ => some ⟨{ state.disk with point := .crashed }, none⟩
  | _, _ => none

/-- The life of a plot begins before the plot is there. -/
def system : System (State Payload Seed) (Label Payload Seed) where
  initial state := state = ⟨Crash.start plot.numberOfWarps, none⟩
  step := step plot platform generateNonces

/-- A process that can come to plot this plot has its address and its compression. -/
structure Launches (task : PlotterTask Payload Seed) : Prop where
  address : task.addressPayload = plot.addressPayload
  compress : task.compress = plot.compress
  escalated : 1 ≤ task.escalate

/-- What the steps ask of their surroundings: a seed is given wherever a marker is read, and the
bytes of a new file do not look like a marker. -/
def Admissible (state : State Payload Seed) : Label Payload Seed → Prop
  | .launch task path others _ _ =>
    Launches plot task ∧ path < task.outputPaths ∧ Resumable task others
  | .take _ stale => state.disk.file.files .tmp = none →
    hasMagic plot.numberOfWarps ⟨plot.numberOfWarps * warpSize, preallocate platform stale⟩ = false
  | _ => True

end Steps

section Truth

variable (generator : NonceGenerator Payload Seed) (plot : PlotName Payload Seed)

/-- The warps of a content below `warps` hold the scoops that `generate_scoop` computes, apart
from the last eight bytes of the plot. -/
def Plotted (content : Bytes) (warps : Nat) : Prop :=
  ∀ scoop warp nonce, scoop < numScoops → warp < warps → nonce < numScoops →
    ∃ value, generateScoop generator.generateNonces plot.addressPayload plot.seed scoop
        (warp * numScoops + nonce) plot.compress = .ok value ∧
      ∀ offset : Fin scoopSize, ¬ AtMarker plot.numberOfWarps scoop warp nonce offset →
        byteOf plot.numberOfWarps content scoop warp nonce offset = value.byte offset

/-- What the files of a plot tell is true: its marker, if it has one, and its last name. -/
structure Truthful (files : Extension → Option Bytes) : Prop where
  unfinished : ∀ content, files .tmp = some content →
    plot.numberOfWarps * warpSize ≤ content.len ∧
      (hasMagic plot.numberOfWarps content = true →
        progressOf plot.numberOfWarps content ≤ plot.numberOfWarps ∧
          Plotted generator plot content (progressOf plot.numberOfWarps content))
  finished : ∀ content, files .pocx = some content →
    plot.numberOfWarps * warpSize ≤ content.len ∧
      Plotted generator plot content plot.numberOfWarps

/-- The last four bytes of the last scoop are not `RESUME_MAGIC`. -/
def EndsApart : Prop :=
  ∀ value, generateScoop generator.generateNonces plot.addressPayload plot.seed (numScoops - 1)
      ((plot.numberOfWarps - 1) * numScoops + (numScoops - 1)) plot.compress = .ok value →
    ∃ i : Fin 4, value.byte (Fin.natAdd 60 i) ≠ resumeMagic.byte i

end Truth

end Pocx.PlotLife
