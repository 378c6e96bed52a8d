import Mathlib.Logic.Function.Basic
import Pocx.Lib.RoundRobin
import Pocx.Plotter.RingLoop

set_option autoImplicit false

namespace Pocx.Plotter

open RingLoop (compressBatch)

/-- The part of `PlotterTask` that the schedulers read. The vectors have one entry
for each of the `outputPaths` paths, apart from `seeds`, which may be shorter. -/
structure PlotterTask (Payload Seed : Type) where
  addressPayload : Payload
  seeds : Nat → Option Seed
  warps : Nat → Nat
  numberOfPlots : Nat → Nat
  outputPaths : Nat
  compress : Nat
  escalate : Nat
  outputPaths_pos : 0 < outputPaths

inductive WriterTask (Buffer Seed : Type)
  | endTask
  | processTask (buffer : Buffer) (seed : Seed) (warpOffset warpsToWrite numberOfWarps : Nat)
  | finalize (seed : Seed) (numberOfWarps : Nat)

/-- The entries of the per-path vectors at one path. -/
structure PathState (Seed : Type) where
  seed : Seed
  warpOffset : Nat
  filesDone : Nat
  globalNonces : Nat

variable {Payload Seed : Type}

def PlotterTask.passesPerWarp (task : PlotterTask Payload Seed) : Nat :=
  1 <<< (task.compress - 1)

/-- The resume marker reports the first plot of this path as complete although the
file was not renamed. -/
def markerFull (task : PlotterTask Payload Seed) (resumes : Nat → Nat) (path : Nat) : Bool :=
  !(decide (task.warps path = 0) || decide (resumes path < task.warps path))

/-- A path after the two resume loops: `drawn` is the seed the generator delivers
where the task gives none. -/
def resumePath (task : PlotterTask Payload Seed) (resumes : Nat → Nat) (drawn : Nat → Seed)
    (path : Nat) : PathState Seed where
  seed := (task.seeds path).getD (drawn path)
  warpOffset := if (task.seeds path).isSome then resumes path else 0
  filesDone := 0
  globalNonces :=
    if 0 < resumes path then resumes path * task.passesPerWarp * compressBatch else 0

/-- A path when the main loop starts. A marker-full plot counts as done, and where
more plots follow the generator delivers the next seed, `redrawn`. -/
def startPath (task : PlotterTask Payload Seed) (resumes : Nat → Nat)
    (drawn redrawn : Nat → Seed) (path : Nat) : PathState Seed :=
  if markerFull task resumes path then
    { seed := if 1 < task.numberOfPlots path then redrawn path
        else (resumePath task resumes drawn path).seed
      warpOffset := 0
      filesDone := 1
      globalNonces := 0 }
  else resumePath task resumes drawn path

/-- What the resume loops send to the writer of a path. -/
def startTasks {Buffer : Type} (task : PlotterTask Payload Seed) (resumes : Nat → Nat)
    (drawn : Nat → Seed) (path : Nat) : List (WriterTask Buffer Seed) :=
  if markerFull task resumes path then
    [.finalize (resumePath task resumes drawn path).seed (task.warps path)]
  else []

def setPath (paths : Nat → PathState Seed) (path : Nat) (entry : PathState Seed) :
    Nat → PathState Seed :=
  Function.update paths path entry

/-- The channel of a path carries its tasks in the order they are sent. -/
def send {Buffer : Type} (sent : Nat → List (WriterTask Buffer Seed)) (path : Nat)
    (writerTask : WriterTask Buffer Seed) : Nat → List (WriterTask Buffer Seed) :=
  Function.update sent path (sent path ++ [writerTask])

/-- The file of the path pointer is complete: count it and draw the next seed. -/
def completeFile (task : PlotterTask Payload Seed) (drawn : Seed) (path : Nat)
    (entry : PathState Seed) : PathState Seed :=
  { entry with
    filesDone := entry.filesDone + 1
    seed := if entry.filesDone + 1 < task.numberOfPlots path then drawn else entry.seed }

/-- The path still has plots to make. -/
def unfinished (task : PlotterTask Payload Seed) (paths : Nat → PathState Seed)
    (path : Nat) : Bool :=
  decide ((paths path).filesDone < task.numberOfPlots path)

def allComplete (task : PlotterTask Payload Seed) (paths : Nat → PathState Seed) : Bool :=
  (List.range task.outputPaths).all fun path => !unfinished task paths path

/-- The path the main loop starts with. -/
def startPointer (task : PlotterTask Payload Seed) (paths : Nat → PathState Seed) : Nat :=
  if unfinished task paths 0 then 0
  else ((List.range task.outputPaths).find? (unfinished task paths)).getD 0

/-- The round-robin search from `oldPath`, which is its own last candidate. -/
def nextActive (task : PlotterTask Payload Seed) (paths : Nat → PathState Seed)
    (oldPath : Nat) : Option Nat :=
  ((List.range task.outputPaths).map fun i => (oldPath + (i + 1)) % task.outputPaths).find?
    (unfinished task paths)

/-- The path to go on with after a flush. A single path is never searched for. -/
def switchPath (task : PlotterTask Payload Seed) (paths : Nat → PathState Seed)
    (oldPath : Nat) : Option Nat :=
  if 1 < task.outputPaths then nextActive task paths oldPath else some oldPath

/-- Resume markers are read only for paths whose seed is given. -/
def Resumable (task : PlotterTask Payload Seed) (resumes : Nat → Nat) : Prop :=
  ∀ path, path < task.outputPaths → 0 < resumes path → (task.seeds path).isSome

theorem passesPerWarp_pos (task : PlotterTask Payload Seed) : 0 < task.passesPerWarp := by
  rw [PlotterTask.passesPerWarp, Nat.shiftLeft_eq, Nat.one_mul]
  exact Nat.two_pow_pos _

@[simp] theorem setPath_same (paths : Nat → PathState Seed) (path : Nat)
    (entry : PathState Seed) : setPath paths path entry path = entry :=
  Function.update_self _ _ _

theorem setPath_other (paths : Nat → PathState Seed) (path other : Nat)
    (entry : PathState Seed) (apart : other ≠ path) :
    setPath paths path entry other = paths other :=
  Function.update_of_ne apart _ _

/-- Every path starts with its nonce counter at the first nonce of its next warp. -/
theorem startPath_counter (task : PlotterTask Payload Seed) (resumes : Nat → Nat)
    (drawn redrawn : Nat → Seed) (resumable : Resumable task resumes) (path : Nat)
    (inside : path < task.outputPaths) :
    (startPath task resumes drawn redrawn path).globalNonces =
      (startPath task resumes drawn redrawn path).warpOffset * task.passesPerWarp *
        compressBatch := by
  unfold startPath
  split
  · simp only [Nat.zero_mul]
  · simp only [resumePath]
    by_cases resumed : 0 < resumes path
    · simp only [resumed, resumable path inside resumed, ↓reduceIte]
    · have none : resumes path = 0 := by omega
      simp only [none, Nat.lt_irrefl, ↓reduceIte, ite_self, Nat.zero_mul]

theorem startPath_warpOffset (task : PlotterTask Payload Seed) (resumes : Nat → Nat)
    (drawn redrawn : Nat → Seed) (path : Nat) (positive : 1 ≤ task.warps path) :
    (startPath task resumes drawn redrawn path).warpOffset ≤ task.warps path := by
  unfold startPath
  split
  · exact Nat.zero_le _
  · rename_i marked
    simp only [markerFull, Bool.not_eq_true', Bool.not_eq_false, Bool.or_eq_true,
      decide_eq_true_eq] at marked
    have less : resumes path < task.warps path := marked.resolve_left (Nat.ne_of_gt positive)
    simp only [resumePath]
    split
    · exact Nat.le_of_lt less
    · exact Nat.zero_le _

theorem startPointer_lt (task : PlotterTask Payload Seed) (paths : Nat → PathState Seed) :
    startPointer task paths < task.outputPaths := by
  unfold startPointer
  split
  · exact task.outputPaths_pos
  · cases found : (List.range task.outputPaths).find? (unfinished task paths) with
    | none => exact task.outputPaths_pos
    | some path => exact List.mem_range.mp (List.mem_of_find?_eq_some found)

theorem nextActive_spec {task : PlotterTask Payload Seed} {paths : Nat → PathState Seed}
    {oldPath next : Nat} (found : nextActive task paths oldPath = some next) :
    next < task.outputPaths ∧ unfinished task paths next = true :=
  RoundRobin.next_some found

/-- The search comes back to the path it started from. -/
theorem nextActive_none {task : PlotterTask Payload Seed} {paths : Nat → PathState Seed}
    {oldPath : Nat} (inside : oldPath < task.outputPaths)
    (missing : nextActive task paths oldPath = none) : allComplete task paths = true := by
  rw [allComplete, List.all_eq_true]
  intro path listed
  have idle := RoundRobin.next_none inside missing (List.mem_range.mp listed)
  rw [idle]
  rfl

theorem switchPath_lt {task : PlotterTask Payload Seed} {paths : Nat → PathState Seed}
    {oldPath next : Nat} (inside : oldPath < task.outputPaths)
    (found : switchPath task paths oldPath = some next) : next < task.outputPaths := by
  unfold switchPath at found
  split at found
  · exact (nextActive_spec found).1
  · cases found
    exact inside

theorem switchPath_none {task : PlotterTask Payload Seed} {paths : Nat → PathState Seed}
    {oldPath : Nat} (inside : oldPath < task.outputPaths)
    (missing : switchPath task paths oldPath = none) : allComplete task paths = true := by
  unfold switchPath at missing
  split at missing
  · exact nextActive_none inside missing
  · cases missing

end Pocx.Plotter
