import Mathlib.Algebra.Order.BigOperators.Group.Finset
import Pocx.Plotter.CpuSchedulerRuns
import Pocx.Plotter.Plan

set_option autoImplicit false

namespace Pocx.CpuScheduler

open ByteStore
open Pocx.Plotter
open Hashlib (NonceGenerator GenerateNonces)
open PlotFile (warpSize)
open Transition (System Reachable)

variable {Payload Seed : Type}

/-- A turn without a stop request, for which the random generator delivers a `fresh` seed. -/
structure QuietSupply (task : PlotterTask Payload Seed) (fresh : Seed → Prop)
    extends Supply task where
  quiet : stop = false
  drawn : fresh seed

/-- The runs without a stop request. -/
def quiet (task : PlotterTask Payload Seed) (generateNonces : GenerateNonces Payload Seed)
    (resumes : Nat → Nat) (fresh : Seed → Prop) :
    System (State Seed) (QuietSupply task fresh) where
  initial state := ∃ drawn redrawn, (∀ path, fresh (drawn path)) ∧ (∀ path, fresh (redrawn path)) ∧
    state = start task resumes drawn redrawn
  step state supply := step task generateNonces state supply.toSupply

/-- A request that the scheduler takes. -/
structure Requested (task : PlotterTask Payload Seed) (resumes : Nat → Nat) : Prop where
  compressed : 1 ≤ task.compress
  escalated : 1 ≤ task.escalate
  warps : ∀ path < task.outputPaths, 1 ≤ task.warps path
  plots : ∀ path < task.outputPaths, 1 ≤ task.numberOfPlots path
  resumed : ∀ path < task.outputPaths, resumes path ≤ task.warps path
  resumable : Resumable task resumes

/-- A task brings a stretch of warps to the writer, in a whole write buffer. -/
def Carries (task : PlotterTask Payload Seed) : WriterTask Bytes Seed → Stretch Seed → Prop
  | .processTask buffer seed warpOffset warpsToWrite numberOfWarps, stretch =>
    buffer.len = task.escalate * warpSize ∧
      stretch =
        { seed := seed
          warpOffset := warpOffset
          warpsToWrite := warpsToWrite
          numberOfWarps := numberOfWarps }
  | .finalize _ _, _ | .endTask, _ => False

/-- The first warp of file `k` that is still to be written. -/
def fileStart (resume k : Nat) : Nat := if k = 0 then resume else 0

section plan

variable (task : PlotterTask Payload Seed) (resumes : Nat → Nat) (fresh : Seed → Prop) (path : Nat)

/-- Only the first file of a path may have a seed that is given. -/
def OwnSeed (k : Nat) (seed : Seed) : Prop :=
  match (if k = 0 then task.seeds path else none) with
  | some given => seed = given
  | none => fresh seed

/-- What the writer of a path is told about its file `k`. -/
def IsFile (k : Nat) (file : List (WriterTask Bytes Seed)) : Prop :=
  ∃ seed, OwnSeed task fresh path k seed ∧
    if fileStart (resumes path) k = task.warps path then
      file = [.finalize seed (task.warps path)]
    else
      Cuts (Carries task) task.escalate (task.warps path) seed (fileStart (resumes path) k) file
        (task.warps path)

/-- The tasks sent to a path while a file of it is open, and `written` is its next warp. -/
structure Open (seed : Seed) (filesDone : Nat) (sent : List (WriterTask Bytes Seed))
    (written : Nat) : Prop where
  own : OwnSeed task fresh path filesDone seed
  more : filesDone < task.numberOfPlots path
  start : fileStart (resumes path) filesDone ≠ task.warps path
  progress : Progress (IsFile task resumes fresh path)
    (fun tail => Cuts (Carries task) task.escalate (task.warps path) seed
      (fileStart (resumes path) filesDone) tail written)
    sent filesDone

/-- The tasks sent to a path whose files are all written. -/
structure Closed (filesDone : Nat) (sent : List (WriterTask Bytes Seed)) : Prop where
  all : filesDone = task.numberOfPlots path
  progress : Progress (IsFile task resumes fresh path) (fun tail => tail = []) sent filesDone

/-- A path is on plan, and the buffer holds none of its warps. -/
def Parked (entry : PathState Seed) (sent : List (WriterTask Bytes Seed)) : Prop :=
  Open task resumes fresh path entry.seed entry.filesDone sent entry.warpOffset ∧
      entry.warpOffset < task.warps path ∨
    Closed task resumes fresh path entry.filesDone sent

end plan

section runs

variable (task : PlotterTask Payload Seed) (resumes : Nat → Nat) (fresh : Seed → Prop)

/-- A file of the current path is open, and some of its warps may still be in the buffer. -/
structure Underway (state : State Seed) : Prop where
  others : ∀ path < task.outputPaths, path ≠ state.pathPointer →
    Parked task resumes fresh path (state.paths path) (state.sent path)
  current : ∃ written,
    written + state.warpsInBuffer = (state.paths state.pathPointer).warpOffset ∧
      Open task resumes fresh state.pathPointer (state.paths state.pathPointer).seed
        (state.paths state.pathPointer).filesDone (state.sent state.pathPointer) written

/-- All that is left is to stop the writers. -/
structure Exhausted (state : State Seed) : Prop where
  complete : allComplete task state.paths = true
  warps : state.warpsInBuffer = 0
  pass : state.passInWarp = 0
  closed : ∀ path < task.outputPaths,
    Closed task resumes fresh path (state.paths path).filesDone (state.sent path)

/-- The state at the head of the main loop, as far as the plan goes. -/
def OnPlan (state : State Seed) : Prop :=
  Underway task resumes fresh state ∧
      (state.paths state.pathPointer).warpOffset < task.warps state.pathPointer ∨
    Exhausted task resumes fresh state

/-- Every writer was sent its files, and the end. -/
def Dispatched (state : State Seed) : Prop :=
  ∀ path < task.outputPaths, ∃ files : List (List (WriterTask Bytes Seed)),
    state.sent path = files.flatten ++ [.endTask] ∧
      files.length = task.numberOfPlots path ∧
      ∀ k file, files[k]? = some file → IsFile task resumes fresh path k file

/-- The warps that are still to be hashed for a path. -/
def warpsLeft (entry : PathState Seed) (path : Nat) : Nat :=
  (task.numberOfPlots path - entry.filesDone) * task.warps path - entry.warpOffset

def remaining (paths : Nat → PathState Seed) : Nat :=
  ∑ path ∈ Finset.range task.outputPaths, warpsLeft task (paths path) path

/-- A bound on the turns that a run still takes. -/
def turnsLeft (state : State Seed) : Nat :=
  if state.done then 0
  else 1 + remaining task state.paths * task.passesPerWarp - state.passInWarp

/-- Behind a flush, once a finished file has started over. -/
def restarted (boundary : Bool) (state : State Seed) : Nat → PathState Seed :=
  if boundary then
    setPath state.paths state.pathPointer
      { state.paths state.pathPointer with
        warpOffset := 0
        globalNonces := 0 }
  else state.paths

/-- What holds at the head of the main loop, and behind it. -/
def Planned (state : State Seed) : Prop :=
  if state.done then Dispatched task resumes fresh state else OnPlan task resumes fresh state

/-- What a pass that completes no warp leaves alone. -/
structure SamePlan (before after : State Seed) : Prop where
  seed : ∀ path, (after.paths path).seed = (before.paths path).seed
  warpOffset : ∀ path, (after.paths path).warpOffset = (before.paths path).warpOffset
  filesDone : ∀ path, (after.paths path).filesDone = (before.paths path).filesDone
  pointer : after.pathPointer = before.pathPointer
  warps : after.warpsInBuffer = before.warpsInBuffer
  sent : after.sent = before.sent
  done : after.done = before.done

end runs

section start

variable {task : PlotterTask Payload Seed} {resumes : Nat → Nat} {fresh : Seed → Prop}

theorem allComplete_iff (paths : Nat → PathState Seed) :
    allComplete task paths = true ↔
      ∀ path < task.outputPaths, task.numberOfPlots path ≤ (paths path).filesDone := by
  simp only [allComplete, unfinished, List.all_eq_true, List.mem_range, Bool.not_eq_true',
    decide_eq_false_iff_not, Nat.not_lt]

/-- The start pointer finds a path with plots to make. -/
theorem startPointer_unfinished (paths : Nat → PathState Seed) :
    unfinished task paths (startPointer task paths) = true ∨ allComplete task paths = true := by
  unfold startPointer
  split
  · rename_i first
    exact Or.inl first
  · cases found : (List.range task.outputPaths).find? (unfinished task paths) with
    | none =>
      right
      rw [List.find?_eq_none] at found
      simpa only [allComplete, List.all_eq_true, Bool.not_eq_true', Bool.not_eq_true] using found
    | some path => exact Or.inl (List.find?_some found)

/-- So does the search behind a flush. -/
theorem switchPath_unfinished {paths : Nat → PathState Seed} {oldPath next : Nat}
    (inside : oldPath < task.outputPaths) (found : switchPath task paths oldPath = some next) :
    unfinished task paths next = true ∨ allComplete task paths = true := by
  unfold switchPath at found
  split at found
  · exact Or.inl (nextActive_spec found).2
  · rename_i single
    cases found
    cases done : unfinished task paths oldPath with
    | true => exact Or.inl rfl
    | false =>
      right
      rw [allComplete_iff]
      intro path pathLt
      have same : path = oldPath := by omega
      rw [same]
      simpa only [unfinished, decide_eq_false_iff_not, Nat.not_lt] using done

/-- Every path is on plan, and so is the state. -/
theorem onPlan_of_parked {state : State Seed} (pointer_lt : state.pathPointer < task.outputPaths)
    (empty : state.warpsInBuffer = 0) (pass : state.passInWarp = 0)
    (active : unfinished task state.paths state.pathPointer = true ∨
      allComplete task state.paths = true)
    (parked : ∀ path < task.outputPaths,
      Parked task resumes fresh path (state.paths path) (state.sent path)) :
    OnPlan task resumes fresh state := by
  by_cases complete : allComplete task state.paths = true
  · refine Or.inr ⟨complete, empty, pass, ?_⟩
    intro path pathLt
    rcases parked path pathLt with ⟨isOpen, -⟩ | closed
    · have all := (allComplete_iff state.paths).mp complete path pathLt
      have more := isOpen.more
      omega
    · exact closed
  · have more : (state.paths state.pathPointer).filesDone <
        task.numberOfPlots state.pathPointer := of_decide_eq_true (active.resolve_right complete)
    rcases parked state.pathPointer pointer_lt with ⟨isOpen, inside⟩ | closed
    · refine Or.inl ⟨⟨fun path pathLt _ => parked path pathLt, _, ?_, isOpen⟩, inside⟩
      rw [empty, Nat.add_zero]
    · have all := closed.all
      omega

theorem startPath_parked (requested : Requested task resumes) (drawn redrawn : Nat → Seed)
    (drawnFresh : ∀ path, fresh (drawn path)) (redrawnFresh : ∀ path, fresh (redrawn path))
    (path : Nat) (pathLt : path < task.outputPaths) :
    Parked task resumes fresh path (startPath task resumes drawn redrawn path)
      (startTasks task resumes drawn path) := by
  have warps := requested.warps path pathLt
  have plots := requested.plots path pathLt
  have resumed := requested.resumed path pathLt
  have own : OwnSeed task fresh path 0 (resumePath task resumes drawn path).seed := by
    unfold OwnSeed resumePath
    rw [if_pos rfl]
    cases given : task.seeds path with
    | none => exact drawnFresh path
    | some seed => rfl
  unfold startPath startTasks
  by_cases full : markerFull task resumes path = true
  · simp only [full, ↓reduceIte]
    have whole : fileStart (resumes path) 0 = task.warps path := by
      change resumes path = task.warps path
      simp only [markerFull, Bool.not_eq_true', Bool.or_eq_false_iff, decide_eq_false_iff_not] at full
      omega
    have first : IsFile task resumes fresh path 0
        [.finalize (resumePath task resumes drawn path).seed (task.warps path)] :=
      ⟨_, own, by rw [if_pos whole]⟩
    have progress {part : List (WriterTask Bytes Seed) → Prop} (empty : part []) :
        Progress (IsFile task resumes fresh path) part
          [.finalize (resumePath task resumes drawn path).seed (task.warps path)] 1 := by
      refine ⟨[[_]], [], rfl, rfl, ?_, empty⟩
      intro k file found
      cases k with
      | zero =>
        cases found
        exact first
      | succ k => cases found
    by_cases more : 1 < task.numberOfPlots path
    · simp only [more, ↓reduceIte]
      refine Or.inl ⟨⟨redrawnFresh path, more, ?_, progress rfl⟩, warps⟩
      exact Nat.ne_of_lt warps
    · exact Or.inr ⟨Nat.le_antisymm plots (Nat.not_lt.mp more), progress rfl⟩
  · simp only [full, Bool.false_eq_true, ↓reduceIte]
    have less : resumes path < task.warps path := by
      simp only [markerFull, Bool.not_eq_true', Bool.not_eq_false, Bool.or_eq_true,
        decide_eq_true_eq] at full
      omega
    have offset : (resumePath task resumes drawn path).warpOffset = resumes path := by
      simp only [resumePath]
      split
      · rfl
      · rename_i missing
        exact (Nat.eq_zero_of_not_pos fun positive =>
          missing (requested.resumable path pathLt positive)).symm
    refine Or.inl ⟨⟨own, plots, Nat.ne_of_lt less, .start ?_⟩, ?_⟩
    · rw [offset]
      rfl
    · rw [offset]
      exact less

theorem start_onPlan (requested : Requested task resumes) (drawn redrawn : Nat → Seed)
    (drawnFresh : ∀ path, fresh (drawn path)) (redrawnFresh : ∀ path, fresh (redrawn path)) :
    OnPlan task resumes fresh (start task resumes drawn redrawn) :=
  onPlan_of_parked (startPointer_lt task _) rfl rfl (startPointer_unfinished _)
    (startPath_parked requested drawn redrawn drawnFresh redrawnFresh)

end start

section turns

variable {task : PlotterTask Payload Seed} {resumes : Nat → Nat} {fresh : Seed → Prop}

theorem hashPass_same {generateNonces : GenerateNonces Payload Seed} {supply : Supply task}
    {before after : State Seed}
    (done : hashPass task generateNonces supply before = some after) : SamePlan before after := by
  obtain ⟨scatterBuf, -, rfl⟩ := Option.map_eq_some_iff.mp done
  have entry {α : Type} (field : PathState Seed → α)
      (kept : ∀ entry nonces, field { entry with globalNonces := nonces } = field entry)
      (path : Nat) :
      field (setPath before.paths before.pathPointer
        { before.paths before.pathPointer with
          globalNonces := (before.paths before.pathPointer).globalNonces + RingLoop.compressBatch }
        path) = field (before.paths path) := by
    by_cases current : path = before.pathPointer
    · rw [current, setPath_same, kept]
    · rw [setPath_other _ _ _ _ current]
  exact ⟨entry (·.seed) fun _ _ => rfl, entry (·.warpOffset) fun _ _ => rfl,
    entry (·.filesDone) fun _ _ => rfl, rfl, rfl, rfl, rfl⟩

theorem SamePlan.compressed {before after : State Seed} (same : SamePlan before after)
    (supply : Supply task) :
    SamePlan before (compressPass task supply (acquire task supply after)) := by
  obtain ⟨paths, pointer, -, -, warps, sent, done⟩ := acquire_same supply after
  refine ⟨?_, ?_, ?_, pointer.trans same.pointer, warps.trans same.warps, sent.trans same.sent,
    done.trans same.done⟩
  · intro path
    exact (congrArg (fun entries => (entries path).seed) paths).trans (same.seed path)
  · intro path
    exact (congrArg (fun entries => (entries path).warpOffset) paths).trans (same.warpOffset path)
  · intro path
    exact (congrArg (fun entries => (entries path).filesDone) paths).trans (same.filesDone path)

theorem Underway.same {before after : State Seed} (underway : Underway task resumes fresh before)
    (same : SamePlan before after) : Underway task resumes fresh after := by
  obtain ⟨others, written, offset, isOpen⟩ := underway
  refine ⟨?_, written, ?_, ?_⟩
  · intro path pathLt apart
    rw [same.pointer] at apart
    simp only [Parked, same.seed, same.filesDone, same.warpOffset, same.sent]
    exact others path pathLt apart
  · rw [same.warps, same.pointer, same.warpOffset]
    exact offset
  · rw [same.pointer, same.seed, same.filesDone, same.sent]
    exact isOpen

/-- A warp more is in the buffer. -/
theorem Underway.completeWarp {state : State Seed} (underway : Underway task resumes fresh state) :
    Underway task resumes fresh (completeWarp state) := by
  obtain ⟨others, written, offset, isOpen⟩ := underway
  refine ⟨?_, written, ?_, ?_⟩
  · intro path pathLt apart
    have other : path ≠ state.pathPointer := apart
    simp only [CpuScheduler.completeWarp, setPath_other _ _ _ _ other]
    exact others path pathLt apart
  · simp only [CpuScheduler.completeWarp, setPath_same]
    omega
  · simp only [CpuScheduler.completeWarp, setPath_same]
    exact isOpen

theorem restarted_filesDone (boundary : Bool) (state : State Seed) (path : Nat) :
    (restarted boundary state path).filesDone = (state.paths path).filesDone := by
  unfold restarted
  split
  · by_cases current : path = state.pathPointer
    · rw [current, setPath_same]
    · rw [setPath_other _ _ _ _ current]
  · rfl

section flush

variable (task) {state : State Seed} {buffer : Bytes} (held : Held state buffer) (drawn : Seed)

include held

theorem flushFile_pointer :
    (flushFile task drawn state).pathPointer = state.pathPointer := by
  simp only [flushFile, flushBuffer_holding held.holding]
  split
  · rfl
  · rfl

theorem flushFile_empty :
    (flushFile task drawn state).warpsInBuffer = 0 ∧
      (flushFile task drawn state).passInWarp = state.passInWarp := by
  simp only [flushFile, flushBuffer_holding held.holding]
  split
  · exact ⟨rfl, rfl⟩
  · exact ⟨rfl, rfl⟩

theorem flushFile_done : (flushFile task drawn state).done = state.done := by
  simp only [flushFile, flushBuffer_holding held.holding]
  split
  · rfl
  · rfl

theorem flushFile_sent :
    (flushFile task drawn state).sent =
      send state.sent state.pathPointer
        (.processTask buffer (state.paths state.pathPointer).seed state.bufferStartWarp
          state.warpsInBuffer (task.warps state.pathPointer)) := by
  simp only [flushFile, flushBuffer_holding held.holding, held.path]
  split
  · rfl
  · rfl

theorem flushFile_other (path : Nat) (apart : path ≠ state.pathPointer) :
    restarted (atFileBoundary task state) (flushFile task drawn state) path =
      state.paths path := by
  simp only [restarted, flushFile_pointer task held]
  simp only [flushFile, flushBuffer_holding held.holding]
  split
  · simp only [setPath_other _ _ _ _ apart]
  · rfl

theorem flushFile_boundary
    (boundary : (state.paths state.pathPointer).warpOffset = task.warps state.pathPointer) :
    restarted (atFileBoundary task state) (flushFile task drawn state) state.pathPointer =
      { completeFile task drawn state.pathPointer (state.paths state.pathPointer) with
        warpOffset := 0
        globalNonces := 0 } := by
  simp only [restarted, flushFile, atFileBoundary, boundary, decide_true, ↓reduceIte,
    flushBuffer_holding held.holding, setPath_same]

theorem flushFile_inside
    (inside : (state.paths state.pathPointer).warpOffset ≠ task.warps state.pathPointer) :
    restarted (atFileBoundary task state) (flushFile task drawn state) state.pathPointer =
      state.paths state.pathPointer := by
  simp only [restarted, flushFile, atFileBoundary, inside, decide_false, Bool.false_eq_true,
    ↓reduceIte, flushBuffer_holding held.holding]

end flush

/-- A stretch more of the open file. -/
theorem Open.send {path : Nat} {seed : Seed} {filesDone written : Nat}
    {sent : List (WriterTask Bytes Seed)}
    (isOpen : Open task resumes fresh path seed filesDone sent written) (buffer : Bytes)
    (len : buffer.len = task.escalate * warpSize) (count : Nat) (positive : 0 < count)
    (short : count ≤ task.escalate) :
    Open task resumes fresh path seed filesDone
      (sent ++ [.processTask buffer seed written count (task.warps path)]) (written + count) := by
  refine ⟨isOpen.own, isOpen.more, isOpen.start, isOpen.progress.snoc _ ?_⟩
  intro tail cuts
  have carried : Carries task (.processTask buffer seed written count (task.warps path))
      { seed := seed
        warpOffset := written
        warpsToWrite := count
        numberOfWarps := task.warps path } := ⟨len, rfl⟩
  exact cuts.snoc positive short carried

/-- The open file is whole. -/
theorem Open.complete {path : Nat} {seed : Seed} {filesDone : Nat}
    {sent : List (WriterTask Bytes Seed)} {part : List (WriterTask Bytes Seed) → Prop}
    (isOpen : Open task resumes fresh path seed filesDone sent (task.warps path))
    (empty : part []) : Progress (IsFile task resumes fresh path) part sent (filesDone + 1) := by
  apply isOpen.progress.complete ?_ empty
  intro tail cuts
  refine ⟨seed, isOpen.own, ?_⟩
  rw [if_neg isOpen.start]
  exact cuts

/-- The buffer goes to the writer of the current path, which is on plan again. -/
theorem Underway.flushFile {generator : NonceGenerator Payload Seed} {state : State Seed}
    (requested : Requested task resumes) (counting : Counting task generator state)
    (underway : Underway task resumes fresh state)
    (inside : (state.paths state.pathPointer).warpOffset ≤ task.warps state.pathPointer)
    (drawn : Seed) (drawnFresh : fresh drawn) (path : Nat) (pathLt : path < task.outputPaths) :
    Parked task resumes fresh path
      (restarted (atFileBoundary task state) (flushFile task drawn state) path)
      ((flushFile task drawn state).sent path) := by
  obtain ⟨buffer, held, complete⟩ := counting.buffer
  obtain ⟨others, written, offset, isOpen⟩ := underway
  have sameStart : state.bufferStartWarp = written := by
    have ends := held.offset
    omega
  rw [flushFile_sent task held, send]
  by_cases current : path = state.pathPointer
  · subst current
    have flushed := isOpen.send buffer complete.len state.warpsInBuffer counting.warps_pos
      counting.warps_le
    rw [offset] at flushed
    rw [Function.update_self, sameStart]
    by_cases boundary : (state.paths state.pathPointer).warpOffset = task.warps state.pathPointer
    · rw [boundary] at flushed
      rw [flushFile_boundary task held drawn boundary]
      simp only [Parked, completeFile]
      have warps := requested.warps _ pathLt
      by_cases more : (state.paths state.pathPointer).filesDone + 1 <
          task.numberOfPlots state.pathPointer
      · simp only [more, ↓reduceIte]
        exact Or.inl ⟨⟨drawnFresh, more, Nat.ne_of_lt warps, flushed.complete rfl⟩, warps⟩
      · refine Or.inr ⟨?_, flushed.complete rfl⟩
        have before := isOpen.more
        omega
    · rw [flushFile_inside task held drawn boundary]
      exact Or.inl ⟨flushed, Nat.lt_of_le_of_ne inside boundary⟩
  · rw [flushFile_other task held drawn path current, Function.update_of_ne current]
    exact others path pathLt current

/-- Without warps in the buffer nothing but the ends is sent. -/
theorem Exhausted.finish {state : State Seed} (exhausted : Exhausted task resumes fresh state) :
    Dispatched task resumes fresh (finish task state) := by
  intro path pathLt
  obtain ⟨all, files, tail, sent, length, whole, rfl⟩ := exhausted.closed path pathLt
  refine ⟨files, ?_, length.trans all, whole⟩
  simp only [CpuScheduler.finish, exhausted.warps, Nat.lt_irrefl, ↓reduceIte, pathLt, sent,
    List.append_nil]

theorem restarted_unfinished (boundary : Bool) (state : State Seed) :
    unfinished task (restarted boundary state) = unfinished task state.paths := by
  funext path
  simp only [unfinished, restarted_filesDone]

theorem switch_planned {state : State Seed} (pointer_lt : state.pathPointer < task.outputPaths)
    (empty : state.warpsInBuffer = 0) (pass : state.passInWarp = 0) (running : state.done = false)
    (boundary : Bool)
    (parked : ∀ path < task.outputPaths,
      Parked task resumes fresh path (restarted boundary state path) (state.sent path)) :
    Planned task resumes fresh (switch task boundary state) := by
  unfold switch
  cases found : switchPath task state.paths state.pathPointer with
  | none =>
    have complete := switchPath_none pointer_lt found
    have exhausted : Exhausted task resumes fresh state := by
      refine ⟨complete, empty, pass, ?_⟩
      intro path pathLt
      have all := (allComplete_iff state.paths).mp complete path pathLt
      have same := restarted_filesDone boundary state path
      rcases parked path pathLt with ⟨isOpen, -⟩ | closed
      · have more := isOpen.more
        omega
      · rw [← same]
        exact closed
    exact exhausted.finish
  | some next =>
    have active := switchPath_unfinished pointer_lt found
    have next_lt := switchPath_lt pointer_lt found
    simp only
    split
    · have same : (goOn boundary next state).paths = restarted boundary state := rfl
      have still : unfinished task (goOn boundary next state).paths =
          unfinished task state.paths := by
        rw [same, restarted_unfinished]
      have onPlan : OnPlan task resumes fresh (goOn boundary next state) := by
        have inside : (goOn boundary next state).pathPointer < task.outputPaths := next_lt
        have none : (goOn boundary next state).warpsInBuffer = 0 := empty
        have first : (goOn boundary next state).passInWarp = 0 := pass
        apply onPlan_of_parked inside none first
        · rw [allComplete, still]
          exact active
        · rw [same]
          exact parked
      have goesOn : (goOn boundary next state).done = false := running
      simp only [Planned, goesOn, Bool.false_eq_true, ↓reduceIte]
      exact onPlan
    · rename_i stays
      have inside : boundary = false := by
        cases boundary with
        | false => rfl
        | true => exact absurd (Or.inr rfl) stays
      have current : next = state.pathPointer := by
        by_cases same : next = state.pathPointer
        · exact same
        · exact absurd (Or.inl same) stays
      subst inside
      simp only [Planned, running, Bool.false_eq_true, ↓reduceIte]
      rw [current] at active
      exact onPlan_of_parked pointer_lt empty pass active parked

/-- Unless the loop ends, a finished file starts over. -/
theorem switch_paths {state : State Seed} {boundary : Bool}
    (running : (switch task boundary state).done = false) :
    (switch task boundary state).paths = restarted boundary state ∧
      (switch task boundary state).passInWarp = state.passInWarp := by
  unfold switch at running ⊢
  cases found : switchPath task state.paths state.pathPointer with
  | none =>
    simp only [found, finish] at running
    cases running
  | some next =>
    simp only
    split
    · exact ⟨rfl, rfl⟩
    · rename_i stays
      cases boundary with
      | false => exact ⟨rfl, rfl⟩
      | true => exact absurd (Or.inr rfl) stays

theorem warpsLeft_warp (entry : PathState Seed) (path : Nat)
    (more : entry.filesDone < task.numberOfPlots path)
    (inside : entry.warpOffset < task.warps path) :
    warpsLeft task { entry with warpOffset := entry.warpOffset + 1 } path + 1 =
      warpsLeft task entry path := by
  have whole : task.warps path ≤
      (task.numberOfPlots path - entry.filesDone) * task.warps path :=
    Nat.le_mul_of_pos_left _ (Nat.sub_pos_of_lt more)
  simp only [warpsLeft]
  omega

/-- A file that starts over leaves as many warps as its end. -/
theorem warpsLeft_complete (entry : PathState Seed) (drawn : Seed) (path : Nat)
    (more : entry.filesDone < task.numberOfPlots path)
    (boundary : entry.warpOffset = task.warps path) :
    warpsLeft task
        { completeFile task drawn path entry with
          warpOffset := 0
          globalNonces := 0 } path =
      warpsLeft task entry path := by
  have files : task.numberOfPlots path - entry.filesDone =
      task.numberOfPlots path - (entry.filesDone + 1) + 1 := by omega
  simp only [warpsLeft, completeFile, files, boundary, Nat.add_mul, Nat.one_mul]
  omega

theorem remaining_congr {paths paths' : Nat → PathState Seed}
    (same : ∀ path < task.outputPaths,
      warpsLeft task (paths' path) path = warpsLeft task (paths path) path) :
    remaining task paths' = remaining task paths := by
  apply Finset.sum_congr rfl
  intro path member
  exact same path (Finset.mem_range.mp member)

theorem remaining_warp {state : State Seed} (pointer_lt : state.pathPointer < task.outputPaths)
    (more : (state.paths state.pathPointer).filesDone < task.numberOfPlots state.pathPointer)
    (inside : (state.paths state.pathPointer).warpOffset < task.warps state.pathPointer) :
    remaining task (completeWarp state).paths < remaining task state.paths := by
  have less := warpsLeft_warp (state.paths state.pathPointer) state.pathPointer more inside
  apply Finset.sum_lt_sum
  · intro path _
    by_cases current : path = state.pathPointer
    · subst current
      simp only [completeWarp, setPath_same]
      omega
    · simp only [completeWarp, setPath_other _ _ _ _ current, Nat.le_refl]
  · refine ⟨state.pathPointer, Finset.mem_range.mpr pointer_lt, ?_⟩
    simp only [completeWarp, setPath_same]
    omega

theorem remaining_flushFile {state : State Seed} {buffer : Bytes} (held : Held state buffer)
    (drawn : Seed)
    (more : (state.paths state.pathPointer).filesDone < task.numberOfPlots state.pathPointer) :
    remaining task (restarted (atFileBoundary task state) (flushFile task drawn state)) =
      remaining task state.paths := by
  apply remaining_congr
  intro path _
  by_cases current : path = state.pathPointer
  · subst current
    by_cases boundary : (state.paths state.pathPointer).warpOffset = task.warps state.pathPointer
    · rw [flushFile_boundary task held drawn boundary]
      exact warpsLeft_complete _ drawn _ more boundary
    · rw [flushFile_inside task held drawn boundary]
  · rw [flushFile_other task held drawn path current]

theorem pass_le_turns {state : State Seed} (pass_lt : state.passInWarp < task.passesPerWarp)
    (left : 0 < remaining task state.paths) :
    state.passInWarp < remaining task state.paths * task.passesPerWarp :=
  Nat.lt_of_lt_of_le pass_lt (Nat.le_mul_of_pos_left _ left)

/-- A pass more of a warp that is not complete. -/
theorem turnsLeft_pass {before after : State Seed} (same : SamePlan before after)
    (running : before.done = false) (pass : after.passInWarp = before.passInWarp + 1)
    (pass_lt : before.passInWarp < task.passesPerWarp) (left : 0 < remaining task before.paths) :
    turnsLeft task after < turnsLeft task before := by
  have some := pass_le_turns pass_lt left
  have kept : remaining task after.paths = remaining task before.paths := by
    apply remaining_congr
    intro path _
    simp only [warpsLeft, same.filesDone, same.warpOffset]
  simp only [turnsLeft, same.done, running, Bool.false_eq_true, ↓reduceIte, kept, pass]
  omega

/-- A warp more is complete. -/
theorem turnsLeft_warp {before after : State Seed} (running : before.done = false)
    (pass_lt : before.passInWarp < task.passesPerWarp) (left : 0 < remaining task before.paths)
    (fewer : after.done = false →
      remaining task after.paths < remaining task before.paths ∧ after.passInWarp = 0) :
    turnsLeft task after < turnsLeft task before := by
  have some := pass_le_turns pass_lt left
  cases done : after.done with
  | true =>
    simp only [turnsLeft, done, running, Bool.false_eq_true, ↓reduceIte]
    omega
  | false =>
    obtain ⟨less, first⟩ := fewer done
    have product : (remaining task after.paths + 1) * task.passesPerWarp ≤
        remaining task before.paths * task.passesPerWarp := Nat.mul_le_mul_right _ less
    rw [Nat.add_mul, Nat.one_mul] at product
    simp only [turnsLeft, done, running, Bool.false_eq_true, ↓reduceIte, first]
    omega

/-- What a turn has to do. -/
structure Turned (task : PlotterTask Payload Seed) (resumes : Nat → Nat) (fresh : Seed → Prop)
    (before after : State Seed) : Prop where
  planned : Planned task resumes fresh after
  turns : turnsLeft task after < turnsLeft task before

/-- The turn that completes a warp, and flushes where the buffer or the file is full. -/
theorem warp_turned {generator : NonceGenerator Payload Seed} {before passed : State Seed}
    (requested : Requested task resumes) (running : before.done = false)
    (pass_lt : before.passInWarp < task.passesPerWarp)
    (same : SamePlan before passed) (after : Passed task generator passed)
    (last : passed.passInWarp = task.passesPerWarp)
    (underway : Underway task resumes fresh passed)
    (inside : (passed.paths passed.pathPointer).warpOffset < task.warps passed.pathPointer)
    (drawn : Seed) (drawnFresh : fresh drawn) :
    Turned task resumes fresh before
      (if (completeWarp passed).warpsInBuffer = task.escalate ∨
          atFileBoundary task (completeWarp passed) then
        switch task (atFileBoundary task (completeWarp passed))
          (flushFile task drawn (completeWarp passed))
      else completeWarp passed) := by
  have counting := after.counting last
  have behind := underway.completeWarp
  have pointer_lt : passed.pathPointer < task.outputPaths := after.steady.pointer_lt
  have kept : remaining task passed.paths = remaining task before.paths := by
    apply remaining_congr
    intro path _
    simp only [warpsLeft, same.filesDone, same.warpOffset]
  obtain ⟨_, _, isOpen⟩ := underway.current
  have fewer := remaining_warp pointer_lt isOpen.more inside
  have stillRunning : (completeWarp passed).done = false := same.done.trans running
  have offset : ((completeWarp passed).paths (completeWarp passed).pathPointer).warpOffset ≤
      task.warps (completeWarp passed).pathPointer := by
    simp only [completeWarp, setPath_same]
    exact inside
  have nowOpen : ((completeWarp passed).paths (completeWarp passed).pathPointer).filesDone <
      task.numberOfPlots (completeWarp passed).pathPointer := by
    simp only [completeWarp, setPath_same]
    exact isOpen.more
  rw [kept] at fewer
  have left : 0 < remaining task before.paths := Nat.zero_lt_of_lt fewer
  generalize completeWarp passed = counted at *
  obtain ⟨buffer, held, complete⟩ := counting.buffer
  split
  · obtain ⟨empty, pass⟩ := flushFile_empty task held drawn
    have pointer := flushFile_pointer task held drawn
    have running' := (flushFile_done task held drawn).trans stillRunning
    have restarts := remaining_flushFile held drawn nowOpen
    have parked := behind.flushFile requested counting offset drawn drawnFresh
    constructor
    · apply switch_planned ?_ empty (pass.trans counting.pass) running' _ parked
      rw [pointer]
      exact counting.steady.pointer_lt
    · apply turnsLeft_warp running pass_lt left
      intro goesOn
      obtain ⟨paths, samePass⟩ := switch_paths goesOn
      rw [paths, samePass, restarts, pass]
      exact ⟨fewer, counting.pass⟩
  · rename_i unfilled
    have within : (counted.paths counted.pathPointer).warpOffset <
        task.warps counted.pathPointer := by
      apply Nat.lt_of_le_of_ne offset
      intro boundary
      exact unfilled (Or.inr (decide_eq_true boundary))
    refine ⟨?_, turnsLeft_warp running pass_lt left fun _ => ⟨fewer, counting.pass⟩⟩
    simp only [Planned, stillRunning, Bool.false_eq_true, ↓reduceIte]
    exact Or.inl ⟨behind, within⟩

theorem compressTurn_turned {generator : NonceGenerator Payload Seed} {before hashed : State Seed}
    (requested : Requested task resumes) (running : before.done = false)
    (pass_lt : before.passInWarp < task.passesPerWarp)
    (underway : Underway task resumes fresh before)
    (inside : (before.paths before.pathPointer).warpOffset < task.warps before.pathPointer)
    (pointer_lt : before.pathPointer < task.outputPaths)
    (pass : HashedPass task generator before hashed) (same : SamePlan before hashed)
    (supply : Supply task) (drawnFresh : fresh supply.seed) :
    Turned task resumes fresh before (compressTurn task supply hashed) := by
  have after := pass.passed requested.escalated supply
  have kept := same.compressed supply
  have passes : (compressPass task supply (acquire task supply hashed)).passInWarp =
      before.passInWarp + 1 := by
    simp only [compressPass, (acquire_same supply hashed).pass, pass.pass]
  unfold compressTurn
  generalize compressPass task supply (acquire task supply hashed) = passed at after kept passes ⊢
  have goesOn := underway.same kept
  have within : (passed.paths passed.pathPointer).warpOffset < task.warps passed.pathPointer := by
    rw [kept.pointer, kept.warpOffset]
    exact inside
  simp only
  split
  · rename_i last
    exact warp_turned requested running pass_lt kept after last goesOn within supply.seed drawnFresh
  · obtain ⟨_, _, isOpen⟩ := underway.current
    have left := Nat.zero_lt_of_lt (remaining_warp pointer_lt isOpen.more inside)
    refine ⟨?_, turnsLeft_pass kept running passes pass_lt left⟩
    simp only [Planned, kept.done, running, Bool.false_eq_true, ↓reduceIte]
    exact Or.inl ⟨goesOn, within⟩

/-- What holds of every run without a stop request. -/
structure Kept (task : PlotterTask Payload Seed) (generator : NonceGenerator Payload Seed)
    (resumes : Nat → Nat) (fresh : Seed → Prop) (state : State Seed) : Prop where
  sound : Sound task generator state
  planned : Planned task resumes fresh state

variable {generator : NonceGenerator Payload Seed}

/-- A turn keeps to the plan and comes closer to its end. -/
theorem Kept.step (requested : Requested task resumes) {before after : State Seed}
    (kept : Kept task generator resumes fresh before) (supply : QuietSupply task fresh)
    (taken : (quiet task generator.generateNonces resumes fresh).step before supply = some after) :
    Turned task resumes fresh before after := by
  have taken : CpuScheduler.step task generator.generateNonces before supply.toSupply =
      some after := taken
  unfold CpuScheduler.step at taken
  split at taken
  · cases taken
  · rename_i notDone
    have goesOn := Bool.eq_false_iff.mpr notDone
    have active := kept.sound.active goesOn
    have planned := kept.planned
    simp only [Planned, goesOn, Bool.false_eq_true, ↓reduceIte] at planned
    rw [supply.quiet, Bool.or_false] at taken
    split at taken
    · rename_i complete
      cases taken
      rcases planned with ⟨underway, inside⟩ | exhausted
      · obtain ⟨_, _, isOpen⟩ := underway.current
        have all := (allComplete_iff before.paths).mp complete _ active.steady.pointer_lt
        have more := isOpen.more
        omega
      · refine ⟨exhausted.finish, ?_⟩
        have ends : turnsLeft task (CpuScheduler.finish task before) = 0 := rfl
        rw [ends]
        simp only [turnsLeft, goesOn, exhausted.pass, Bool.false_eq_true, ↓reduceIte]
        omega
    · rename_i incomplete
      rcases planned with ⟨underway, inside⟩ | exhausted
      · obtain ⟨hashed, done, pass⟩ := hashPass_spec active supply.toSupply
        rw [done, Option.map_some, Option.some.injEq] at taken
        rw [← taken]
        exact compressTurn_turned requested goesOn active.pass_lt underway inside
          active.steady.pointer_lt pass (hashPass_same done) supply.toSupply supply.drawn
      · exact absurd exhausted.complete incomplete

theorem Kept.next (requested : Requested task resumes) (before : State Seed)
    (supply : QuietSupply task fresh) (after : State Seed)
    (kept : Kept task generator resumes fresh before)
    (taken : (quiet task generator.generateNonces resumes fresh).step before supply = some after) :
    Kept task generator resumes fresh after :=
  ⟨step_sound requested.compressed requested.escalated kept.sound supply.toSupply taken,
    (kept.step requested supply taken).planned⟩

/-- Until the end the hasher never panics, so that there is a next turn. -/
theorem Kept.enabled {state : State Seed} (kept : Kept task generator resumes fresh state)
    (running : state.done = false) (supply : QuietSupply task fresh) :
    ∃ after, (quiet task generator.generateNonces resumes fresh).step state supply = some after := by
  obtain ⟨hashed, done, -⟩ := hashPass_spec (kept.sound.active running) supply.toSupply
  simp only [quiet, CpuScheduler.step, running, Bool.false_eq_true, ↓reduceIte, supply.quiet,
    Bool.or_false, done, Option.map_some]
  split
  · exact ⟨_, rfl⟩
  · exact ⟨_, rfl⟩

theorem start_kept (requested : Requested task resumes) (state : State Seed)
    (initial : (quiet task generator.generateNonces resumes fresh).initial state) :
    Kept task generator resumes fresh state := by
  obtain ⟨drawn, redrawn, drawnFresh, redrawnFresh, rfl⟩ := initial
  exact ⟨start_sound resumes requested.resumable drawn redrawn,
    start_onPlan requested drawn redrawn drawnFresh redrawnFresh⟩

/-- Whatever the seeds and the orders of the pool, some run comes to its end. -/
theorem run_finishes (requested : Requested task resumes) (supply : QuietSupply task fresh)
    (state : State Seed)
    (initial : (quiet task generator.generateNonces resumes fresh).initial state) :
    ∃ supplies final, Transition.run (quiet task generator.generateNonces resumes fresh) state
      supplies = some final ∧ final.done = true := by
  apply Transition.run_reaches (Kept task generator resumes fresh) (·.done = true) (turnsLeft task)
    (fun before supply after kept => kept.next requested before supply after)
    (fun before supply after kept taken => (kept.step requested supply taken).turns)
    ?_ state (start_kept requested state initial)
  intro reached kept running
  exact ⟨supply, kept.enabled (Bool.eq_false_iff.mpr running) supply⟩

end turns

end Pocx.CpuScheduler
