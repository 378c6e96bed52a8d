import Pocx.PlotFile.CrashCalls
import Pocx.PlotFile.CrashRuns
import Pocx.Plotter.CpuSent
import Pocx.Plotter.PlotLife

set_option autoImplicit false

namespace Pocx.PlotLife

open ByteStore
open Pocx.Plotter
open CpuScheduler (Delivers)
open Hashlib (NonceGenerator generateScoop)
open PlotFile
open PlotFile.Crash
open Transition (Reachable)

variable {Payload Seed : Type}

section Scoops

variable (generator : NonceGenerator Payload Seed) (plot : PlotName Payload Seed)

/-- A batch supplies a warp of the plot with the scoops of `generate_scoop`. -/
def Supplies (batch : Batch) (warp : Nat) : Prop :=
  ∀ scoop nonce, scoop < numScoops → nonce < numScoops →
    ∃ value, generateScoop generator.generateNonces plot.addressPayload plot.seed scoop
        (warp * numScoops + nonce) plot.compress = .ok value ∧
      ∀ offset : Fin scoopSize, batch.byteFor scoop warp nonce offset = value.byte offset

variable {generator plot}

/-- A byte of a write buffer, for a warp of the plot. -/
theorem byteFor_slot (batch : Batch) (warps scoop warp nonce : Nat) (offset : Fin scoopSize)
    (sized : batch.data.len = warps * warpSize) :
    batch.byteFor scoop warp nonce offset =
      (CpuCompressor.slotAt batch.data warps (warp - batch.startWarp) scoop nonce).byte offset := by
  have whole : batch.data.len / warpSize = warps := by
    rw [sized]
    exact Nat.mul_div_cancel _ (by decide)
  rw [Batch.byteFor, CpuCompressor.slotAt_byte, whole]
  congr 1
  generalize warp - batch.startWarp = slot
  rw [fileOffset, Strided.cell, Nat.add_mul, Nat.add_mul (slot * numScoops), ← Nat.mul_assoc scoop]
  simp only [Nat.add_assoc]

/-- What the scheduler delivers for a plot supplies it. -/
theorem delivers_supplies {task : PlotterTask Payload Seed} (launches : Launches plot task)
    {path warpOffset warpsToWrite numberOfWarps : Nat} {buffer : Bytes}
    (delivers : Delivers task generator path
      (.processTask buffer plot.seed warpOffset warpsToWrite numberOfWarps))
    (holds : warpsToWrite * warpSize ≤ buffer.len) (warp : Nat)
    (covered : (⟨buffer, warpOffset, warpsToWrite, holds⟩ : Batch).covers warp = true) :
    Supplies generator plot ⟨buffer, warpOffset, warpsToWrite, holds⟩ warp := by
  intro scoop nonce scoopLt nonceLt
  obtain ⟨sized, -, -, right⟩ := delivers
  rw [covers_iff] at covered
  simp only at covered
  have recomputed := right (warp - warpOffset) scoop nonce (by omega) scoopLt nonceLt
  have here : warpOffset + (warp - warpOffset) = warp := by omega
  rw [here, launches.address, launches.compress] at recomputed
  refine ⟨_, recomputed, ?_⟩
  intro offset
  exact byteFor_slot ⟨buffer, warpOffset, warpsToWrite, holds⟩ task.escalate scoop warp nonce offset
    sized

/-- The warps that a content holds as they were supplied are the scoops of the plot. -/
theorem holdsBelow_plotted {supplied : Nat → Option Batch} {content : Bytes} {progress : Nat}
    (supplies : ∀ warp batch, supplied warp = some batch → Supplies generator plot batch warp)
    (holds : HoldsBelow plot.numberOfWarps supplied content progress) :
    Plotted generator plot content progress := by
  intro scoop warp nonce scoopLt warpLt nonceLt
  have first : ¬ AtMarker plot.numberOfWarps scoop warp nonce 0 := by
    intro marker
    exact absurd marker.2.2.2 (by decide)
  have present := holds scoop warp nonce 0 scoopLt warpLt nonceLt (by decide) first
  obtain ⟨batch, supplied_eq, -⟩ := Option.map_eq_some_iff.mp present
  obtain ⟨value, recomputed, bytes⟩ := supplies warp batch supplied_eq scoop nonce scoopLt nonceLt
  refine ⟨value, recomputed, ?_⟩
  intro offset apart
  have held := holds scoop warp nonce offset scoopLt warpLt nonceLt offset.isLt apart
  rw [supplied_eq, Option.map_some, Option.some.injEq] at held
  rw [← held, bytes offset]

/-- A batch with the end of the plot does not look like a marker. -/
theorem supplies_avoidsMagic (apart : EndsApart generator plot) {batch : Batch}
    (supplies : ∀ warp, batch.covers warp = true → Supplies generator plot batch warp) :
    AvoidsMagic plot.numberOfWarps batch := by
  intro covered
  obtain ⟨value, recomputed, bytes⟩ := supplies _ covered (numScoops - 1) (numScoops - 1)
    (by decide) (by decide)
  obtain ⟨i, differs⟩ := apart value recomputed
  refine ⟨i, i.isLt, ?_⟩
  have position : scoopSize - 8 + (4 + i.val) = (Fin.natAdd 60 i : Fin 64).val := by
    rw [Fin.val_natAdd, ← Nat.add_assoc]
    rfl
  rw [position, bytes (Fin.natAdd 60 i)]
  exact differs

end Scoops

section Frames

theorem setContent_pocx (file : File) (name : file.extension = .tmp) (content : Bytes) :
    (file.setContent content).files .pocx = file.files .pocx := by
  simp only [File.setContent, name]
  exact Function.update_of_ne (by decide) _ _

theorem reopened_pocx (file : File) (name : file.extension = .tmp) :
    file.reopened.files .pocx = file.files .pocx := by
  unfold File.reopened
  split
  · exact setContent_pocx file name file.content
  · rfl

/-- What a write of an unfinished plot does to its finished name: nothing, or it is the rename. -/
theorem runPoint_frame {platform : Platform} {before after : Crash.State}
    (name : before.file.extension = .tmp) (taken : runPoint platform before = some after) :
    after.supplied = before.supplied ∧
      ((after.file.extension = .tmp ∧ after.file.files .pocx = before.file.files .pocx) ∨
        (before.point = .finalizing ∧ after.point = .idle ∧
          after.file.files .pocx = before.file.files .tmp)) := by
  have same := reopened_same before.file
  cases point : before.point with
  | crashed => simp only [runPoint, point, reduceCtorEq] at taken
  | idle => simp only [runPoint, point, reduceCtorEq] at taken
  | preallocating stale =>
    simp only [runPoint, point, Option.some.injEq] at taken
    subst taken
    exact ⟨rfl, Or.inl ⟨name, setContent_pocx before.file name _⟩⟩
  | scoops batch scoop =>
    simp only [runPoint, point] at taken
    split at taken
    · split at taken
      · cases taken
        exact ⟨rfl, Or.inl ⟨name, setContent_pocx before.file name _⟩⟩
      · cases taken
        exact ⟨rfl, Or.inl ⟨name, rfl⟩⟩
    · cases taken
      exact ⟨rfl, Or.inl ⟨name, rfl⟩⟩
  | progress warpsWritten =>
    have reopenedName := same.extension.trans name
    simp only [runPoint, point, Option.some.injEq] at taken
    subst taken
    refine ⟨rfl, Or.inl ?_⟩
    simp only
    split
    · exact ⟨reopenedName,
        (setContent_pocx _ reopenedName _).trans (reopened_pocx before.file name)⟩
    · exact ⟨reopenedName, reopened_pocx before.file name⟩
  | magic warpsWritten =>
    simp only [runPoint, point, Option.some.injEq] at taken
    subst taken
    refine ⟨rfl, Or.inl ?_⟩
    simp only
    split
    · exact ⟨name, setContent_pocx before.file name _⟩
    · exact ⟨name, rfl⟩
  | finalizing =>
    simp only [runPoint, point, finalize, name] at taken
    cases present : before.file.files .tmp with
    | none =>
      simp only [present, Option.some.injEq] at taken
      subst taken
      exact ⟨rfl, Or.inl ⟨name, rfl⟩⟩
    | some content =>
      simp only [present, Option.some.injEq] at taken
      subst taken
      exact ⟨rfl, Or.inr ⟨rfl, rfl, rfl⟩⟩

theorem readResumeInfo_file (file : File) :
    (readResumeInfo file).2 = file ∨ (readResumeInfo file).2 = file.reopened := by
  unfold readResumeInfo
  split
  · exact Or.inl rfl
  · exact Or.inr rfl
  · exact Or.inr rfl

theorem accept_frame (disk : Crash.State) (file : File) (batch : Batch) (progress : Nat) :
    (accept disk file batch progress).file = file ∧
      ∀ warp other, (accept disk file batch progress).supplied warp = some other →
        disk.supplied warp = some other ∨ (other = batch ∧ batch.covers warp = true) := by
  unfold accept
  split
  · exact ⟨rfl, fun _ _ supplied => Or.inl supplied⟩
  split
  · exact ⟨rfl, fun _ _ supplied => Or.inl supplied⟩
  · refine ⟨rfl, ?_⟩
    intro warp other supplied
    by_cases covered : batch.covers warp = true
    · simp only [covered, ↓reduceIte, Option.some.injEq] at supplied
      exact Or.inr ⟨supplied.symm, covered⟩
    · simp only [covered, Bool.false_eq_true, ↓reduceIte] at supplied
      exact Or.inl supplied

/-- The beginning of a batch changes none of the names, and supplies at most its own warps. -/
theorem beginWrite_frame (disk : Crash.State) (batch : Batch)
    (name : disk.file.extension = .tmp) :
    (beginWrite disk batch).file.extension = .tmp ∧
      (beginWrite disk batch).file.files .pocx = disk.file.files .pocx ∧
      ∀ warp other, (beginWrite disk batch).supplied warp = some other →
        disk.supplied warp = some other ∨ (other = batch ∧ batch.covers warp = true) := by
  have named (file : File) (here : file = disk.file ∨ file = disk.file.reopened) :
      file.extension = .tmp ∧ file.files .pocx = disk.file.files .pocx := by
    rcases here with rfl | rfl
    · exact ⟨name, rfl⟩
    · exact ⟨(reopened_same disk.file).extension.trans name, reopened_pocx disk.file name⟩
  have held := readResumeInfo_file disk.file
  have accepted (file : File) (progress : Nat)
      (here : file = disk.file ∨ file = disk.file.reopened) :
      (accept disk file batch progress).file.extension = .tmp ∧
        (accept disk file batch progress).file.files .pocx = disk.file.files .pocx ∧
        ∀ warp other, (accept disk file batch progress).supplied warp = some other →
          disk.supplied warp = some other ∨ (other = batch ∧ batch.covers warp = true) := by
    obtain ⟨fileEq, supplies⟩ := accept_frame disk file batch progress
    rw [fileEq]
    exact ⟨(named file here).1, (named file here).2, supplies⟩
  unfold beginWrite
  cases read : readResumeInfo disk.file with
  | mk marker file =>
    rw [read] at held
    cases marker with
    | ok progress => exact accepted file progress held
    | error error =>
      have kept := named file held
      cases error with
      | noResumeInfo => exact accepted file 0 held
      | io => exact ⟨kept.1, kept.2, fun _ _ supplied => Or.inl supplied⟩
      | resumeGap => exact ⟨kept.1, kept.2, fun _ _ supplied => Or.inl supplied⟩
      | writeExceedsEof => exact ⟨kept.1, kept.2, fun _ _ supplied => Or.inl supplied⟩
      | readOnlyAccess => exact ⟨kept.1, kept.2, fun _ _ supplied => Or.inl supplied⟩

/-- A plot on its way to its first batch. -/
def Fresh : Point → Prop
  | .preallocating _ | .idle => True
  | .progress warpsWritten | .magic warpsWritten => warpsWritten = 0
  | .crashed | .scoops _ _ | .finalizing => False

theorem runPoint_fresh {platform : Platform} {before after : Crash.State}
    (positive : before.file.numberOfWarps ≠ 0) (fresh : Fresh before.point)
    (taken : runPoint platform before = some after) : Fresh after.point := by
  cases point : before.point with
  | crashed => simp only [runPoint, point, reduceCtorEq] at taken
  | idle => simp only [runPoint, point, reduceCtorEq] at taken
  | preallocating stale =>
    simp only [runPoint, point, Option.some.injEq] at taken
    subst taken
    rfl
  | scoops batch scoop =>
    rw [point] at fresh
    cases fresh
  | progress warpsWritten =>
    rw [point] at fresh
    simp only [runPoint, point, Option.some.injEq] at taken
    subst taken
    exact fresh
  | magic warpsWritten =>
    rw [point] at fresh
    simp only [runPoint, point, Option.some.injEq] at taken
    subst taken
    have none : warpsWritten = 0 := fresh
    have more : ¬ 0 = before.file.numberOfWarps := Ne.symm positive
    simp only [none, more, ↓reduceIte]
    trivial
  | finalizing =>
    rw [point] at fresh
    cases fresh

/-- A new process on a plot finds the files as they are. -/
theorem newPlot_frame {numberOfWarps : Nat} {create directIo : Bool} {stale : Nat → UInt8}
    {disk opened : Crash.State} (taken : newPlot numberOfWarps create directIo stale disk = some opened) :
    opened.file = Crash.opened numberOfWarps directIo disk.file.files ∧
      opened.supplied = disk.supplied ∧ Fresh opened.point ∧
      (create = false → opened.point = .idle) := by
  unfold newPlot at taken
  split at taken
  · cases taken
    exact ⟨rfl, rfl, trivial, fun _ => rfl⟩
  · split at taken
    · rename_i creates
      cases taken
      refine ⟨rfl, rfl, trivial, ?_⟩
      intro opens
      rw [creates] at opens
      cases opens
    · cases taken

end Frames

section Runs

variable (generator : NonceGenerator Payload Seed) (plot : PlotName Payload Seed)
  (platform : Platform)

/-- The marker of an unfinished plot tells that all its warps are there. -/
def FullMarker (files : Extension → Option Bytes) : Prop :=
  ∀ content, files .tmp = some content →
    hasMagic plot.numberOfWarps content = true ∧
      progressOf plot.numberOfWarps content = plot.numberOfWarps

/-- Where the writer of the path of the plot stands. -/
def InPhase (disk : Crash.State) : Phase → Prop
  | .ready | .ended => disk.point = .crashed
  | .opening batch =>
    disk.file.extension = .tmp ∧ Fresh disk.point ∧
      ∀ warp, batch.covers warp = true → Supplies generator plot batch warp
  | .writing => disk.file.extension = .tmp ∨ disk.point = .idle ∨ disk.point = .crashed

/-- A process and the plot. A plot that is to be finalized has been left alone until then. -/
structure Running (disk : Crash.State) (process : Process Payload Seed) : Prop where
  launches : Launches plot process.task
  inside : process.path < process.task.outputPaths
  resumable : Resumable process.task process.resumes
  sound : CpuScheduler.Sound process.task generator process.scheduler
  sent : ∃ drawn more, process.scheduler.sent process.path =
      startTasks process.task process.resumes drawn process.path ++ more ∧
    ∀ writerTask ∈ more, Delivers process.task generator process.path writerTask
  phase : InPhase generator plot disk process.phase
  full : process.taken = 0 → process.phase = .ready ∧
    (markerFull process.task process.resumes process.path = true →
      process.task.seeds process.path = some plot.seed →
      process.task.warps process.path = plot.numberOfWarps → FullMarker plot disk.file.files)

/-- A finished plot holds all its scoops. -/
def Finished (files : Extension → Option Bytes) : Prop :=
  ∀ content, files .pocx = some content →
    plot.numberOfWarps * warpSize ≤ content.len ∧
      Plotted generator plot content plot.numberOfWarps

structure Invariant (state : State Payload Seed) : Prop where
  disk : Crash.Invariant plot.numberOfWarps platform state.disk
  supplied : ∀ warp batch, state.disk.supplied warp = some batch →
    Supplies generator plot batch warp
  finished : Finished generator plot state.disk.file.files
  resting : state.process = none → state.disk.point = .crashed
  running : ∀ process, state.process = some process → Running generator plot state.disk process

variable {generator plot platform}

theorem Invariant.truthful {state : State Payload Seed} (positive : 1 ≤ plot.numberOfWarps)
    (invariant : Invariant generator plot platform state) :
    Truthful generator plot state.disk.file.files := by
  refine ⟨?_, invariant.finished⟩
  intro content present
  have sound := invariant.disk.sound positive content present
  refine ⟨sound.len, ?_⟩
  intro magic
  exact ⟨sound.inside magic, holdsBelow_plotted invariant.supplied (sound.holds magic)⟩

/-- Without a handle any disk is as after a crash. -/
theorem crashed_invariant (positive : 1 ≤ plot.numberOfWarps) {disk : Crash.State}
    (invariant : Crash.Invariant plot.numberOfWarps platform disk) :
    Crash.Invariant plot.numberOfWarps platform { disk with point := .crashed } :=
  fun content present => invariant.sound positive content present

/-- The resume check of a plot whose marker is at its end. -/
theorem readResume_full [DecidableEq Seed] (positive : 1 ≤ plot.numberOfWarps) {disk : Crash.State}
    (invariant : Crash.Invariant plot.numberOfWarps platform disk)
    (full : plot.numberOfWarps ≤
      DiskWriter.readResume (fun _ _ => disk.file.files) (some plot.seed) plot.numberOfWarps) :
    FullMarker plot disk.file.files := by
  intro content present
  obtain ⟨held, read⟩ := opened_plot plot.numberOfWarps false disk.file.files content present
  have sound := invariant.sound positive content present
  rw [← read] at sound
  have marker := reads_marker plot.numberOfWarps _ disk.supplied held positive (Or.inl rfl) sound
  simp only [DiskWriter.readResume, DiskWriter.newPlotFile, present, marker] at full
  rw [read] at full sound
  by_cases magic : hasMagic plot.numberOfWarps content = true
  · rw [if_pos magic] at full
    have progress : plot.numberOfWarps ≤ progressOf plot.numberOfWarps content := full
    have inside := sound.inside magic
    exact ⟨magic, by omega⟩
  · rw [if_neg magic] at full
    have none : plot.numberOfWarps ≤ 0 := full
    omega

/-- A process that starts finds the plot where the last one left it. -/
theorem launch_invariant [DecidableEq Seed] (positive : 1 ≤ plot.numberOfWarps)
    {state : State Payload Seed} (invariant : Invariant generator plot platform state)
    (rests : state.process = none) (task : PlotterTask Payload Seed) (path : Nat)
    (others : Nat → Nat) (drawn redrawn : Nat → Seed) (launches : Launches plot task)
    (inside : path < task.outputPaths) (resumable : Resumable task others) :
    Invariant generator plot platform (launch plot state task path others drawn redrawn) := by
  have resumes : Resumable task (readResumes plot state.disk task path others) := by
    intro other otherLt resumed
    unfold readResumes at resumed
    split at resumed
    · rename_i here
      rw [here.1, here.2.1]
      rfl
    · exact resumable other otherLt resumed
  have runs : (launch plot state task path others drawn redrawn).process = none →
      state.disk.point = .crashed := by
    intro stopped
    cases stopped
  refine ⟨invariant.disk, invariant.supplied, invariant.finished, runs, ?_⟩
  intro process started
  cases started
  refine ⟨launches, inside, resumes, CpuScheduler.start_sound _ resumes drawn redrawn, ?_,
    invariant.resting rests, ?_⟩
  · exact ⟨drawn, [], (List.append_nil _).symm, by simp⟩
  · intro _
    refine ⟨rfl, ?_⟩
    intro full seed warps
    have read : readResumes plot state.disk task path others path =
        DiskWriter.readResume (fun _ _ => state.disk.file.files) (some plot.seed)
          plot.numberOfWarps := if_pos ⟨rfl, seed, warps⟩
    simp only [markerFull, Bool.not_eq_true', Bool.or_eq_false_iff, decide_eq_false_iff_not,
      Nat.not_lt] at full
    rw [read, warps] at full
    exact readResume_full positive invariant.disk full.2

/-- A turn of the scheduler adds to what the writer is sent. -/
theorem schedule_running {disk : Crash.State} {process : Process Payload Seed}
    {scheduler : CpuScheduler.State Seed} (compressed : 1 ≤ plot.compress)
    (running : Running generator plot disk process) (supply : CpuScheduler.Supply process.task)
    (taken : CpuScheduler.step process.task generator.generateNonces process.scheduler supply =
      some scheduler) :
    Running generator plot disk { process with scheduler := scheduler } := by
  have level : 1 ≤ process.task.compress := by
    rw [running.launches.compress]
    exact compressed
  have escalated := running.launches.escalated
  obtain ⟨drawn, more, sent, delivers⟩ := running.sent
  obtain ⟨rest, restEq, delivers'⟩ :=
    CpuScheduler.step_extends level escalated running.sound supply taken process.path
  refine ⟨running.launches, running.inside, running.resumable,
    CpuScheduler.step_sound level escalated running.sound supply taken, ?_, running.phase,
    running.full⟩
  refine ⟨drawn, more ++ rest, by rw [restEq, sent, List.append_assoc], ?_⟩
  intro writerTask member
  rcases List.mem_append.mp member with earlier | now
  · exact delivers writerTask earlier
  · exact delivers' writerTask now

/-- The writer has received its next task. -/
theorem Running.received {disk after : Crash.State} {process : Process Payload Seed}
    (running : Running generator plot disk process) (phase : Phase)
    (stands : InPhase generator plot after phase) :
    Running generator plot after { process with taken := process.taken + 1, phase := phase } :=
  ⟨running.launches, running.inside, running.resumable, running.sound, running.sent, stands,
    fun none => absurd none (Nat.succ_ne_zero _)⟩

/-- The batches that the writer receives are those of the main loop. -/
theorem Running.delivers {disk : Crash.State} {process : Process Payload Seed}
    (running : Running generator plot disk process) {index : Nat} {buffer : Bytes} {seed : Seed}
    {warpOffset warpsToWrite numberOfWarps : Nat}
    (next : (process.scheduler.sent process.path)[index]? =
      some (.processTask buffer seed warpOffset warpsToWrite numberOfWarps)) :
    Delivers process.task generator process.path
      (.processTask buffer seed warpOffset warpsToWrite numberOfWarps) := by
  obtain ⟨drawn, more, sent, delivers⟩ := running.sent
  have member := List.mem_of_getElem? next
  rw [sent] at member
  rcases List.mem_append.mp member with first | later
  · unfold startTasks at first
    split at first
    · cases List.mem_singleton.mp first
    · cases first
  · exact delivers _ later

/-- `Finalize` is sent before everything else, for a plot whose marker is at its end. -/
theorem Running.finalizes {disk : Crash.State} {process : Process Payload Seed}
    (running : Running generator plot disk process) (positive : 1 ≤ plot.numberOfWarps)
    (next : (process.scheduler.sent process.path)[process.taken]? =
      some (.finalize plot.seed plot.numberOfWarps)) :
    FullMarker plot disk.file.files := by
  obtain ⟨drawn, more, sent, delivers⟩ := running.sent
  rw [sent] at next
  by_cases inStart : process.taken <
      (startTasks process.task process.resumes drawn process.path : List (WriterTask Bytes Seed)).length
  · rw [List.getElem?_append_left inStart] at next
    unfold startTasks at next inStart
    by_cases full : markerFull process.task process.resumes process.path = true
    · simp only [full, ↓reduceIte, List.length_singleton, Nat.lt_one_iff] at next inStart
      rw [inStart, List.getElem?_cons_zero, Option.some.injEq, WriterTask.finalize.injEq] at next
      obtain ⟨seed, warps⟩ := next
      have resumed : 0 < process.resumes process.path := by
        simp only [markerFull, Bool.not_eq_true', Bool.or_eq_false_iff, decide_eq_false_iff_not,
          Nat.not_lt, warps] at full
        omega
      obtain ⟨given, givenEq⟩ :=
        Option.isSome_iff_exists.mp (running.resumable process.path running.inside resumed)
      have same : given = plot.seed := by
        rw [resumePath, givenEq, Option.getD_some] at seed
        exact seed
      rw [same] at givenEq
      exact (running.full inStart).2 full givenEq warps
    · simp only [full, Bool.false_eq_true, ↓reduceIte, List.length_nil, Nat.not_lt_zero] at inStart
  · rw [List.getElem?_append_right (by omega)] at next
    exact absurd (delivers _ (List.mem_of_getElem? next)) id

/-- The plot that `Finalize` opens is about to be renamed. -/
theorem openFinal_invariant {disk opened : Crash.State} {directIo : Bool} {stale : Nat → UInt8}
    (invariant : Crash.Invariant plot.numberOfWarps platform disk) (crashed : disk.point = .crashed)
    (full : FullMarker plot disk.file.files)
    (taken : newPlot plot.numberOfWarps false directIo stale disk = some opened) :
    Crash.Invariant plot.numberOfWarps platform { opened with point := .finalizing } := by
  have before := newPlot_invariant plot.numberOfWarps platform false directIo stale disk opened
    crashed invariant trivial taken
  obtain ⟨file, -, -, idle⟩ := newPlot_frame taken
  simp only [Crash.Invariant, idle rfl] at before
  obtain ⟨held, -, facts⟩ := before
  rw [idle rfl] at facts
  have name : opened.file.extension = .tmp := by
    rw [file]
    rfl
  have stored : opened.file.files .tmp = some opened.file.content := by
    rcases held.name with ⟨-, -, stored⟩ | ⟨other, -⟩
    · exact stored
    · rw [name] at other
      cases other
  obtain ⟨magic, progress⟩ := full opened.file.content (by rw [← stored, file]; rfl)
  rcases facts with detached | ⟨-, sound, -⟩
  · have other := detached.extension
    rw [name] at other
    cases other
  · refine ⟨held, by simp, Or.inr ⟨Or.inl ?_, sound, magic, progress⟩⟩
    rw [file]
    rfl

/-- A step of the process that keeps the disk as it is. -/
theorem Invariant.goOn {state : State Payload Seed} {after : Process Payload Seed}
    (invariant : Invariant generator plot platform state)
    (running : Running generator plot state.disk after) :
    Invariant generator plot platform { state with process := some after } := by
  refine ⟨invariant.disk, invariant.supplied, invariant.finished, by simp, ?_⟩
  intro other same
  cases same
  exact running

theorem openFor_invariant {state : State Payload Seed} {process : Process Payload Seed}
    (invariant : Invariant generator plot platform state)
    (running : Running generator plot state.disk process) (crashed : state.disk.point = .crashed)
    (batch : Batch) (directIo : Bool) (stale : Nat → UInt8)
    (blank : state.disk.file.files .tmp = none → hasMagic plot.numberOfWarps
      ⟨plot.numberOfWarps * warpSize, preallocate platform stale⟩ = false)
    (supplies : ∀ warp, batch.covers warp = true → Supplies generator plot batch warp) :
    Invariant generator plot platform
      (openFor plot state.disk { process with taken := process.taken + 1, phase := .ready } batch
        directIo stale) := by
  unfold openFor
  cases taken : newPlot plot.numberOfWarps (batch.startWarp == 0) directIo stale state.disk with
  | none => exact invariant.goOn (running.received .ended crashed)
  | some opened =>
    obtain ⟨file, supplied, fresh, -⟩ := newPlot_frame taken
    have allowed : preallocatesNoMagic plot.numberOfWarps platform state.disk
        (.openPlot (batch.startWarp == 0) directIo stale) := by
      cases batch.startWarp == 0 with
      | false => trivial
      | true => exact blank
    have files : opened.file.files = state.disk.file.files := by
      rw [file]
      rfl
    refine ⟨newPlot_invariant plot.numberOfWarps platform _ directIo stale state.disk opened crashed
      invariant.disk allowed taken, ?_, ?_, by simp, ?_⟩
    · rw [supplied]
      exact invariant.supplied
    · simp only [files]
      exact invariant.finished
    · intro other same
      cases same
      refine running.received (.opening batch) ⟨?_, fresh, supplies⟩
      rw [file]
      rfl

theorem finalize_invariant {state : State Payload Seed} {process : Process Payload Seed}
    (invariant : Invariant generator plot platform state)
    (running : Running generator plot state.disk process) (crashed : state.disk.point = .crashed)
    (full : FullMarker plot state.disk.file.files) (directIo : Bool) (stale : Nat → UInt8) :
    Invariant generator plot platform
      (openFinal plot state.disk { process with taken := process.taken + 1, phase := .ready } directIo
        stale) := by
  unfold openFinal
  cases taken : newPlot plot.numberOfWarps false directIo stale state.disk with
  | none => exact invariant.goOn (running.received .ready crashed)
  | some opened =>
    obtain ⟨file, supplied, -, -⟩ := newPlot_frame taken
    have files : opened.file.files = state.disk.file.files := by
      rw [file]
      rfl
    refine ⟨openFinal_invariant invariant.disk crashed full taken, ?_, ?_, by simp, ?_⟩
    · simp only [supplied]
      exact invariant.supplied
    · simp only [files]
      exact invariant.finished
    · intro other same
      cases same
      refine running.received .writing (Or.inl ?_)
      rw [file]
      rfl

/-- The writer takes its next task. -/
theorem take_invariant [DecidableEq Seed] (positive : 1 ≤ plot.numberOfWarps)
    {state after : State Payload Seed} {process : Process Payload Seed}
    (invariant : Invariant generator plot platform state)
    (running : Running generator plot state.disk process) (directIo : Bool) (stale : Nat → UInt8)
    (blank : state.disk.file.files .tmp = none → hasMagic plot.numberOfWarps
      ⟨plot.numberOfWarps * warpSize, preallocate platform stale⟩ = false)
    (taken : takeTask plot state.disk process directIo stale = some after) :
    Invariant generator plot platform after := by
  unfold takeTask at taken
  cases ready : process.phase with
  | opening batch => simp only [ready, reduceCtorEq] at taken
  | writing => simp only [ready, reduceCtorEq] at taken
  | ended => simp only [ready, reduceCtorEq] at taken
  | ready =>
    have crashed : state.disk.point = .crashed := by
      have phase := running.phase
      rw [ready] at phase
      exact phase
    have skipped : Running generator plot state.disk
        { process with taken := process.taken + 1, phase := .ready } :=
      running.received .ready crashed
    have ends : Running generator plot state.disk
        { process with taken := process.taken + 1, phase := .ended } :=
      running.received .ended crashed
    cases next : (process.scheduler.sent process.path)[process.taken]? with
    | none => simp only [ready, next, reduceCtorEq] at taken
    | some writerTask =>
      simp only [ready, next] at taken
      cases writerTask with
      | endTask =>
        cases taken
        exact invariant.goOn ends
      | finalize seed numberOfWarps =>
        simp only at taken
        split at taken
        · rename_i here
          obtain ⟨rfl, rfl⟩ := here
          cases taken
          exact finalize_invariant invariant running crashed (running.finalizes positive next)
            directIo stale
        · cases taken
          exact invariant.goOn skipped
      | processTask buffer seed warpOffset warpsToWrite numberOfWarps =>
        simp only at taken
        split at taken
        · rename_i here
          obtain ⟨rfl, rfl⟩ := here
          split at taken
          · rename_i holds
            cases taken
            exact openFor_invariant invariant running crashed _ directIo stale blank
              (delivers_supplies running.launches (running.delivers next) holds)
          · cases taken
            exact invariant.goOn ends
        · cases taken
          exact invariant.goOn skipped

/-- The batch that the plot was opened for begins. -/
theorem begin_invariant (positive : 1 ≤ plot.numberOfWarps) (bounded : plot.numberOfWarps < 2 ^ 32)
    (apart : EndsApart generator plot) {state after : State Payload Seed}
    {process : Process Payload Seed} (invariant : Invariant generator plot platform state)
    (running : Running generator plot state.disk process)
    (taken : beginBatch state.disk process = some after) :
    Invariant generator plot platform after := by
  unfold beginBatch at taken
  cases opens : process.phase with
  | ready => simp only [opens, reduceCtorEq] at taken
  | writing => simp only [opens, reduceCtorEq] at taken
  | ended => simp only [opens, reduceCtorEq] at taken
  | opening batch =>
    cases point : state.disk.point with
    | idle =>
      simp only [opens, point] at taken
      have phase := running.phase
      rw [opens] at phase
      obtain ⟨name, -, supplies⟩ := phase
      obtain ⟨name', kept, supplied⟩ := beginWrite_frame state.disk batch name
      have begun : Crash.Invariant plot.numberOfWarps platform (beginWrite state.disk batch) := by
        apply step_invariant plot.numberOfWarps positive bounded platform state.disk (.write batch)
          _ invariant.disk ⟨supplies_avoidsMagic apart supplies, trivial⟩
        simp only [Crash.system, Crash.step, point]
      have rightly (warp : Nat) (other : Batch)
          (given : (beginWrite state.disk batch).supplied warp = some other) :
          Supplies generator plot other warp := by
        rcases supplied warp other given with earlier | ⟨rfl, covered⟩
        · exact invariant.supplied warp other earlier
        · exact supplies warp covered
      have finished : Finished generator plot (beginWrite state.disk batch).file.files := by
        intro content present
        rw [kept] at present
        exact invariant.finished content present
      have counted : process.taken ≠ 0 := by
        intro none
        have ready := (running.full none).1
        rw [opens] at ready
        cases ready
      have goesOn (phase : Phase) (disk : Crash.State) (stands : InPhase generator plot disk phase) :
          Running generator plot disk { process with phase := phase } :=
        ⟨running.launches, running.inside, running.resumable, running.sound, running.sent, stands,
          fun none => absurd none counted⟩
      generalize beginWrite state.disk batch = disk at taken name' begun rightly finished
      split at taken
      · cases taken
        refine ⟨begun, rightly, finished, by simp, ?_⟩
        intro other same
        cases same
        exact goesOn .writing disk (Or.inl name')
      · cases taken
        refine ⟨crashed_invariant positive begun, rightly, finished, by simp, ?_⟩
        intro other same
        cases same
        exact goesOn .ended { disk with point := .crashed } rfl
    | crashed => simp only [opens, point, reduceCtorEq] at taken
    | preallocating => simp only [opens, point, reduceCtorEq] at taken
    | scoops => simp only [opens, point, reduceCtorEq] at taken
    | progress => simp only [opens, point, reduceCtorEq] at taken
    | magic => simp only [opens, point, reduceCtorEq] at taken
    | finalizing => simp only [opens, point, reduceCtorEq] at taken

/-- A plot that is about to be renamed has its marker at its end. -/
theorem finalizing_marked {disk : Crash.State}
    (invariant : Crash.Invariant plot.numberOfWarps platform disk)
    (point : disk.point = .finalizing) (name : disk.file.extension = .tmp) :
    FullMarker plot disk.file.files := by
  intro content present
  simp only [Crash.Invariant, point] at invariant
  obtain ⟨held, -, facts⟩ := invariant
  rcases facts with detached | ⟨-, facts⟩
  · have other := detached.extension
    rw [name] at other
    cases other
  · rw [point] at facts
    obtain ⟨-, magic, progress⟩ := facts
    have stored : disk.file.content = content := by
      simp only [File.content, name, present, Option.getD_some]
    rw [stored] at magic progress
    exact ⟨magic, progress⟩

/-- It is whole. -/
theorem finalizing_whole {disk : Crash.State} (positive : 1 ≤ plot.numberOfWarps)
    (invariant : Crash.Invariant plot.numberOfWarps platform disk)
    (point : disk.point = .finalizing) (name : disk.file.extension = .tmp)
    (supplied : ∀ warp batch, disk.supplied warp = some batch →
      Supplies generator plot batch warp)
    (content : Bytes) (present : disk.file.files .tmp = some content) :
    plot.numberOfWarps * warpSize ≤ content.len ∧
      Plotted generator plot content plot.numberOfWarps := by
  have sound := invariant.sound positive content present
  obtain ⟨magic, progress⟩ := finalizing_marked invariant point name content present
  have plotted := holdsBelow_plotted supplied (sound.holds magic)
  rw [progress] at plotted
  exact ⟨sound.len, plotted⟩

/-- The number of warps of a plot that is held is that of its name. -/
theorem held_warps {disk : Crash.State}
    (invariant : Crash.Invariant plot.numberOfWarps platform disk) (held : disk.point ≠ .crashed) :
    disk.file.numberOfWarps = plot.numberOfWarps := by
  unfold Crash.Invariant at invariant
  split at invariant
  · rename_i crashed
    exact absurd crashed held
  · obtain ⟨directIo, file⟩ := invariant.file
    rw [file]
    rfl
  · exact invariant.plot.warps

theorem runPoint_held {before after : Crash.State} (taken : runPoint platform before = some after) :
    before.point ≠ .crashed ∧ before.point ≠ .idle := by
  constructor
  · intro crashed
    simp only [runPoint, crashed, reduceCtorEq] at taken
  · intro idle
    simp only [runPoint, idle, reduceCtorEq] at taken

/-- A process that writes has the plot under its temporary name. -/
theorem Running.name {disk : Crash.State} {process : Process Payload Seed}
    (running : Running generator plot disk process) (alive : disk.point ≠ .crashed)
    (busy : disk.point ≠ .idle) : disk.file.extension = .tmp := by
  have phase := running.phase
  cases standing : process.phase with
  | ready =>
    rw [standing] at phase
    exact absurd phase alive
  | opening batch =>
    rw [standing] at phase
    exact phase.1
  | writing =>
    rw [standing] at phase
    rcases phase with name | idle | crashed
    · exact name
    · exact absurd idle busy
    · exact absurd crashed alive
  | ended =>
    rw [standing] at phase
    exact absurd phase alive

/-- The writer makes one write. -/
theorem write_invariant (positive : 1 ≤ plot.numberOfWarps) (bounded : plot.numberOfWarps < 2 ^ 32)
    {state : State Payload Seed} {process : Process Payload Seed} {disk : Crash.State}
    (invariant : Invariant generator plot platform state)
    (running : Running generator plot state.disk process)
    (alone : state.process = some process)
    (taken : runPoint platform state.disk = some disk) :
    Invariant generator plot platform { state with disk := disk } := by
  obtain ⟨alive, busy⟩ := runPoint_held taken
  have unready : process.phase ≠ .ready := by
    intro ready
    have phase := running.phase
    rw [ready] at phase
    exact alive phase
  have counted : process.taken ≠ 0 := fun none => unready (running.full none).1
  have stepped : Crash.Invariant plot.numberOfWarps platform disk :=
    step_invariant plot.numberOfWarps positive bounded platform state.disk .run disk invariant.disk
      ⟨trivial, trivial⟩ taken
  have name := running.name alive busy
  obtain ⟨supplied, files⟩ := runPoint_frame name taken
  refine ⟨stepped, ?_, ?_, ?_, ?_⟩
  · simp only [supplied]
    exact invariant.supplied
  · intro content present
    rcases files with ⟨-, kept⟩ | ⟨point, -, renamed⟩
    · rw [kept] at present
      exact invariant.finished content present
    · rw [renamed] at present
      exact finalizing_whole positive invariant.disk point name invariant.supplied content present
  · intro rests
    rw [alone] at rests
    cases rests
  · intro other same
    rw [alone, Option.some.injEq] at same
    subst same
    refine ⟨running.launches, running.inside, running.resumable, running.sound, running.sent, ?_,
      fun none => absurd none counted⟩
    have phase := running.phase
    cases standing : process.phase with
    | ready => exact absurd standing unready
    | opening batch =>
      rw [standing] at phase
      obtain ⟨-, fresh, supplies⟩ := phase
      have warps : state.disk.file.numberOfWarps ≠ 0 := by
        rw [held_warps invariant.disk alive]
        omega
      rcases files with ⟨name', -⟩ | ⟨point, -⟩
      · exact ⟨name', runPoint_fresh warps fresh taken, supplies⟩
      · rw [point] at fresh
        cases fresh
    | writing =>
      rcases files with ⟨name', -⟩ | ⟨-, idle, -⟩
      · exact Or.inl name'
      · exact Or.inr (Or.inl idle)
    | ended =>
      rw [standing] at phase
      exact absurd phase alive

/-- The plot is dropped, whatever becomes of the process. -/
theorem Invariant.drop {state : State Payload Seed} (positive : 1 ≤ plot.numberOfWarps)
    (invariant : Invariant generator plot platform state) (process : Option (Process Payload Seed))
    (running : ∀ other, process = some other →
      Running generator plot { state.disk with point := .crashed } other) :
    Invariant generator plot platform ⟨{ state.disk with point := .crashed }, process⟩ :=
  ⟨crashed_invariant positive invariant.disk, invariant.supplied, invariant.finished,
    fun _ => rfl, running⟩

theorem close_invariant (positive : 1 ≤ plot.numberOfWarps) {state after : State Payload Seed}
    {process : Process Payload Seed} (invariant : Invariant generator plot platform state)
    (running : Running generator plot state.disk process)
    (taken : closePlot state.disk process = some after) :
    Invariant generator plot platform after := by
  unfold closePlot at taken
  split at taken
  · rename_i writing idle
    cases taken
    apply invariant.drop positive
    intro other same
    cases same
    refine ⟨running.launches, running.inside, running.resumable, running.sound, running.sent, rfl, ?_⟩
    intro none
    have ready := (running.full none).1
    rw [writing] at ready
    cases ready
  · cases taken

theorem life_step [DecidableEq Seed] (compressed : 1 ≤ plot.compress)
    (positive : 1 ≤ plot.numberOfWarps) (bounded : plot.numberOfWarps < 2 ^ 32)
    (apart : EndsApart generator plot) (before : State Payload Seed) (label : Label Payload Seed)
    (after : State Payload Seed) (invariant : Invariant generator plot platform before)
    (admissible : Admissible plot platform before label)
    (taken : (system plot platform generator.generateNonces).step before label = some after) :
    Invariant generator plot platform after := by
  simp only [system, step] at taken
  cases present : before.process with
  | none =>
    cases label with
    | launch task path others drawn redrawn =>
      simp only [present, Option.some.injEq] at taken
      subst taken
      obtain ⟨launches, inside, resumable⟩ := admissible
      exact launch_invariant positive invariant present task path others drawn redrawn launches
        inside resumable
    | schedule => simp only [present, reduceCtorEq] at taken
    | take => simp only [present, reduceCtorEq] at taken
    | begin => simp only [present, reduceCtorEq] at taken
    | write => simp only [present, reduceCtorEq] at taken
    | close => simp only [present, reduceCtorEq] at taken
    | kill => simp only [present, reduceCtorEq] at taken
  | some process =>
    have running := invariant.running process present
    cases label with
    | launch => simp only [present, reduceCtorEq] at taken
    | schedule supply =>
      simp only [present, Option.map_eq_some_iff] at taken
      obtain ⟨scheduler, turned, rfl⟩ := taken
      exact invariant.goOn (schedule_running compressed running (supply process.task) turned)
    | take directIo stale =>
      simp only [present] at taken
      exact take_invariant positive invariant running directIo stale admissible taken
    | begin =>
      simp only [present] at taken
      exact begin_invariant positive bounded apart invariant running taken
    | write =>
      simp only [present, Option.map_eq_some_iff] at taken
      obtain ⟨disk, written, rfl⟩ := taken
      have writes := write_invariant positive bounded invariant running present written
      rw [present] at writes
      exact writes
    | close =>
      simp only [present] at taken
      exact close_invariant positive invariant running taken
    | kill =>
      simp only [present, Option.some.injEq] at taken
      subst taken
      exact invariant.drop positive none nofun

theorem reachable_invariant [DecidableEq Seed] (compressed : 1 ≤ plot.compress)
    (positive : 1 ≤ plot.numberOfWarps) (bounded : plot.numberOfWarps < 2 ^ 32)
    (apart : EndsApart generator plot) {state : State Payload Seed}
    (reached : Reachable (system plot platform generator.generateNonces)
      (Admissible plot platform) state) : Invariant generator plot platform state := by
  apply reached.invariant (Invariant generator plot platform) ?_
    (life_step compressed positive bounded apart)
  rintro _ rfl
  exact ⟨nofun, nofun, nofun, fun _ => rfl, nofun⟩

/-- The opening of a plot for a task leaves its files as they are. -/
theorem takeTask_pocx [DecidableEq Seed] {disk : Crash.State} {process : Process Payload Seed}
    {directIo : Bool} {stale : Nat → UInt8} {after : State Payload Seed}
    (taken : takeTask plot disk process directIo stale = some after) :
    after.disk.file.files .pocx = disk.file.files .pocx := by
  have opens {create : Bool} {opened : Crash.State}
      (taken : newPlot plot.numberOfWarps create directIo stale disk = some opened) :
      opened.file.files = disk.file.files := by
    rw [(newPlot_frame taken).1]
    rfl
  have opensFor (process : Process Payload Seed) (batch : Batch) :
      (openFor plot disk process batch directIo stale).disk.file.files = disk.file.files := by
    unfold openFor
    split
    · rename_i opened found
      exact opens found
    · rfl
  have opensFinal (process : Process Payload Seed) :
      (openFinal plot disk process directIo stale).disk.file.files = disk.file.files := by
    unfold openFinal
    split
    · rename_i opened found
      have files : opened.file.files = disk.file.files := opens found
      exact files
    · rfl
  unfold takeTask at taken
  split at taken
  swap
  · cases taken
  simp only at taken
  split at taken
  · cases taken
    rfl
  · split at taken
    · cases taken
      rw [opensFinal]
    · cases taken
      rfl
  · split at taken
    · split at taken
      · cases taken
        rw [opensFor]
      · cases taken
        rfl
    · cases taken
      rfl

theorem beginBatch_pocx {disk : Crash.State} {process : Process Payload Seed}
    {after : State Payload Seed} (running : Running generator plot disk process)
    (taken : beginBatch disk process = some after) :
    after.disk.file.files .pocx = disk.file.files .pocx := by
  unfold beginBatch at taken
  split at taken
  · rename_i batch opens idle
    have phase := running.phase
    rw [opens] at phase
    have kept := (beginWrite_frame disk batch phase.1).2.1
    simp only at taken
    split at taken
    · cases taken
      exact kept
    · cases taken
      exact kept
  · cases taken

/-- A step leaves the finished name alone, or it is the rename. -/
theorem step_pocx [DecidableEq Seed] {before after : State Payload Seed}
    {label : Label Payload Seed} (invariant : Invariant generator plot platform before)
    (taken : (system plot platform generator.generateNonces).step before label = some after) :
    after.disk.file.files .pocx = before.disk.file.files .pocx ∨
      (before.disk.point = .finalizing ∧ before.disk.file.extension = .tmp ∧
        after.disk.file.files .pocx = before.disk.file.files .tmp) := by
  simp only [system, step] at taken
  cases present : before.process with
  | none =>
    cases label with
    | launch =>
      simp only [present, Option.some.injEq] at taken
      subst taken
      exact Or.inl rfl
    | schedule => simp only [present, reduceCtorEq] at taken
    | take => simp only [present, reduceCtorEq] at taken
    | begin => simp only [present, reduceCtorEq] at taken
    | write => simp only [present, reduceCtorEq] at taken
    | close => simp only [present, reduceCtorEq] at taken
    | kill => simp only [present, reduceCtorEq] at taken
  | some process =>
    have running := invariant.running process present
    cases label with
    | launch => simp only [present, reduceCtorEq] at taken
    | schedule supply =>
      simp only [present, Option.map_eq_some_iff] at taken
      obtain ⟨scheduler, -, rfl⟩ := taken
      exact Or.inl rfl
    | take directIo stale =>
      simp only [present] at taken
      exact Or.inl (takeTask_pocx taken)
    | begin =>
      simp only [present] at taken
      exact Or.inl (beginBatch_pocx running taken)
    | write =>
      simp only [present, Option.map_eq_some_iff] at taken
      obtain ⟨disk, written, rfl⟩ := taken
      obtain ⟨alive, busy⟩ := runPoint_held written
      have name := running.name alive busy
      rcases (runPoint_frame name written).2 with ⟨-, kept⟩ | ⟨point, -, renamed⟩
      · exact Or.inl kept
      · exact Or.inr ⟨point, name, renamed⟩
    | close =>
      simp only [present, closePlot] at taken
      split at taken
      · cases taken
        exact Or.inl rfl
      · cases taken
    | kill =>
      simp only [present, Option.some.injEq] at taken
      subst taken
      exact Or.inl rfl

/-- A finished plot still has its marker, at its end. -/
theorem finished_marked [DecidableEq Seed] (compressed : 1 ≤ plot.compress)
    (positive : 1 ≤ plot.numberOfWarps) (bounded : plot.numberOfWarps < 2 ^ 32)
    (apart : EndsApart generator plot) {state : State Payload Seed}
    (reached : Reachable (system plot platform generator.generateNonces)
      (Admissible plot platform) state) :
    ∀ content, state.disk.file.files .pocx = some content →
      hasMagic plot.numberOfWarps content = true ∧
        progressOf plot.numberOfWarps content = plot.numberOfWarps := by
  induction reached with
  | start initial =>
    subst initial
    intro content present
    cases present
  | next before admissible taken ih =>
    have invariant := reachable_invariant compressed positive bounded apart before
    intro content present
    rcases step_pocx invariant taken with kept | ⟨point, name, renamed⟩
    · rw [kept] at present
      exact ih content present
    · rw [renamed] at present
      exact finalizing_marked invariant.disk point name content present

/-- The writes of a plot as steps of its process. -/
theorem write_runs [DecidableEq Seed] (process : Process Payload Seed) (count : Nat)
    (disk after : Crash.State)
    (complete : Transition.run (Crash.system plot.numberOfWarps platform) disk
      (List.replicate count .run) = some after) :
    Transition.run (system plot platform generator.generateNonces) ⟨disk, some process⟩
      (List.replicate count .write) = some ⟨after, some process⟩ := by
  induction count generalizing disk with
  | zero =>
    cases complete
    rfl
  | succ count ih =>
    rw [List.replicate_succ] at complete ⊢
    obtain ⟨next, written, remaining⟩ := Transition.run_cons complete
    have taken : (system plot platform generator.generateNonces).step ⟨disk, some process⟩ .write =
        some ⟨next, some process⟩ := congrArg (Option.map _) written
    rw [Transition.run, taken]
    exact ih next remaining

/-- A batch that does not begin leaves the plot idle. -/
theorem beginWrite_point (disk : Crash.State) (batch : Batch) (idle : disk.point = .idle) :
    (beginWrite disk batch).point = .idle ∨ (beginWrite disk batch).point = .scoops batch 0 := by
  have accepted (file : File) (progress : Nat) :
      (accept disk file batch progress).point = .idle ∨
        (accept disk file batch progress).point = .scoops batch 0 := by
    unfold accept
    split
    · exact Or.inl idle
    split
    · exact Or.inl idle
    · exact Or.inr rfl
  unfold beginWrite
  split
  · exact accepted _ _
  · exact accepted _ _
  · exact Or.inl idle

/-- A process that has opened a plot for its last batch can finish it. -/
theorem batch_finishes [DecidableEq Seed] (positive : 1 ≤ plot.numberOfWarps)
    {disk : Crash.State} {process : Process Payload Seed} {batch : Batch} {total : Nat}
    {final : File}
    (reached : Reachable (system plot platform generator.generateNonces)
      (Admissible plot platform) ⟨disk, some process⟩)
    (opening : process.phase = .opening batch) (idle : disk.point = .idle)
    (name : disk.file.extension = .tmp) (access : disk.file.access = .readWrite)
    (handle : disk.file.reopened.fileHandle = true)
    (warps : disk.file.numberOfWarps = plot.numberOfWarps)
    (last : batch.startWarp + batch.warpsToWrite = plot.numberOfWarps)
    (done : writeOptimisedBufferIntoPlotfile disk.file batch.data batch.startWarp
      batch.warpsToWrite = .ok (total, final)) :
    ∃ state content, Reachable (system plot platform generator.generateNonces)
        (Admissible plot platform) state ∧ state.disk.file.files .pocx = some content := by
  obtain ⟨writes, after, complete, rfl, -⟩ := write_refines plot.numberOfWarps platform disk batch
    idle access total final done
  obtain ⟨begun, begins, runs⟩ := Transition.run_cons complete
  have written := write_spec_reopened disk.file batch.data batch.startWarp batch.warpsToWrite total
    after.file access handle (by rw [warps]; exact positive) done
  have renamed := written.renamed (last.trans warps.symm)
  have begunEq : beginWrite disk batch = begun := by
    simpa only [Crash.system, Crash.step, idle, Option.some.injEq] using begins
  have begunName := (beginWrite_frame disk batch name).1
  -- A plot that is renamed was written, so the batch has begun.
  have point : begun.point = .scoops batch 0 := by
    rcases beginWrite_point disk batch idle with refused | begins
    · rw [begunEq] at refused begunName
      cases writes with
      | zero =>
        cases runs
        rw [begunName] at renamed
        cases renamed
      | succ writes =>
        obtain ⟨next, written, -⟩ := Transition.run_cons runs
        exact absurd refused (runPoint_held written).2
    · rw [begunEq] at begins
      exact begins
  have began : beginBatch disk process = some ⟨begun, some { process with phase := .writing }⟩ := by
    simp only [beginBatch, opening, idle, begunEq, point]
  have writing : Reachable (system plot platform generator.generateNonces)
      (Admissible plot platform) ⟨begun, some { process with phase := .writing }⟩ :=
    @Reachable.next _ _ _ _ _ _ Label.begin reached trivial began
  have ran : Transition.run (system plot platform generator.generateNonces)
      ⟨begun, some { process with phase := .writing }⟩ (List.replicate writes .write) =
      some ⟨after, some { process with phase := .writing }⟩ := write_runs _ writes begun after runs
  have content : ∃ content, after.file.files .pocx = some content := by
    obtain ⟨scoops, -, marked⟩ := written.content
    apply Option.ne_none_iff_exists'.mp
    intro absent
    have none : after.file.content.len = 0 := by
      rw [File.content, renamed, absent]
      rfl
    have four : resumeMagic.len = 4 := rfl
    rw [marked, writeMarker, writeAt, if_neg (by decide), four] at none
    simp only at none
    omega
  obtain ⟨content, present⟩ := content
  refine ⟨_, content, Reachable.admitted _ ?_ writing ran, present⟩
  intro label member state
  rw [List.eq_of_mem_replicate member]
  trivial

/-- Whatever processes plotted a plot, in parallel threads and killed at any write, its marker
and its last name tell of scoops that are there and are those of `generate_scoop`. -/
theorem plot_truthful [DecidableEq Seed] (generator : NonceGenerator Payload Seed)
    (plot : PlotName Payload Seed) (platform : Platform) (compressed : 1 ≤ plot.compress)
    (positive : 1 ≤ plot.numberOfWarps) (bounded : plot.numberOfWarps < 2 ^ 32)
    (apart : EndsApart generator plot) (state : State Payload Seed)
    (reached : Reachable (system plot platform generator.generateNonces)
      (Admissible plot platform) state) :
    Truthful generator plot state.disk.file.files :=
  (reachable_invariant compressed positive bounded apart reached).truthful positive

/-- The plot of the one warp that `oneWarp` asks for. -/
def onePlot : PlotName Unit Unit where
  addressPayload := ()
  seed := ()
  numberOfWarps := 1
  compress := 1

def anySupply (task : PlotterTask Unit Unit) : CpuScheduler.Supply task where
  stop := false
  seed := ()
  buffer := ⟨task.escalate * warpSize, fun _ => 7⟩
  buffer_len := rfl
  hashOrder := CpuHasher.hashTasks RingLoop.compressBatch 0
  hashOrder_spawned := CpuScheduler.hashTasks_spawned
  helixOrder := CpuCompressor.helixCells 1
  helixOrder_spawned := CpuScheduler.helixCells_spawned

/-- The last scoop of the plot is zero. -/
theorem onePlot_endsApart : EndsApart CpuScheduler.oneGenerator onePlot := by
  intro value recomputed
  have scoops := CpuScheduler.generateScoop_passes CpuScheduler.oneWarp CpuScheduler.oneGenerator
    (by decide) () 0 (numScoops - 1) (numScoops - 1) (by decide) (by decide)
  have same : value = ∑ pass ∈ Finset.range CpuScheduler.oneWarp.passesPerWarp,
      CpuScheduler.passTerm CpuScheduler.oneWarp CpuScheduler.oneGenerator () 0 (numScoops - 1)
        (numScoops - 1) pass := Except.ok.inj (recomputed.symm.trans scoops)
  refine ⟨0, ?_⟩
  have one : CpuScheduler.oneWarp.passesPerWarp = 1 := rfl
  rw [same, one, Finset.sum_range_one]
  decide

theorem takeTask_batch [DecidableEq Seed] (disk : Crash.State) (process : Process Payload Seed)
    (batch : Batch) (ready : process.phase = .ready)
    (next : (process.scheduler.sent process.path)[process.taken]? = some (.processTask batch.data
      plot.seed batch.startWarp batch.warpsToWrite plot.numberOfWarps))
    (directIo : Bool) (stale : Nat → UInt8) :
    takeTask plot disk process directIo stale =
      some (openFor plot disk { process with taken := process.taken + 1 } batch directIo stale) := by
  simp only [takeTask, ready, next, and_self, ↓reduceIte, batch.holds, ↓reduceDIte]

/-- A process has hashed the warp and opens the plot for it. -/
theorem onePlot_opening :
    ∃ (process : Process Unit Unit) (batch : Batch), process.phase = .opening batch ∧
      batch.startWarp = 0 ∧ batch.warpsToWrite = 1 ∧
      Reachable (system onePlot .unix CpuScheduler.oneGenerator.generateNonces)
        (Admissible onePlot .unix)
        ⟨{ Crash.start 1 with point := .preallocating fun _ => 0 }, some process⟩ := by
  let launched := launch onePlot ⟨Crash.start 1, none⟩ CpuScheduler.oneWarp 0 (fun _ => 0)
    (fun _ => ()) fun _ => ()
  let resumes := readResumes onePlot (Crash.start 1) CpuScheduler.oneWarp 0 fun _ => 0
  let first := CpuScheduler.start CpuScheduler.oneWarp resumes (fun _ => ()) fun _ => ()
  let supply := anySupply CpuScheduler.oneWarp
  obtain ⟨scatterBuf, hashed, -⟩ := CpuHasher.hashNoncesCpu_spec CpuScheduler.oneGenerator () () 0
    RingLoop.compressBatch supply.hashOrder first.scatterBuf (Nat.mul_div_cancel _ (by decide))
    supply.hashOrder_spawned
  let turned := CpuScheduler.compressTurn CpuScheduler.oneWarp supply
    { first with
      scatterBuf := scatterBuf
      paths := setPath first.paths 0
        { first.paths 0 with globalNonces := 0 + RingLoop.compressBatch } }
  have turn : CpuScheduler.step CpuScheduler.oneWarp CpuScheduler.oneGenerator.generateNonces first
      supply = some turned := by
    have pass : CpuScheduler.hashPass CpuScheduler.oneWarp CpuScheduler.oneGenerator.generateNonces
        supply first = some _ := congrArg (Option.map _) hashed
    exact congrArg (Option.map _) pass
  let waiting : Process Unit Unit :=
    { task := CpuScheduler.oneWarp
      path := 0
      resumes := resumes
      scheduler := turned
      taken := 0
      phase := .ready }
  let scheduled : State Unit Unit := ⟨Crash.start 1, some waiting⟩
  have reached : Reachable (system onePlot .unix CpuScheduler.oneGenerator.generateNonces)
      (Admissible onePlot .unix) scheduled := by
    refine @Reachable.next _ _ _ _ launched _ (Label.schedule anySupply)
      (@Reachable.next _ _ _ _ _ _
        (Label.launch CpuScheduler.oneWarp 0 (fun _ => 0) (fun _ => ()) fun _ => ())
        (.start rfl) ?_ rfl) trivial ?_
    · exact ⟨⟨rfl, rfl, Nat.le_refl 1⟩, Nat.one_pos, fun _ _ resumed => absurd resumed (Nat.lt_irrefl 0)⟩
    · exact congrArg (Option.map _) turn
  have sent : turned.sent 0 = [.processTask (CpuCompressor.helixCompress scatterBuf supply.buffer 0
      supply.helixOrder) () 0 1 1] := rfl
  clear_value turned
  let batch : Batch := ⟨CpuCompressor.helixCompress scatterBuf supply.buffer 0 supply.helixOrder, 0, 1,
    Nat.le_refl _⟩
  have took : takeTask onePlot (Crash.start 1) waiting false (fun _ => 0) =
      some (openFor onePlot (Crash.start 1) { waiting with taken := 1 } batch false fun _ => 0) :=
    takeTask_batch (Crash.start 1) waiting batch rfl (congrArg (·[0]?) sent) false fun _ => 0
  exact ⟨{ waiting with taken := 1, phase := .opening batch }, batch, rfl, rfl, rfl,
    @Reachable.next _ _ _ _ _ _ (Label.take false fun _ => 0) reached (fun _ => zeros_blank 1) took⟩

/-- The plot before its first scoop. -/
def madeContent : Bytes := withMagic 1 (withProgress 1 0 ⟨1 * warpSize, fun _ => 0⟩)

theorem madeContent_progress : progressOf 1 madeContent = 0 := by
  have len := withProgress_len 1 0 ⟨1 * warpSize, fun _ => 0⟩
  rw [madeContent, withMagic_progressOf 1 _ (Nat.le_refl 1) len,
    withProgress_progressOf 1 0 _ (by decide)]

/-- It makes the plot. -/
theorem onePlot_made :
    ∃ (process : Process Unit Unit) (batch : Batch) (disk : Crash.State),
      process.phase = .opening batch ∧ batch.startWarp = 0 ∧ batch.warpsToWrite = 1 ∧
      disk.point = .idle ∧ disk.file = opened 1 false disk.file.files ∧
      disk.file.files .tmp = some madeContent ∧
      Reachable (system onePlot .unix CpuScheduler.oneGenerator.generateNonces)
        (Admissible onePlot .unix) ⟨disk, some process⟩ := by
  obtain ⟨process, batch, opening, start, one, reached⟩ := onePlot_opening
  obtain ⟨disk, complete, idle, file, present⟩ : ∃ disk,
      Transition.run (system onePlot .unix CpuScheduler.oneGenerator.generateNonces)
        ⟨{ Crash.start 1 with point := .preallocating fun _ => 0 }, some process⟩
        (List.replicate 3 .write) = some ⟨disk, some process⟩ ∧ disk.point = .idle ∧
        disk.file = opened 1 false disk.file.files ∧
        disk.file.files .tmp = some madeContent := ⟨_, rfl, rfl, rfl, rfl⟩
  refine ⟨process, batch, disk, opening, start, one, idle, file, present, ?_⟩
  apply Reachable.admitted _ ?_ reached complete
  intro label member state
  rw [List.eq_of_mem_replicate member]
  trivial

/-- A process has hashed the warp and made the plot, and was killed before it wrote a scoop. -/
theorem plot_truthful_one_warp :
    ∃ (state : State Unit Unit) (content : Bytes), state.process.isNone = true ∧
      state.disk.file.files .tmp = some content ∧ hasMagic 1 content = true ∧
      Truthful CpuScheduler.oneGenerator onePlot state.disk.file.files := by
  obtain ⟨process, batch, disk, -, -, -, -, -, present, made⟩ := onePlot_made
  refine ⟨⟨{ disk with point := .crashed }, none⟩, madeContent, rfl, present,
    withMagic_hasMagic 1 _, ?_⟩
  exact plot_truthful CpuScheduler.oneGenerator onePlot .unix (Nat.le_refl 1) (Nat.le_refl 1)
    (by decide) onePlot_endsApart _ (@Reachable.next _ _ _ _ _ _ Label.kill made trivial rfl)

/-- The process can also go on to the end. -/
theorem onePlot_finished :
    ∃ state content, Reachable (system onePlot .unix CpuScheduler.oneGenerator.generateNonces)
        (Admissible onePlot .unix) state ∧ state.disk.file.files .pocx = some content := by
  obtain ⟨process, batch, disk, opening, start, one, idle, file, present, made⟩ := onePlot_made
  have invariant := reachable_invariant (Nat.le_refl 1) (Nat.le_refl 1) (by decide)
    onePlot_endsApart made
  have sound := invariant.disk.sound (Nat.le_refl 1) madeContent present
  obtain ⟨held, content⟩ := opened_plot 1 false disk.file.files madeContent present
  rw [← file] at held content
  rw [← content] at sound
  have magic : hasMagic 1 madeContent = true := withMagic_hasMagic 1 _
  have marker := reads_marker 1 disk.file disk.supplied held (Nat.le_refl 1)
    (Or.inl (by rw [file]; rfl)) sound
  rw [content, if_pos magic, madeContent_progress] at marker
  have resumed := (invariant.disk.safe (Nat.le_refl 1)).resumed idle
  rw [Crash.Resumable, marker] at resumed
  have warps : disk.file.numberOfWarps = 1 := by rw [file]; rfl
  have fits : 0 + batch.warpsToWrite ≤ disk.file.numberOfWarps := by
    rw [one, warps]
  obtain ⟨total, final, done⟩ := resumed.2.2 batch start fits
  have handle : disk.file.reopened.fileHandle = true := by
    rw [file]
    rfl
  refine batch_finishes (Nat.le_refl 1) made opening idle ?_ ?_ handle warps ?_ done
  · rw [file]
    rfl
  · rw [file]
    rfl
  · rw [start, one]
    rfl

end Runs

end Pocx.PlotLife
