import Pocx.PlotFile.CrashContent
import Pocx.Plotter.CpuPlan
import Pocx.Plotter.DiskWriter

set_option autoImplicit false

namespace Pocx.CpuScheduler

open ByteStore
open Pocx.Plotter
open PlotFile
open DiskWriter
open Hashlib (NonceGenerator)
open Transition (System run)

variable {Payload Seed : Type}

/-- Where a plot stands behind the warps below `written`: it is renamed, or its marker tells
the next warp. -/
def Stands (short : Prop) (numberOfWarps : Nat) (files : Extension → Option Bytes) (written : Nat) :
    Prop :=
  if written = numberOfWarps then files .tmp = none
  else Ready short numberOfWarps files written

/-- The plot of the given seed, whose resume marker is asked for, lacks some of its bytes. -/
def CutShort (task : PlotterTask Payload Seed) (path : Nat) (disk : Disk Seed) : Prop :=
  ∃ given content, task.seeds path = some given ∧
    disk given (task.warps path) .tmp = some content ∧
    content.len < task.warps path * warpSize

/-- A writer that is at file `k` of its path finds no plot under a fresh seed, and at its first
file what the resume check found. -/
structure Standing (short : Prop) (task : PlotterTask Payload Seed) (resumes : Nat → Nat)
    (fresh : Seed → Prop) (path k : Nat) (disk : Disk Seed) : Prop where
  clean : ∀ seed, fresh seed → disk seed (task.warps path) .tmp = none
  resumed : k = 0 → resumes path = readResume disk (task.seeds path) (task.warps path)
  cut : k = 0 → CutShort task path disk → short

/-- The disk but for one plot is as before. -/
def SameElsewhere (seed : Seed) (numberOfWarps : Nat) (before after : Disk Seed) : Prop :=
  ∀ other warps, other ≠ seed ∨ warps ≠ numberOfWarps → after other warps = before other warps

theorem SameElsewhere.trans {seed : Seed} {numberOfWarps : Nat} {first second third : Disk Seed}
    (before : SameElsewhere seed numberOfWarps first second)
    (after : SameElsewhere seed numberOfWarps second third) :
    SameElsewhere seed numberOfWarps first third :=
  fun other warps apart => (after other warps apart).trans (before other warps apart)

theorem readMarker_lt {file : File} {progress : Nat} (read : readMarker file = .ok progress) :
    progress < 2 ^ 32 := by
  unfold readMarker at read
  simp only at read
  split at read
  · split at read
    · split at read
      · rw [← Except.ok.inj read]
        exact UInt32.toNat_lt _
      · cases read
    · cases read
  · cases read

theorem admits_read {short : Prop} {read : Except PlotFileError Nat}
    (small : ∀ progress, read = .ok progress → progress < 2 ^ 32)
    (errors : ∀ error, read = .error error → error = .noResumeInfo ∨ error = .io)
    (cut : read = .error .io → short) : Admits short (read.toOption.getD 0 % 2 ^ 32) read := by
  cases read with
  | ok progress => exact Nat.mod_eq_of_lt (small progress rfl)
  | error error =>
    rcases errors error rfl with rfl | rfl
    · rfl
    · exact cut rfl

/-- A marker that cannot be read lies behind the end of its plot. -/
theorem readMarker_short {file : File} (handle : file.fileHandle = true)
    (positive : 1 ≤ file.numberOfWarps) (failed : readMarker file = .error .io) :
    file.content.len < file.numberOfWarps * warpSize := by
  apply Nat.lt_of_not_le
  intro len
  rw [Crash.readMarker_eq file handle positive len] at failed
  split at failed
  · cases failed
  · cases failed

/-- The resume check tells where the plot of a given seed stands. -/
theorem readResume_ready {short : Prop} (disk : Disk Seed) (seed : Seed) {numberOfWarps : Nat}
    (positive : 1 ≤ numberOfWarps)
    (cut : ∀ content, disk seed numberOfWarps .tmp = some content →
      content.len < numberOfWarps * warpSize → short) :
    Ready short numberOfWarps (disk seed numberOfWarps)
      (readResume disk (some seed) numberOfWarps) := by
  cases present : disk seed numberOfWarps .tmp with
  | none =>
    have absent : readResume disk (some seed) numberOfWarps = 0 := by
      simp only [readResume, newPlotFile, present, Bool.false_eq_true, ↓reduceIte]
    simp only [Ready, present, absent]
  | some content =>
    have read : readResume disk (some seed) numberOfWarps =
        (readMarker (Crash.opened numberOfWarps false (disk seed numberOfWarps))).toOption.getD 0 := by
      simp only [readResume, newPlotFile, present]
      rfl
    simp only [Ready, present]
    rw [read]
    have view : (Crash.opened numberOfWarps false (disk seed numberOfWarps)).content = content := by
      simp only [File.content, Crash.opened, present, Option.getD_some]
    apply admits_read (fun _ => readMarker_lt) (fun _ => readMarker_error)
    intro failed
    have len := readMarker_short rfl positive failed
    rw [view] at len
    exact cut content present len

variable {short : Prop} {task : PlotterTask Payload Seed} {resumes : Nat → Nat} {fresh : Seed → Prop}
  {path k : Nat} {disk : Disk Seed}

/-- A writer finds each file where the plan starts it. -/
theorem Standing.start (standing : Standing short task resumes fresh path k disk)
    (positive : 1 ≤ task.warps path) {seed : Seed} (own : OwnSeed task fresh path k seed)
    (unfinished : fileStart (resumes path) k ≠ task.warps path) :
    Stands short (task.warps path) (disk seed (task.warps path)) (fileStart (resumes path) k) := by
  rw [Stands, if_neg unfinished]
  have untouched (zero : fileStart (resumes path) k = 0) (drawn : fresh seed) :
      Ready short (task.warps path) (disk seed (task.warps path))
        (fileStart (resumes path) k) := by
    rw [zero]
    simp only [Ready, standing.clean seed drawn]
  by_cases first : k = 0
  · have resumed := standing.resumed first
    simp only [OwnSeed, first, ↓reduceIte] at own
    have start : fileStart (resumes path) k = resumes path := if_pos first
    cases given : task.seeds path with
    | none =>
      rw [given] at own resumed
      exact untouched (start.trans resumed) own
    | some seed' =>
      rw [given] at own resumed
      cases own
      rw [start, resumed]
      apply readResume_ready disk seed positive
      intro content present len
      exact standing.cut first ⟨seed, content, given, present, len⟩
  · simp only [OwnSeed, first, ↓reduceIte] at own
    exact untouched (if_neg first) own

section writer

variable [DecidableEq Seed] (writer : Writer Seed)

theorem runWriter_benchmark (benchmark : writer.benchmark = true)
    (tasks : List (WriterTask Bytes Seed)) (disk : Disk Seed) :
    runWriter writer tasks disk = .ok disk := by
  induction tasks with
  | nil => rfl
  | cons task rest ih =>
    cases task with
    | endTask => rfl
    | processTask buffer seed warpOffset warpsToWrite numberOfWarps =>
      simp only [runWriter, processTask, benchmark, ↓reduceIte]
      exact ih
    | finalize seed numberOfWarps =>
      simp only [runWriter, finalizeTask, benchmark, ↓reduceIte]
      exact ih

theorem store_same (disk : Disk Seed) (seed : Seed) (file : File) :
    SameElsewhere seed file.numberOfWarps disk (store disk seed file) := by
  intro other warps apart
  by_cases same : other = seed
  · have different : warps ≠ file.numberOfWarps := by
      rcases apart with wrong | different
      · exact absurd same wrong
      · exact different
    rw [same, store, Function.update_self, Function.update_of_ne different]
  · rw [store, Function.update_of_ne same]

theorem store_here (disk : Disk Seed) (seed : Seed) (file : File) :
    store disk seed file seed file.numberOfWarps = file.files := by
  rw [store, Function.update_self, Function.update_self]

theorem processTask_stands {short : Prop} (live : writer.benchmark = false) {numberOfWarps : Nat}
    (positive : 1 ≤ numberOfWarps) (disk : Disk Seed) (seed : Seed) (batch : Batch)
    (nonempty : 0 < batch.warpsToWrite)
    (fits : batch.startWarp + batch.warpsToWrite ≤ numberOfWarps)
    (bounded : batch.startWarp < 2 ^ 32)
    (stands : Stands short numberOfWarps (disk seed numberOfWarps) batch.startWarp) :
    (∃ after, processTask writer batch.data seed batch.startWarp batch.warpsToWrite numberOfWarps
        disk = .ok after ∧
      SameElsewhere seed numberOfWarps disk after ∧
      Stands short numberOfWarps (after seed numberOfWarps) (batch.startWarp + batch.warpsToWrite)) ∨
    processTask writer batch.data seed batch.startWarp batch.warpsToWrite numberOfWarps disk =
      .error (.error .io) ∧ short := by
  have ready : Ready short numberOfWarps (disk seed numberOfWarps) batch.startWarp := by
    rw [Stands, if_neg (by omega)] at stands
    exact stands
  obtain ⟨file, made, isOpen⟩ := newPlotFile_opened positive bounded ready
    writer.directIo (writer.preallocated seed)
  simp only [processTask, live, Bool.false_eq_true, ↓reduceIte, made]
  rcases isOpen.write fits with ⟨total, final, done⟩ | ⟨failed, cut⟩
  · left
    obtain ⟨warps, files⟩ := isOpen.written positive done
    refine ⟨store disk seed final, by rw [done], ?_, ?_⟩
    · rw [← warps]
      exact store_same disk seed final
    · have here := store_here disk seed final
      rw [warps] at here
      rw [here, Stands]
      exact files
  · right
    exact ⟨by rw [failed], cut⟩

/-- The writer gets through some tasks, or it cannot read the marker of a plot that is cut
short. -/
def GetsThrough (short : Prop) (tasks : List (WriterTask Bytes Seed)) (before : Disk Seed)
    (holds : Disk Seed → Prop) : Prop :=
  (∃ after, (∀ rest, runWriter writer (tasks ++ rest) before = runWriter writer rest after) ∧
    holds after) ∨
  (∀ rest, runWriter writer (tasks ++ rest) before = .error (.error .io)) ∧ short

variable {writer}

theorem GetsThrough.append {short : Prop} {first second : List (WriterTask Bytes Seed)}
    {before : Disk Seed} {between behind : Disk Seed → Prop}
    (gets : GetsThrough writer short first before between)
    (next : ∀ disk, between disk → GetsThrough writer short second disk behind) :
    GetsThrough writer short (first ++ second) before behind := by
  rcases gets with ⟨middle, run, holds⟩ | ⟨failed, cut⟩
  · rcases next middle holds with ⟨after, run', holds'⟩ | ⟨failed, cut⟩
    · refine Or.inl ⟨after, ?_, holds'⟩
      intro rest
      rw [List.append_assoc, run, run']
    · refine Or.inr ⟨?_, cut⟩
      intro rest
      rw [List.append_assoc, run, failed]
  · refine Or.inr ⟨?_, cut⟩
    intro rest
    rw [List.append_assoc, failed]

theorem GetsThrough.mono {short : Prop} {tasks : List (WriterTask Bytes Seed)}
    {before : Disk Seed} {strong weak : Disk Seed → Prop}
    (gets : GetsThrough writer short tasks before strong)
    (weaker : ∀ disk, strong disk → weak disk) : GetsThrough writer short tasks before weak := by
  rcases gets with ⟨after, run, holds⟩ | failed
  · exact Or.inl ⟨after, run, weaker after holds⟩
  · exact Or.inr failed

/-- The stretches of a file, written one after the other. -/
theorem cuts_written {short : Prop} (live : writer.benchmark = false) {task : PlotterTask Payload Seed}
    {numberOfWarps : Nat} (positive : 1 ≤ numberOfWarps) {seed : Seed}
    (tasks : List (WriterTask Bytes Seed)) {first last : Nat} (disk : Disk Seed)
    (cuts : Cuts (Carries task) task.escalate numberOfWarps seed first tasks last)
    (fits : last ≤ numberOfWarps) (bounded : last ≤ 2 ^ 32)
    (stands : Stands short numberOfWarps (disk seed numberOfWarps) first) :
    GetsThrough writer short tasks disk fun after =>
      SameElsewhere seed numberOfWarps disk after ∧
        Stands short numberOfWarps (after seed numberOfWarps) last := by
  induction tasks generalizing first disk with
  | nil =>
    cases cuts
    exact Or.inl ⟨disk, fun _ => rfl, fun _ _ _ => rfl, stands⟩
  | cons writerTask rest ih =>
    obtain ⟨count, nonempty, limited, carried, tail⟩ := cuts
    have inside := tail.le
    cases writerTask with
    | endTask => cases carried
    | finalize => cases carried
    | processTask buffer carriedSeed warpOffset warpsToWrite carriedWarps =>
      obtain ⟨len, stretch⟩ := carried
      cases stretch
      have holds : count * warpSize ≤ buffer.len := by
        rw [len]
        exact Nat.mul_le_mul_right _ limited
      have batch := processTask_stands writer live positive disk seed
        ⟨buffer, first, count, holds⟩ nonempty (Nat.le_trans inside fits)
        (Nat.lt_of_lt_of_le (Nat.lt_add_of_pos_right nonempty) (Nat.le_trans inside bounded)) stands
      have head : GetsThrough writer short [.processTask buffer seed first count numberOfWarps] disk
          fun after => SameElsewhere seed numberOfWarps disk after ∧
            Stands short numberOfWarps (after seed numberOfWarps) (first + count) := by
        rcases batch with ⟨after, done, holds⟩ | ⟨failed, cut⟩
        · refine Or.inl ⟨after, ?_, holds⟩
          intro rest
          simp only [List.singleton_append, runWriter, done]
        · refine Or.inr ⟨?_, cut⟩
          intro rest
          simp only [List.singleton_append, runWriter, failed]
      change GetsThrough writer short ([_] ++ rest) disk _
      apply head.append
      rintro middle ⟨same, standing⟩
      exact (ih middle tail standing).mono fun _ ⟨same', standing'⟩ =>
        ⟨same.trans same', standing'⟩

/-- `Finalize` makes no new plot. -/
theorem finalizeTask_clean (seed other : Seed) (numberOfWarps warps : Nat)
    (clean : disk other warps .tmp = none) :
    finalizeTask writer seed numberOfWarps disk other warps .tmp = none := by
  unfold finalizeTask
  split
  · exact clean
  · cases made : newPlotFile numberOfWarps writer.directIo false (writer.preallocated seed)
        (disk seed numberOfWarps) with
    | none => exact clean
    | some file =>
      cases done : finalize file with
      | error => simp only [done, clean]
      | ok finished =>
        have same := (finalize_spec file finished done).2.1
        have named : file.numberOfWarps = numberOfWarps := by
          simp only [newPlotFile, Bool.false_eq_true, ↓reduceIte] at made
          split at made
          · cases made
            rfl
          · cases made
        have elsewhere := store_same disk seed finished other warps
        rw [same, named] at elsewhere
        simp only [done]
        by_cases plot : other = seed
        · by_cases size : warps = numberOfWarps
          · rw [← plot, ← size] at made
            simp only [newPlotFile, clean, Bool.false_eq_true, ↓reduceIte, reduceCtorEq] at made
          · rw [elsewhere (Or.inr size)]
            exact clean
        · rw [elsewhere (Or.inl plot)]
          exact clean

/-- The writer gets through a file of the plan. -/
theorem IsFile.written (live : writer.benchmark = false) (positive : 1 ≤ task.warps path)
    (bounded : task.warps path ≤ 2 ^ 32) {file : List (WriterTask Bytes Seed)}
    (isFile : IsFile task resumes fresh path k file)
    (standing : Standing short task resumes fresh path k disk) :
    GetsThrough writer short file disk (Standing short task resumes fresh path (k + 1)) := by
  obtain ⟨seed, own, tasks⟩ := isFile
  split at tasks
  · subst tasks
    refine Or.inl ⟨finalizeTask writer seed (task.warps path) disk, fun _ => rfl, ?_, nofun, nofun⟩
    intro other drawn
    exact finalizeTask_clean seed other _ _ (standing.clean other drawn)
  · rename_i unfinished
    apply (cuts_written live positive file disk tasks (Nat.le_refl _) bounded
      (standing.start positive own unfinished)).mono
    rintro after ⟨same, stands⟩
    rw [Stands, if_pos rfl] at stands
    refine ⟨?_, nofun, nofun⟩
    intro other drawn
    by_cases this : other = seed
    · rw [this]
      exact stands
    · rw [same other _ (Or.inl this)]
      exact standing.clean other drawn

/-- And through any number of them. -/
theorem files_written (live : writer.benchmark = false) (positive : 1 ≤ task.warps path)
    (bounded : task.warps path ≤ 2 ^ 32) (files : List (List (WriterTask Bytes Seed)))
    (disk : Disk Seed) (k : Nat)
    (planned : ∀ j file, files[j]? = some file → IsFile task resumes fresh path (k + j) file)
    (standing : Standing short task resumes fresh path k disk) :
    GetsThrough writer short files.flatten disk
      (Standing short task resumes fresh path (k + files.length)) := by
  induction files generalizing disk k with
  | nil => exact Or.inl ⟨disk, fun _ => rfl, standing⟩
  | cons file rest ih =>
    rw [List.flatten_cons]
    apply ((planned 0 file rfl).written live positive bounded standing).append
    intro middle standing'
    rw [List.length_cons, Nat.add_comm rest.length, ← Nat.add_assoc]
    apply ih middle (k + 1) ?_ standing'
    intro j later found
    rw [Nat.add_assoc, Nat.add_comm 1]
    exact planned (j + 1) later found

end writer

/-- The tasks that a path has been sent: whole files, then the first stretches of a file, or
the end. -/
def Begun (task : PlotterTask Payload Seed) (resumes : Nat → Nat) (fresh : Seed → Prop) (path : Nat)
    (sent : List (WriterTask Bytes Seed)) : Prop :=
  ∃ (files : List (List (WriterTask Bytes Seed))) (rest : List (WriterTask Bytes Seed)),
    sent = files.flatten ++ rest ∧
    (∀ k file, files[k]? = some file → IsFile task resumes fresh path k file) ∧
    (rest = [] ∨ rest = [.endTask] ∨
      ∃ seed written, OwnSeed task fresh path files.length seed ∧
        fileStart (resumes path) files.length ≠ task.warps path ∧ written ≤ task.warps path ∧
        Cuts (Carries task) task.escalate (task.warps path) seed
          (fileStart (resumes path) files.length) rest written)

section begun

variable {task : PlotterTask Payload Seed} {resumes : Nat → Nat} {fresh : Seed → Prop} {path : Nat}
  {sent : List (WriterTask Bytes Seed)}

theorem Open.begun {seed : Seed} {filesDone written : Nat}
    (isOpen : Open task resumes fresh path seed filesDone sent written)
    (inside : written ≤ task.warps path) : Begun task resumes fresh path sent := by
  obtain ⟨files, tail, split, length, whole, cuts⟩ := isOpen.progress
  subst length
  exact ⟨files, tail, split, whole,
    Or.inr (Or.inr ⟨seed, written, isOpen.own, isOpen.start, inside, cuts⟩)⟩

theorem Closed.begun {filesDone : Nat} (closed : Closed task resumes fresh path filesDone sent) :
    Begun task resumes fresh path sent := by
  obtain ⟨files, tail, split, -, whole, empty⟩ := closed.progress
  exact ⟨files, tail, split, whole, Or.inl empty⟩

theorem Planned.begun {state : State Seed} (planned : Planned task resumes fresh state)
    (pathLt : path < task.outputPaths) : Begun task resumes fresh path (state.sent path) := by
  unfold Planned at planned
  split at planned
  · obtain ⟨files, split, -, whole⟩ := planned path pathLt
    exact ⟨files, [.endTask], split, whole, Or.inr (Or.inl rfl)⟩
  · rcases planned with ⟨underway, inside⟩ | exhausted
    · by_cases current : path = state.pathPointer
      · obtain ⟨written, offset, isOpen⟩ := underway.current
        rw [current]
        exact isOpen.begun (by omega)
      · rcases underway.others path pathLt current with ⟨isOpen, less⟩ | closed
        · exact isOpen.begun (Nat.le_of_lt less)
        · exact closed.begun
    · exact (exhausted.closed path pathLt).begun

variable [DecidableEq Seed] {writer : Writer Seed} {disk : Disk Seed}

/-- No batch of a plan is refused. -/
theorem Begun.accepted (begun : Begun task resumes fresh path sent) (positive : 1 ≤ task.warps path)
    (bounded : task.warps path ≤ 2 ^ 32)
    (standing : Standing (CutShort task path disk) task resumes fresh path 0 disk)
    {failure : Failure} (failed : runWriter writer sent disk = .error failure) :
    failure = .error .io ∧ CutShort task path disk := by
  cases live : writer.benchmark with
  | true =>
    rw [runWriter_benchmark writer live] at failed
    cases failed
  | false =>
    obtain ⟨files, rest, rfl, whole, tail⟩ := begun
    have planned : ∀ j file, files[j]? = some file → IsFile task resumes fresh path (0 + j) file := by
      intro j file found
      rw [Nat.zero_add]
      exact whole j file found
    rcases files_written live positive bounded files disk 0 planned standing with
      ⟨after, run, stood⟩ | ⟨short, cut⟩
    · rw [run] at failed
      rw [Nat.zero_add] at stood
      rcases tail with rfl | rfl | ⟨seed, written, own, unfinished, inside, cuts⟩
      · cases failed
      · cases failed
      · have through := cuts_written live positive rest after cuts inside
          (Nat.le_trans inside bounded) (stood.start positive own unfinished)
        rcases through with ⟨final, run', -⟩ | ⟨short, cut⟩
        · have ends := run' []
          rw [List.append_nil, failed] at ends
          cases ends
        · have ends := short []
          rw [List.append_nil, failed] at ends
          cases ends
          exact ⟨rfl, cut⟩
    · rw [short] at failed
      cases failed
      exact ⟨rfl, cut⟩

end begun

/-- Without a stop request the scheduler comes to its end, every writer has by then been told
of each of its files once and in order, and no writer refuses a batch. A writer fails only
where the plot to be resumed lacks some of its bytes. -/
theorem exact_plan [DecidableEq Seed] (task : PlotterTask Payload Seed)
    (generator : NonceGenerator Payload Seed) (resumes : Nat → Nat) (fresh : Seed → Prop)
    (requested : Requested task resumes) (first final : State Seed)
    (initial : (quiet task generator.generateNonces resumes fresh).initial first)
    (supplies : List (QuietSupply task fresh))
    (taken : run (quiet task generator.generateNonces resumes fresh) first supplies = some final) :
    supplies.length ≤ turnsLeft task first ∧
    (final.done = false → ∀ supply, ∃ after,
      (quiet task generator.generateNonces resumes fresh).step final supply = some after) ∧
    (final.done = true → Dispatched task resumes fresh final) ∧
    ∀ (path : Nat) (writer : Writer Seed) (disk : Disk Seed), path < task.outputPaths →
      task.warps path ≤ 2 ^ 32 →
      (∀ seed, fresh seed → disk seed (task.warps path) .tmp = none) →
      resumes path = readResume disk (task.seeds path) (task.warps path) →
      ∀ failure, runWriter writer (final.sent path) disk = .error failure →
        failure = .error .io ∧ CutShort task path disk := by
  have kept := start_kept requested first initial
  have keptNow : Kept task generator resumes fresh final :=
    Transition.run_invariant (Kept task generator resumes fresh)
      (fun before supply after holds => holds.next requested before supply after) supplies kept taken
  refine ⟨?_, keptNow.enabled, ?_, ?_⟩
  · exact Transition.run_bounded (Kept task generator resumes fresh) (turnsLeft task)
      (fun before supply after holds => holds.next requested before supply after)
      (fun before supply after holds stepped => (holds.step requested supply stepped).turns)
      supplies kept taken
  · intro done
    have planned := keptNow.planned
    rw [Planned, if_pos done] at planned
    exact planned
  · intro path writer disk pathLt bounded clean resumed failure failed
    exact (keptNow.planned.begun pathLt).accepted (requested.warps path pathLt) bounded
      ⟨clean, fun _ => resumed, fun _ => id⟩ failed

/-- A turn that leaves the pool its order and takes an empty buffer. -/
def plainSupply (task : PlotterTask Payload Unit) : QuietSupply task fun _ => True where
  stop := false
  seed := ()
  buffer := ⟨task.escalate * warpSize, fun _ => 0⟩
  buffer_len := rfl
  hashOrder := CpuHasher.hashTasks RingLoop.compressBatch 0
  hashOrder_spawned := CpuScheduler.hashTasks_spawned
  helixOrder := CpuCompressor.helixCells 1
  helixOrder_spawned := CpuScheduler.helixCells_spawned
  quiet := rfl
  drawn := trivial

/-- Nothing is given, and there are no plots yet. -/
def plainTask (warps outputPaths plots escalate compress : Nat) (positive : 0 < outputPaths) :
    PlotterTask Unit Unit where
  addressPayload := ()
  seeds := fun _ => none
  warps := fun _ => warps
  numberOfPlots := fun _ => plots
  outputPaths := outputPaths
  compress := compress
  escalate := escalate
  outputPaths_pos := positive

def plainWriter : Writer Unit where
  benchmark := false
  directIo := true
  preallocated := fun _ _ => 0

def plainStart (task : PlotterTask Unit Unit) : State Unit :=
  start task (fun _ => 0) (fun _ => ()) fun _ => ()

theorem plainStart_initial (task : PlotterTask Unit Unit) (fresh : Unit → Prop) (drawn : fresh ()) :
    (quiet task oneGenerator.generateNonces (fun _ => 0) fresh).initial (plainStart task) :=
  ⟨fun _ => (), fun _ => (), fun _ => drawn, fun _ => drawn, rfl⟩

theorem plainTask_requested (warps outputPaths plots escalate compress : Nat)
    (positive : 0 < outputPaths) (warpsPos : 1 ≤ warps) (plotsPos : 1 ≤ plots)
    (escalatePos : 1 ≤ escalate) (compressPos : 1 ≤ compress) :
    Requested (plainTask warps outputPaths plots escalate compress positive) fun _ => 0 :=
  ⟨compressPos, escalatePos, fun _ _ => warpsPos, fun _ _ => plotsPos, fun _ _ => Nat.zero_le _,
    fun _ _ => nofun⟩

/-- Three paths, each with two plots of five warps that are written in threes. -/
theorem exact_plan_three_paths :
    ∃ final, final.done = true ∧
      Dispatched (plainTask 5 3 2 3 2 (by decide)) (fun _ => 0) (fun _ => True) final ∧
      ∀ failure, runWriter plainWriter (final.sent 2) (fun _ _ _ => none) = .error failure →
        failure = .error .io ∧ CutShort (plainTask 5 3 2 3 2 (by decide)) 2 fun _ _ _ => none := by
  have requested : Requested (plainTask 5 3 2 3 2 (by decide)) fun _ => 0 :=
    plainTask_requested 5 3 2 3 2 (by decide) (by decide) (by decide) (by decide) (by decide)
  have initial := plainStart_initial (plainTask 5 3 2 3 2 (by decide)) (fun _ => True) trivial
  obtain ⟨supplies, final, taken, done⟩ := run_finishes requested (plainSupply _) _ initial
  obtain ⟨-, -, dispatched, accepted⟩ := exact_plan (plainTask 5 3 2 3 2 (by decide)) oneGenerator
    (fun _ => 0) (fun _ => True) requested (plainStart _) final initial supplies taken
  exact ⟨final, done, dispatched done,
    accepted 2 plainWriter (fun _ _ _ => none) (by decide) (by decide) (fun _ _ => rfl) rfl⟩

/-- The marker of a plot keeps 32 bits. -/
theorem processTask_wraps [DecidableEq Seed] {writer : Writer Seed} (live : writer.benchmark = false)
    {numberOfWarps warpOffset : Nat} {disk : Disk Seed} {seed : Seed}
    (ready : Ready False numberOfWarps (disk seed numberOfWarps) warpOffset)
    (late : 2 ^ 32 ≤ warpOffset) (buffer : Bytes) (warpsToWrite : Nat) :
    processTask writer buffer seed warpOffset warpsToWrite numberOfWarps disk =
      .error (.error (.resumeGap (warpOffset % 2 ^ 32) warpOffset)) := by
  have gap : warpOffset ≠ warpOffset % 2 ^ 32 := by omega
  cases present : disk seed numberOfWarps .tmp with
  | none =>
    simp only [Ready, present] at ready
    omega
  | some content =>
    simp only [Ready, present] at ready
    let file := Crash.opened numberOfWarps writer.directIo (disk seed numberOfWarps)
    have same := reopened_same file
    have marker : readMarker file.reopened =
        readMarker (Crash.opened numberOfWarps false (disk seed numberOfWarps)) :=
      readMarker_congr same.warps (same.opened rfl) same.content
    have refuses (progress : Nat) (differs : warpOffset ≠ progress) :
        writeFrom file.reopened buffer warpOffset warpsToWrite progress =
          .error (.error (.resumeGap progress warpOffset)) := by
      rw [writeFrom, if_pos differs]
    have access : file.access = .readWrite := rfl
    have refused : writeOptimisedBufferIntoPlotfile file buffer warpOffset warpsToWrite =
        .error (.error (.resumeGap (warpOffset % 2 ^ 32) warpOffset)) := by
      simp only [writeOptimisedBufferIntoPlotfile, readResumeInfo, access, marker]
      rcases admitted ready with read | ⟨read, zero⟩ | ⟨-, impossible⟩
      · rw [read]
        exact refuses _ gap
      · rw [read, zero]
        exact refuses 0 (by omega)
      · cases impossible
    have made : newPlotFile numberOfWarps writer.directIo (warpOffset == 0)
        (writer.preallocated seed) (disk seed numberOfWarps) = some file := by
      simp only [newPlotFile, present, file]
    simp only [processTask, live, Bool.false_eq_true, ↓reduceIte, made, refused]

/-- A plot of 2³² + 1 warps, written one by one: the marker before the last one is that of an
empty plot. -/
theorem long_plot_refused :
    ¬ ∀ (task : PlotterTask Unit Unit) (resumes : Nat → Nat) (first final : State Unit)
      (supplies : List (QuietSupply task fun _ => True)), Requested task resumes →
      (quiet task oneGenerator.generateNonces resumes fun _ => True).initial first →
      run (quiet task oneGenerator.generateNonces resumes fun _ => True) first supplies =
        some final →
      ∀ (path : Nat) (writer : Writer Unit) (disk : Disk Unit), path < task.outputPaths →
        (∀ seed, disk seed (task.warps path) .tmp = none) →
        resumes path = readResume disk (task.seeds path) (task.warps path) →
        ∀ expected actual,
          runWriter writer (final.sent path) disk ≠ .error (.error (.resumeGap expected actual)) := by
  intro claim
  let task := plainTask (2 ^ 32 + 1) 1 1 1 1 (by decide)
  have requested : Requested task fun _ => 0 :=
    plainTask_requested (2 ^ 32 + 1) 1 1 1 1 (by decide) (by decide) (by decide) (by decide)
      (by decide)
  have initial := plainStart_initial task (fun _ => True) trivial
  obtain ⟨supplies, final, taken, done⟩ := run_finishes requested (plainSupply _) _ initial
  have planned := (Transition.run_invariant (Kept task oneGenerator (fun _ => 0) fun _ => True)
    (fun before supply after holds => holds.next requested before supply after) supplies
    (start_kept requested _ initial) taken).planned
  rw [Planned, if_pos done] at planned
  obtain ⟨files, sent, length, whole⟩ := planned 0 (by decide)
  obtain ⟨file, rfl⟩ := List.length_eq_one_iff.mp length
  obtain ⟨seed, -, cuts⟩ := whole 0 file rfl
  rw [if_neg (by decide)] at cuts
  obtain ⟨front, back, rfl, before, behind⟩ :=
    Cuts.through cuts (Nat.zero_le (2 ^ 32)) (Nat.le_succ (2 ^ 32))
  cases back with
  | nil =>
    have ends : (2 ^ 32 : Nat) = 2 ^ 32 + 1 := behind
    omega
  | cons last rest =>
    obtain ⟨count, -, -, carried, -⟩ := behind
    cases last with
    | endTask => cases carried
    | finalize => cases carried
    | processTask buffer carriedSeed warpOffset warpsToWrite carriedWarps =>
      obtain ⟨-, stretch⟩ := carried
      cases stretch
      let disk : Disk Unit := fun _ _ _ => none
      have empty : Stands False (2 ^ 32 + 1) (disk seed (2 ^ 32 + 1)) 0 := by
        rw [Stands, if_neg (by decide)]
        rfl
      have through : GetsThrough plainWriter False front disk fun after =>
          SameElsewhere seed (2 ^ 32 + 1) disk after ∧
            Stands False (2 ^ 32 + 1) (after seed (2 ^ 32 + 1)) (2 ^ 32) :=
        cuts_written rfl (by decide) front disk before (by decide) (Nat.le_refl _) empty
      rcases through with ⟨after, written, -, stands⟩ | ⟨-, impossible⟩
      · rw [Stands, if_neg (by decide)] at stands
        apply claim task (fun _ => 0) _ final supplies requested initial taken 0 plainWriter disk
          (by decide) (fun _ => rfl) rfl (2 ^ 32 % 2 ^ 32) (2 ^ 32)
        rw [sent, List.flatten_singleton, List.append_assoc, written]
        simp only [List.cons_append, runWriter]
        have refused : processTask plainWriter buffer seed (2 ^ 32) count (task.warps 0) after =
            .error (.error (.resumeGap (2 ^ 32 % 2 ^ 32) (2 ^ 32))) :=
          processTask_wraps rfl stands (Nat.le_refl _) buffer count
        rw [refused]
      · cases impossible

end Pocx.CpuScheduler
