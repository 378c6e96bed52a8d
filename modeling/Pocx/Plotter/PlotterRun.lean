import Pocx.Plotter.DiskWriter

set_option autoImplicit false

namespace Pocx.PlotterRun

open ByteStore
open Pocx.PlotFile
open Pocx.DiskWriter (Disk newPlotFile readResume store)

variable {Seed : Type}

/-- An output path: its entries in the vectors of the task, and what the machine tells about
it. `freeSpace` is `none` where `free_disk_space` fails. -/
structure OutputPath where
  warps : Nat
  numberOfPlots : Nat
  freeSpace : Option Nat
  pathExists : Bool

/-- The part of the v1 `PlotterTask` that decides what is plotted. -/
structure PlotterTask (Seed : Type) where
  seed : Option Seed
  path0 : OutputPath
  otherPaths : List OutputPath
  directIo : Bool
  benchmark : Bool

/-- The plots on path 0, what may fail on them, and the outcome of the memory checks, which do
not look at the plots. -/
structure Machine (Seed : Type) where
  disk : Disk Seed
  directOpens : Bool
  renames : Bool
  memoryFits : Bool

inductive PoCXPlotterError
  | freeDiskSpace
  | pathMissing
  | neitherGiven
  | zeroPlots
  | zeroWarps
  | insufficientSpace
  | overflow
  | finalize
  | memory
deriving DecidableEq

/-- How `Plotter::run` goes on: with an error, with `Ok` before any thread starts, or into the
pipeline. -/
inductive Outcome
  | error (error : PoCXPlotterError)
  | complete
  | pipeline (numberOfPlots : List Nat)
deriving DecidableEq

/-- `u64::checked_mul` -/
def checkedMul (a b : Nat) : Option Nat := if a * b < 2 ^ 64 then some (a * b) else none

/-- The sum of the wrapping products, as `total_remaining`. -/
def totalRemaining (paths : List OutputPath) : Nat :=
  (paths.map fun path => path.warps * path.numberOfPlots % 2 ^ 64).sum % 2 ^ 64

/-- The resume marker of path 0 tells that its first plot is complete. -/
def killWindow (task : PlotterTask Seed) (resume : Nat) : Bool :=
  decide (0 < resume) && resume == task.path0.warps && decide (1 ≤ task.path0.numberOfPlots)

/-- The second opening of that plot, with the direct I/O of the task. -/
def reopen (task : PlotterTask Seed) (machine : Machine Seed) (seed : Seed) : Option File :=
  if task.directIo && !machine.directOpens then none
  else
    newPlotFile task.path0.warps task.directIo false (fun _ => 0)
      (machine.disk seed task.path0.warps)

/-- A plot that does not open a second time is left as it is. -/
def finalizeFirst [DecidableEq Seed] (task : PlotterTask Seed) (machine : Machine Seed) :
    Except PoCXPlotterError (Disk Seed) :=
  match task.seed with
  | none => .ok machine.disk
  | some seed =>
    match reopen task machine seed with
    | none => .ok machine.disk
    | some file =>
      if machine.renames then
        match finalize file with
        | .error _ => .error .finalize
        | .ok finished => .ok (store machine.disk seed finished)
      else .error .finalize

/-- The body of the sizing loop. In two of its branches a check is made a second time. -/
def sizePath (benchmark : Bool) (resume : Nat) (path : OutputPath) :
    Except PoCXPlotterError OutputPath :=
  match path.freeSpace with
  | none => .error .freeDiskSpace
  | some space =>
    if !benchmark && !path.pathExists then .error .pathMissing
    else if path.warps = 0 then
      if path.numberOfPlots = 0 then .error .neitherGiven
      else if path.numberOfPlots = 0 then .error .zeroPlots
      else
        let warps := space / warpSize / path.numberOfPlots
        if !benchmark && warps == 0 then .error .insufficientSpace
        else .ok { path with warps := warps }
    else if path.numberOfPlots = 0 then
      if path.warps = 0 then .error .zeroWarps
      -- the test behind the division looks at the warps again, not at the plots
      else if !benchmark && path.warps == 0 then .error .insufficientSpace
      else .ok { path with numberOfPlots := space / warpSize / path.warps }
    else
      match (checkedMul path.warps path.numberOfPlots).bind fun warps =>
        checkedMul warps warpSize with
      | none => .error .overflow
      | some requiredSpace =>
        if !benchmark && resume == 0 && decide (space ≤ requiredSpace) then
          .error .insufficientSpace
        else .ok path

def sizePaths (benchmark : Bool) (resume : Nat) :
    List OutputPath → Except PoCXPlotterError (List OutputPath)
  | [] => .ok []
  | path :: rest =>
    match sizePath benchmark resume path with
    | .error error => .error error
    | .ok sized =>
      match sizePaths benchmark resume rest with
      | .error error => .error error
      | .ok others => .ok (sized :: others)

/-- `Plotter::run` from the sizing loop to the start of the threads. -/
def startPipeline (benchmark memoryFits : Bool) (resume : Nat) (paths : List OutputPath) :
    Outcome :=
  match sizePaths benchmark resume paths with
  | .error error => .error error
  | .ok sized =>
    if memoryFits then .pipeline (sized.map OutputPath.numberOfPlots) else .error .memory

/-- A path with one plot less. -/
def OutputPath.oneLess (path : OutputPath) : OutputPath :=
  { path with numberOfPlots := path.numberOfPlots - 1 }

/-- `Plotter::run` behind the kill window. The plot counts as done and the resume is over. -/
def behindWindow (task : PlotterTask Seed) (machine : Machine Seed) : Outcome :=
  if totalRemaining (task.path0.oneLess :: task.otherPaths) = 0 then .complete
  else
    startPipeline task.benchmark machine.memoryFits 0 (task.path0.oneLess :: task.otherPaths)

/-- `Plotter::run` from the resume check to the start of the threads, and the disk it leaves. -/
def run [DecidableEq Seed] (task : PlotterTask Seed) (machine : Machine Seed) :
    Outcome × Disk Seed :=
  let resume := readResume machine.disk task.seed task.path0.warps
  if killWindow task resume then
    match finalizeFirst task machine with
    | .error error => (.error error, machine.disk)
    | .ok disk => (behindWindow task machine, disk)
  else
    (startPipeline task.benchmark machine.memoryFits resume (task.path0 :: task.otherPaths),
      machine.disk)

/-- The warps of all plots that are asked for. -/
def planned (paths : List OutputPath) : Nat :=
  (paths.map fun path => path.warps * path.numberOfPlots).sum

/-- The first plot of path 0 was a `.tmp` file before and is none any more. -/
def finalized (task : PlotterTask Seed) (before after : Disk Seed) : Bool :=
  match task.seed with
  | none => false
  | some seed =>
    (before seed task.path0.warps .tmp).isSome && (after seed task.path0.warps .tmp).isNone

/-- What is left of the request once the first plot of path 0 is finalized. -/
def outstanding (task : PlotterTask Seed) (done : Bool) : List OutputPath :=
  (if done then task.path0.oneLess else task.path0) :: task.otherPaths

/-- The work that was asked for is what the pipeline is given, less the plot that was
finalized, and an early return means that none is left. -/
structure KeepsPlan (task : PlotterTask Seed) (before : Disk Seed)
    (finish : Outcome × Disk Seed) : Prop where
  plots : ∀ numberOfPlots, finish.1 = .pipeline numberOfPlots →
    numberOfPlots =
      (outstanding task (finalized task before finish.2)).map OutputPath.numberOfPlots
  complete : finish.1 = .complete ↔ planned (outstanding task (finalized task before finish.2)) = 0

/-- Every path comes with its warps and its plots. -/
def Specified (task : PlotterTask Seed) : Prop :=
  ∀ path ∈ task.path0 :: task.otherPaths, 1 ≤ path.warps ∧ 1 ≤ path.numberOfPlots

/-- The sizing loop lets a path pass that asks for warps. A number of plots that is given is
checked against the free space, unless a plot is resumed. -/
def Passes (benchmark : Bool) (resume : Nat) (path : OutputPath) : Prop :=
  ∃ space, path.freeSpace = some space ∧ (benchmark ∨ path.pathExists) ∧
    (path.numberOfPlots = 0 ∨
      (path.warps * path.numberOfPlots * warpSize < 2 ^ 64 ∧
        (benchmark ∨ 0 < resume ∨ path.warps * path.numberOfPlots * warpSize < space)))

/-- The number of plots that fit on the free space of a path. -/
def OutputPath.room (path : OutputPath) : Nat := path.freeSpace.getD 0 / warpSize / path.warps

/-- 0 plots stand for as many as there is room for. -/
def OutputPath.derived (path : OutputPath) : OutputPath :=
  if path.numberOfPlots = 0 then { path with numberOfPlots := path.room } else path

/-- The pipeline is reached behind the kill window. -/
def Starts (task : PlotterTask Seed) (machine : Machine Seed) : Prop :=
  machine.memoryFits ∧
    ∀ path ∈ task.path0.oneLess :: task.otherPaths, Passes task.benchmark 0 path

/-- What the kill window must meet. With the plot finalized, the products do not hide what is
left, and where path 0 asked for this plot only, it has no room for another one. With the plot
left as it is, path 0 has room for that one and the pipeline makes it again. -/
def KeptBehindWindow (task : PlotterTask Seed) (machine : Machine Seed) : Prop :=
  let left := planned (task.path0.oneLess :: task.otherPaths)
  if task.directIo && !machine.directOpens then
    left % 2 ^ 64 ≠ 0 ∧
      (Starts task machine → task.path0.numberOfPlots = 1 ∧ task.path0.room = 1)
  else
    machine.renames → left ≠ 0 → left % 2 ^ 64 ≠ 0 ∧
      (Starts task machine → task.path0.numberOfPlots = 1 → task.path0.room = 0)

section sizing

theorem checkedMul_eq_some {a b product : Nat} :
    checkedMul a b = some product ↔ a * b < 2 ^ 64 ∧ product = a * b := by
  unfold checkedMul
  split
  · rename_i fits
    rw [Option.some.injEq]
    exact ⟨fun equal => ⟨fits, equal.symm⟩, fun both => both.2.symm⟩
  · rename_i wraps
    exact ⟨nofun, fun both => absurd both.1 wraps⟩

theorem requiredSpace_eq_some {warps plots required : Nat} :
    ((checkedMul warps plots).bind fun total => checkedMul total warpSize) = some required ↔
      warps * plots * warpSize < 2 ^ 64 ∧ required = warps * plots * warpSize := by
  rw [Option.bind_eq_some_iff]
  constructor
  · rintro ⟨total, first, second⟩
    obtain ⟨-, rfl⟩ := checkedMul_eq_some.mp first
    exact checkedMul_eq_some.mp second
  · rintro ⟨fits, rfl⟩
    have smaller : warps * plots ≤ warps * plots * warpSize :=
      Nat.le_mul_of_pos_right _ (by decide)
    exact ⟨warps * plots, checkedMul_eq_some.mpr ⟨Nat.lt_of_le_of_lt smaller fits, rfl⟩,
      checkedMul_eq_some.mpr ⟨fits, rfl⟩⟩

/-- One pass of the sizing loop over a path with warps. -/
theorem sizePath_ok_iff {benchmark : Bool} {resume : Nat} {path sized : OutputPath}
    (warps : 1 ≤ path.warps) :
    sizePath benchmark resume path = .ok sized ↔
      Passes benchmark resume path ∧ sized = path.derived := by
  have positive : path.warps ≠ 0 := by omega
  unfold sizePath Passes OutputPath.derived OutputPath.room
  cases free : path.freeSpace with
  | none =>
    constructor
    · nofun
    · rintro ⟨⟨space, found, -⟩, -⟩
      cases found
  | some space =>
    simp only [Option.some.injEq, exists_eq_left', Option.getD_some]
    by_cases missing : (!benchmark && !path.pathExists) = true
    · have closed : ¬(benchmark = true ∨ path.pathExists = true) := by
        simpa [Bool.and_eq_true] using missing
      simp only [missing, ↓reduceIte, reduceCtorEq, closed, false_and]
    · have reachable : benchmark = true ∨ path.pathExists = true := by
        cases benchmark <;> cases there : path.pathExists <;> simp_all
      simp only [missing, positive, ↓reduceIte, reachable, true_and, Bool.false_eq_true]
      by_cases idle : path.numberOfPlots = 0
      · have passed : (!benchmark && path.warps == 0) = false := by
          rw [beq_false_of_ne positive, Bool.and_false]
        simp only [idle, passed, ↓reduceIte, Bool.false_eq_true, true_or, true_and,
          Except.ok.injEq]
        exact eq_comm
      · simp only [idle, ↓reduceIte, false_or]
        cases required : ((checkedMul path.warps path.numberOfPlots).bind fun total =>
            checkedMul total warpSize) with
        | none =>
          have wraps : ¬path.warps * path.numberOfPlots * warpSize < 2 ^ 64 := by
            intro fits
            rw [requiredSpace_eq_some.mpr ⟨fits, rfl⟩] at required
            cases required
          simp only [reduceCtorEq, wraps, false_and]
        | some space' =>
          obtain ⟨fits, rfl⟩ := requiredSpace_eq_some.mp required
          simp only [fits, true_and]
          by_cases room : benchmark = true ∨ 0 < resume ∨
              path.warps * path.numberOfPlots * warpSize < space
          · have passed : (!benchmark && resume == 0 &&
                decide (space ≤ path.warps * path.numberOfPlots * warpSize)) = false := by
              rcases room with bench | resumed | less
              · rw [bench]
                rfl
              · rw [beq_false_of_ne (by omega), Bool.and_false, Bool.false_and]
              · rw [decide_eq_false (by omega), Bool.and_false]
            simp only [passed, room, Bool.false_eq_true, ↓reduceIte, Except.ok.injEq, true_and]
            exact eq_comm
          · have failed : (!benchmark && resume == 0 &&
                decide (space ≤ path.warps * path.numberOfPlots * warpSize)) = true := by
              have bench : benchmark = false := by
                cases benchmark
                · rfl
                · exact absurd (Or.inl rfl) room
              have fresh : resume = 0 := by omega
              rw [bench, fresh, decide_eq_true (by omega)]
              rfl
            simp only [failed, room, ↓reduceIte, reduceCtorEq, false_and]

/-- The sizing loop. -/
theorem sizePaths_ok_iff {benchmark : Bool} {resume : Nat} {paths sized : List OutputPath}
    (warps : ∀ path ∈ paths, 1 ≤ path.warps) :
    sizePaths benchmark resume paths = .ok sized ↔
      (∀ path ∈ paths, Passes benchmark resume path) ∧
        sized = paths.map OutputPath.derived := by
  induction paths generalizing sized with
  | nil =>
    simp only [sizePaths, Except.ok.injEq, List.map_nil, List.not_mem_nil, false_implies,
      implies_true, true_and]
    exact eq_comm
  | cons path rest ih =>
    have head := @sizePath_ok_iff benchmark resume path path.derived
      (warps path List.mem_cons_self)
    have tail := @ih (rest.map OutputPath.derived)
      fun other listed => warps other (List.mem_cons_of_mem _ listed)
    rw [List.forall_mem_cons, List.map_cons]
    unfold sizePaths
    by_cases passes : Passes benchmark resume path
    · rw [head.mpr ⟨passes, rfl⟩]
      by_cases others : ∀ other ∈ rest, Passes benchmark resume other
      · rw [tail.mpr ⟨others, rfl⟩]
        simp only [Except.ok.injEq]
        exact ⟨fun equal => ⟨⟨passes, others⟩, equal.symm⟩, fun both => both.2.symm⟩
      · cases sizedRest : sizePaths benchmark resume rest with
        | error error =>
          exact ⟨nofun, fun both => absurd both.1.2 others⟩
        | ok result =>
          exact absurd ((ih fun other listed =>
            warps other (List.mem_cons_of_mem _ listed)).mp sizedRest).1 others
    · cases sizedHead : sizePath benchmark resume path with
      | error error => exact ⟨nofun, fun both => absurd both.1.1 passes⟩
      | ok result =>
        exact absurd ((sizePath_ok_iff (warps path List.mem_cons_self)).mp sizedHead).1 passes

theorem startPipeline_iff {benchmark memoryFits : Bool} {resume : Nat} {paths : List OutputPath}
    {numberOfPlots : List Nat} (warps : ∀ path ∈ paths, 1 ≤ path.warps) :
    startPipeline benchmark memoryFits resume paths = .pipeline numberOfPlots ↔
      (memoryFits ∧ ∀ path ∈ paths, Passes benchmark resume path) ∧
        numberOfPlots = paths.map fun path => path.derived.numberOfPlots := by
  unfold startPipeline
  by_cases passes : ∀ path ∈ paths, Passes benchmark resume path
  · rw [(sizePaths_ok_iff warps).mpr ⟨passes, rfl⟩]
    cases memoryFits with
    | false => exact ⟨nofun, fun both => nomatch both.1.1⟩
    | true =>
      simp only [↓reduceIte, Outcome.pipeline.injEq, List.map_map]
      exact ⟨fun equal => ⟨⟨trivial, passes⟩, equal.symm⟩, fun both => both.2.symm⟩
  · cases sizedAll : sizePaths benchmark resume paths with
    | error error => exact ⟨nofun, fun both => absurd both.1.2 passes⟩
    | ok sized => exact absurd ((sizePaths_ok_iff warps).mp sizedAll).1 passes

theorem startPipeline_not_complete (benchmark memoryFits : Bool) (resume : Nat)
    (paths : List OutputPath) :
    startPipeline benchmark memoryFits resume paths ≠ .complete := by
  unfold startPipeline
  cases sizePaths benchmark resume paths with
  | error error => nofun
  | ok sized => cases memoryFits <;> nofun

/-- A path that asks for plots keeps their number. -/
theorem derived_of_asked {path : OutputPath} (asked : 1 ≤ path.numberOfPlots) :
    path.derived = path := by
  rw [OutputPath.derived, if_neg (by omega)]

theorem totalRemaining_eq (paths : List OutputPath) :
    totalRemaining paths = planned paths % 2 ^ 64 := by
  unfold totalRemaining planned
  induction paths with
  | nil => rfl
  | cons path rest ih =>
    rw [List.map_cons, List.map_cons, List.sum_cons, List.sum_cons, Nat.mod_add_mod,
      Nat.add_mod, ih, ← Nat.add_mod]

end sizing

section window

variable {task : PlotterTask Seed} {machine : Machine Seed}

/-- The kill window is only seen where the task gives the seed of a plot that is there. -/
theorem killWindow_plot
    (window : killWindow task (readResume machine.disk task.seed task.path0.warps) = true) :
    ∃ seed content, task.seed = some seed ∧
      machine.disk seed task.path0.warps .tmp = some content := by
  have resumed : 0 < readResume machine.disk task.seed task.path0.warps := by
    simp only [killWindow, Bool.and_eq_true, decide_eq_true_eq] at window
    exact window.1.1
  cases given : task.seed with
  | none =>
    rw [given] at resumed
    exact absurd resumed (Nat.lt_irrefl 0)
  | some seed =>
    cases plot : machine.disk seed task.path0.warps .tmp with
    | some content => exact ⟨seed, content, rfl, plot⟩
    | none =>
      rw [given] at resumed
      simp only [readResume, newPlotFile, plot, Bool.false_eq_true, ↓reduceIte,
        Nat.lt_irrefl] at resumed

theorem finalized_self (disk : Disk Seed) : finalized task disk disk = false := by
  unfold finalized
  cases task.seed with
  | none => rfl
  | some seed =>
    show ((disk seed task.path0.warps .tmp).isSome && (disk seed task.path0.warps .tmp).isNone) =
      false
    cases disk seed task.path0.warps .tmp <;> rfl

theorem finalize_opened {numberOfWarps : Nat} {directIo : Bool} {files : Extension → Option Bytes}
    {content : Bytes} (plot : files .tmp = some content) :
    ∃ finished, finalize (Crash.opened numberOfWarps directIo files) = .ok finished ∧
      finished.numberOfWarps = numberOfWarps ∧ finished.files .tmp = none := by
  unfold finalize
  simp only [Crash.opened, plot]
  exact ⟨_, rfl, rfl, rfl⟩

theorem planned_pos {paths : List OutputPath} {path : OutputPath} (listed : path ∈ paths)
    (warps : 1 ≤ path.warps) (plots : 1 ≤ path.numberOfPlots) : planned paths ≠ 0 := by
  intro nothing
  have zero : path.warps * path.numberOfPlots = 0 :=
    List.sum_eq_zero_iff_forall_eq_nat.mp nothing _ (List.mem_map_of_mem listed)
  rcases Nat.mul_eq_zero.mp zero with none | none <;> omega

/-- The numbers of plots that the sizing loop leaves to the paths of a kill window. -/
theorem derived_behind_window (specified : Specified task) :
    ((task.path0.oneLess :: task.otherPaths).map fun path => path.derived.numberOfPlots) =
      (if task.path0.numberOfPlots = 1 then task.path0.room
        else task.path0.numberOfPlots - 1) ::
        task.otherPaths.map OutputPath.numberOfPlots := by
  have asked := (specified task.path0 List.mem_cons_self).2
  rw [List.map_cons]
  congr 1
  · by_cases only : task.path0.numberOfPlots = 1
    · rw [if_pos only, OutputPath.derived, if_pos]
      · rfl
      · show task.path0.numberOfPlots - 1 = 0
        omega
    · rw [if_neg only, derived_of_asked]
      · rfl
      · show 1 ≤ task.path0.numberOfPlots - 1
        omega
  · apply List.map_congr_left
    intro path listed
    rw [derived_of_asked (specified path (List.mem_cons_of_mem _ listed)).2]

/-- Without the kill window the plan is the request. -/
theorem keepsPlan_outside (specified : Specified task) (resume : Nat) :
    KeepsPlan task machine.disk
      (startPipeline task.benchmark machine.memoryFits resume (task.path0 :: task.otherPaths),
        machine.disk) := by
  have asked := specified task.path0 List.mem_cons_self
  constructor
  · intro numberOfPlots reached
    obtain ⟨-, rfl⟩ := (startPipeline_iff fun path listed => (specified path listed).1).mp reached
    rw [finalized_self]
    apply List.map_congr_left
    intro path listed
    rw [derived_of_asked (specified path listed).2]
  · rw [finalized_self]
    exact ⟨fun complete => absurd complete (startPipeline_not_complete _ _ _ _),
      fun nothing => absurd nothing (planned_pos List.mem_cons_self asked.1 asked.2)⟩

/-- What the pipeline gets behind a kill window. -/
theorem startPipeline_behind_window (specified : Specified task) (number : Nat) :
    (∀ numberOfPlots,
      startPipeline task.benchmark machine.memoryFits 0
          (task.path0.oneLess :: task.otherPaths) = .pipeline numberOfPlots →
        numberOfPlots = number :: task.otherPaths.map OutputPath.numberOfPlots) ↔
      (Starts task machine →
        (if task.path0.numberOfPlots = 1 then task.path0.room
          else task.path0.numberOfPlots - 1) = number) := by
  have warps : ∀ path ∈ task.path0.oneLess :: task.otherPaths, 1 ≤ path.warps := by
    rw [List.forall_mem_cons]
    exact ⟨(specified task.path0 List.mem_cons_self).1,
      fun path listed => (specified path (List.mem_cons_of_mem _ listed)).1⟩
  constructor
  · intro kept starts
    have reached := kept _ ((startPipeline_iff warps).mpr ⟨starts, rfl⟩)
    rw [derived_behind_window specified] at reached
    exact (List.cons.inj reached).1
  · intro kept numberOfPlots reached
    obtain ⟨starts, rfl⟩ := (startPipeline_iff warps).mp reached
    rw [derived_behind_window specified, kept starts]

theorem keepsPlan_finalized (specified : Specified task) {after : Disk Seed}
    (done : finalized task machine.disk after = true) :
    KeepsPlan task machine.disk (behindWindow task machine, after) ↔
      (planned (task.path0.oneLess :: task.otherPaths) ≠ 0 →
        planned (task.path0.oneLess :: task.otherPaths) % 2 ^ 64 ≠ 0 ∧
          (Starts task machine → task.path0.numberOfPlots = 1 → task.path0.room = 0)) := by
  have started := @startPipeline_behind_window _ task machine specified
    (task.path0.numberOfPlots - 1)
  unfold behindWindow
  rw [totalRemaining_eq]
  constructor
  · rintro ⟨plots, complete⟩ left
    rw [done] at plots complete
    have total : planned (task.path0.oneLess :: task.otherPaths) % 2 ^ 64 ≠ 0 := by
      intro hidden
      exact left (complete.mp (if_pos hidden))
    rw [if_neg total] at plots
    refine ⟨total, fun starts only => ?_⟩
    have number := started.mp plots starts
    rwa [if_pos only, only] at number
  · intro kept
    by_cases total : planned (task.path0.oneLess :: task.otherPaths) % 2 ^ 64 = 0
    · rw [if_pos total]
      have nothing : planned (task.path0.oneLess :: task.otherPaths) = 0 := by
        by_contra left
        exact (kept left).1 total
      constructor
      · nofun
      · rw [done]
        exact ⟨fun _ => nothing, fun _ => rfl⟩
    · rw [if_neg total]
      have left : planned (task.path0.oneLess :: task.otherPaths) ≠ 0 := by
        intro nothing
        rw [nothing] at total
        exact total rfl
      constructor
      · rw [done]
        apply started.mpr
        intro starts
        split
        · rename_i only
          rw [(kept left).2 starts only, only]
        · rfl
      · rw [done]
        exact ⟨fun complete => absurd complete (startPipeline_not_complete _ _ _ _),
          fun nothing => absurd nothing left⟩

theorem keepsPlan_not_finalized (specified : Specified task) :
    KeepsPlan task machine.disk (behindWindow task machine, machine.disk) ↔
      planned (task.path0.oneLess :: task.otherPaths) % 2 ^ 64 ≠ 0 ∧
        (Starts task machine → task.path0.numberOfPlots = 1 ∧ task.path0.room = 1) := by
  have asked := specified task.path0 List.mem_cons_self
  have left : planned (task.path0 :: task.otherPaths) ≠ 0 :=
    planned_pos List.mem_cons_self asked.1 asked.2
  have started := @startPipeline_behind_window _ task machine specified
    task.path0.numberOfPlots
  unfold behindWindow
  rw [totalRemaining_eq]
  constructor
  · rintro ⟨plots, complete⟩
    rw [finalized_self] at plots complete
    have total : planned (task.path0.oneLess :: task.otherPaths) % 2 ^ 64 ≠ 0 := by
      intro hidden
      exact left (complete.mp (if_pos hidden))
    rw [if_neg total] at plots
    refine ⟨total, fun starts => ?_⟩
    have number := started.mp plots starts
    split at number
    · rename_i only
      exact ⟨only, number.trans only⟩
    · omega
  · rintro ⟨total, kept⟩
    rw [if_neg total]
    constructor
    · rw [finalized_self]
      apply started.mpr
      intro starts
      obtain ⟨only, room⟩ := kept starts
      rw [if_pos only, only, room]
    · rw [finalized_self]
      exact ⟨fun complete => absurd complete (startPipeline_not_complete _ _ _ _),
        fun nothing => absurd nothing left⟩

variable [DecidableEq Seed]

/-- The plot stays where it does not open a second time, and becomes a finished one where it
opens and can be renamed. -/
theorem finalizeFirst_spec {seed : Seed} {content : Bytes} (given : task.seed = some seed)
    (plot : machine.disk seed task.path0.warps .tmp = some content) :
    if task.directIo && !machine.directOpens then finalizeFirst task machine = .ok machine.disk
    else if machine.renames then
      ∃ after, finalizeFirst task machine = .ok after ∧ finalized task machine.disk after = true
    else finalizeFirst task machine = .error .finalize := by
  unfold finalizeFirst reopen
  simp only [given]
  split
  · rfl
  · simp only [newPlotFile, plot]
    split
    · obtain ⟨finished, done, warps, gone⟩ :=
        @finalize_opened task.path0.warps task.directIo _ content plot
      rw [done]
      refine ⟨_, rfl, ?_⟩
      simp only [finalized, given, plot, store, warps, Function.update_self, gone,
        Option.isSome_some, Option.isNone_none, Bool.and_self]
    · rfl

/-- A run keeps the plan exactly outside the kill window and where the window is met well. -/
theorem keepsPlan_iff (specified : Specified task) :
    KeepsPlan task machine.disk (run task machine) ↔
      (killWindow task (readResume machine.disk task.seed task.path0.warps) = true →
        KeptBehindWindow task machine) := by
  have asked := specified task.path0 List.mem_cons_self
  unfold run
  by_cases window : killWindow task (readResume machine.disk task.seed task.path0.warps) = true
  · simp only [window, ↓reduceIte, true_implies]
    obtain ⟨seed, content, given, plot⟩ := killWindow_plot window
    have finished := finalizeFirst_spec given plot
    unfold KeptBehindWindow
    by_cases closed : (task.directIo && !machine.directOpens) = true
    · rw [if_pos closed] at finished
      simp only [closed, ↓reduceIte, finished]
      exact keepsPlan_not_finalized specified
    · rw [if_neg closed] at finished
      simp only [closed, ↓reduceIte, Bool.false_eq_true]
      cases renames : machine.renames with
      | false =>
        rw [renames, if_neg Bool.false_ne_true] at finished
        simp only [finished, Bool.false_eq_true, false_implies, iff_true]
        constructor
        · nofun
        · rw [finalized_self]
          exact ⟨nofun, fun nothing =>
            absurd nothing (planned_pos List.mem_cons_self asked.1 asked.2)⟩
      | true =>
        rw [renames, if_pos rfl] at finished
        obtain ⟨after, finished, done⟩ := finished
        simp only [finished, true_implies]
        exact keepsPlan_finalized specified done
  · simp only [window, Bool.false_eq_true, ↓reduceIte, false_implies, iff_true]
    exact keepsPlan_outside specified _

end window

/-- Plots of one warp on two paths, each with room for 11 warps. -/
def twoPaths (plots : Nat) : PlotterTask Unit where
  seed := some ()
  path0 := ⟨1, plots, some (11 * warpSize), true⟩
  otherPaths := [⟨1, 1, some (11 * warpSize), true⟩]
  directIo := false
  benchmark := false

/-- A former run was killed behind the last marker of the plot on path 0. -/
def interrupted : Machine Unit where
  disk := fun _ _ extension =>
    match extension with
    | .tmp => some (writeMarker 1 1 ⟨warpSize, fun _ => 0⟩)
    | .pocx => none
  directOpens := true
  renames := true
  memoryFits := true

theorem interrupted_resume : readResume interrupted.disk (some ()) 1 = 1 := by
  have marked : readMarker (Crash.opened 1 false (interrupted.disk () 1)) = .ok 1 :=
    readMarker_marked _ 1 ⟨warpSize, fun _ => 0⟩ rfl (Nat.le_refl 1)
      (Nat.le_of_eq (Nat.one_mul _)) rfl
  show (readMarker (Crash.opened 1 false (interrupted.disk () 1))).toOption.getD 0 = 1
  rw [marked]
  rfl

/-- The run finalizes the only plot of path 0 and goes on to fill its disk with others. -/
theorem disk_filled_after_resume :
    Specified (twoPaths 1) ∧ (run (twoPaths 1) interrupted).1 = .pipeline [11, 1] ∧
      ¬KeepsPlan (twoPaths 1) interrupted.disk (run (twoPaths 1) interrupted) := by
  have reached : (run (twoPaths 1) interrupted).1 = .pipeline [11, 1] := by
    have finished := @finalizeFirst_spec _ (twoPaths 1) interrupted _ () _ rfl rfl
    rw [if_neg (by decide), if_pos (show interrupted.renames = true from rfl)] at finished
    obtain ⟨after, finished, -⟩ := finished
    have window : killWindow (twoPaths 1)
        (readResume interrupted.disk (twoPaths 1).seed (twoPaths 1).path0.warps) = true := by
      show killWindow (twoPaths 1) (readResume interrupted.disk (some ()) 1) = true
      rw [interrupted_resume]
      rfl
    unfold run
    rw [if_pos window, finished]
    show behindWindow (twoPaths 1) interrupted = .pipeline [11, 1]
    decide
  refine ⟨by unfold Specified; decide, reached, fun kept => ?_⟩
  have plan := kept.plots _ reached
  cases done : finalized (twoPaths 1) interrupted.disk (run (twoPaths 1) interrupted).2 <;>
    rw [done] at plan <;> exact absurd plan (by decide)

/-- With a second plot to make on path 0 the same run keeps the plan. -/
theorem second_plot_kept :
    Specified (twoPaths 2) ∧
      KeepsPlan (twoPaths 2) interrupted.disk (run (twoPaths 2) interrupted) := by
  have specified : Specified (twoPaths 2) := by
    unfold Specified
    decide
  have more : planned ((twoPaths 2).path0.oneLess :: (twoPaths 2).otherPaths) % 2 ^ 64 ≠ 0 := by
    decide
  exact ⟨specified, (keepsPlan_iff specified).mpr fun _ _ _ =>
    ⟨more, fun _ only => absurd only (by decide)⟩⟩

end Pocx.PlotterRun
