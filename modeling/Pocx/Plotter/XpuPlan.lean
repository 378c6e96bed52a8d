import Mathlib.Algebra.Order.BigOperators.Group.Finset
import Pocx.Plotter.Plan
import Pocx.Plotter.XpuScheduler

set_option autoImplicit false

namespace Pocx.XpuScheduler

open Pocx.Plotter
open PlotFile (numScoops warpSize)
open Transition (System Reachable)

variable {Payload Seed : Type}

/-- A turn without a stop request. -/
structure QuietSupply (Payload Seed : Type) (task : PlotterTask Payload Seed)
    extends Supply Payload Seed task where
  quietBefore : stopBefore = false
  quietBehind : stopBehind = false

/-- The runs without a stop request. -/
def quiet (task : PlotterTask Payload Seed) (resume : Nat) :
    System (State Seed) (QuietSupply Payload Seed task) where
  initial := (system task resume).initial
  step state supply := step task state supply.toSupply

/-- A request that reaches the scheduler. -/
structure Requested (task : PlotterTask Payload Seed) (resume : Nat) : Prop where
  warps : ∀ path < task.outputPaths, 1 ≤ task.warps path
  plots : ∃ path < task.outputPaths, 1 ≤ task.numberOfPlots path
  resumed : resume ≤ task.warps 0
  single : task.numberOfPlots 0 = 1 → resume < task.warps 0

/-- A task brings a stretch of warps to the compressor. -/
def Carries (task : CompressorTask Seed) (stretch : Stretch Seed) : Prop :=
  stretch =
    { seed := task.seed
      warpOffset := task.warpOffset
      warpsToWrite := task.warpsToCompress
      numberOfWarps := task.numberOfWarps }

def ofPath (path : Nat) (sent : List (CompressorTask Seed)) : List (CompressorTask Seed) :=
  sent.filter fun task => task.pathPointer = path

/-- The warps that the compressor has been sent. -/
def emitted (sent : List (CompressorTask Seed)) : Nat :=
  (sent.map (·.warpsToCompress)).sum

/-- The first warp of file `k` that is still to be hashed. -/
def fileStart (resume path k : Nat) : Nat := if path = 0 ∧ k = 0 then resume else 0

section plan

variable (task : PlotterTask Payload Seed) (resume path : Nat)

/-- A seed that is given is the one of the first file of the first path. -/
def OwnSeed (k : Nat) (seed : Seed) : Prop :=
  path = 0 → k = 0 → ∀ given, task.seed = some given → seed = given

/-- The tasks cover the warps of file `k` from its first one up to `last`. -/
def Covers (k : Nat) (seed : Seed) (tasks : List (CompressorTask Seed)) (last : Nat) : Prop :=
  OwnSeed task path k seed ∧
    Cuts Carries (task.warps path) (task.warps path) seed (fileStart resume path k) tasks last

def IsFile (k : Nat) (file : List (CompressorTask Seed)) : Prop :=
  ∃ seed, Covers task resume path k seed file (task.warps path)

/-- Whole files, no more than are requested, and part of one more if another is. -/
def OnPlan (sent : List (CompressorTask Seed)) : Prop :=
  ∃ done ≤ task.numberOfPlots path,
    Progress (IsFile task resume path)
      (fun tail => tail = [] ∨
        done < task.numberOfPlots path ∧ ∃ seed last, Covers task resume path done seed tail last)
      (ofPath path sent) done

/-- Exactly the requested files. -/
def Complete (sent : List (CompressorTask Seed)) : Prop :=
  ∃ files : List (List (CompressorTask Seed)), ofPath path sent = files.flatten ∧
    files.length = task.numberOfPlots path ∧
    ∀ k file, files[k]? = some file → IsFile task resume path k file

end plan

/-- What the claim on a request is: its runs go on until each path has exactly its files,
and just then the compressor has received all the warps that it waits for. -/
structure HashesPlan (task : PlotterTask Payload Seed) (resume : Nat) : Prop where
  bounded : ∀ state supplies final, (quiet task resume).initial state →
    Transition.run (quiet task resume) state supplies = some final →
    supplies.length ≤ totalWarps task resume
  goesOn : ∀ state, Reachable (quiet task resume) Transition.always state → state.done = false →
    ∀ supply, ∃ after, (quiet task resume).step state supply = some after
  onPlan : ∀ state, Reachable (quiet task resume) Transition.always state →
    ∀ path < task.outputPaths, OnPlan task resume path state.sent
  awaited : ∀ state, Reachable (quiet task resume) Transition.always state → state.done = false →
    emitted state.sent < totalWarps task resume
  received : ∀ state, Reachable (quiet task resume) Transition.always state → state.done = true →
    emitted state.sent = totalWarps task resume
  complete : ∀ state, Reachable (quiet task resume) Transition.always state → state.done = true →
    ∀ path < task.outputPaths, Complete task resume path state.sent

section paths

variable (task : PlotterTask Payload Seed) (resume path : Nat)

/-- The tasks of a path while a file of it is open, and `offset` is its next warp. -/
structure Open (seed : Seed) (filesDone offset : Nat) (sent : List (CompressorTask Seed)) :
    Prop where
  more : filesDone < task.numberOfPlots path
  inside : offset < task.warps path
  own : OwnSeed task path filesDone seed
  progress : Progress (IsFile task resume path)
    (fun tail => Cuts Carries (task.warps path) (task.warps path) seed
      (fileStart resume path filesDone) tail offset)
    sent filesDone

/-- The tasks of a path whose files are all hashed. -/
structure Closed (filesDone : Nat) (sent : List (CompressorTask Seed)) : Prop where
  all : filesDone = task.numberOfPlots path
  progress : Progress (IsFile task resume path) (fun tail => tail = []) sent filesDone

variable (state : State Seed)

/-- A path between two of its turns. -/
def Parked : Prop :=
  Open task resume path (state.seeds path) (state.plotfileProgress path) (state.hashProgress path)
      (ofPath path state.sent) ∨
    Closed task resume path (state.plotfileProgress path) (ofPath path state.sent)

/-- The warps that are still to be hashed for a path. -/
def warpsLeft : Nat :=
  (task.numberOfPlots path - state.plotfileProgress path) * task.warps path -
    state.hashProgress path

def remaining : Nat := ∑ path ∈ Finset.range task.outputPaths, warpsLeft task path state

/-- Behind each buffer, every path is on plan. -/
structure Settled : Prop where
  pointer_lt : state.pointer < task.outputPaths
  balance : emitted state.sent + remaining task state = totalWarps task resume
  parked : ∀ path < task.outputPaths, Parked task resume path state

/-- What holds at the head of the loop, and behind it. -/
structure Planned : Prop where
  settled : Settled task resume state
  going : state.done = false →
    state.plotfileProgress state.pointer < task.numberOfPlots state.pointer
  stopped : state.done = true →
    ∀ path < task.outputPaths, task.numberOfPlots path ≤ state.plotfileProgress path

end paths

section parked

variable {task : PlotterTask Payload Seed} {resume path : Nat} {state : State Seed}

theorem Parked.onPlan (parked : Parked task resume path state) :
    OnPlan task resume path state.sent := by
  rcases parked with isOpen | closed
  · refine ⟨_, Nat.le_of_lt isOpen.more, isOpen.progress.mono ?_⟩
    intro tail covered
    exact Or.inr ⟨isOpen.more, _, _, isOpen.own, covered⟩
  · exact ⟨_, Nat.le_of_eq closed.all, closed.progress.mono fun tail empty => Or.inl empty⟩

theorem Parked.complete (parked : Parked task resume path state)
    (all : task.numberOfPlots path ≤ state.plotfileProgress path) :
    Complete task resume path state.sent := by
  rcases parked with isOpen | closed
  · have more := isOpen.more
    omega
  · obtain ⟨files, tail, split, length, whole, rfl⟩ := closed.progress
    rw [List.append_nil] at split
    exact ⟨files, split, length.trans closed.all, whole⟩

/-- A path with plots to make has warps to hash. -/
theorem Parked.warpsLeft_pos (parked : Parked task resume path state)
    (more : state.plotfileProgress path < task.numberOfPlots path) :
    0 < warpsLeft task path state := by
  rcases parked with isOpen | closed
  · have inside := isOpen.inside
    have whole : task.warps path ≤
        (task.numberOfPlots path - state.plotfileProgress path) * task.warps path :=
      Nat.le_mul_of_pos_left _ (Nat.sub_pos_of_lt more)
    unfold warpsLeft
    omega
  · have all := closed.all
    omega

theorem Settled.unfinished (settled : Settled task resume state)
    (more : state.plotfileProgress state.pointer < task.numberOfPlots state.pointer) :
    emitted state.sent < totalWarps task resume := by
  have left := (settled.parked _ settled.pointer_lt).warpsLeft_pos more
  have one : warpsLeft task state.pointer state ≤ remaining task state :=
    Finset.single_le_sum (f := fun path => warpsLeft task path state) (fun _ _ => Nat.zero_le _)
      (Finset.mem_range.mpr settled.pointer_lt)
  have balance := settled.balance
  omega

theorem Settled.finished (settled : Settled task resume state)
    (all : ∀ path < task.outputPaths, task.numberOfPlots path ≤ state.plotfileProgress path) :
    emitted state.sent = totalWarps task resume := by
  have none : remaining task state = 0 := by
    apply Finset.sum_eq_zero
    intro path member
    have done := all path (Finset.mem_range.mp member)
    rw [warpsLeft, Nat.sub_eq_zero_of_le done, Nat.zero_mul, Nat.zero_sub]
  have balance := settled.balance
  omega

end parked

section turns

variable {task : PlotterTask Payload Seed} {resume : Nat} {state : State Seed}

theorem warpsToHash_pos {bufferSize : Nat} (large : 2 ^ task.compress * warpSize ≤ bufferSize)
    (inside : state.hashProgress state.pointer < task.warps state.pointer) :
    0 < warpsToHash task bufferSize state := by
  have warp : 0 < warpSize := by decide
  have output : 1 ≤ bufferSize / warpSize / 2 ^ task.compress := by
    rw [Nat.le_div_iff_mul_le (Nat.two_pow_pos _), Nat.le_div_iff_mul_le warp, Nat.one_mul]
    exact large
  rw [warpsToHash]
  omega

theorem warpsToHash_le (bufferSize : Nat) :
    warpsToHash task bufferSize state ≤
      task.warps state.pointer - state.hashProgress state.pointer :=
  Nat.min_le_right _ _

theorem ofPath_queue (path : Nat) (sent : List (CompressorTask Seed))
    (last : CompressorTask Seed) :
    ofPath path (sent ++ [last]) =
      if last.pathPointer = path then ofPath path sent ++ [last] else ofPath path sent := by
  rw [ofPath, List.filter_append, List.filter_singleton]
  by_cases here : last.pathPointer = path
  · simp only [here, decide_true, ↓reduceIte]
    rfl
  · simp only [here, decide_false, ↓reduceIte]
    exact List.append_nil _

theorem emitted_queue (sent : List (CompressorTask Seed)) (last : CompressorTask Seed) :
    emitted (sent ++ [last]) = emitted sent + last.warpsToCompress := by
  rw [emitted, List.map_append, List.sum_append, List.map_singleton, List.sum_singleton]
  rfl

/-- What a turn does to the path it works on, and leaves alone elsewhere. -/
structure Worked (task : PlotterTask Payload Seed) (resume count : Nat) (before after : State Seed) :
    Prop where
  pointer : after.pointer = before.pointer
  done : after.done = before.done
  emitted : emitted after.sent = emitted before.sent + count
  here : Parked task resume before.pointer after
  left : warpsLeft task before.pointer after + count = warpsLeft task before.pointer before
  elsewhere : ∀ path, path ≠ before.pointer →
    after.seeds path = before.seeds path ∧
      after.plotfileProgress path = before.plotfileProgress path ∧
      after.hashProgress path = before.hashProgress path ∧
      ofPath path after.sent = ofPath path before.sent

theorem Worked.settled {count : Nat} {after : State Seed} (worked : Worked task resume count state after)
    (settled : Settled task resume state) : Settled task resume after := by
  have pointer_lt := settled.pointer_lt
  constructor
  · rw [worked.pointer]
    exact pointer_lt
  · have member := Finset.mem_range.mpr pointer_lt
    have others : ∑ path ∈ (Finset.range task.outputPaths).erase state.pointer,
        warpsLeft task path after =
      ∑ path ∈ (Finset.range task.outputPaths).erase state.pointer, warpsLeft task path state := by
      apply Finset.sum_congr rfl
      intro path other
      obtain ⟨-, files, offset, -⟩ := worked.elsewhere path (Finset.ne_of_mem_erase other)
      rw [warpsLeft, warpsLeft, files, offset]
    have balance := settled.balance
    rw [remaining, ← Finset.add_sum_erase _ _ member] at balance ⊢
    have left := worked.left
    rw [worked.emitted, others]
    omega
  · intro path pathLt
    by_cases here : path = state.pointer
    · rw [here]
      exact worked.here
    · obtain ⟨seed, files, offset, sent⟩ := worked.elsewhere path here
      have parked := settled.parked path pathLt
      rw [Parked, seed, files, offset, sent]
      exact parked

/-- The file goes on behind the buffer. -/
theorem queue_inside {buffer : ByteStore.Bytes} {drawn : Seed}
    (boundary : state.hashProgress state.pointer + warpsToHash task buffer.len state ≠
      task.warps state.pointer) :
    countFile task drawn (queue task buffer state) = queue task buffer state := by
  rw [countFile, if_neg]
  simp only [queue, Function.update_self]
  exact boundary

/-- The buffer completes the last file of the path. -/
theorem queue_last {buffer : ByteStore.Bytes} {drawn : Seed}
    (boundary : state.hashProgress state.pointer + warpsToHash task buffer.len state =
      task.warps state.pointer)
    (last : ¬ state.plotfileProgress state.pointer + 1 < task.numberOfPlots state.pointer) :
    countFile task drawn (queue task buffer state) =
      { queue task buffer state with
        plotfileProgress := Function.update state.plotfileProgress state.pointer
          (state.plotfileProgress state.pointer + 1) } := by
  rw [countFile, if_pos]
  · simp only [queue, last, ↓reduceIte]
  · simp only [queue, Function.update_self]
    exact boundary

/-- The buffer completes a file, and another one follows. -/
theorem queue_next {buffer : ByteStore.Bytes} {drawn : Seed}
    (boundary : state.hashProgress state.pointer + warpsToHash task buffer.len state =
      task.warps state.pointer)
    (next : state.plotfileProgress state.pointer + 1 < task.numberOfPlots state.pointer) :
    countFile task drawn (queue task buffer state) =
      { queue task buffer state with
        plotfileProgress := Function.update state.plotfileProgress state.pointer
          (state.plotfileProgress state.pointer + 1)
        hashProgress := Function.update state.hashProgress state.pointer 0
        seeds := Function.update state.seeds state.pointer drawn } := by
  rw [countFile, if_pos]
  · simp only [queue, next, ↓reduceIte, Function.update_idem]
  · simp only [queue, Function.update_self]
    exact boundary

/-- The tasks of the path behind the buffer. -/
theorem Open.queue {buffer : ByteStore.Bytes}
    (isOpen : Open task resume state.pointer (state.seeds state.pointer)
      (state.plotfileProgress state.pointer) (state.hashProgress state.pointer)
      (ofPath state.pointer state.sent))
    (large : 2 ^ task.compress * warpSize ≤ buffer.len) :
    Progress (IsFile task resume state.pointer)
      (fun tail => Cuts Carries (task.warps state.pointer) (task.warps state.pointer)
        (state.seeds state.pointer)
        (fileStart resume state.pointer (state.plotfileProgress state.pointer)) tail
        (state.hashProgress state.pointer + warpsToHash task buffer.len state))
      (ofPath state.pointer (XpuScheduler.queue task buffer state).sent)
      (state.plotfileProgress state.pointer) := by
  have positive := warpsToHash_pos large isOpen.inside
  have fits : warpsToHash task buffer.len state ≤ _ := warpsToHash_le buffer.len
  simp only [XpuScheduler.queue, ofPath_queue, ↓reduceIte]
  apply isOpen.progress.snoc
  intro tail covered
  exact covered.snoc positive (Nat.le_trans fits (Nat.sub_le _ _)) rfl

/-- The warps of the open file, and of those behind it. -/
theorem warps_of_files (path : Nat) (more : state.plotfileProgress path < task.numberOfPlots path) :
    (task.numberOfPlots path - state.plotfileProgress path) * task.warps path =
      (task.numberOfPlots path - (state.plotfileProgress path + 1)) * task.warps path +
        task.warps path := by
  have one : task.numberOfPlots path - state.plotfileProgress path =
    task.numberOfPlots path - (state.plotfileProgress path + 1) + 1 := by omega
  rw [one, Nat.add_mul, Nat.one_mul]

/-- A buffer on a path with an open file. -/
theorem queue_worked (parked : Parked task resume state.pointer state)
    (more : state.plotfileProgress state.pointer < task.numberOfPlots state.pointer)
    (buffer : ByteStore.Bytes) (large : 2 ^ task.compress * warpSize ≤ buffer.len) (drawn : Seed) :
    Worked task resume (warpsToHash task buffer.len state) state
      (countFile task drawn (queue task buffer state)) := by
  rcases parked with isOpen | closed
  case inr =>
    have all := closed.all
    omega
  have inside := isOpen.inside
  have fits : warpsToHash task buffer.len state ≤ _ := warpsToHash_le buffer.len
  have tasks := isOpen.queue large
  have apart : ∀ path, path ≠ state.pointer →
      ofPath path (queue task buffer state).sent = ofPath path state.sent := by
    intro path other
    simp only [queue, ofPath_queue, if_neg (Ne.symm other)]
  have sum : emitted (queue task buffer state).sent =
      emitted state.sent + warpsToHash task buffer.len state := emitted_queue _ _
  have files := warps_of_files state.pointer more
  by_cases boundary : state.hashProgress state.pointer + warpsToHash task buffer.len state =
    task.warps state.pointer
  · rw [boundary] at tasks
    have completed : ∀ tail, _ → IsFile task resume state.pointer _ tail := fun tail covered =>
      ⟨_, isOpen.own, covered⟩
    by_cases next : state.plotfileProgress state.pointer + 1 < task.numberOfPlots state.pointer
    · rw [queue_next boundary next]
      refine ⟨rfl, rfl, sum, Or.inl ⟨?_, ?_, ?_, ?_⟩, ?_, ?_⟩
      · simpa only [Function.update_self] using next
      · simp only [Function.update_self]
        omega
      · simp only [Function.update_self]
        exact fun _ first => absurd first (Nat.succ_ne_zero _)
      · simp only [Function.update_self]
        apply tasks.complete completed
        simp only [fileStart, Nat.succ_ne_zero, and_false, ↓reduceIte]
        rfl
      · simp only [warpsLeft, Function.update_self]
        omega
      · intro path other
        simp only [Function.update_of_ne other, true_and]
        exact apart path other
    · rw [queue_last boundary next]
      refine ⟨rfl, rfl, sum, Or.inr ⟨?_, ?_⟩, ?_, ?_⟩
      · simp only [Function.update_self]
        omega
      · simp only [Function.update_self]
        exact tasks.complete completed rfl
      · have none : task.numberOfPlots state.pointer -
            (state.plotfileProgress state.pointer + 1) = 0 := by omega
        rw [none, Nat.zero_mul] at files
        simp only [warpsLeft, queue, Function.update_self, none, Nat.zero_mul]
        omega
      · intro path other
        simp only [queue, Function.update_of_ne other, true_and]
        exact apart path other
  · rw [queue_inside boundary]
    refine ⟨rfl, rfl, sum, Or.inl ⟨more, ?_, isOpen.own, ?_⟩, ?_, ?_⟩
    · simp only [queue, Function.update_self]
      omega
    · simpa only [queue, Function.update_self] using tasks
    · simp only [warpsLeft, queue, Function.update_self]
      omega
    · intro path other
      simp only [queue, Function.update_of_ne other, true_and]
      exact apart path other

/-- Going on with another path changes neither the paths nor the tasks. -/
theorem Settled.advance (settled : Settled task resume state) :
    Settled task resume (advance task false state) := by
  unfold XpuScheduler.advance
  split
  · rename_i next found
    exact ⟨(RoundRobin.next_some found).1, settled.balance, settled.parked⟩
  · exact ⟨settled.pointer_lt, settled.balance, settled.parked⟩

theorem Settled.planned (settled : Settled task resume state) :
    Planned task resume (XpuScheduler.advance task false state) := by
  refine ⟨settled.advance, ?_, ?_⟩
  · unfold XpuScheduler.advance
    split
    · rename_i next found
      intro _
      exact of_decide_eq_true (RoundRobin.next_some found).2
    · intro going
      cases going
  · unfold XpuScheduler.advance
    split
    · intro stopped
      cases stopped
    · rename_i missing
      intro _ path pathLt
      have idle := RoundRobin.next_none settled.pointer_lt missing pathLt
      exact Nat.le_of_not_lt (of_decide_eq_false idle)

/-- Where a file is open, the control loop has nonces to wait for. -/
theorem awaited_open (supply : Supply Payload Seed task)
    (inside : state.hashProgress state.pointer < task.warps state.pointer) :
    awaited task supply state = true := by
  have positive := warpsToHash_pos supply.buffer_len inside
  have scoops : 0 < numScoops := by decide
  have nonces : 0 < noncesToHash task supply.buffer.len state :=
    Nat.mul_pos (Nat.mul_pos (Nat.two_pow_pos _) positive) scoops
  rw [awaited, decide_eq_true nonces, Bool.true_or]

theorem Planned.isOpen (planned : Planned task resume state) (running : state.done = false) :
    Open task resume state.pointer (state.seeds state.pointer)
      (state.plotfileProgress state.pointer) (state.hashProgress state.pointer)
      (ofPath state.pointer state.sent) := by
  rcases planned.settled.parked _ planned.settled.pointer_lt with isOpen | closed
  · exact isOpen
  · have all := closed.all
    have more := planned.going running
    omega

/-- A turn without a stop request goes on wherever the control loop does. -/
theorem quiet_step (state : State Seed) (running : state.done = false)
    (supply : QuietSupply Payload Seed task) :
    (quiet task resume).step state supply =
      if awaited task supply.toSupply state then
        some (advance task false (countFile task supply.seed (queue task supply.buffer state)))
      else none := by
  simp only [quiet, step, running, supply.quietBefore, supply.quietBehind, Bool.false_eq_true,
    ↓reduceIte]

theorem advance_sent (stop : Bool) (state : State Seed) :
    (advance task stop state).sent = state.sent := by
  unfold advance
  split
  · rfl
  · rfl

theorem countFile_sent (drawn : Seed) (state : State Seed) :
    (countFile task drawn state).sent = state.sent := by
  unfold countFile
  split
  · rfl
  · rfl

/-- A turn on plan. -/
theorem Planned.step (planned : Planned task resume state) (running : state.done = false)
    (supply : QuietSupply Payload Seed task) :
    ∃ after, (quiet task resume).step state supply = some after ∧ Planned task resume after ∧
      emitted state.sent < emitted after.sent := by
  have isOpen := planned.isOpen running
  have worked := queue_worked (Or.inl isOpen) isOpen.more supply.buffer supply.buffer_len supply.seed
  have settled := worked.settled planned.settled
  refine ⟨_, ?_, settled.planned, ?_⟩
  · rw [quiet_step state running, awaited_open supply.toSupply isOpen.inside, if_pos rfl]
  · have positive := warpsToHash_pos supply.buffer_len isOpen.inside
    rw [advance_sent, worked.emitted]
    omega

/-- Behind the end there is no turn. -/
theorem running_of_step {supply : QuietSupply Payload Seed task} {after : State Seed}
    (taken : (quiet task resume).step state supply = some after) : state.done = false := by
  cases done : state.done with
  | false => rfl
  | true =>
    simp only [quiet, XpuScheduler.step, done, ↓reduceIte] at taken
    cases taken

theorem Planned.next (planned : Planned task resume state)
    {supply : QuietSupply Payload Seed task} {after : State Seed}
    (taken : (quiet task resume).step state supply = some after) :
    Planned task resume after ∧ emitted state.sent < emitted after.sent := by
  obtain ⟨_, step, planned', more⟩ := planned.step (running_of_step taken) supply
  rw [step, Option.some.injEq] at taken
  rw [← taken]
  exact ⟨planned', more⟩

end turns

section runs

variable {task : PlotterTask Payload Seed} {resume : Nat}

theorem start_parked (requested : Requested task resume) (inside : resume < task.warps 0)
    (drawn : Nat → Seed) (path : Nat) (pathLt : path < task.outputPaths) :
    Parked task resume path (start task resume drawn) := by
  by_cases plots : task.numberOfPlots path = 0
  · exact Or.inr ⟨plots.symm, .start rfl⟩
  · refine Or.inl ⟨Nat.pos_of_ne_zero plots, ?_, ?_, .start ?_⟩
    · by_cases first : path = 0
      · rw [first]
        exact inside
      · simp only [start, Function.update_of_ne first]
        exact requested.warps path pathLt
    · intro first _ given seed
      simp only [start, first, ↓reduceIte, seed, Option.getD_some]
    · by_cases first : path = 0
      · rw [first]
        rfl
      · simp only [start, Function.update_of_ne first, fileStart, first, false_and, ↓reduceIte]
        rfl

/-- What is left at the start is what the compressor waits for. -/
theorem start_remaining (inside : resume < task.warps 0) (plots : 1 ≤ task.numberOfPlots 0)
    (drawn : Nat → Seed) :
    remaining task (start task resume drawn) = totalWarps task resume := by
  have member := Finset.mem_range.mpr task.outputPaths_pos
  have others : ∑ path ∈ (Finset.range task.outputPaths).erase 0,
      warpsLeft task path (start task resume drawn) =
    ∑ path ∈ (Finset.range task.outputPaths).erase 0, task.warps path * task.numberOfPlots path := by
    apply Finset.sum_congr rfl
    intro path other
    have apart := Finset.ne_of_mem_erase other
    simp only [warpsLeft, start, Function.update_of_ne apart, Nat.sub_zero]
    exact Nat.mul_comm _ _
  have whole : task.warps 0 ≤ task.warps 0 * task.numberOfPlots 0 := Nat.le_mul_of_pos_right _ plots
  rw [remaining, totalWarps, ← Finset.add_sum_erase _ _ member, ← Finset.add_sum_erase _ _ member,
    others]
  simp only [warpsLeft, start, Function.update_self, Nat.sub_zero]
  rw [Nat.mul_comm (task.numberOfPlots 0)]
  omega

theorem start_planned (requested : Requested task resume) (inside : resume < task.warps 0)
    (plots : 1 ≤ task.numberOfPlots 0) (drawn : Nat → Seed) :
    Planned task resume (start task resume drawn) := by
  refine ⟨⟨task.outputPaths_pos, ?_, start_parked requested inside drawn⟩, fun _ => plots, nofun⟩
  rw [start_remaining inside plots]
  exact Nat.zero_add _

/-- From a path with plots to make, with warps left in the first of them, the runs keep to
the plan. -/
theorem hashesPlan_of_plots (requested : Requested task resume) (inside : resume < task.warps 0)
    (plots : 1 ≤ task.numberOfPlots 0) : HashesPlan task resume := by
  have planned : ∀ state, Reachable (quiet task resume) Transition.always state →
      Planned task resume state := by
    intro state reached
    apply reached.invariant (Planned task resume)
    · rintro state ⟨drawn, rfl⟩
      exact start_planned requested inside plots drawn
    · intro before supply after holds _ taken
      exact (holds.next taken).1
  constructor
  · rintro state supplies final ⟨drawn, rfl⟩ complete
    have bounded := Transition.run_bounded (Planned task resume)
      (fun state => totalWarps task resume - emitted state.sent)
      (fun before supply after holds taken => (holds.next taken).1) ?_ supplies
      (start_planned requested inside plots drawn) complete
    · exact Nat.le_trans bounded (Nat.sub_le _ _)
    · intro before supply after holds taken
      have more := (holds.next taken).2
      have unfinished := holds.settled.unfinished (holds.going (running_of_step taken))
      omega
  · intro state reached running supply
    obtain ⟨after, step, -⟩ := (planned state reached).step running supply
    exact ⟨after, step⟩
  · intro state reached path pathLt
    exact ((planned state reached).settled.parked path pathLt).onPlan
  · intro state reached running
    have holds := planned state reached
    exact holds.settled.unfinished (holds.going running)
  · intro state reached stopped
    have holds := planned state reached
    exact holds.settled.finished (holds.stopped stopped)
  · intro state reached stopped path pathLt
    have holds := planned state reached
    exact (holds.settled.parked path pathLt).complete (holds.stopped stopped path pathLt)

/-- A turn without a stop request and without a message left behind. -/
def plainSupply (task : PlotterTask Payload Seed) (seed : Seed) :
    QuietSupply Payload Seed task where
  stopBefore := false
  stopBehind := false
  buffer := ⟨2 ^ task.compress * warpSize, fun _ => 0⟩
  buffer_len := Nat.le_refl _
  seed := seed
  leftover := false
  quietBefore := rfl
  quietBehind := rfl

/-- With no warp left in the first file, the control loop waits for a message that never comes. -/
theorem stuck_at_start [seeds : Nonempty Seed] (full : task.warps 0 ≤ resume) :
    ¬ HashesPlan task resume := by
  intro plan
  obtain ⟨seed⟩ := seeds
  obtain ⟨after, taken⟩ := plan.goesOn (start task resume fun _ => seed) (.start ⟨_, rfl⟩) rfl
    (plainSupply task seed)
  have none : noncesToHash task (plainSupply task seed).buffer.len
      (start task resume fun _ => seed) = 0 := by
    simp only [noncesToHash, warpsToHash, start, Function.update_self, Nat.sub_eq_zero_of_le full,
      Nat.min_zero, Nat.mul_zero, Nat.zero_mul]
  have silent : awaited task (plainSupply task seed).toSupply
      (start task resume fun _ => seed) = false := by
    simp only [awaited, none, Nat.lt_irrefl, decide_false, Bool.false_or]
    rfl
  rw [quiet_step _ rfl, silent, if_neg Bool.false_ne_true] at taken
  cases taken

/-- The walk starts with the first path, whether or not it has plots to make. -/
theorem idle_start [seeds : Nonempty Seed] (idle : task.numberOfPlots 0 = 0)
    (inside : resume < task.warps 0) : ¬ HashesPlan task resume := by
  intro plan
  obtain ⟨seed⟩ := seeds
  have first : Reachable (quiet task resume) Transition.always (start task resume fun _ => seed) :=
    .start ⟨_, rfl⟩
  obtain ⟨after, taken⟩ := plan.goesOn _ first rfl (plainSupply task seed)
  obtain ⟨done, few, files, tail, split, length, -, part⟩ :=
    plan.onPlan after (.next first trivial taken) 0 task.outputPaths_pos
  have none : done = 0 := by omega
  have empty : ofPath 0 after.sent = [] := by
    rw [none, List.length_eq_zero_iff] at length
    rcases part with rfl | ⟨more, -⟩
    · rw [split, length]
      rfl
    · omega
  rw [quiet_step _ rfl, awaited_open (plainSupply task seed).toSupply inside, if_pos rfl,
    Option.some.injEq] at taken
  rw [← taken, advance_sent, countFile_sent, queue, ofPath_queue] at empty
  cases empty

/-- The runs hash the requested plan just where the first path has plots to make and warps left
in the first of them. -/
theorem hashes_plan_iff [Nonempty Seed] (requested : Requested task resume) :
    HashesPlan task resume ↔ 1 ≤ task.numberOfPlots 0 ∧ resume < task.warps 0 := by
  constructor
  · intro plan
    have inside : resume < task.warps 0 := by
      by_contra full
      exact stuck_at_start (Nat.le_of_not_lt full) plan
    refine ⟨?_, inside⟩
    by_contra none
    exact idle_start (Nat.lt_one_iff.mp (Nat.lt_of_not_le none)) inside plan
  · rintro ⟨plots, inside⟩
    exact hashesPlan_of_plots requested inside plots

/-- Three paths, the second of which has no plots to make. -/
def threePaths : PlotterTask Unit Nat where
  addressPayload := ()
  seed := some 7
  warps := fun path => path + 2
  numberOfPlots := fun path => if path = 1 then 0 else 2
  outputPaths := 3
  compress := 1
  cpuThreads := 4
  outputPaths_pos := by decide

theorem hashes_plan_three_paths : HashesPlan threePaths 1 := by
  have requested : Requested threePaths 1 :=
    ⟨by decide, ⟨0, by decide, by decide⟩, by decide, by decide⟩
  exact (hashes_plan_iff requested).mpr ⟨by decide, by decide⟩

/-- The disk of the first path has no room for a file. -/
def idleFirst : PlotterTask Unit Nat where
  addressPayload := ()
  seed := none
  warps := fun _ => 1
  numberOfPlots := fun path => if path = 0 then 0 else 1
  outputPaths := 2
  compress := 1
  cpuThreads := 4
  outputPaths_pos := Nat.two_pos

theorem idle_first_off_plan : Requested idleFirst 0 ∧ ¬ HashesPlan idleFirst 0 := by
  refine ⟨⟨by decide, ⟨1, by decide, by decide⟩, by decide, by decide⟩, ?_⟩
  exact idle_start rfl (by decide)

end runs

end Pocx.XpuScheduler
