import Pocx.Lib.RangeSum
import Pocx.Plotter.HybridHashing

set_option autoImplicit false

namespace Pocx.HybridHashing

open ByteStore
open Hashlib
open GpuHasher

variable {Payload Seed : Type}

/-- The tasks that a GPU thread has not transferred yet. -/
def backlog (weight : HasherTask Payload Seed → Nat) (thread : GpuThread Payload Seed) : Nat :=
  (thread.inbox.map weight).sum + if thread.firstRun then 0 else weight thread.lastTask

/-- The tasks that nobody has written to the buffer yet. -/
def State.pending (gpus : Nat) (weight : HasherTask Payload Seed → Nat)
    (state : State Payload Seed) : Nat :=
  (state.cpuTasks.map weight).sum + ∑ id ∈ Finset.range gpus, backlog weight (state.gpus id)

def noncesOf : HasherMessage → Nat
  | .noncesHashed nonces => nonces
  | _ => 0

/-- The nonces reported but not counted yet. -/
def State.reported (gpus : Nat) (state : State Payload Seed) : Nat :=
  (state.rx.map noncesOf).sum +
    ∑ id ∈ Finset.range gpus, ((state.gpus id).outbox.map noncesOf).sum

section pending

variable {gpus : Nat} (weight : HasherTask Payload Seed → Nat) (state : State Payload Seed)

theorem pending_setGpu {id : Nat} (listed : id < gpus) (thread : GpuThread Payload Seed) :
    (state.setGpu id thread).pending gpus weight + backlog weight (state.gpus id) =
      state.pending gpus weight + backlog weight thread := by
  have sum := RangeSum.sum_range_update (backlog weight) state.gpus listed thread
  simp only [State.pending, State.setGpu]
  omega

theorem reported_setGpu {id : Nat} (listed : id < gpus) (thread : GpuThread Payload Seed) :
    (state.setGpu id thread).reported gpus + ((state.gpus id).outbox.map noncesOf).sum =
      state.reported gpus + (thread.outbox.map noncesOf).sum := by
  have sum := RangeSum.sum_range_update (fun thread => (thread.outbox.map noncesOf).sum) state.gpus
    listed thread
  simp only [State.reported, State.setGpu]
  omega

theorem pending_send {id : Nat} (listed : id < gpus) (task : HasherTask Payload Seed) :
    (state.send id task).pending gpus weight = state.pending gpus weight + weight task := by
  have moved := pending_setGpu weight state listed ((state.gpus id).enqueue task)
  have grown : backlog weight ((state.gpus id).enqueue task) =
      backlog weight (state.gpus id) + weight task := by
    simp only [backlog, GpuThread.enqueue, List.map_append, List.sum_append, List.map_singleton,
      List.sum_singleton]
    exact Nat.add_right_comm _ _ _
  rw [State.send]
  omega

theorem reported_send {id : Nat} (listed : id < gpus) (task : HasherTask Payload Seed) :
    (state.send id task).reported gpus = state.reported gpus := by
  have moved := reported_setGpu state listed ((state.gpus id).enqueue task)
  have same : ((state.gpus id).enqueue task).outbox = (state.gpus id).outbox := rfl
  rw [same] at moved
  rw [State.send]
  omega

/-- A CPU worker takes its task. -/
theorem pending_eraseIdx {k : Nat} {task : HasherTask Payload Seed}
    (next : state.cpuTasks[k]? = some task) :
    ({ state with cpuTasks := state.cpuTasks.eraseIdx k } : State Payload Seed).pending gpus weight +
      weight task = state.pending gpus weight := by
  obtain ⟨inside, rfl⟩ := List.getElem?_eq_some_iff.mp next
  have taken := (List.getElem_cons_eraseIdx_perm inside).map weight
  have sum := taken.sum_eq
  rw [List.map_cons, List.sum_cons] at sum
  simp only [State.pending]
  omega

/-- Nobody has a task. -/
theorem pending_idle (cpuTasks : state.cpuTasks = [])
    (threads : ∀ id < gpus, (state.gpus id).inbox = [] ∧ (state.gpus id).firstRun = true) :
    state.pending gpus weight = 0 := by
  have idle : ∑ id ∈ Finset.range gpus, backlog weight (state.gpus id) = 0 := by
    apply Finset.sum_eq_zero
    intro id listed
    obtain ⟨inbox, firstRun⟩ := threads id (Finset.mem_range.mp listed)
    rw [backlog, inbox, firstRun]
    rfl
  rw [State.pending, cpuTasks, idle]
  rfl

/-- Nobody has anything to report. -/
theorem reported_idle (rx : (state.rx.map noncesOf).sum = 0)
    (outboxes : ∀ id < gpus, (state.gpus id).outbox = []) : state.reported gpus = 0 := by
  have sent : ∑ id ∈ Finset.range gpus, ((state.gpus id).outbox.map noncesOf).sum = 0 := by
    apply Finset.sum_eq_zero
    intro id listed
    rw [outboxes id (Finset.mem_range.mp listed)]
    rfl
  rw [State.reported, sent, rx]

variable (empty : ∀ task, task.localNonces = 0 → weight task = 0)
include empty

theorem pending_feedCpu (job : Job Payload Seed) :
    (state.feedCpu job).pending gpus weight =
      state.pending gpus weight +
        weight (job.task state.requested
          (min cpuTaskSize (job.noncesToHash - state.requested))) := by
  simp only [State.feedCpu, State.pending]
  split
  · rw [List.map_append, List.sum_append, List.map_singleton, List.sum_singleton]
    omega
  · rename_i nothing
    rw [empty (job.task _ _) (by simp only [Job.task]; omega), Nat.add_zero]

/-- A turn keeps its task or writes the one before it. -/
theorem backlog_turn {raw : Payload → Seed → Nat → Nat → Scoop} (kernel : NonceKernel raw)
    {id : Nat} {thread : GpuThread Payload Seed} {order : List Nat} {data : Bytes}
    {turn : Turn Payload Seed} (taken : thread.turn kernel id order data = some turn) :
    backlog weight turn.thread + turn.transferred.elim 0 weight = backlog weight thread := by
  obtain ⟨task, inbox, -, queued, cases⟩ := GpuThread.turn_cases kernel id taken
  have split : backlog weight thread =
      weight task + (inbox.map weight).sum + if thread.firstRun then 0 else weight thread.lastTask := by
    rw [backlog, queued, List.map_cons, List.sum_cons]
  rw [split]
  rcases cases with ⟨first, -, rfl⟩ | ⟨first, none, rfl⟩ | ⟨later, none, rfl⟩ | ⟨later, -, rfl⟩
  · simp only [backlog, GpuThread.firstTurn, first, Option.elim_none, Bool.false_eq_true, ↓reduceIte]
    omega
  · simp only [backlog, first, empty task none, Option.elim_none, ↓reduceIte]
    omega
  · simp only [backlog, GpuThread.lastTurn, later, empty task none, Option.elim_some,
      Bool.false_eq_true, ↓reduceIte]
    omega
  · simp only [backlog, GpuThread.normalTurn, later, Option.elim_some, Bool.false_eq_true,
      ↓reduceIte]
    omega

end pending

/-- A turn reports what it has transferred. -/
theorem outbox_turn {raw : Payload → Seed → Nat → Nat → Scoop} (kernel : NonceKernel raw)
    {id : Nat} {thread : GpuThread Payload Seed} {order : List Nat} {data : Bytes}
    {turn : Turn Payload Seed} (taken : thread.turn kernel id order data = some turn) :
    thread.outbox = [] ∧
      (turn.thread.outbox.map noncesOf).sum =
        turn.transferred.elim 0 fun task => task.localNonces := by
  obtain ⟨task, inbox, sent, -, cases⟩ := GpuThread.turn_cases kernel id taken
  refine ⟨sent, ?_⟩
  rcases cases with ⟨-, -, rfl⟩ | ⟨-, -, rfl⟩ | ⟨-, -, rfl⟩ | ⟨-, -, rfl⟩
  · rfl
  · simp only [sent]
    rfl
  · rfl
  · rfl

/-- Whether a task covers a column. -/
def covers (j : Nat) (task : HasherTask Payload Seed) : Nat :=
  if task.chunkOffset ≤ j ∧ j < task.chunkOffset + task.localNonces then 1 else 0

theorem covers_empty (j : Nat) (task : HasherTask Payload Seed) (empty : task.localNonces = 0) :
    covers j task = 0 := by
  rw [covers, empty]
  exact if_neg (by omega)

/-- Every column up to `requested` belongs to one task that is still to be written, or has been
written once; every nonce of it is in a task, in a message or counted. -/
structure Flow (job : Job Payload Seed) (state : State Payload Seed) : Prop where
  requested_le : state.requested ≤ job.noncesToHash
  covered : ∀ j, state.pending job.gpus (covers j) + state.written j =
    if j < state.requested then 1 else 0
  counted : state.pending job.gpus (fun task => task.localNonces) + state.reported job.gpus +
    state.processed = state.requested

section flow

variable {job : Job Payload Seed} {state after : State Payload Seed}

/-- The next task is handed out. -/
theorem Flow.hand (flow : Flow job state) {size : Nat}
    (room : state.requested + size ≤ job.noncesToHash)
    (requested : after.requested = state.requested + size)
    (pending : ∀ weight : HasherTask Payload Seed → Nat,
      (∀ task, task.localNonces = 0 → weight task = 0) →
      after.pending job.gpus weight =
        state.pending job.gpus weight + weight (job.task state.requested size))
    (reported : after.reported job.gpus = state.reported job.gpus)
    (processed : after.processed = state.processed) (written : after.written = state.written) :
    Flow job after := by
  constructor
  · omega
  · intro j
    have before := flow.covered j
    have new : covers j (job.task state.requested size) =
        if state.requested ≤ j ∧ j < state.requested + size then 1 else 0 := rfl
    rw [pending (covers j) (covers_empty j), written, requested, new]
    by_cases old : j < state.requested
    · rw [if_pos old] at before
      rw [if_neg (by omega), if_pos (by omega)]
      exact before
    · rw [if_neg old] at before
      by_cases here : j < state.requested + size
      · rw [if_pos (by omega), if_pos here]
        omega
      · rw [if_neg (by omega), if_neg here]
        exact before
  · have before := flow.counted
    rw [pending (fun task => task.localNonces) (fun _ empty => empty), reported, processed, requested]
    simp only [Job.task]
    omega

/-- A task is written and reported. -/
theorem Flow.put (flow : Flow job state) {task : HasherTask Payload Seed}
    (requested : after.requested = state.requested)
    (pending : ∀ weight : HasherTask Payload Seed → Nat,
      (∀ task, task.localNonces = 0 → weight task = 0) →
      after.pending job.gpus weight + weight task = state.pending job.gpus weight)
    (reported : after.reported job.gpus = state.reported job.gpus + task.localNonces)
    (processed : after.processed = state.processed)
    (written : ∀ j, after.written j = state.written j + covers j task) : Flow job after := by
  constructor
  · rw [requested]
    exact flow.requested_le
  · intro j
    have before := flow.covered j
    have moved := pending (covers j) (covers_empty j)
    rw [written, requested]
    omega
  · have before := flow.counted
    have moved := pending (fun task => task.localNonces) (fun _ empty => empty)
    rw [processed, requested, reported]
    omega

/-- Nothing changes but the stage of a task or of a message. -/
theorem Flow.keep (flow : Flow job state) (requested : after.requested = state.requested)
    (pending : ∀ weight : HasherTask Payload Seed → Nat,
      (∀ task, task.localNonces = 0 → weight task = 0) →
      after.pending job.gpus weight = state.pending job.gpus weight)
    (reported : after.reported job.gpus + after.processed =
      state.reported job.gpus + state.processed)
    (written : after.written = state.written) : Flow job after := by
  constructor
  · rw [requested]
    exact flow.requested_le
  · intro j
    rw [pending (covers j) (covers_empty j), written, requested]
    exact flow.covered j
  · have before := flow.counted
    rw [pending (fun task => task.localNonces) (fun _ empty => empty), requested]
    omega

end flow

end Pocx.HybridHashing
