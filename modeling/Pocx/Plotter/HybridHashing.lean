import Pocx.Plotter.GpuHasher
import Pocx.Plotter.XpuScheduler

set_option autoImplicit false

namespace Pocx.HybridHashing

open ByteStore
open PlotFile (numScoops nonceSize warpSize)
open Hashlib
open GpuHasher
open Transition (System)

variable {Payload Seed : Type}

/-- `CPU_TASK_SIZE` -/
def cpuTaskSize : Nat := 64

/-- What the control loop reads while it fills one buffer. -/
structure Job (Payload Seed : Type) where
  addressPayload : Payload
  seed : Seed
  noncesHashed : Nat
  noncesToHash : Nat
  cacheSize : Nat
  cpuThreads : Nat
  gpus : Nat
  noncesToHash_pos : 0 < noncesToHash
  fits : noncesToHash ≤ cacheSize
  worker : 0 < cpuThreads + gpus

/-- The task for the nonces from `requested` on. -/
def Job.task (job : Job Payload Seed) (requested taskSize : Nat) : HasherTask Payload Seed where
  cacheSize := job.cacheSize
  chunkOffset := requested
  addressPayload := job.addressPayload
  seed := job.seed
  localStartnonce := job.noncesHashed + requested
  localNonces := taskSize

/-- The locals of the control loop, the threads and what they share. `asking` counts the CPU
workers that have reported their nonces but not asked for work yet, `written` the writes to each
column of the buffer. -/
structure State (Payload Seed : Type) where
  requested : Nat
  processed : Nat
  rx : List HasherMessage
  cpuTasks : List (HasherTask Payload Seed)
  asking : Nat
  gpus : Nat → GpuThread Payload Seed
  data : Bytes
  written : Nat → Nat
  done : Bool

def State.setGpu (state : State Payload Seed) (id : Nat) (thread : GpuThread Payload Seed) :
    State Payload Seed :=
  { state with gpus := Function.update state.gpus id thread }

/-- Put a task into the channel of a GPU thread. -/
def State.send (state : State Payload Seed) (id : Nat) (task : HasherTask Payload Seed) :
    State Payload Seed :=
  state.setGpu id ((state.gpus id).enqueue task)

/-- The columns of a task hold what a worker has put there. -/
def State.write (state : State Payload Seed) (task : HasherTask Payload Seed) (data : Bytes) :
    State Payload Seed :=
  { state with
    data
    written := fun j =>
      state.written j +
        if task.chunkOffset ≤ j ∧ j < task.chunkOffset + task.localNonces then 1 else 0 }

section loop

variable (job : Job Payload Seed) (state : State Payload Seed)

/-- Schedule the next CPU task. -/
def State.feedCpu : State Payload Seed :=
  let taskSize := min cpuTaskSize (job.noncesToHash - state.requested)
  { state with
    cpuTasks :=
      if 0 < taskSize then state.cpuTasks ++ [job.task state.requested taskSize]
      else state.cpuTasks
    requested := state.requested + taskSize }

/-- Kick off a GPU. -/
def State.startGpu (id : Nat) : State Payload Seed :=
  let taskSize := min (state.gpus id).context.worksize (job.noncesToHash - state.requested)
  let state' := if 0 < taskSize then state.send id (job.task state.requested taskSize) else state
  { state' with requested := state.requested + taskSize }

/-- The size of the next GPU task, which leaves some work for the CPU in dual mode. -/
def gpuTaskSize (worksize : Nat) : Nat :=
  let taskSize := min worksize (job.noncesToHash - state.requested)
  if taskSize < worksize ∧ 0 < job.cpuThreads ∧ cpuTaskSize < taskSize then taskSize / 2
  else taskSize

/-- Schedule the next GPU task, an empty one where nothing is left. -/
def State.feedGpu (id : Nat) : State Payload Seed :=
  let taskSize := gpuTaskSize job state (state.gpus id).context.worksize
  { state.send id (job.task state.requested taskSize) with
    requested := state.requested + taskSize }

/-- Kick off the first GPU and CPU runs. -/
def kickoff : State Payload Seed :=
  (List.range job.cpuThreads).foldl (fun state _ => state.feedCpu job)
    ((List.range job.gpus).foldl (fun state id => state.startGpu job id) state)

/-- The body of the control loop, up to its test. -/
def State.handle : HasherMessage → State Payload Seed
  | .cpuRequestForWork => state.feedCpu job
  | .gpuRequestForWork id => state.feedGpu job id
  | .noncesHashed nonces => { state with processed := state.processed + nonces }

end loop

/-- The steps of the threads. A GPU thread names the order in which its transfer takes the
blocks. -/
inductive Label
  | hashCpu (k : Nat)
  | askCpu
  | runGpu (id : Nat) (order : List Nat)
  | sendGpu (id : Nat)
  | receive

/-- One step of one thread; `none` where it has nothing to do. -/
def step (generator : NonceGenerator Payload Seed) (kernel : NonceKernel generator.raw)
    (job : Job Payload Seed) (state : State Payload Seed) : Label → Option (State Payload Seed)
  | .hashCpu k =>
    -- `hash_cpu` up to its first message
    match state.cpuTasks[k]? with
    | none => none
    | some task =>
      let taken := { state with cpuTasks := state.cpuTasks.eraseIdx k }
      match generator.generateNonces state.data task.chunkOffset task.addressPayload task.seed
          task.localStartnonce task.localNonces with
      | .error _ => some taken
      | .ok data =>
        some
          { taken.write task data with
            rx := state.rx ++ [.noncesHashed task.localNonces]
            asking := state.asking + 1 }
  | .askCpu =>
    if 0 < state.asking then
      some
        { state with
          rx := state.rx ++ [.cpuRequestForWork]
          asking := state.asking - 1 }
    else none
  | .runGpu id order =>
    if id < job.gpus then
      match (state.gpus id).turn kernel id order state.data with
      | none => none
      | some turn =>
        match turn.transferred with
        | none => some (state.setGpu id turn.thread)
        | some task => some ((state.setGpu id turn.thread).write task turn.data)
    else none
  | .sendGpu id =>
    if id < job.gpus then
      match (state.gpus id).outbox with
      | [] => none
      | message :: outbox =>
        some
          { state.setGpu id ((state.gpus id).sending outbox) with
            rx := state.rx ++ [message] }
    else none
  | .receive =>
    if state.done then none
    else
      match state.rx with
      | [] => none
      | message :: rx =>
        let state' := { state with rx }.handle job message
        some { state' with done := decide (state'.processed = job.noncesToHash) }

/-- A GPU thread between two buffers. -/
structure Idle (thread : GpuThread Payload Seed) : Prop where
  firstRun : thread.firstRun = true
  bufferId : thread.bufferId = 0
  inbox : thread.inbox = []
  outbox : thread.outbox = []

/-- The state in which a buffer is begun. Requests for work may be left over. -/
structure Entering (job : Job Payload Seed) (state : State Payload Seed) : Prop where
  requested : state.requested = 0
  processed : state.processed = 0
  rx : ∀ message ∈ state.rx, message = .cpuRequestForWork
  cpuTasks : state.cpuTasks = []
  gpus : ∀ id < job.gpus, Idle (state.gpus id)
  data : state.data.len = job.cacheSize * nonceSize
  written : state.written = fun _ => 0
  done : state.done = false

def system (generator : NonceGenerator Payload Seed) (kernel : NonceKernel generator.raw)
    (job : Job Payload Seed) : System (State Payload Seed) Label where
  initial state := ∃ entering, Entering job entering ∧ state = kickoff job entering
  step := step generator kernel job

/-- The thread pool takes each block of a transfer once. -/
def Spawned (state : State Payload Seed) : Label → Prop
  | .runGpu id order => order.Perm (List.range (blocksOf (state.gpus id).lastTask))
  | _ => True

/-- The job of one turn of the scheduler's loop over the empty buffers. -/
def jobOf (task : XpuScheduler.PlotterTask Payload Seed) (state : XpuScheduler.State Seed)
    (buffer : Bytes) (gpus : Nat) (nonces : 0 < XpuScheduler.noncesToHash task buffer.len state)
    (worker : 0 < task.cpuThreads + gpus) : Job Payload Seed where
  addressPayload := task.addressPayload
  seed := state.seeds state.pointer
  noncesHashed := XpuScheduler.noncesHashed task state
  noncesToHash := XpuScheduler.noncesToHash task buffer.len state
  cacheSize := buffer.len / nonceSize
  cpuThreads := task.cpuThreads
  gpus := gpus
  noncesToHash_pos := nonces
  fits := by
    have room : XpuScheduler.warpsToHash task buffer.len state ≤
        buffer.len / warpSize / 2 ^ task.compress := Nat.min_le_left _ _
    have whole : XpuScheduler.warpsToHash task buffer.len state * 2 ^ task.compress ≤
        buffer.len / warpSize :=
      (Nat.le_div_iff_mul_le (Nat.two_pow_pos task.compress)).mp room
    have bytes : XpuScheduler.warpsToHash task buffer.len state * 2 ^ task.compress * warpSize ≤
        buffer.len := (Nat.le_div_iff_mul_le (by decide)).mp whole
    have size : warpSize = numScoops * nonceSize := by decide
    rw [size, ← Nat.mul_assoc] at bytes
    rw [XpuScheduler.noncesToHash, Nat.mul_comm (2 ^ task.compress)]
    exact (Nat.le_div_iff_mul_le (by decide)).mpr bytes
  worker := worker

end Pocx.HybridHashing
