import Pocx.Hashlib.NoncegenPaths
import Pocx.Plotter.HybridEnd

set_option autoImplicit false

namespace Pocx.HybridHashing

open ByteStore
open PlotFile (numScoops nonceSize)
open Hashlib
open GpuHasher
open Transition

variable {Payload Seed : Type}

/-- The steps that a message can still cause. -/
def messageWeight : HasherMessage → Nat
  | .cpuRequestForWork => 1
  | .gpuRequestForWork _ => 4
  | .noncesHashed _ => 1

def taskWeight (task : HasherTask Payload Seed) : Nat :=
  if task.localNonces = 0 then 3 else 8

def threadWeight (thread : GpuThread Payload Seed) : Nat :=
  (thread.inbox.map taskWeight).sum + (thread.outbox.map fun message => 1 + messageWeight message).sum

/-- The steps that the workers of a buffer can still take. -/
def State.measure (job : Job Payload Seed) (state : State Payload Seed) : Nat :=
  8 * (job.noncesToHash - state.requested) + 4 * state.cpuTasks.length + 2 * state.asking +
    (state.rx.map messageWeight).sum +
    ∑ id ∈ Finset.range job.gpus, threadWeight (state.gpus id)

section steps

variable {job : Job Payload Seed} {state after : State Payload Seed}

theorem measure_setGpu {id : Nat} (idLt : id < job.gpus) (thread : GpuThread Payload Seed) :
    (state.setGpu id thread).measure job + threadWeight (state.gpus id) =
      state.measure job + threadWeight thread := by
  have sum := RangeSum.sum_range_update threadWeight state.gpus idLt thread
  simp only [State.measure, State.setGpu]
  omega

/-- A message for a GPU that there is not would be lost. -/
theorem measure_send (id : Nat) (task : HasherTask Payload Seed) :
    (state.send id task).measure job ≤ state.measure job + taskWeight task := by
  by_cases idLt : id < job.gpus
  · have moved := @measure_setGpu _ _ job state id idLt ((state.gpus id).enqueue task)
    have grown : threadWeight ((state.gpus id).enqueue task) =
        threadWeight (state.gpus id) + taskWeight task := by
      simp only [threadWeight, GpuThread.enqueue, List.map_append, List.sum_append,
        List.map_singleton, List.sum_singleton]
      exact Nat.add_right_comm _ _ _
    rw [State.send]
    omega
  · have same : (state.send id task).measure job = state.measure job := by
      simp only [State.measure, State.send, State.setGpu]
      congr 1
      apply Finset.sum_congr rfl
      intro other listed
      have otherLt := Finset.mem_range.mp listed
      rw [Function.update_of_ne (by omega)]
    rw [same]
    exact Nat.le_add_right _ _

theorem measure_feedCpu : (state.feedCpu job).measure job ≤ state.measure job := by
  simp only [State.measure, State.feedCpu]
  split
  · rw [List.length_append, List.length_singleton]
    omega
  · omega

theorem measure_feedGpu (id : Nat) : (state.feedGpu job id).measure job ≤ state.measure job + 3 := by
  have size : gpuTaskSize job state (state.gpus id).context.worksize ≤
      job.noncesToHash - state.requested := by
    rw [gpuTaskSize]
    split
    · omega
    · exact Nat.min_le_right _ _
  simp only [State.feedGpu]
  generalize gpuTaskSize job state (state.gpus id).context.worksize = taskSize at size
  have sent := @measure_send _ _ job state id (job.task state.requested taskSize)
  have weight : taskWeight (job.task state.requested taskSize) = if taskSize = 0 then 3 else 8 := rfl
  have same : (state.send id (job.task state.requested taskSize)).requested = state.requested := rfl
  simp only [State.measure] at sent ⊢
  rw [same] at sent
  rw [weight] at sent
  split at sent
  · omega
  · omega

/-- A message costs more than what it causes. -/
theorem measure_handle {message : HasherMessage} {rx : List HasherMessage}
    (received : state.rx = message :: rx) :
    (State.handle job { state with rx } message).measure job < state.measure job := by
  have popped : State.measure job { state with rx } + messageWeight message = state.measure job := by
    simp only [State.measure, received, List.map_cons, List.sum_cons]
    omega
  cases message with
  | cpuRequestForWork =>
    have fed := @measure_feedCpu _ _ job { state with rx }
    simp only [messageWeight] at popped
    simp only [State.handle]
    omega
  | gpuRequestForWork id =>
    have fed := @measure_feedGpu _ _ job { state with rx } id
    simp only [messageWeight] at popped
    simp only [State.handle]
    omega
  | noncesHashed nonces =>
    have counted : (State.handle job { state with rx } (.noncesHashed nonces)).measure job =
        State.measure job { state with rx } := rfl
    simp only [messageWeight] at popped
    omega

/-- A turn of a GPU thread costs its task. -/
theorem threadWeight_turn {raw : Payload → Seed → Nat → Nat → Scoop} (kernel : NonceKernel raw)
    {id : Nat} {thread : GpuThread Payload Seed} {order : List Nat} {data : Bytes}
    {turn : Turn Payload Seed} (taken : thread.turn kernel id order data = some turn) :
    threadWeight turn.thread < threadWeight thread := by
  obtain ⟨task, inbox, sent, queued, cases⟩ := GpuThread.turn_cases kernel id taken
  have split : threadWeight thread = taskWeight task + (inbox.map taskWeight).sum := by
    rw [threadWeight, sent, queued]
    rfl
  rw [split]
  rcases cases with ⟨-, nonempty, rfl⟩ | ⟨-, none, rfl⟩ | ⟨-, none, rfl⟩ | ⟨-, nonempty, rfl⟩
  · rw [taskWeight, if_neg nonempty]
    simp only [threadWeight, GpuThread.firstTurn, List.map_singleton, List.sum_singleton,
      messageWeight]
    omega
  · rw [taskWeight, if_pos none]
    simp only [threadWeight, sent, List.map_nil, List.sum_nil]
    omega
  · rw [taskWeight, if_pos none]
    simp only [threadWeight, GpuThread.lastTurn, List.map_singleton, List.sum_singleton,
      messageWeight]
    omega
  · rw [taskWeight, if_neg nonempty]
    simp only [threadWeight, GpuThread.normalTurn, List.map_cons, List.sum_cons, List.map_nil,
      List.sum_nil, messageWeight]
    omega

variable {generator : NonceGenerator Payload Seed} {kernel : NonceKernel generator.raw}

theorem step_decreases {label : Label}
    (taken : step generator kernel job state label = some after) :
    after.measure job < state.measure job := by
  cases label with
  | hashCpu k =>
    simp only [step] at taken
    split at taken
    · cases taken
    · rename_i task next
      obtain ⟨inside, -⟩ := List.getElem?_eq_some_iff.mp next
      have shorter := List.length_eraseIdx_of_lt inside
      split at taken
      · obtain rfl := Option.some.inj taken
        simp only [State.measure, shorter]
        omega
      · obtain rfl := Option.some.inj taken
        simp only [State.measure, State.write, shorter, List.map_append, List.sum_append,
          List.map_singleton, List.sum_singleton, messageWeight]
        omega
  | askCpu =>
    simp only [step] at taken
    split at taken
    · obtain rfl := Option.some.inj taken
      simp only [State.measure, List.map_append, List.sum_append, List.map_singleton,
        List.sum_singleton, messageWeight]
      omega
    · cases taken
  | runGpu id order =>
    simp only [step] at taken
    split at taken
    · rename_i idLt
      split at taken
      · cases taken
      · rename_i turn turned
        have smaller := threadWeight_turn kernel turned
        have moved := @measure_setGpu _ _ job state id idLt turn.thread
        split at taken
        · obtain rfl := Option.some.inj taken
          omega
        · rename_i task transferred
          obtain rfl := Option.some.inj taken
          have written : ((state.setGpu id turn.thread).write task turn.data).measure job =
              (state.setGpu id turn.thread).measure job := rfl
          omega
    · cases taken
  | sendGpu id =>
    simp only [step] at taken
    split at taken
    · rename_i idLt
      split at taken
      · cases taken
      · rename_i message outbox next
        obtain rfl := Option.some.inj taken
        have moved := @measure_setGpu _ _ job state id idLt ((state.gpus id).sending outbox)
        have lighter : threadWeight (state.gpus id) =
            threadWeight ((state.gpus id).sending outbox) + (1 + messageWeight message) := by
          simp only [threadWeight, GpuThread.sending, next, List.map_cons, List.sum_cons]
          omega
        simp only [State.measure, State.setGpu, List.map_append, List.sum_append,
          List.map_singleton, List.sum_singleton] at moved ⊢
        omega
    · cases taken
  | receive =>
    simp only [step] at taken
    split at taken
    · cases taken
    · split at taken
      · cases taken
      · rename_i message rx received
        obtain rfl := Option.some.inj taken
        exact measure_handle received

end steps

/-- The state that the threads leave to the next buffer. -/
def State.nextBuffer (state : State Payload Seed) (data : Bytes) : State Payload Seed :=
  { state with
    requested := 0
    processed := 0
    data
    written := fun _ => 0
    done := false }

theorem Settled.entering {job next : Job Payload Seed} {state : State Payload Seed}
    (settled : Settled job state) (same : next.gpus = job.gpus) {data : Bytes}
    (sized : data.len = next.cacheSize * nonceSize) : Entering next (state.nextBuffer data) := by
  constructor
  · rfl
  · rfl
  · exact settled.rx
  · exact settled.cpuTasks
  · rw [same]
    exact settled.gpus
  · exact sized
  · rfl
  · rfl

section buffer

variable (generator : NonceGenerator Payload Seed) (kernel : NonceKernel generator.raw)
  (job : Job Payload Seed)

/-- The control loop hashes its buffer, once and for all, and cannot hang. -/
theorem buffer_filled_once (state : State Payload Seed)
    (reached : Reachable (system generator kernel job) Spawned state) :
    (state.done = true ↔ state.processed = job.noncesToHash) ∧
      (state.processed = job.noncesToHash →
        Hashed generator.raw job state ∧ Settled job state ∧
          ∀ next : Job Payload Seed, next.gpus = job.gpus → ∀ data : Bytes,
            data.len = next.cacheSize * nonceSize → Entering next (state.nextBuffer data)) ∧
      (state.processed < job.noncesToHash →
        ∃ label after, Spawned state label ∧ step generator kernel job state label = some after) ∧
      state.processed ≤ job.noncesToHash ∧
      ∀ labels final, run (system generator kernel job) state labels = some final →
        labels.length ≤ state.measure job := by
  have filling := filling_reachable reached
  refine ⟨?_, ?_, ?_, ?_, ?_⟩
  · rw [filling.ended]
    exact decide_eq_true_iff
  · intro processed
    have settled := filling.inv.settled processed
    refine ⟨filling.inv.hashed processed, settled, ?_⟩
    intro next same data sized
    exact settled.entering same sized
  · intro left
    exact filling.progress left
  · have le := filling.inv.flow.requested_le
    have counted := filling.inv.flow.counted
    omega
  · intro labels final complete
    apply run_bounded (fun _ => True) (State.measure job) _ _ labels trivial complete
    · intro before label after _ taken
      trivial
    · intro before label after _ taken
      exact step_decreases taken

/-- What the scheduler queues for its compressor. -/
theorem queued_buffer_hashed {task : XpuScheduler.PlotterTask Payload Seed}
    {scheduler : XpuScheduler.State Seed} {buffer : Bytes} {gpus : Nat}
    (nonces : 0 < XpuScheduler.noncesToHash task buffer.len scheduler)
    (worker : 0 < task.cpuThreads + gpus) {state : State Payload Seed}
    (reached : Reachable
      (system generator kernel (jobOf task scheduler buffer gpus nonces worker)) Spawned state)
    (processed : state.processed = XpuScheduler.noncesToHash task buffer.len scheduler) :
    ∀ j < XpuScheduler.noncesToHash task buffer.len scheduler, ∀ scoop < numScoops,
      scoopAt state.data (scoopAddress (buffer.len / nonceSize) scoop j) =
        generator.raw task.addressPayload (scheduler.seeds scheduler.pointer)
          (XpuScheduler.noncesHashed task scheduler + j) scoop := by
  have filling := filling_reachable reached
  have hashed := filling.inv.hashed processed
  exact hashed.nonces

end buffer

/-- A buffer for one card with sixteen work-items and one CPU thread. -/
def cardJob : Job (U8s 20) (U8s 32) where
  addressPayload := fun _ => 3
  seed := fun _ => 5
  noncesHashed := 4096
  noncesToHash := 16
  cacheSize := 16
  cpuThreads := 1
  gpus := 1
  noncesToHash_pos := by decide
  fits := by decide
  worker := by decide

/-- The card has kept another seed, and the CPU thread has asked for work already. -/
def cardState : State (U8s 20) (U8s 32) where
  requested := 0
  processed := 0
  rx := [.cpuRequestForWork]
  cpuTasks := []
  asking := 0
  gpus := fun _ =>
    { context :=
        { worksize := 16
          base58 := fun _ => 3
          seed := fun _ => 4
          bufferA := ⟨16 * nonceSize, fun _ => 7⟩
          bufferB := ⟨16 * nonceSize, fun _ => 7⟩
          worksize_pos := by decide
          worksize_blocks := by decide
          bufferA_len := rfl
          bufferB_len := rfl }
      inbox := []
      firstRun := true
      bufferId := 0
      lastTask := cardJob.task 0 0
      outbox := [] }
  data := ⟨16 * nonceSize, fun _ => 9⟩
  written := fun _ => 0
  done := false

instance (state : State (U8s 20) (U8s 32)) (label : Label) : Decidable (Spawned state label) :=
  match label with
  | .hashCpu _ => isTrue trivial
  | .askCpu => isTrue trivial
  | .runGpu _ _ => inferInstanceAs (Decidable (List.Perm _ _))
  | .sendGpu _ => isTrue trivial
  | .receive => isTrue trivial

/-- The card hashes, is asked to flush, and reports. -/
theorem card_flushed :
    let generator := vectorGenerator (.x86 false true true true) nofun
    ∃ final, final.processed = 16 ∧ Hashed generator.raw cardJob final ∧
      Settled cardJob final := by
  intro generator
  let kernel := NonceKernel.ofRaw generator.raw
  have runs : ((runAllowed (system generator kernel cardJob)
      (fun state label => decide (Spawned state label)) (kickoff cardJob cardState)
      [.runGpu 0 [], .sendGpu 0, .receive, .receive, .runGpu 0 [0], .sendGpu 0, .receive]).map
        State.processed) = some 16 := by
    decide +kernel
  obtain ⟨final, complete, processed⟩ := Option.map_eq_some_iff.mp runs
  have entering : Entering cardJob cardState := by
    constructor
    · rfl
    · rfl
    · intro message listed
      exact List.mem_singleton.mp listed
    · rfl
    · intro id idLt
      exact ⟨rfl, rfl, rfl, rfl⟩
    · rfl
    · rfl
    · rfl
  have reached : Reachable (system generator kernel cardJob) Spawned final :=
    Reachable.mono (fun _ _ allowed => of_decide_eq_true allowed)
      (Reachable.runAllowed _ (.start ⟨cardState, entering, rfl⟩) complete)
  obtain ⟨-, filled, -⟩ := buffer_filled_once generator kernel cardJob final reached
  obtain ⟨hashed, settled, -⟩ := filled processed
  exact ⟨final, processed, hashed, settled⟩

end Pocx.HybridHashing
