import Pocx.Plotter.HybridHashingRuns

set_option autoImplicit false

namespace Pocx.HybridHashing

open ByteStore
open PlotFile (numScoops nonceSize)
open Hashlib
open GpuHasher
open Transition

variable {Payload Seed : Type}

/-- What holds in the control loop of a buffer. -/
structure Filling (raw : Payload → Seed → Nat → Nat → Scoop) (job : Job Payload Seed)
    (state : State Payload Seed) : Prop where
  inv : Invariant raw job job.gpus job.cpuThreads state
  ended : state.done = decide (state.processed = job.noncesToHash)

section kickoff

variable {raw : Payload → Seed → Nat → Nat → Scoop} {job : Job Payload Seed}
  {state : State Payload Seed}

theorem startGpu_counters (job : Job Payload Seed) (state : State Payload Seed) (id : Nat) :
    (state.startGpu job id).processed = state.processed ∧
      (state.startGpu job id).done = state.done := by
  simp only [State.startGpu]
  split
  · exact ⟨rfl, rfl⟩
  · exact ⟨rfl, rfl⟩

/-- The first runs of the GPUs. -/
theorem kickoff_gpus (entering : Entering job state) (count : Nat) (listed : count ≤ job.gpus) :
    let after := (List.range count).foldl (fun state id => state.startGpu job id) state
    Invariant raw job count 0 after ∧ after.processed = 0 ∧ after.done = false := by
  induction count with
  | zero => exact ⟨.start entering, entering.processed, entering.done⟩
  | succ count ih =>
    obtain ⟨inv, processed, done⟩ := ih (by omega)
    rw [List.range_succ, List.foldl_append]
    obtain ⟨sameProcessed, sameDone⟩ := startGpu_counters job
      ((List.range count).foldl (fun state id => state.startGpu job id) state) count
    exact ⟨inv.startGpu listed, sameProcessed.trans processed, sameDone.trans done⟩

/-- The first runs of the CPU. -/
theorem kickoff_cpus {started : Nat} (inv : Invariant raw job started 0 state) (count : Nat) :
    let after := (List.range count).foldl (fun state _ => state.feedCpu job) state
    Invariant raw job started count after ∧ after.processed = state.processed ∧
      after.done = state.done := by
  induction count with
  | zero => exact ⟨inv, rfl, rfl⟩
  | succ count ih =>
    obtain ⟨inv, processed, done⟩ := ih
    rw [List.range_succ, List.foldl_append]
    refine ⟨?_, processed, done⟩
    exact inv.feedCpu _ (fun _ listed => listed) rfl (fun _ => rfl) (count + 1)

theorem Filling.kickoff (entering : Entering job state) : Filling raw job (kickoff job state) := by
  obtain ⟨gpus, processed, done⟩ := @kickoff_gpus _ _ raw job state entering job.gpus (Nat.le_refl _)
  obtain ⟨inv, sameProcessed, sameDone⟩ := kickoff_cpus gpus job.cpuThreads
  refine ⟨inv, ?_⟩
  have some := job.noncesToHash_pos
  have uncounted : (HybridHashing.kickoff job state).processed = 0 :=
    sameProcessed.trans processed
  have running : (HybridHashing.kickoff job state).done = false := sameDone.trans done
  rw [uncounted, running]
  exact (decide_eq_false (by omega)).symm

end kickoff

section step

variable {generator : NonceGenerator Payload Seed} {kernel : NonceKernel generator.raw}
  {job : Job Payload Seed} {state after : State Payload Seed}

/-- The test of the loop does not touch what the invariant is about. -/
theorem Invariant.tested {raw : Payload → Seed → Nat → Nat → Scoop} {started cpus : Nat}
    (inv : Invariant raw job started cpus state) (done : Bool) :
    Invariant raw job started cpus { state with done } :=
  { inv with flow := ⟨inv.flow.requested_le, inv.flow.covered, inv.flow.counted⟩ }

/-- A CPU task is within the buffer. -/
theorem Invariant.generated {started cpus : Nat}
    (inv : Invariant generator.raw job started cpus state) {task : HasherTask Payload Seed}
    (sound : Sound job task) :
    ∃ data, generator.generateNonces state.data task.chunkOffset task.addressPayload task.seed
        task.localStartnonce task.localNonces = .ok data ∧
      Puts generator.raw job task state.data data := by
  have columns : state.data.len / nonceSize = job.cacheSize := by
    rw [inv.sized]
    exact Nat.mul_div_cancel _ (by decide)
  obtain ⟨data, done, placed⟩ := generator.places state.data task.chunkOffset task.addressPayload
    task.seed task.localStartnonce task.localNonces
    (by rw [columns]; exact Nat.le_trans sound.fits job.fits)
  refine ⟨data, done, sound, fun _ => ?_⟩
  rw [sound.addressPayload, sound.seed, sound.localStartnonce] at placed
  exact placed

/-- A message is handled. -/
theorem Invariant.handle {raw : Payload → Seed → Nat → Nat → Scoop} {cpus : Nat}
    (inv : Invariant raw job job.gpus cpus state) {message : HasherMessage}
    {rx : List HasherMessage} (received : state.rx = message :: rx) :
    Invariant raw job job.gpus cpus (State.handle job { state with rx } message) := by
  cases message with
  | cpuRequestForWork =>
    apply inv.feedCpu rx
    · intro message listed
      rw [received]
      exact List.mem_cons_of_mem _ listed
    · rw [received, List.map_cons, List.sum_cons]
      exact (Nat.zero_add _).symm
    · intro id
      rw [received, List.count_cons_of_ne (by simp)]
  | gpuRequestForWork id => exact inv.feedGpu received
  | noncesHashed nonces => exact inv.count received

theorem Filling.step (filling : Filling generator.raw job state) {label : Label}
    (spawned : Spawned state label)
    (taken : HybridHashing.step generator kernel job state label = some after) :
    Filling generator.raw job after := by
  obtain ⟨inv, ended⟩ := filling
  cases label with
  | hashCpu k =>
    simp only [HybridHashing.step] at taken
    split at taken
    · cases taken
    · rename_i task next
      obtain ⟨sound, -⟩ := inv.cpuTasks task (List.mem_of_getElem? next)
      obtain ⟨data, done, puts⟩ := inv.generated sound
      rw [done] at taken
      obtain rfl := Option.some.inj taken
      exact ⟨inv.hashCpu next puts, ended⟩
  | askCpu =>
    simp only [HybridHashing.step] at taken
    split at taken
    · obtain rfl := Option.some.inj taken
      exact ⟨inv.askCpu, ended⟩
    · cases taken
  | runGpu id order =>
    simp only [HybridHashing.step] at taken
    split at taken
    · rename_i idLt
      split at taken
      · cases taken
      · rename_i turn turned
        have moved := inv.runGpu idLt spawned turned
        split at taken
        · rename_i kept
          obtain rfl := Option.some.inj taken
          rw [kept] at moved
          exact ⟨moved, ended⟩
        · rename_i task transferred
          obtain rfl := Option.some.inj taken
          rw [transferred] at moved
          exact ⟨moved, ended⟩
    · cases taken
  | sendGpu id =>
    simp only [HybridHashing.step] at taken
    split at taken
    · rename_i idLt
      split at taken
      · cases taken
      · rename_i message outbox next
        obtain rfl := Option.some.inj taken
        exact ⟨inv.sendGpu idLt next, ended⟩
    · cases taken
  | receive =>
    simp only [HybridHashing.step] at taken
    split at taken
    · cases taken
    · split at taken
      · cases taken
      · rename_i message rx received
        obtain rfl := Option.some.inj taken
        exact ⟨(inv.handle received).tested _, rfl⟩

theorem filling_reachable (reached : Reachable (system generator kernel job) Spawned state) :
    Filling generator.raw job state := by
  refine reached.invariant (Filling generator.raw job) ?_ ?_
  · rintro state ⟨entering, entered, rfl⟩
    exact .kickoff entered
  · intro before label after filling spawned taken
    exact filling.step spawned taken

end step

section settled

variable {gpus : Nat} {state : State Payload Seed}

theorem pending_none {weight : HasherTask Payload Seed → Nat}
    (none : state.pending gpus weight = 0) :
    (∀ task ∈ state.cpuTasks, weight task = 0) ∧
      ∀ id < gpus, backlog weight (state.gpus id) = 0 := by
  obtain ⟨cpu, gpu⟩ := Nat.add_eq_zero_iff.mp none
  constructor
  · intro task listed
    exact List.sum_eq_zero_iff_forall_eq_nat.mp cpu _ (List.mem_map_of_mem listed)
  · intro id idLt
    exact Finset.sum_eq_zero_iff.mp gpu id (Finset.mem_range.mpr idLt)

theorem reported_none (none : state.reported gpus = 0) :
    (∀ message ∈ state.rx, noncesOf message = 0) ∧
      ∀ id < gpus, ∀ message ∈ (state.gpus id).outbox, noncesOf message = 0 := by
  obtain ⟨received, sent⟩ := Nat.add_eq_zero_iff.mp none
  constructor
  · intro message listed
    exact List.sum_eq_zero_iff_forall_eq_nat.mp received _ (List.mem_map_of_mem listed)
  · intro id idLt message listed
    have outbox := Finset.sum_eq_zero_iff.mp sent id (Finset.mem_range.mpr idLt)
    exact List.sum_eq_zero_iff_forall_eq_nat.mp outbox _ (List.mem_map_of_mem listed)

/-- A GPU thread without nonces of its own is ready for the next buffer. -/
theorem ThreadOk.idle {raw : Payload → Seed → Nat → Nat → Scoop} {job : Job Payload Seed}
    {id asks : Nat} {thread : GpuThread Payload Seed} (ok : ThreadOk raw job id asks thread)
    (listed : thread.outbox.count (.gpuRequestForWork id) ≤ asks)
    (backlog : backlog (fun task => task.localNonces) thread = 0)
    (outbox : ∀ message ∈ thread.outbox, noncesOf message = 0) : asks = 0 ∧ Idle thread := by
  obtain ⟨inbox, last⟩ := Nat.add_eq_zero_iff.mp backlog
  rcases ok.stage with resting | holding
  · refine ⟨resting.silent, resting.firstRun, resting.bufferId, ?_, ?_⟩
    · apply List.eq_nil_iff_forall_not_mem.mpr
      intro task queued
      have empty := List.sum_eq_zero_iff_forall_eq_nat.mp inbox _ (List.mem_map_of_mem queued)
      have full := resting.full task queued
      omega
    · apply List.eq_nil_iff_forall_not_mem.mpr
      intro message sent
      rcases ok.messages message sent with rfl | ⟨nonces, positive, rfl⟩
      · have asked := List.count_pos_iff.mpr sent
        have silent := resting.silent
        omega
      · have none := outbox _ sent
        simp only [noncesOf] at none
        omega
  · have full := holding.full
    rw [holding.firstRun] at last
    simp only [Bool.false_eq_true, ↓reduceIte] at last
    omega

end settled

/-- The buffer is hashed: every column has been written once and holds its nonce. -/
structure Hashed (raw : Payload → Seed → Nat → Nat → Scoop) (job : Job Payload Seed)
    (state : State Payload Seed) : Prop where
  once : ∀ j < job.noncesToHash, state.written j = 1
  untouched : ∀ j, job.noncesToHash ≤ j → state.written j = 0
  nonces : ∀ j < job.noncesToHash, ∀ scoop < numScoops,
    scoopAt state.data (scoopAddress job.cacheSize scoop j) =
      raw job.addressPayload job.seed (job.noncesHashed + j) scoop

/-- Nothing of the buffer is left behind but requests of CPU workers. -/
structure Settled (job : Job Payload Seed) (state : State Payload Seed) : Prop where
  rx : ∀ message ∈ state.rx, message = .cpuRequestForWork
  cpuTasks : state.cpuTasks = []
  gpus : ∀ id < job.gpus, Idle (state.gpus id)

section end_of_buffer

variable {raw : Payload → Seed → Nat → Nat → Scoop} {job : Job Payload Seed} {cpus : Nat}
  {state : State Payload Seed} (inv : Invariant raw job job.gpus cpus state)
include inv

/-- All nonces are counted, so none of them is anywhere else. -/
theorem Invariant.exhausted (processed : state.processed = job.noncesToHash) :
    state.requested = job.noncesToHash ∧
      state.pending job.gpus (fun task => task.localNonces) = 0 ∧
      state.reported job.gpus = 0 := by
  have le := inv.flow.requested_le
  have counted := inv.flow.counted
  omega

theorem Invariant.settled (processed : state.processed = job.noncesToHash) : Settled job state := by
  obtain ⟨-, pending, reported⟩ := inv.exhausted processed
  obtain ⟨cpuTasks, backlogs⟩ := pending_none pending
  obtain ⟨received, sent⟩ := reported_none reported
  have threads (id : Nat) (idLt : id < job.gpus) : state.asks id = 0 ∧ Idle (state.gpus id) :=
    (inv.threads id idLt).idle (Nat.le_add_left _ _) (backlogs id idLt) (sent id idLt)
  constructor
  · intro message listed
    cases message with
    | cpuRequestForWork => rfl
    | gpuRequestForWork id =>
      have asked := List.count_pos_iff.mpr listed
      have silent := (threads id (inv.ids id listed)).1
      rw [State.asks] at silent
      omega
    | noncesHashed nonces =>
      have positive := inv.reports nonces listed
      have none := received _ listed
      simp only [noncesOf] at none
      omega
  · apply List.eq_nil_iff_forall_not_mem.mpr
    intro task listed
    have full := (inv.cpuTasks task listed).2
    have empty := cpuTasks task listed
    omega
  · intro id idLt
    exact (threads id idLt).2

theorem Invariant.hashed (processed : state.processed = job.noncesToHash) :
    Hashed raw job state := by
  obtain ⟨requested, -, -⟩ := inv.exhausted processed
  obtain ⟨-, cpuTasks, gpus⟩ := inv.settled processed
  have written (j : Nat) : state.written j = if j < job.noncesToHash then 1 else 0 := by
    have covered := inv.flow.covered j
    have idle : state.pending job.gpus (covers j) = 0 := by
      apply pending_idle (covers j) state cpuTasks
      intro id idLt
      exact ⟨(gpus id idLt).inbox, (gpus id idLt).firstRun⟩
    rw [idle, requested, Nat.zero_add] at covered
    exact covered
  constructor
  · intro j inside
    rw [written, if_pos inside]
  · intro j beyond
    rw [written, if_neg (by omega)]
  · intro j inside
    apply inv.values
    rw [written, if_pos inside]
    exact Nat.one_ne_zero

end end_of_buffer

/-- No worker runs, and no message is on its way. -/
structure Quiet (job : Job Payload Seed) (state : State Payload Seed) : Prop where
  rx : state.rx = []
  cpuTasks : state.cpuTasks = []
  asking : state.asking = 0
  inboxes : ∀ id < job.gpus, (state.gpus id).inbox = []
  outboxes : ∀ id < job.gpus, (state.gpus id).outbox = []

section progress

variable {generator : NonceGenerator Payload Seed} {kernel : NonceKernel generator.raw}
  {job : Job Payload Seed} {state : State Payload Seed}

/-- Every worker and every message can move the loop on. -/
theorem quiet_of_stuck (running : state.done = false)
    (stuck : ∀ label after, Spawned state label → step generator kernel job state label ≠ some after) :
    Quiet job state := by
  have outboxes (id : Nat) (idLt : id < job.gpus) : (state.gpus id).outbox = [] := by
    by_contra waiting
    obtain ⟨message, outbox, next⟩ := List.exists_cons_of_ne_nil waiting
    apply stuck (.sendGpu id) _ trivial
    simp only [step, idLt, next, ↓reduceIte]
    rfl
  constructor
  · by_contra waiting
    obtain ⟨message, rx, received⟩ := List.exists_cons_of_ne_nil waiting
    apply stuck .receive _ trivial
    simp only [step, running, received, Bool.false_eq_true, ↓reduceIte]
    rfl
  · by_contra waiting
    obtain ⟨task, cpuTasks, next⟩ := List.exists_cons_of_ne_nil waiting
    have head : state.cpuTasks[0]? = some task := by
      rw [next]
      rfl
    cases generated : generator.generateNonces state.data task.chunkOffset task.addressPayload
        task.seed task.localStartnonce task.localNonces with
    | error _ =>
      apply stuck (.hashCpu 0) _ trivial
      simp only [step, head, generated]
      rfl
    | ok data =>
      apply stuck (.hashCpu 0) _ trivial
      simp only [step, head, generated]
      rfl
  · by_contra waiting
    apply stuck .askCpu _ trivial
    simp only [step, Nat.pos_of_ne_zero waiting, ↓reduceIte]
    rfl
  · intro id idLt
    by_contra waiting
    obtain ⟨turn, taken⟩ := GpuThread.turn_isSome kernel id
      (List.range (blocksOf (state.gpus id).lastTask)) state.data (outboxes id idLt) waiting
    cases kept : turn.transferred with
    | none =>
      apply stuck (.runGpu id (List.range (blocksOf (state.gpus id).lastTask))) _ (List.Perm.refl _)
      simp only [step, idLt, taken, kept, ↓reduceIte]
      rfl
    | some task =>
      apply stuck (.runGpu id (List.range (blocksOf (state.gpus id).lastTask))) _ (List.Perm.refl _)
      simp only [step, idLt, taken, kept, ↓reduceIte]
      rfl
  · exact outboxes

/-- Where nothing moves, everything is counted. -/
theorem Invariant.quiet {raw : Payload → Seed → Nat → Nat → Scoop}
    (inv : Invariant raw job job.gpus job.cpuThreads state) (quiet : Quiet job state) :
    state.processed = job.noncesToHash := by
  have resting (id : Nat) (idLt : id < job.gpus) : (state.gpus id).firstRun = true := by
    rcases (inv.threads id idLt).stage with resting | holding
    · exact resting.firstRun
    · have one := holding.one
      rw [State.asks, quiet.rx, quiet.outboxes id idLt, quiet.inboxes id idLt] at one
      cases one
  have pending : state.pending job.gpus (fun task => task.localNonces) = 0 := by
    apply pending_idle _ state quiet.cpuTasks
    intro id idLt
    exact ⟨quiet.inboxes id idLt, resting id idLt⟩
  have reported : state.reported job.gpus = 0 := by
    apply reported_idle
    · rw [quiet.rx]
      rfl
    · exact quiet.outboxes
  have counted := inv.flow.counted
  have le := inv.flow.requested_le
  have all : ¬ state.requested < job.noncesToHash := by
    intro left
    have worker := job.worker
    by_cases cpu : 0 < job.cpuThreads
    · have manned := inv.manned left cpu
      rw [quiet.cpuTasks, quiet.asking, quiet.rx] at manned
      cases manned
    · have gpu : 0 < job.gpus := by omega
      rcases (inv.awake left 0 gpu).busy with holding | queued
      · rw [resting 0 gpu] at holding
        cases holding
      · exact queued (quiet.inboxes 0 gpu)
  omega

theorem Filling.progress (filling : Filling generator.raw job state)
    (left : state.processed < job.noncesToHash) :
    ∃ label after, Spawned state label ∧
      HybridHashing.step generator kernel job state label = some after := by
  by_contra stuck
  have running : state.done = false := by
    rw [filling.ended]
    exact decide_eq_false (Nat.ne_of_lt left)
  have quiet : Quiet job state := by
    apply @quiet_of_stuck _ _ generator kernel job state running
    intro label after spawned taken
    exact stuck ⟨label, after, spawned, taken⟩
  have processed := filling.inv.quiet quiet
  omega

end progress

end Pocx.HybridHashing
