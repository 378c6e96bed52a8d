import Pocx.Plotter.HybridFlow

set_option autoImplicit false

namespace Pocx.HybridHashing

open ByteStore
open PlotFile (numScoops nonceSize)
open Hashlib
open GpuHasher
open Transition

variable {Payload Seed : Type}

/-- A task that belongs to the job. -/
structure Sound (job : Job Payload Seed) (task : HasherTask Payload Seed) : Prop where
  cacheSize : task.cacheSize = job.cacheSize
  addressPayload : task.addressPayload = job.addressPayload
  seed : task.seed = job.seed
  localStartnonce : task.localStartnonce = job.noncesHashed + task.chunkOffset
  fits : task.chunkOffset + task.localNonces ≤ job.noncesToHash

theorem task_sound (job : Job Payload Seed) {requested taskSize : Nat}
    (room : requested + taskSize ≤ job.noncesToHash) : Sound job (job.task requested taskSize) :=
  ⟨rfl, rfl, rfl, rfl, room⟩

/-- A GPU thread that holds no batch. `asks` counts its requests for work on their way. -/
structure Resting (asks : Nat) (thread : GpuThread Payload Seed) : Prop where
  firstRun : thread.firstRun = true
  bufferId : thread.bufferId = 0
  silent : asks = 0
  few : thread.inbox.length ≤ 1
  full : ∀ task ∈ thread.inbox, 0 < task.localNonces

/-- A GPU thread that holds a batch. It has asked for its next task or got it. -/
structure Holding (raw : Payload → Seed → Nat → Nat → Scoop) (job : Job Payload Seed) (asks : Nat)
    (thread : GpuThread Payload Seed) : Prop where
  firstRun : thread.firstRun = false
  bufferId : thread.bufferId ≤ 1
  one : asks + thread.inbox.length = 1
  sound : Sound job thread.lastTask
  full : 0 < thread.lastTask.localNonces
  base58 : thread.context.base58 = job.addressPayload
  seed : thread.context.seed = job.seed
  packed : Packed raw (thread.context.source thread.bufferId) job.addressPayload job.seed
    thread.lastTask.localStartnonce thread.lastTask.localNonces

structure ThreadOk (raw : Payload → Seed → Nat → Nat → Scoop) (job : Job Payload Seed)
    (id asks : Nat) (thread : GpuThread Payload Seed) : Prop where
  tasks : ∀ task ∈ thread.inbox, Sound job task ∧ task.localNonces ≤ thread.context.worksize
  messages : ∀ message ∈ thread.outbox, message = .gpuRequestForWork id ∨
    ∃ nonces, 0 < nonces ∧ message = .noncesHashed nonces
  stage : Resting asks thread ∨ Holding raw job asks thread

/-- As long as nonces are left, a GPU thread is at work. -/
structure Awake (thread : GpuThread Payload Seed) : Prop where
  busy : thread.firstRun = false ∨ thread.inbox ≠ []
  full : ∀ task ∈ thread.inbox, 0 < task.localNonces

/-- What is put into the buffer belongs to the job. -/
structure Puts (raw : Payload → Seed → Nat → Nat → Scoop) (job : Job Payload Seed)
    (task : HasherTask Payload Seed) (data data' : Bytes) : Prop where
  sound : Sound job task
  placed : data.len = job.cacheSize * nonceSize →
    Placed raw data data' task.chunkOffset job.addressPayload job.seed
      (job.noncesHashed + task.chunkOffset) task.localNonces

section turn

variable {raw : Payload → Seed → Nat → Nat → Scoop} (kernel : NonceKernel raw)
  {job : Job Payload Seed} {id asked : Nat} {thread : GpuThread Payload Seed} {order : List Nat}
  {data : Bytes} {after : Turn Payload Seed}

theorem count_asked (nonces : Nat) :
    [HasherMessage.noncesHashed nonces, .gpuRequestForWork id].count (.gpuRequestForWork id) = 1 := by
  rw [List.count_cons_of_ne (by simp), List.count_singleton_self]

/-- What a transfer puts into the buffer. -/
theorem Holding.puts {asks : Nat} (holding : Holding raw job asks thread)
    (spawned : order.Perm (List.range (blocksOf thread.lastTask))) :
    Puts raw job thread.lastTask data
      (gpuTransferToHost thread.context thread.bufferId thread.lastTask order data) := by
  have sound := holding.sound
  refine ⟨sound, fun sized => ?_⟩
  have columns : data.len / nonceSize = thread.lastTask.cacheSize := by
    rw [sized, sound.cacheSize]
    exact Nat.mul_div_cancel _ (by decide)
  have packed := holding.packed
  rw [← sound.addressPayload, ← sound.seed] at packed
  have placed := unpackShuffleScatter_placed packed
    (by rw [sound.cacheSize]; exact Nat.le_trans sound.fits job.fits) spawned data columns
  rw [sound.addressPayload, sound.seed, sound.localStartnonce] at placed
  exact placed

theorem Resting.alone {task : HasherTask Payload Seed} {inbox : List (HasherTask Payload Seed)}
    (resting : Resting asked thread) (queued : thread.inbox = task :: inbox) : inbox = [] := by
  have few := resting.few
  rw [queued, List.length_cons] at few
  exact List.length_eq_zero_iff.mp (by omega)

theorem Holding.alone {task : HasherTask Payload Seed} {inbox : List (HasherTask Payload Seed)}
    (holding : Holding raw job asked thread) (queued : thread.inbox = task :: inbox) :
    inbox = [] ∧ asked = 0 := by
  have one := holding.one
  rw [queued, List.length_cons] at one
  exact ⟨List.length_eq_zero_iff.mp (by omega), by omega⟩

/-- The first task of a job is hashed, and the next one asked for. -/
theorem Resting.firstTurn {task : HasherTask Payload Seed} (resting : Resting asked thread)
    (sound : Sound job task) (small : task.localNonces ≤ thread.context.worksize)
    (nonempty : task.localNonces ≠ 0) :
    Holding raw job (asked + (thread.firstTurn kernel id task []).outbox.count
      (.gpuRequestForWork id)) (thread.firstTurn kernel id task []) := by
  have packed := gpuHash_packed kernel thread.context small
  rw [sound.addressPayload, sound.seed] at packed
  have asks : asked + [HasherMessage.gpuRequestForWork id].count (.gpuRequestForWork id) = 1 := by
    rw [resting.silent, List.count_singleton_self]
  refine ⟨rfl, ?_, asks, sound, Nat.pos_of_ne_zero nonempty, sound.addressPayload, sound.seed, ?_⟩
  · simp only [GpuThread.firstTurn, resting.bufferId]
    omega
  · simp only [GpuThread.firstTurn, resting.bufferId]
    exact packed

/-- An empty task ends the job. -/
theorem resting_lastTurn (id : Nat) (thread : GpuThread Payload Seed) :
    Resting (0 + (thread.lastTurn []).outbox.count (.gpuRequestForWork id))
      (thread.lastTurn []) := by
  refine ⟨rfl, rfl, ?_, Nat.zero_le 1, ?_⟩
  · simp only [GpuThread.lastTurn]
    rw [List.count_eq_zero_of_not_mem (by simp)]
  · intro other listed
    cases listed

/-- The next task is hashed into the other buffer, while the batch is transferred. -/
theorem Holding.normalTurn {task : HasherTask Payload Seed} (holding : Holding raw job 0 thread)
    (sound : Sound job task) (small : task.localNonces ≤ thread.context.worksize)
    (nonempty : task.localNonces ≠ 0) :
    Holding raw job
      (0 + (thread.normalTurn id task [] (gpuHashAndTransferToHost kernel thread.context
        thread.bufferId task thread.lastTask order data).1).outbox.count (.gpuRequestForWork id))
      (thread.normalTurn id task [] (gpuHashAndTransferToHost kernel thread.context
        thread.bufferId task thread.lastTask order data).1) := by
  have packed := gpuHashAndTransferToHost_packed kernel thread.context small holding.bufferId
    thread.lastTask order data
  have context := gpuHashAndTransferToHost_context kernel thread.context thread.bufferId task
    thread.lastTask order data
  simp only at context
  generalize gpuHashAndTransferToHost kernel thread.context thread.bufferId task
    thread.lastTask order data = hashed at packed context ⊢
  obtain ⟨-, base58, seed⟩ := context
  rw [holding.base58, holding.seed] at packed
  refine ⟨rfl, ?_, ?_, sound, Nat.pos_of_ne_zero nonempty, base58.trans holding.base58,
    seed.trans holding.seed, packed⟩
  · simp only [GpuThread.normalTurn]
    omega
  · simp only [GpuThread.normalTurn, List.length_nil]
    rw [count_asked]

/-- A turn leads from one stage of the thread to the next. -/
theorem ThreadOk.turn
    (ok : ThreadOk raw job id (asked + thread.outbox.count (.gpuRequestForWork id)) thread)
    (spawned : order.Perm (List.range (blocksOf thread.lastTask)))
    (taken : thread.turn kernel id order data = some after) :
    ThreadOk raw job id (asked + after.thread.outbox.count (.gpuRequestForWork id)) after.thread ∧
      (∀ task, after.transferred = some task → Puts raw job task data after.data) ∧
      (Awake thread → Awake after.thread) := by
  obtain ⟨task, inbox, sent, queued, cases⟩ := GpuThread.turn_cases kernel id taken
  obtain ⟨tasks, -, stage⟩ := ok
  rw [sent, List.count_nil, Nat.add_zero] at stage
  rw [queued] at tasks
  obtain ⟨sound, small⟩ := tasks task List.mem_cons_self
  rcases cases with ⟨first, nonempty, rfl⟩ | ⟨first, none, rfl⟩ | ⟨later, none, rfl⟩ |
    ⟨later, nonempty, rfl⟩
  · obtain resting | holding := stage
    · obtain rfl := resting.alone queued
      refine ⟨⟨?_, ?_, .inr (resting.firstTurn kernel sound small nonempty)⟩, ?_, ?_⟩
      · intro other listed
        cases listed
      · intro message listed
        exact .inl (List.mem_singleton.mp listed)
      · intro task' transferred
        cases transferred
      · intro _
        refine ⟨.inl rfl, ?_⟩
        intro other listed
        cases listed
    · rw [holding.firstRun] at first
      cases first
  · obtain resting | holding := stage
    · have full := resting.full task (by rw [queued]; exact List.mem_cons_self)
      omega
    · rw [holding.firstRun] at first
      cases first
  · obtain resting | holding := stage
    · rw [resting.firstRun] at later
      cases later
    · obtain ⟨rfl, rfl⟩ := holding.alone queued
      refine ⟨⟨?_, ?_, .inl (resting_lastTurn id thread)⟩, ?_, ?_⟩
      · intro other listed
        cases listed
      · intro message listed
        exact .inr ⟨_, holding.full, List.mem_singleton.mp listed⟩
      · intro task' transferred
        obtain rfl := Option.some.inj transferred
        exact holding.puts spawned
      · intro awake
        have full := awake.full task (by rw [queued]; exact List.mem_cons_self)
        omega
  · obtain resting | holding := stage
    · rw [resting.firstRun] at later
      cases later
    · obtain ⟨rfl, rfl⟩ := holding.alone queued
      have data' := gpuHashAndTransferToHost_data kernel thread.context thread.bufferId task
        thread.lastTask order data holding.bufferId
      refine ⟨⟨?_, ?_, .inr (holding.normalTurn kernel sound small nonempty)⟩, ?_, ?_⟩
      · intro other listed
        cases listed
      · intro message listed
        rcases List.mem_cons.mp listed with reported | asked
        · exact .inr ⟨_, holding.full, reported⟩
        · exact .inl (List.mem_singleton.mp asked)
      · intro task' transferred
        obtain rfl := Option.some.inj transferred
        simp only
        rw [data']
        exact holding.puts spawned
      · intro _
        refine ⟨.inl rfl, ?_⟩
        intro other listed
        cases listed

end turn

/-- The requests for work of a GPU on their way to the scheduler. -/
def State.asks (state : State Payload Seed) (id : Nat) : Nat :=
  state.rx.count (.gpuRequestForWork id) + (state.gpus id).outbox.count (.gpuRequestForWork id)

/-- The other messages are not counted. -/
theorem count_append_other {message : HasherMessage} {id : Nat}
    (other : message ≠ .gpuRequestForWork id) (rx : List HasherMessage) :
    (rx ++ [message]).count (.gpuRequestForWork id) = rx.count (.gpuRequestForWork id) := by
  rw [List.count_append, List.count_cons_of_ne other]
  rfl

/-- What holds in the control loop, once the first `started` GPUs are kicked off, and `cpus` CPU
runs. -/
structure Invariant (raw : Payload → Seed → Nat → Nat → Scoop) (job : Job Payload Seed)
    (started cpus : Nat) (state : State Payload Seed) : Prop where
  flow : Flow job state
  cpuTasks : ∀ task ∈ state.cpuTasks, Sound job task ∧ 0 < task.localNonces
  threads : ∀ id < job.gpus, ThreadOk raw job id (state.asks id) (state.gpus id)
  ids : ∀ id, .gpuRequestForWork id ∈ state.rx → id < job.gpus
  reports : ∀ nonces, .noncesHashed nonces ∈ state.rx → 0 < nonces
  fresh : ∀ id, started ≤ id → id < job.gpus → Idle (state.gpus id)
  awake : state.requested < job.noncesToHash → ∀ id < started, Awake (state.gpus id)
  manned : state.requested < job.noncesToHash → 0 < cpus →
    0 < state.cpuTasks.length + state.asking + state.rx.count .cpuRequestForWork
  sized : state.data.len = job.cacheSize * nonceSize
  values : ∀ j, state.written j ≠ 0 → ∀ scoop < numScoops,
    scoopAt state.data (scoopAddress job.cacheSize scoop j) =
      raw job.addressPayload job.seed (job.noncesHashed + j) scoop

section steps

variable {raw : Payload → Seed → Nat → Nat → Scoop} {job : Job Payload Seed} {started cpus : Nat}
  {state : State Payload Seed}

theorem Invariant.start (entering : Entering job state) : Invariant raw job 0 0 state := by
  have idle (weight : HasherTask Payload Seed → Nat) : state.pending job.gpus weight = 0 := by
    apply pending_idle weight state entering.cpuTasks
    intro id idLt
    exact ⟨(entering.gpus id idLt).inbox, (entering.gpus id idLt).firstRun⟩
  have silent : state.reported job.gpus = 0 := by
    apply reported_idle
    · apply List.sum_eq_zero
      intro nonces listed
      obtain ⟨message, member, rfl⟩ := List.mem_map.mp listed
      rw [entering.rx message member]
      rfl
    · intro id idLt
      exact (entering.gpus id idLt).outbox
  have absent (id : Nat) : .gpuRequestForWork id ∉ state.rx := by
    intro listed
    cases entering.rx _ listed
  constructor
  · constructor
    · rw [entering.requested]
      exact Nat.zero_le _
    · intro j
      rw [idle, entering.written, entering.requested]
      rfl
    · rw [idle, silent, entering.processed, entering.requested]
  · intro task listed
    rw [entering.cpuTasks] at listed
    cases listed
  · intro id idLt
    have idle := entering.gpus id idLt
    refine ⟨?_, ?_, .inl ⟨idle.firstRun, idle.bufferId, ?_, ?_, ?_⟩⟩
    · intro task listed
      rw [idle.inbox] at listed
      cases listed
    · intro message listed
      rw [idle.outbox] at listed
      cases listed
    · rw [State.asks, List.count_eq_zero_of_not_mem (absent id), idle.outbox]
      rfl
    · rw [idle.inbox]
      exact Nat.zero_le 1
    · intro task listed
      rw [idle.inbox] at listed
      cases listed
  · intro id listed
    exact absurd listed (absent id)
  · intro nonces listed
    cases entering.rx _ listed
  · intro id _ idLt
    exact entering.gpus id idLt
  · intro _ id idLt
    cases idLt
  · intro _ none
    cases none
  · exact entering.data
  · intro j written
    rw [entering.written] at written
    exact absurd rfl written

/-- Scheduling a CPU task, behind a request or in the kick-off. -/
theorem Invariant.feedCpu (inv : Invariant raw job started cpus state) (rx : List HasherMessage)
    (kept : ∀ message ∈ rx, message ∈ state.rx)
    (reports : (rx.map noncesOf).sum = (state.rx.map noncesOf).sum)
    (requests : ∀ id, rx.count (.gpuRequestForWork id) = state.rx.count (.gpuRequestForWork id))
    (cpus' : Nat) :
    Invariant raw job started cpus' (State.feedCpu job { state with rx }) := by
  have size : state.requested + min cpuTaskSize (job.noncesToHash - state.requested) ≤
      job.noncesToHash := by
    have le := inv.flow.requested_le
    omega
  constructor
  · apply inv.flow.hand size rfl
    · intro weight empty
      exact pending_feedCpu weight { state with rx } empty job
    · simp only [State.reported, State.feedCpu, reports]
    · rfl
    · rfl
  · intro task listed
    simp only [State.feedCpu] at listed
    split at listed
    · rename_i some
      rcases List.mem_append.mp listed with old | new
      · exact inv.cpuTasks task old
      · rw [List.mem_singleton.mp new]
        exact ⟨task_sound job size, some⟩
    · exact inv.cpuTasks task listed
  · intro id idLt
    have ok := inv.threads id idLt
    rw [State.asks, ← requests id] at ok
    exact ok
  · intro id listed
    exact inv.ids id (kept _ listed)
  · intro nonces listed
    exact inv.reports nonces (kept _ listed)
  · exact inv.fresh
  · intro left
    simp only [State.feedCpu] at left
    exact inv.awake (by omega)
  · intro left _
    have positive : cpuTaskSize = 64 := rfl
    simp only [State.feedCpu] at left ⊢
    split
    · rw [List.length_append, List.length_singleton]
      omega
    · omega
  · exact inv.sized
  · exact inv.values

/-- Scheduling a GPU task, in the kick-off or behind a request. -/
theorem Invariant.sendTask (inv : Invariant raw job started cpus state) {id size started' : Nat}
    (idLt : id < job.gpus) (rx : List HasherMessage)
    (room : state.requested + size ≤ job.noncesToHash)
    (small : size ≤ (state.gpus id).context.worksize)
    (full : state.requested + size < job.noncesToHash → 0 < size)
    (vacant : (state.gpus id).inbox = [])
    (reports : (rx.map noncesOf).sum = (state.rx.map noncesOf).sum)
    (cpuRequests : rx.count .cpuRequestForWork = state.rx.count .cpuRequestForWork)
    (requests : ∀ other, other ≠ id →
      rx.count (.gpuRequestForWork other) = state.rx.count (.gpuRequestForWork other))
    (kept : ∀ message ∈ rx, message ∈ state.rx)
    (kicked : id < started') (ordered : started ≤ started')
    (next : ∀ other < started', other = id ∨ other < started)
    (stage :
      Resting (rx.count (.gpuRequestForWork id) +
          (state.gpus id).outbox.count (.gpuRequestForWork id))
        ((state.gpus id).enqueue (job.task state.requested size)) ∨
      Holding raw job
        (rx.count (.gpuRequestForWork id) +
          (state.gpus id).outbox.count (.gpuRequestForWork id))
        ((state.gpus id).enqueue (job.task state.requested size))) :
    Invariant raw job started' cpus
      { State.send { state with rx } id (job.task state.requested size) with
        requested := state.requested + size } := by
  have here : (State.send { state with rx } id (job.task state.requested size)).gpus id =
      (state.gpus id).enqueue (job.task state.requested size) := Function.update_self _ _ _
  have elsewhere (other : Nat) (different : other ≠ id) :
      (State.send { state with rx } id (job.task state.requested size)).gpus other =
        state.gpus other := Function.update_of_ne different _ _
  constructor
  · apply inv.flow.hand room rfl
    · intro weight _
      exact pending_send weight { state with rx } idLt (job.task state.requested size)
    · have sent := reported_send { state with rx } idLt (job.task state.requested size)
      have popped : State.reported job.gpus { state with rx } = state.reported job.gpus := by
        simp only [State.reported, reports]
      exact sent.trans popped
    · rfl
    · rfl
  · exact inv.cpuTasks
  · intro other otherLt
    by_cases same : other = id
    · subst same
      have ok := inv.threads other otherLt
      simp only [State.asks, here]
      refine ⟨?_, ok.messages, stage⟩
      intro task listed
      rcases List.mem_append.mp listed with old | new
      · exact ok.tasks task old
      · rw [List.mem_singleton.mp new]
        exact ⟨task_sound job room, small⟩
    · have ok := inv.threads other otherLt
      rw [State.asks, ← requests other same] at ok
      simp only [State.asks, elsewhere other same]
      exact ok
  · intro other listed
    exact inv.ids other (kept _ listed)
  · intro nonces listed
    exact inv.reports nonces (kept _ listed)
  · intro other after otherLt
    rw [elsewhere other (by omega)]
    exact inv.fresh other (by omega) otherLt
  · intro left other otherLt
    by_cases same : other = id
    · subst same
      rw [here]
      simp only [GpuThread.enqueue, vacant, List.nil_append]
      refine ⟨.inr (List.cons_ne_nil _ _), ?_⟩
      intro task listed
      rw [List.mem_singleton.mp listed]
      exact full left
    · rw [elsewhere other same]
      exact inv.awake (Nat.lt_of_le_of_lt (Nat.le_add_right _ _) left) other
        ((next other otherLt).resolve_left same)
  · intro left positive
    have manned := inv.manned (Nat.lt_of_le_of_lt (Nat.le_add_right _ _) left) positive
    rw [← cpuRequests] at manned
    exact manned
  · exact inv.sized
  · exact inv.values

theorem Invariant.startGpu (inv : Invariant raw job started cpus state) (startedLt : started < job.gpus) :
    Invariant raw job (started + 1) cpus (state.startGpu job started) := by
  have idle := inv.fresh started (Nat.le_refl _) startedLt
  have ok := inv.threads started startedLt
  have le := inv.flow.requested_le
  have positive := (state.gpus started).context.worksize_pos
  by_cases some : 0 < min (state.gpus started).context.worksize (job.noncesToHash - state.requested)
  · have sent := @Invariant.sendTask _ _ raw job started cpus state inv started
      (min (state.gpus started).context.worksize (job.noncesToHash - state.requested)) (started + 1)
      startedLt state.rx (by omega) (Nat.min_le_left _ _) (fun _ => some) idle.inbox rfl rfl
      (fun _ _ => rfl) (fun _ listed => listed) (Nat.lt_succ_self _) (Nat.le_succ _) (fun other lt => by omega) (by
        left
        obtain resting | holding := ok.stage
        · refine ⟨resting.firstRun, resting.bufferId, resting.silent, ?_, ?_⟩
          · simp only [GpuThread.enqueue, idle.inbox, List.nil_append, List.length_singleton]
            exact Nat.le_refl 1
          · simp only [GpuThread.enqueue, idle.inbox, List.nil_append]
            intro task listed
            rw [List.mem_singleton.mp listed]
            exact some
        · exact absurd (idle.firstRun.symm.trans holding.firstRun) (by decide))
    rw [State.startGpu]
    simp only [some, ↓reduceIte]
    exact sent
  · have nothing : min (state.gpus started).context.worksize (job.noncesToHash - state.requested) = 0 :=
      Nat.eq_zero_of_not_pos some
    have stays : state.startGpu job started = state := by
      rw [State.startGpu, nothing]
      rfl
    rw [stays]
    refine { inv with fresh := ?_, awake := ?_ }
    · intro other after otherLt
      exact inv.fresh other (by omega) otherLt
    · intro left
      omega

/-- The size of a GPU task that is asked for. -/
theorem gpuTaskSize_spec (le : state.requested ≤ job.noncesToHash) (worksize : Nat)
    (positive : 0 < worksize) :
    gpuTaskSize job state worksize ≤ worksize ∧
      state.requested + gpuTaskSize job state worksize ≤ job.noncesToHash ∧
      (state.requested < job.noncesToHash → 0 < gpuTaskSize job state worksize) := by
  have size : cpuTaskSize = 64 := rfl
  rw [gpuTaskSize]
  by_cases dual : min worksize (job.noncesToHash - state.requested) < worksize ∧
      0 < job.cpuThreads ∧ cpuTaskSize < min worksize (job.noncesToHash - state.requested)
  · rw [if_pos dual]
    omega
  · rw [if_neg dual]
    omega

theorem Invariant.feedGpu (inv : Invariant raw job job.gpus cpus state) {id : Nat}
    {rx : List HasherMessage} (received : state.rx = .gpuRequestForWork id :: rx) :
    Invariant raw job job.gpus cpus (State.feedGpu job { state with rx } id) := by
  have idLt : id < job.gpus := inv.ids id (by rw [received]; exact List.mem_cons_self)
  have ok := inv.threads id idLt
  have asks : state.asks id =
      rx.count (.gpuRequestForWork id) + (state.gpus id).outbox.count (.gpuRequestForWork id) + 1 := by
    rw [State.asks, received, List.count_cons_self]
    omega
  have size := gpuTaskSize_spec inv.flow.requested_le (state.gpus id).context.worksize
    (state.gpus id).context.worksize_pos
  obtain ⟨small, room, full⟩ := size
  obtain resting | holding := ok.stage
  · have silent := resting.silent
    omega
  · have one := holding.one
    have vacant : (state.gpus id).inbox = [] := List.length_eq_zero_iff.mp (by omega)
    apply inv.sendTask idLt rx room small
    · intro left
      exact full (Nat.lt_of_le_of_lt (Nat.le_add_right _ _) left)
    · exact vacant
    · rw [received]
      simp only [List.map_cons, List.sum_cons, noncesOf, Nat.zero_add]
    · rw [received, List.count_cons_of_ne (by simp)]
    · intro other different
      rw [received, List.count_cons_of_ne (by simp [Ne.symm different])]
    · intro message listed
      rw [received]
      exact List.mem_cons_of_mem _ listed
    · exact idLt
    · exact Nat.le_refl _
    · intro other otherLt
      exact .inr otherLt
    · right
      refine { holding with one := ?_ }
      simp only [GpuThread.enqueue, vacant, List.nil_append, List.length_singleton]
      omega

theorem Flow.written_lt (flow : Flow job state) {j : Nat} (written : state.written j ≠ 0) :
    j < state.requested := by
  by_contra beyond
  have covered := flow.covered j
  rw [if_neg beyond] at covered
  omega

/-- The columns written before stay as they are, those of the task get their nonces. -/
theorem Invariant.put (inv : Invariant raw job started cpus state) {task : HasherTask Payload Seed}
    {data : Bytes} (puts : Puts raw job task state.data data) :
    data.len = job.cacheSize * nonceSize ∧
      ∀ j, state.written j + covers j task ≠ 0 → ∀ scoop < numScoops,
        scoopAt data (scoopAddress job.cacheSize scoop j) =
          raw job.addressPayload job.seed (job.noncesHashed + j) scoop := by
  obtain ⟨len, inside, outside⟩ := puts.placed inv.sized
  have columns : state.data.len / nonceSize = job.cacheSize := by
    rw [inv.sized]
    exact Nat.mul_div_cancel _ (by decide)
  rw [columns] at inside outside
  refine ⟨len.trans inv.sized, ?_⟩
  intro j written scoop scoopLt
  by_cases here : task.chunkOffset ≤ j ∧ j < task.chunkOffset + task.localNonces
  · have column := inside scoop (j - task.chunkOffset) scoopLt (by omega)
    have place : task.chunkOffset + (j - task.chunkOffset) = j := by omega
    rw [Nat.add_assoc, place] at column
    exact column
  · rw [covers, if_neg here, Nat.add_zero] at written
    have requested := inv.flow.written_lt written
    have le := inv.flow.requested_le
    have fits := job.fits
    rw [outside scoop j scoopLt (by omega) (by omega)]
    exact inv.values j written scoop scoopLt

/-- A CPU worker writes its nonces and reports them. -/
theorem Invariant.hashCpu (inv : Invariant raw job started cpus state) {k : Nat}
    {task : HasherTask Payload Seed} (next : state.cpuTasks[k]? = some task) {data : Bytes}
    (puts : Puts raw job task state.data data) :
    Invariant raw job started cpus
      { State.write { state with cpuTasks := state.cpuTasks.eraseIdx k } task data with
        rx := state.rx ++ [.noncesHashed task.localNonces]
        asking := state.asking + 1 } := by
  obtain ⟨sized, values⟩ := inv.put puts
  constructor
  · refine @Flow.put _ _ job state _ inv.flow task ?_ ?_ ?_ ?_ ?_
    · rfl
    · intro weight _
      exact pending_eraseIdx weight state next
    · simp only [State.reported, State.write, List.map_append, List.sum_append, List.map_singleton,
        List.sum_singleton, noncesOf]
      omega
    · rfl
    · intro j
      rfl
  · intro other listed
    exact inv.cpuTasks other (List.mem_of_mem_eraseIdx listed)
  · intro id idLt
    have ok := inv.threads id idLt
    have other : HasherMessage.noncesHashed task.localNonces ≠ .gpuRequestForWork id := by simp
    simp only [State.asks, State.write, count_append_other other]
    exact ok
  · intro id listed
    rcases List.mem_append.mp listed with old | new
    · exact inv.ids id old
    · cases List.mem_singleton.mp new
  · intro nonces listed
    rcases List.mem_append.mp listed with old | new
    · exact inv.reports nonces old
    · cases List.mem_singleton.mp new
      exact (inv.cpuTasks task (List.mem_of_getElem? next)).2
  · exact inv.fresh
  · exact inv.awake
  · intro _ _
    simp only
    omega
  · exact sized
  · exact values

/-- A CPU worker asks for work. -/
theorem Invariant.askCpu (inv : Invariant raw job started cpus state) :
    Invariant raw job started cpus
      { state with
        rx := state.rx ++ [.cpuRequestForWork]
        asking := state.asking - 1 } := by
  refine { inv with flow := ?_, threads := ?_, ids := ?_, reports := ?_, manned := ?_ }
  · refine inv.flow.keep ?_ ?_ ?_ ?_
    · rfl
    · intro weight _
      rfl
    · simp only [State.reported, List.map_append, List.sum_append, List.map_singleton,
        List.sum_singleton, noncesOf]
      omega
    · rfl
  · intro id idLt
    have ok := inv.threads id idLt
    have other : HasherMessage.cpuRequestForWork ≠ .gpuRequestForWork id := by simp
    simp only [State.asks, count_append_other other]
    exact ok
  · intro id listed
    rcases List.mem_append.mp listed with old | new
    · exact inv.ids id old
    · cases List.mem_singleton.mp new
  · intro nonces listed
    rcases List.mem_append.mp listed with old | new
    · exact inv.reports nonces old
    · cases List.mem_singleton.mp new
  · intro _ _
    simp only [List.count_append, List.count_singleton_self]
    omega

/-- The scheduler counts nonces. -/
theorem Invariant.count (inv : Invariant raw job started cpus state) {nonces : Nat}
    {rx : List HasherMessage} (received : state.rx = .noncesHashed nonces :: rx) :
    Invariant raw job started cpus
      { state with
        rx
        processed := state.processed + nonces } := by
  have requests (id : Nat) :
      rx.count (.gpuRequestForWork id) = state.rx.count (.gpuRequestForWork id) := by
    rw [received, List.count_cons_of_ne (by simp)]
  have cpuRequests : rx.count .cpuRequestForWork = state.rx.count .cpuRequestForWork := by
    rw [received, List.count_cons_of_ne (by simp)]
  refine { inv with flow := ?_, threads := ?_, ids := ?_, reports := ?_, manned := ?_ }
  · refine inv.flow.keep ?_ ?_ ?_ ?_
    · rfl
    · intro weight _
      rfl
    · simp only [State.reported, received, List.map_cons, List.sum_cons, noncesOf]
      omega
    · rfl
  · intro id idLt
    have ok := inv.threads id idLt
    rw [State.asks, ← requests id] at ok
    exact ok
  · intro id listed
    exact inv.ids id (by rw [received]; exact List.mem_cons_of_mem _ listed)
  · intro nonces listed
    exact inv.reports nonces (by rw [received]; exact List.mem_cons_of_mem _ listed)
  · intro left positive
    have manned := inv.manned left positive
    rw [← cpuRequests] at manned
    exact manned

section gpu

variable (inv : Invariant raw job job.gpus cpus state) {id : Nat} (idLt : id < job.gpus)
include inv idLt

/-- A GPU thread moves on; the others do not notice. -/
theorem Invariant.setGpu {thread : GpuThread Payload Seed} {after : State Payload Seed}
    (requested : after.requested = state.requested) (rx : after.rx = state.rx)
    (cpuTasks : after.cpuTasks = state.cpuTasks) (asking : after.asking = state.asking)
    (gpus : after.gpus = Function.update state.gpus id thread) (flow : Flow job after)
    (ok : ThreadOk raw job id
      (state.rx.count (.gpuRequestForWork id) + thread.outbox.count (.gpuRequestForWork id)) thread)
    (awake : Awake (state.gpus id) → Awake thread)
    (sized : after.data.len = job.cacheSize * nonceSize)
    (values : ∀ j, after.written j ≠ 0 → ∀ scoop < numScoops,
      scoopAt after.data (scoopAddress job.cacheSize scoop j) =
        raw job.addressPayload job.seed (job.noncesHashed + j) scoop) :
    Invariant raw job job.gpus cpus after := by
  have here : after.gpus id = thread := by
    rw [gpus]
    exact Function.update_self _ _ _
  have elsewhere (other : Nat) (different : other ≠ id) : after.gpus other = state.gpus other := by
    rw [gpus]
    exact Function.update_of_ne different _ _
  constructor
  · exact flow
  · rw [cpuTasks]
    exact inv.cpuTasks
  · intro other otherLt
    by_cases same : other = id
    · subst same
      rw [State.asks, here, rx]
      exact ok
    · rw [State.asks, elsewhere other same, rx]
      exact inv.threads other otherLt
  · rw [rx]
    exact inv.ids
  · rw [rx]
    exact inv.reports
  · intro other after otherLt
    omega
  · intro left other otherLt
    rw [requested] at left
    by_cases same : other = id
    · subst same
      rw [here]
      exact awake (inv.awake left other otherLt)
    · rw [elsewhere other same]
      exact inv.awake left other otherLt
  · rw [requested, cpuTasks, asking, rx]
    exact inv.manned
  · exact sized
  · exact values

/-- A turn of a GPU thread that transfers nothing. -/
theorem Invariant.runGpu {kernel : NonceKernel raw} {order : List Nat}
    (spawned : order.Perm (List.range (blocksOf (state.gpus id).lastTask)))
    {turn : Turn Payload Seed}
    (taken : (state.gpus id).turn kernel id order state.data = some turn) :
    Invariant raw job job.gpus cpus
      (match turn.transferred with
      | none => state.setGpu id turn.thread
      | some task => (state.setGpu id turn.thread).write task turn.data) := by
  obtain ⟨ok, puts, awake⟩ := (inv.threads id idLt).turn kernel spawned taken
  obtain ⟨sent, outbox⟩ := outbox_turn kernel taken
  have pending (weight : HasherTask Payload Seed → Nat)
      (empty : ∀ task, task.localNonces = 0 → weight task = 0) :
      (state.setGpu id turn.thread).pending job.gpus weight + turn.transferred.elim 0 weight =
        state.pending job.gpus weight := by
    have moved := pending_setGpu weight state idLt turn.thread
    have backlog := backlog_turn weight empty kernel taken
    omega
  have reported : (state.setGpu id turn.thread).reported job.gpus =
      state.reported job.gpus + turn.transferred.elim 0 fun task => task.localNonces := by
    have moved := reported_setGpu state idLt turn.thread
    rw [sent, outbox] at moved
    exact moved
  generalize turn.transferred = transferred at puts pending reported
  cases transferred with
  | none =>
    have flow : Flow job (state.setGpu id turn.thread) := by
      refine inv.flow.keep ?_ ?_ ?_ ?_
      · rfl
      · exact pending
      · rw [reported]
        rfl
      · rfl
    refine inv.setGpu idLt ?_ ?_ ?_ ?_ ?_ flow ok awake inv.sized inv.values
    · rfl
    · rfl
    · rfl
    · rfl
    · rfl
  | some task =>
    obtain ⟨sized, values⟩ := inv.put (puts task rfl)
    have flow : Flow job ((state.setGpu id turn.thread).write task turn.data) := by
      refine @Flow.put _ _ job state _ inv.flow task ?_ ?_ ?_ ?_ ?_
      · rfl
      · exact pending
      · exact reported
      · rfl
      · intro j
        rfl
    refine @Invariant.setGpu _ _ raw job cpus state inv id idLt turn.thread
      ((state.setGpu id turn.thread).write task turn.data) ?_ ?_ ?_ ?_ ?_ flow ok awake sized values
    · rfl
    · rfl
    · rfl
    · rfl
    · rfl

/-- A GPU thread sends a message. -/
theorem Invariant.sendGpu {message : HasherMessage} {outbox : List HasherMessage}
    (next : (state.gpus id).outbox = message :: outbox) :
    Invariant raw job job.gpus cpus
      { state.setGpu id ((state.gpus id).sending outbox) with rx := state.rx ++ [message] } := by
  have ok := inv.threads id idLt
  have here : (state.setGpu id ((state.gpus id).sending outbox)).gpus id =
      (state.gpus id).sending outbox := Function.update_self _ _ _
  have elsewhere (other : Nat) (different : other ≠ id) :
      (state.setGpu id ((state.gpus id).sending outbox)).gpus other = state.gpus other :=
    Function.update_of_ne different _ _
  have sends := ok.messages message (by rw [next]; exact List.mem_cons_self)
  have own (other : Nat) (asks : message = .gpuRequestForWork other) : other = id := by
    rcases sends with asked | ⟨nonces, -, reported⟩
    · exact HasherMessage.gpuRequestForWork.inj (asks.symm.trans asked)
    · cases asks.symm.trans reported
  constructor
  · refine inv.flow.keep ?_ ?_ ?_ ?_
    · rfl
    · intro weight _
      have moved := pending_setGpu weight state idLt ((state.gpus id).sending outbox)
      exact Nat.add_right_cancel moved
    · have moved := reported_setGpu state idLt ((state.gpus id).sending outbox)
      rw [next, List.map_cons, List.sum_cons] at moved
      simp only [State.reported, List.map_append, List.sum_append, List.map_singleton,
        List.sum_singleton, State.setGpu, GpuThread.sending] at moved ⊢
      omega
    · rfl
  · exact inv.cpuTasks
  · intro other otherLt
    by_cases same : other = id
    · subst same
      have count : (state.rx ++ [message]).count (.gpuRequestForWork other) +
          outbox.count (.gpuRequestForWork other) = state.asks other := by
        have head : (message :: outbox).count (.gpuRequestForWork other) =
            [message].count (.gpuRequestForWork other) +
              outbox.count (.gpuRequestForWork other) := by
          rw [← List.count_append]
          rfl
        rw [State.asks, next, List.count_append, head]
        exact Nat.add_assoc _ _ _
      have sent : ((state.gpus other).sending outbox).outbox = outbox := rfl
      simp only [State.asks, here]
      rw [sent, count]
      refine ⟨ok.tasks, ?_, ?_⟩
      · intro later listed
        exact ok.messages later (by rw [next]; exact List.mem_cons_of_mem _ listed)
      · obtain resting | holding := ok.stage
        · exact .inl ⟨resting.firstRun, resting.bufferId, resting.silent, resting.few,
            resting.full⟩
        · exact .inr ⟨holding.firstRun, holding.bufferId, holding.one, holding.sound, holding.full,
            holding.base58, holding.seed, holding.packed⟩
    · have foreign : message ≠ .gpuRequestForWork other := fun asks => same (own other asks)
      simp only [State.asks, elsewhere other same, count_append_other foreign]
      exact inv.threads other otherLt
  · intro other listed
    rcases List.mem_append.mp listed with old | new
    · exact inv.ids other old
    · rw [own other (List.mem_singleton.mp new).symm]
      exact idLt
  · intro nonces listed
    rcases List.mem_append.mp listed with old | new
    · exact inv.reports nonces old
    · rw [← List.mem_singleton.mp new] at sends
      rcases sends with asked | ⟨hashed, positive, reported⟩
      · cases asked
      · cases reported
        exact positive
  · intro other after otherLt
    omega
  · intro left other otherLt
    by_cases same : other = id
    · subst same
      have awake := inv.awake left other otherLt
      rw [here]
      exact ⟨awake.busy, awake.full⟩
    · rw [elsewhere other same]
      exact inv.awake left other otherLt
  · intro left positive
    have manned := inv.manned left positive
    have more : state.rx.count .cpuRequestForWork ≤
        (state.rx ++ [message]).count .cpuRequestForWork := by
      rw [List.count_append]
      exact Nat.le_add_right _ _
    exact Nat.lt_of_lt_of_le manned (Nat.add_le_add_left more _)
  · exact inv.sized
  · exact inv.values

end gpu

end steps

end Pocx.HybridHashing
