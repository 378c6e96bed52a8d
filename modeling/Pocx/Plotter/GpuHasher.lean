import Pocx.Hashlib.NoncegenScatter

set_option autoImplicit false

namespace Pocx.GpuHasher

open ByteStore
open PlotFile (scoopSize numScoops nonceSize)
open Hashlib

variable {Payload Seed : Type}

/-- `HasherMessage` -/
inductive HasherMessage
  | cpuRequestForWork
  | gpuRequestForWork (id : Nat)
  | noncesHashed (nonces : Nat)
deriving DecidableEq

/-- `GpuTask` and `CpuTask`, which have the same fields, without the pointer to the buffer. -/
structure HasherTask (Payload Seed : Type) where
  cacheSize : Nat
  chunkOffset : Nat
  addressPayload : Payload
  seed : Seed
  localStartnonce : Nat
  localNonces : Nat

/-- A block of sixteen nonces in the memory of a device. -/
def gpuBlock (buffer : Bytes) (block : Nat) : Bytes :=
  ⟨nonceSize * 16, fun z => buffer.byte (16 * block * nonceSize + z)⟩

/-- The memory of a device begins with some nonces, as sixteen lanes each. -/
def Packed (raw : Payload → Seed → Nat → Nat → Scoop) (buffer : Bytes) (addressPayload : Payload)
    (seed : Seed) (startnonce nonces : Nat) : Prop :=
  ∀ gid < nonces, ∀ scoop < numScoops,
    extractScoopFromInterleaved (gpuBlock buffer (gid / 16)) 16 (gid % 16) scoop =
      raw addressPayload seed (startnonce + gid) scoop

/-- A function of the uncompressed nonces and launches of `calculate_nonces` that pack its
values. -/
structure NonceKernel (raw : Payload → Seed → Nat → Nat → Scoop) where
  calculateNonces : Bytes → Nat → Payload → Seed → Nat → Bytes
  len : ∀ buffer startnonce base58 seed nonces,
    (calculateNonces buffer startnonce base58 seed nonces).len = buffer.len
  packs : ∀ buffer startnonce base58 seed nonces worksize,
    buffer.len = worksize * nonceSize → 16 ∣ worksize → nonces ≤ worksize →
    Packed raw (calculateNonces buffer startnonce base58 seed nonces) base58 seed startnonce nonces

/-- The position of a byte in the memory of a device. -/
theorem lane_position {block hash word lane b : Nat} (hashLt : hash < 8192) (wordLt : word < 8)
    (laneLt : lane < 16) (bLt : b < 4) :
    let position := 16 * block * nonceSize + ((hash * 32 + word * 4) * 16 + lane * 4 + b)
    position / (16 * nonceSize) = block ∧ position / 512 % 8192 = hash ∧ position / 64 % 8 = word ∧
      position % 64 / 4 = lane ∧ position % 4 = b := by
  have size : nonceSize = 262144 := rfl
  rw [size]
  omega

/-- A launch that packs the nonces of a table. -/
def packNonces (raw : Payload → Seed → Nat → Nat → Scoop) (buffer : Bytes) (startnonce : Nat)
    (base58 : Payload) (seed : Seed) : Bytes :=
  { buffer with
    byte := fun position =>
      let hash := position / 512 % 8192
      let gid := 16 * (position / (16 * nonceSize)) + position % 64 / 4
      let scoop := if hash % 2 = 0 then hash / 2 else 4095 - hash / 2
      have inside : hash % 2 * 32 + position / 64 % 8 * 4 + position % 4 < scoopSize := by
        have size : scoopSize = 64 := rfl
        omega
      (raw base58 seed (startnonce + gid) scoop).byte
        ⟨hash % 2 * 32 + position / 64 % 8 * 4 + position % 4, inside⟩ }

theorem packNonces_len (raw : Payload → Seed → Nat → Nat → Scoop) (buffer : Bytes)
    (startnonce : Nat) (base58 : Payload) (seed : Seed) (_nonces : Nat) :
    (packNonces raw buffer startnonce base58 seed).len = buffer.len := rfl

theorem packNonces_packs (raw : Payload → Seed → Nat → Nat → Scoop) (buffer : Bytes)
    (startnonce : Nat) (base58 : Payload) (seed : Seed) (nonces : Nat) :
    Packed raw (packNonces raw buffer startnonce base58 seed) base58 seed startnonce nonces := by
  intro gid _ scoop scoopLt
  have scoops : numScoops = 4096 := rfl
  apply Scoop.ext
  funext z
  have zLt : z.val < 64 := z.isLt
  simp only [packNonces, extractScoopFromInterleaved, gpuBlock]
  have lane : 16 * (gid / 16) + gid % 16 = gid := Nat.div_add_mod gid 16
  by_cases first : z.val < 32
  · obtain ⟨inBlock, inHash, inWord, inLane, inByte⟩ := @lane_position (gid / 16) (2 * scoop)
      (z.val % 32 / 4) (gid % 16) (z.val % 4) (by omega) (by omega) (by omega) (by omega)
    have even : 2 * scoop % 2 = 0 := by omega
    have half : 2 * scoop / 2 = scoop := by omega
    have place : 0 * 32 + z.val % 32 / 4 * 4 + z.val % 4 = z.val := by omega
    simp only [if_pos first, inBlock, inHash, inWord, inLane, inByte, even, half, lane, place,
      ↓reduceIte]
  · obtain ⟨inBlock, inHash, inWord, inLane, inByte⟩ := @lane_position (gid / 16)
      ((4095 - scoop) * 2 + 1) (z.val % 32 / 4) (gid % 16) (z.val % 4) (by omega) (by omega)
      (by omega) (by omega)
    have odd : ((4095 - scoop) * 2 + 1) % 2 = 1 := by omega
    have mirror : 4095 - ((4095 - scoop) * 2 + 1) / 2 = scoop := by omega
    have place : 1 * 32 + z.val % 32 / 4 * 4 + z.val % 4 = z.val := by omega
    simp only [if_neg first, inBlock, inHash, inWord, inLane, inByte, odd, mirror, lane, place,
      Nat.one_ne_zero, ↓reduceIte]

/-- Every table of uncompressed nonces has such a kernel. -/
def NonceKernel.ofRaw (raw : Payload → Seed → Nat → Nat → Scoop) : NonceKernel raw where
  calculateNonces := fun buffer startnonce base58 seed _ => packNonces raw buffer startnonce base58 seed
  len := packNonces_len raw
  packs := fun buffer startnonce base58 seed nonces _ _ _ _ =>
    packNonces_packs raw buffer startnonce base58 seed nonces

/-- What the hasher uses of a `GpuContext`. -/
structure GpuContext (Payload Seed : Type) where
  worksize : Nat
  base58 : Payload
  seed : Seed
  bufferA : Bytes
  bufferB : Bytes
  worksize_pos : 0 < worksize
  worksize_blocks : 16 ∣ worksize
  bufferA_len : bufferA.len = worksize * nonceSize
  bufferB_len : bufferB.len = worksize * nonceSize

section transfer

variable (buffer : Bytes) (task : HasherTask Payload Seed)

/-- The copies of the block at `n = 16 * block`. -/
def scatterBlock (data : Bytes) (block : Nat) : Bytes :=
  let n := 16 * block
  { data with
    byte :=
      Scatter.run (fun _ => true)
        (fun copy => dataOffset task.cacheSize (n + task.chunkOffset) copy + copy.2.2.2)
        (fun copy _ => buffer.byte (n * nonceSize + (bufferOffset 16 copy + copy.2.2.2)))
        data.byte (copies (min 16 (task.localNonces - n))) }

/-- The number of blocks that are begun. -/
def blocksOf : Nat := (task.localNonces + 15) / 16

/-- `unpack_shuffle_scatter` of the plotter. The thread pool takes the blocks in any order. -/
def unpackShuffleScatter (order : List Nat) (data : Bytes) : Bytes :=
  order.foldl (scatterBlock buffer task) data

end transfer

section context

variable {raw : Payload → Seed → Nat → Nat → Scoop} (kernel : NonceKernel raw)
  (context : GpuContext Payload Seed)

/-- The launches into buffer A. -/
def GpuContext.hashA (task : HasherTask Payload Seed) : GpuContext Payload Seed :=
  { context with
    bufferA := kernel.calculateNonces context.bufferA task.localStartnonce context.base58
      context.seed task.localNonces
    bufferA_len := (kernel.len _ _ _ _ _).trans context.bufferA_len }

/-- The launches into buffer B. -/
def GpuContext.hashB (task : HasherTask Payload Seed) : GpuContext Payload Seed :=
  { context with
    bufferB := kernel.calculateNonces context.bufferB task.localStartnonce context.base58
      context.seed task.localNonces
    bufferB_len := (kernel.len _ _ _ _ _).trans context.bufferB_len }

/-- `gpu_hash` -/
def gpuHash (task : HasherTask Payload Seed) : GpuContext Payload Seed :=
  GpuContext.hashA kernel { context with base58 := task.addressPayload, seed := task.seed } task

/-- The buffer that `gpu_transfer_to_host` reads. -/
def GpuContext.source (bufferId : Nat) : Bytes :=
  if bufferId = 1 then context.bufferA else context.bufferB

/-- `gpu_transfer_to_host` -/
def gpuTransferToHost (bufferId : Nat) (transferTask : HasherTask Payload Seed)
    (order : List Nat) (data : Bytes) : Bytes :=
  unpackShuffleScatter (context.source bufferId) transferTask order data

/-- `gpu_hash_and_transfer_to_host`. The launches do not touch the buffer that is read. -/
def gpuHashAndTransferToHost (bufferId : Nat) (hasherTask transferTask : HasherTask Payload Seed)
    (order : List Nat) (data : Bytes) : GpuContext Payload Seed × Bytes :=
  if bufferId = 0 then
    (context.hashA kernel hasherTask,
      unpackShuffleScatter context.bufferB transferTask order data)
  else
    (context.hashB kernel hasherTask,
      unpackShuffleScatter context.bufferA transferTask order data)

end context

/-- The locals of `create_gpu_hasher_thread`, with its channel and what it still has to send. -/
structure GpuThread (Payload Seed : Type) where
  context : GpuContext Payload Seed
  inbox : List (HasherTask Payload Seed)
  firstRun : Bool
  bufferId : Nat
  lastTask : HasherTask Payload Seed
  outbox : List HasherMessage

/-- A task is put into the thread's channel. -/
def GpuThread.enqueue (thread : GpuThread Payload Seed) (task : HasherTask Payload Seed) :
    GpuThread Payload Seed :=
  { thread with inbox := thread.inbox ++ [task] }

/-- The thread has some messages left to send. -/
def GpuThread.sending (thread : GpuThread Payload Seed) (outbox : List HasherMessage) :
    GpuThread Payload Seed :=
  { thread with outbox }

/-- What a turn of the thread leaves: the thread, the host's buffer and the task that it has
transferred there. -/
structure Turn (Payload Seed : Type) where
  thread : GpuThread Payload Seed
  data : Bytes
  transferred : Option (HasherTask Payload Seed)

section turn

variable {raw : Payload → Seed → Nat → Nat → Scoop} (kernel : NonceKernel raw) (gpuId : Nat)
  (thread : GpuThread Payload Seed) (task : HasherTask Payload Seed)
  (inbox : List (HasherTask Payload Seed))

/-- First run: just hash. -/
def GpuThread.firstTurn : GpuThread Payload Seed where
  context := gpuHash kernel thread.context task
  inbox := inbox
  firstRun := false
  bufferId := 1 - thread.bufferId
  lastTask := task
  outbox := [.gpuRequestForWork gpuId]

/-- Last run: just transfer. -/
def GpuThread.lastTurn : GpuThread Payload Seed :=
  { thread with
    inbox
    firstRun := true
    bufferId := 0
    outbox := [.noncesHashed thread.lastTask.localNonces] }

/-- Normal run: hash and transfer. -/
def GpuThread.normalTurn (context : GpuContext Payload Seed) : GpuThread Payload Seed where
  context := context
  inbox := inbox
  firstRun := false
  bufferId := 1 - thread.bufferId
  lastTask := task
  outbox := [.noncesHashed thread.lastTask.localNonces, .gpuRequestForWork gpuId]

/-- One turn of the thread's loop. It takes the next task when it has sent its messages. -/
def GpuThread.turn (order : List Nat) (data : Bytes) : Option (Turn Payload Seed) :=
  match thread.outbox, thread.inbox with
  | [], task :: inbox =>
    if thread.firstRun then
      if task.localNonces ≠ 0 then some ⟨thread.firstTurn kernel gpuId task inbox, data, none⟩
      else some ⟨{ thread with inbox }, data, none⟩
    else if task.localNonces = 0 then
      some
        ⟨thread.lastTurn inbox,
          gpuTransferToHost thread.context thread.bufferId thread.lastTask order data,
          some thread.lastTask⟩
    else
      let (context, data) :=
        gpuHashAndTransferToHost kernel thread.context thread.bufferId task thread.lastTask order data
      some ⟨thread.normalTurn gpuId task inbox context, data, some thread.lastTask⟩
  | _, _ => none

variable {thread}

/-- The four kinds of a turn. -/
theorem GpuThread.turn_cases {order : List Nat} {data : Bytes} {turn : Turn Payload Seed}
    (taken : thread.turn kernel gpuId order data = some turn) :
    ∃ task inbox, thread.outbox = [] ∧ thread.inbox = task :: inbox ∧
      ((thread.firstRun = true ∧ task.localNonces ≠ 0 ∧
          turn = ⟨thread.firstTurn kernel gpuId task inbox, data, none⟩) ∨
        (thread.firstRun = true ∧ task.localNonces = 0 ∧
          turn = ⟨{ thread with inbox }, data, none⟩) ∨
        (thread.firstRun = false ∧ task.localNonces = 0 ∧
          turn = ⟨thread.lastTurn inbox,
            gpuTransferToHost thread.context thread.bufferId thread.lastTask order data,
            some thread.lastTask⟩) ∨
        (thread.firstRun = false ∧ task.localNonces ≠ 0 ∧
          turn = ⟨thread.normalTurn gpuId task inbox
              (gpuHashAndTransferToHost kernel thread.context thread.bufferId task thread.lastTask
                order data).1,
            (gpuHashAndTransferToHost kernel thread.context thread.bufferId task thread.lastTask
              order data).2,
            some thread.lastTask⟩)) := by
  unfold GpuThread.turn at taken
  split at taken
  · rename_i task inbox sent next
    refine ⟨task, inbox, sent, next, ?_⟩
    split at taken
    · rename_i first
      split at taken
      · rename_i nonempty
        exact .inl ⟨first, nonempty, (Option.some.inj taken).symm⟩
      · rename_i empty
        exact .inr (.inl ⟨first, not_not.mp empty, (Option.some.inj taken).symm⟩)
    · rename_i later
      rw [Bool.not_eq_true] at later
      split at taken
      · rename_i empty
        exact .inr (.inr (.inl ⟨later, empty, (Option.some.inj taken).symm⟩))
      · rename_i nonempty
        exact .inr (.inr (.inr ⟨later, nonempty, (Option.some.inj taken).symm⟩))
  · cases taken

/-- A thread that has sent its messages takes the next task. -/
theorem GpuThread.turn_isSome (order : List Nat) (data : Bytes) (sent : thread.outbox = [])
    (next : thread.inbox ≠ []) : ∃ turn, thread.turn kernel gpuId order data = some turn := by
  obtain ⟨task, inbox, queued⟩ := List.exists_cons_of_ne_nil next
  rw [GpuThread.turn, sent, queued]
  simp only
  split
  · split
    · exact ⟨_, rfl⟩
    · exact ⟨_, rfl⟩
  · split
    · exact ⟨_, rfl⟩
    · exact ⟨_, rfl⟩

end turn

section hash

variable {raw : Payload → Seed → Nat → Nat → Scoop} (kernel : NonceKernel raw)
  (context : GpuContext Payload Seed) {task : HasherTask Payload Seed}
  (small : task.localNonces ≤ context.worksize)
include small

/-- The first run uploads the task's seed and leaves its nonces in buffer A. -/
theorem gpuHash_packed :
    Packed raw ((gpuHash kernel context task).source 1) task.addressPayload task.seed
      task.localStartnonce task.localNonces :=
  kernel.packs _ _ _ _ _ context.worksize context.bufferA_len context.worksize_blocks small

/-- The other runs leave them in the buffer that is read next. -/
theorem gpuHashAndTransferToHost_packed {bufferId : Nat} (double : bufferId ≤ 1)
    (transferTask : HasherTask Payload Seed) (order : List Nat) (data : Bytes) :
    Packed raw
      ((gpuHashAndTransferToHost kernel context bufferId task transferTask order data).1.source
        (1 - bufferId))
      context.base58 context.seed task.localStartnonce task.localNonces := by
  obtain rfl | rfl : bufferId = 0 ∨ bufferId = 1 := by omega
  · exact kernel.packs _ _ _ _ _ context.worksize context.bufferA_len context.worksize_blocks small
  · exact kernel.packs _ _ _ _ _ context.worksize context.bufferB_len context.worksize_blocks small

end hash

section hash

variable {raw : Payload → Seed → Nat → Nat → Scoop} (kernel : NonceKernel raw)
  (context : GpuContext Payload Seed) (bufferId : Nat)
  (task transferTask : HasherTask Payload Seed) (order : List Nat) (data : Bytes)

/-- They read what the last one has left. -/
theorem gpuHashAndTransferToHost_data (double : bufferId ≤ 1) :
    (gpuHashAndTransferToHost kernel context bufferId task transferTask order data).2 =
      gpuTransferToHost context bufferId transferTask order data := by
  obtain rfl | rfl : bufferId = 0 ∨ bufferId = 1 := by omega
  · rfl
  · rfl

theorem gpuHashAndTransferToHost_context :
    let after := (gpuHashAndTransferToHost kernel context bufferId task transferTask order data).1
    after.worksize = context.worksize ∧ after.base58 = context.base58 ∧
      after.seed = context.seed := by
  rw [gpuHashAndTransferToHost]
  split
  · exact ⟨rfl, rfl, rfl⟩
  · exact ⟨rfl, rfl, rfl⟩

end hash

section placed

variable {buffer : Bytes} {task : HasherTask Payload Seed}

theorem scatterBlock_len (data : Bytes) (block : Nat) :
    (scatterBlock buffer task data block).len = data.len := by
  simp only [scatterBlock]

/-- A lane of a block ends up in its column. -/
theorem scatterBlock_lane (data : Bytes) {gid scoop : Nat} (gidLt : gid < task.localNonces)
    (fits : task.chunkOffset + task.localNonces ≤ task.cacheSize) (scoopLt : scoop < numScoops) :
    scoopAt (scatterBlock buffer task data (gid / 16))
        (scoopAddress task.cacheSize scoop (task.chunkOffset + gid)) =
      extractScoopFromInterleaved (gpuBlock buffer (gid / 16)) 16 (gid % 16) scoop := by
  apply Scoop.ext
  funext z
  have column : task.chunkOffset + gid = 16 * (gid / 16) + task.chunkOffset + gid % 16 := by omega
  simp only [scoopAt, scatterBlock]
  rw [column, copies_lane _ _ _ (by omega) z scoopLt (by omega) rfl]
  simp only [extractScoopFromInterleaved, gpuBlock, bufferOffset, copyOf, Nat.mul_comm 4]

/-- The other columns stay as they are. -/
theorem scatterBlock_other (data : Bytes) {block scoop column : Nat}
    (fits : task.chunkOffset + task.localNonces ≤ task.cacheSize)
    (columnLt : column < task.cacheSize)
    (apart : column < task.chunkOffset + 16 * block ∨
      task.chunkOffset + task.localNonces ≤ column ∨ task.chunkOffset + 16 * block + 16 ≤ column) :
    scoopAt (scatterBlock buffer task data block) (scoopAddress task.cacheSize scoop column) =
      scoopAt data (scoopAddress task.cacheSize scoop column) := by
  apply Scoop.ext
  funext z
  simp only [scoopAt, scatterBlock]
  by_cases begun : 16 * block ≤ task.localNonces
  · exact copies_other _ _ _ (by omega) z columnLt (by omega)
  · apply Scatter.run_outside
    intro copy listed
    obtain ⟨i, j, k, b⟩ := copy
    obtain ⟨-, -, kLt, -⟩ := (mem_copies _ i j k b).mp listed
    omega

variable {raw : Payload → Seed → Nat → Nat → Scoop}

/-- The blocks bring their columns, and no other one, in whatever order. -/
theorem foldl_scatterBlock
    (packed : Packed raw buffer task.addressPayload task.seed task.localStartnonce
      task.localNonces)
    (fits : task.chunkOffset + task.localNonces ≤ task.cacheSize) (order : List Nat)
    (data : Bytes) :
    (order.foldl (scatterBlock buffer task) data).len = data.len ∧
      (∀ scoop < numScoops, ∀ gid < task.localNonces,
        gid / 16 ∈ order ∨
          scoopAt data (scoopAddress task.cacheSize scoop (task.chunkOffset + gid)) =
            raw task.addressPayload task.seed (task.localStartnonce + gid) scoop →
        scoopAt (order.foldl (scatterBlock buffer task) data)
            (scoopAddress task.cacheSize scoop (task.chunkOffset + gid)) =
          raw task.addressPayload task.seed (task.localStartnonce + gid) scoop) ∧
      ∀ scoop column, column < task.cacheSize →
        column < task.chunkOffset ∨ task.chunkOffset + task.localNonces ≤ column →
        scoopAt (order.foldl (scatterBlock buffer task) data)
            (scoopAddress task.cacheSize scoop column) =
          scoopAt data (scoopAddress task.cacheSize scoop column) := by
  induction order generalizing data with
  | nil =>
    refine ⟨rfl, ?_, fun _ _ _ _ => rfl⟩
    intro scoop _ gid _ present
    rcases present with listed | present
    · cases listed
    · exact present
  | cons block order ih =>
    obtain ⟨len, inside, outside⟩ := ih (scatterBlock buffer task data block)
    rw [List.foldl_cons]
    refine ⟨len.trans (scatterBlock_len data block), ?_, ?_⟩
    · intro scoop scoopLt gid gidLt present
      apply inside scoop scoopLt gid gidLt
      by_cases here : gid / 16 = block
      · right
        rw [← here, scatterBlock_lane data gidLt fits scoopLt, packed gid gidLt scoop scoopLt]
      · rcases present with listed | present
        · left
          exact (List.mem_cons.mp listed).resolve_left here
        · right
          rw [scatterBlock_other data fits (by omega) (by omega), present]
    · intro scoop column columnLt apart
      rw [outside scoop column columnLt apart,
        scatterBlock_other data fits columnLt (by omega)]

/-- A transfer places the nonces of its task. -/
theorem unpackShuffleScatter_placed
    (packed : Packed raw buffer task.addressPayload task.seed task.localStartnonce
      task.localNonces)
    (fits : task.chunkOffset + task.localNonces ≤ task.cacheSize) {order : List Nat}
    (spawned : order.Perm (List.range (blocksOf task))) (data : Bytes)
    (sized : data.len / nonceSize = task.cacheSize) :
    Placed raw data (unpackShuffleScatter buffer task order data) task.chunkOffset
      task.addressPayload task.seed task.localStartnonce task.localNonces := by
  obtain ⟨len, inside, outside⟩ := foldl_scatterBlock packed fits order data
  refine ⟨len, ?_, ?_⟩
  · intro scoop gid scoopLt gidLt
    rw [sized]
    apply inside scoop scoopLt gid gidLt
    left
    rw [spawned.mem_iff, List.mem_range, blocksOf]
    omega
  · intro scoop column _ columnLt apart
    rw [sized] at columnLt ⊢
    exact outside scoop column columnLt apart

end placed

end Pocx.GpuHasher
