import Mathlib.Logic.Relation
import Pocx.Miner.MiningRound

set_option autoImplicit false

namespace Pocx.MiningRound

open ByteStore
open PlotFile (scoopSize numScoops warpSize fileOffset)
open Hashlib
open Hasher (HashingTask SubmissionParameters calcQualities hexEncode)
open NonceFilter (Miner MiningInfo ChainState Forwarded Competes ComputedFor Follows adjustedQuality
  maxQuality targetQuality)
open ReadDisk (CompressionConfig Plot ReadReply ScanMessage Supply plotAction readDisk xorChunk)
open Transition (System Reachable always)

section Sources

variable {setup : Setup} {state after : State}

/-- The task of the pool is one of an earlier round, or that of a data message. -/
def TaskOf (setup : Setup) (task : HashingTask) : Prop :=
  task ∈ setup.tasks ∨ ∃ disk ∈ setup.disks, ∃ index reply,
    .data index reply ∈ setup.messages disk ∧ setup.round.hashingTask reply = task

/-- The nonce is one of an earlier round, or that of a data message. -/
def NonceOf (setup : Setup) (sent : Nat × SubmissionParameters) : Prop :=
  sent ∈ setup.nonceData ∨ (∃ task ∈ setup.tasks, calcQualities setup.platform task = sent) ∨
    ∃ disk ∈ setup.disks, ∃ index reply,
      .data index reply ∈ setup.messages disk ∧ setup.sends reply = sent

theorem TaskOf.hashed {task : HashingTask} (source : TaskOf setup task) :
    NonceOf setup (calcQualities setup.platform task) := by
  rcases source with earlier | ⟨disk, listed, index, reply, data, rfl⟩
  · exact Or.inr (Or.inl ⟨task, earlier, rfl⟩)
  · exact Or.inr (Or.inr ⟨disk, listed, index, reply, data, rfl⟩)

/-- Where what the round handles comes from. -/
structure Sourced (setup : Setup) (state : State) : Prop where
  unread : ∀ (index : Nat) rest, state.unread[index]? = some rest →
    ∃ disk ∈ setup.disks, ∃ read, setup.messages disk = read ++ rest
  tasks : ∀ task ∈ state.tasks, TaskOf setup task
  nonceData : ∀ sent ∈ state.nonceData, NonceOf setup sent
  forwarded : ∀ sent ∈ state.filter.forwarded,
    sent ∈ setup.filter.forwarded ∨ NonceOf setup (sent.chainId, sent.parameters)

/-- A received message is one of its disk. -/
theorem Sourced.message (sourced : Sourced setup state) {index : Nat} {message : ScanMessage}
    {rest : List ScanMessage} (found : state.unread[index]? = some (message :: rest)) :
    ∃ disk ∈ setup.disks, message ∈ setup.messages disk := by
  obtain ⟨disk, listed, read, sent⟩ := sourced.unread index _ found
  refine ⟨disk, listed, ?_⟩
  rw [sent]
  exact List.mem_append_right _ List.mem_cons_self

theorem Sourced.receive (noGpu : setup.gpuContext = none) (sourced : Sourced setup state)
    {index : Nat} {message : ScanMessage} {rest : List ScanMessage}
    (found : state.unread[index]? = some (message :: rest)) :
    Sourced setup (state.receive setup index message rest) := by
  obtain ⟨disk, listed, member⟩ := sourced.message found
  have unread : ∀ (other : Nat) left, (state.unread.set index rest)[other]? = some left →
      ∃ disk ∈ setup.disks, ∃ read, setup.messages disk = read ++ left := by
    intro other left foundLeft
    rw [List.getElem?_set] at foundLeft
    split at foundLeft
    · split at foundLeft
      · obtain rfl := Option.some.inj foundLeft
        obtain ⟨own, ownListed, read, sent⟩ := sourced.unread index _ found
        refine ⟨own, ownListed, read ++ [message], ?_⟩
        rw [sent, List.append_assoc, List.singleton_append]
      · cases foundLeft
    · exact sourced.unread other left foundLeft
  obtain ⟨-, tasks, nonceData, forwarded⟩ := sourced
  cases message with
  | data plot reply =>
    simp only [State.receive, count_noGpu noGpu]
    split
    · exact ⟨unread, tasks, nonceData, forwarded⟩
    · refine ⟨unread, ?_, nonceData, forwarded⟩
      intro task inPool
      rcases List.mem_append.mp inPool with before | new
      · exact tasks task before
      · exact Or.inr ⟨disk, listed, plot, reply, member, (List.mem_singleton.mp new).symm⟩
  | scanFinished => exact ⟨unread, tasks, nonceData, forwarded⟩
  | scanInterrupted => exact ⟨unread, tasks, nonceData, forwarded⟩
  | warpsProcessed warps => exact ⟨unread, tasks, nonceData, forwarded⟩

theorem Sourced.step (noGpu : setup.gpuContext = none) {label : Label}
    (sourced : Sourced setup state) (taken : state.step setup label = some after) :
    Sourced setup after := by
  cases label with
  | receive disk =>
    simp only [State.step] at taken
    split at taken
    · rename_i message rest running found
      obtain rfl := Option.some.inj taken
      exact sourced.receive noGpu found
    · cases taken
  | hash index =>
    obtain ⟨task, found, rfl⟩ := Option.map_eq_some_iff.mp taken
    obtain ⟨unread, tasks, nonceData, forwarded⟩ := sourced
    refine ⟨unread, fun other member => tasks other (List.mem_of_mem_eraseIdx member), ?_, forwarded⟩
    intro sent member
    rcases List.mem_append.mp member with before | new
    · exact nonceData sent before
    · rw [List.mem_singleton.mp new]
      exact (tasks task (List.mem_of_getElem? found)).hashed
  | submit =>
    simp only [State.step] at taken
    split at taken
    · cases taken
    · rename_i chainId parameters rest channel
      obtain ⟨filter, submitted, rfl⟩ := Option.map_eq_some_iff.mp taken
      obtain ⟨unread, tasks, nonceData, forwarded⟩ := sourced
      rw [channel] at nonceData
      obtain ⟨own, later⟩ := List.forall_mem_cons.mp nonceData
      refine ⟨unread, tasks, later, ?_⟩
      rcases nonce_forwarded submitted with same | ⟨quality, grown⟩
      · rw [same]
        exact forwarded
      · rw [grown]
        exact List.forall_mem_cons.mpr ⟨Or.inr own, forwarded⟩
  | miningInfo chainId miningInfo =>
    obtain ⟨filter, came, rfl⟩ := Option.map_eq_some_iff.mp taken
    obtain ⟨unread, tasks, nonceData, forwarded⟩ := sourced
    refine ⟨unread, tasks, nonceData, ?_⟩
    rw [miningInfo_forwarded came]
    exact forwarded

theorem sourced_reachable (noGpu : setup.gpuContext = none)
    (reached : Reachable (system setup) always state) : Sourced setup state := by
  refine reached.invariant (Sourced setup) ?_ ?_
  · rintro _ rfl
    refine ⟨?_, fun _ member => Or.inl member, fun _ member => Or.inl member,
      fun _ member => Or.inl member⟩
    intro index rest found
    rw [Setup.start, List.getElem?_map] at found
    obtain ⟨disk, listed, rfl⟩ := Option.map_eq_some_iff.mp found
    exact ⟨disk, List.mem_of_getElem? listed, [], rfl⟩
  · intro before label after sourced _ taken
    exact sourced.step noGpu taken

end Sources

section Progress

variable {setup : Setup} {state after : State}

/-- The tasks of the pool and the nonces of the channel are for blocks of their chains. -/
structure Computed (setup : Setup) (state : State) : Prop where
  reached : Reachable (NonceFilter.system setup.miner) always state.filter
  listed : setup.block.info ∈ state.filter.blocks setup.chainId
  tasks : ∀ task ∈ state.tasks, ∃ miningInfo ∈ state.filter.blocks task.chainId,
    task.blockHash = miningInfo.blockHash ∧
      hexEncode task.generationSignatureBytes = miningInfo.generationSignature.toLower
  nonceData : ∀ sent ∈ state.nonceData, ∃ miningInfo ∈ state.filter.blocks sent.1,
    ComputedFor sent.2.nonceSubmission miningInfo

theorem Computed.receive (computed : Computed setup state) (disk : Nat) (message : ScanMessage)
    (rest : List ScanMessage) : Computed setup (state.receive setup disk message rest) := by
  obtain ⟨reached, listed, tasks, nonceData⟩ := computed
  cases message with
  | scanFinished => exact ⟨reached, listed, tasks, nonceData⟩
  | scanInterrupted => exact ⟨reached, listed, tasks, nonceData⟩
  | warpsProcessed warps => exact ⟨reached, listed, tasks, nonceData⟩
  | data plot reply =>
    simp only [State.receive, State.count, State.hash]
    split
    · exact ⟨reached, listed, tasks, nonceData⟩
    · split
      · -- The GPU sends the nonce at once.
        refine ⟨reached, listed, tasks, ?_⟩
        intro sent member
        rcases List.mem_append.mp member with before | new
        · exact nonceData sent before
        · obtain ⟨best, sends⟩ := Ocl.processTask_submission _ setup.platform
            (setup.round.hashingTask reply)
          rw [List.mem_singleton.mp new, sends]
          exact ⟨setup.block.info, listed, rfl, decoded_signature setup⟩
      · refine ⟨reached, listed, ?_, nonceData⟩
        intro task member
        rcases List.mem_append.mp member with before | new
        · exact tasks task before
        · rw [List.mem_singleton.mp new]
          exact ⟨setup.block.info, listed, rfl, decoded_signature setup⟩

theorem Computed.step {label : Label} (computed : Computed setup state)
    (taken : state.step setup label = some after) : Computed setup after := by
  cases label with
  | receive disk =>
    simp only [State.step] at taken
    split at taken
    · obtain rfl := Option.some.inj taken
      exact computed.receive disk _ _
    · cases taken
  | hash index =>
    obtain ⟨task, found, rfl⟩ := Option.map_eq_some_iff.mp taken
    obtain ⟨reached, listed, tasks, nonceData⟩ := computed
    refine ⟨reached, listed, fun other member => tasks other (List.mem_of_mem_eraseIdx member), ?_⟩
    intro sent member
    rcases List.mem_append.mp member with before | new
    · exact nonceData sent before
    · rw [List.mem_singleton.mp new]
      exact tasks task (List.mem_of_getElem? found)
  | submit =>
    simp only [State.step] at taken
    split at taken
    · cases taken
    · rename_i chainId parameters rest channel
      obtain ⟨filter, submitted, rfl⟩ := Option.map_eq_some_iff.mp taken
      have blocks := nonce_blocks submitted
      have moved : (NonceFilter.system setup.miner).step state.filter (.nonce chainId parameters) =
          some filter := submitted
      obtain ⟨reached, listed, tasks, nonceData⟩ := computed
      rw [channel] at nonceData
      refine ⟨reached.next trivial moved, ?_, ?_, ?_⟩
      · simp only [blocks]
        exact listed
      · simp only [blocks]
        exact tasks
      · simp only [blocks]
        exact (List.forall_mem_cons.mp nonceData).2
  | miningInfo chainId miningInfo =>
    obtain ⟨filter, came, rfl⟩ := Option.map_eq_some_iff.mp taken
    have moved : (NonceFilter.system setup.miner).step state.filter
        (.miningInfo chainId miningInfo) = some filter := came
    obtain ⟨reached, listed, tasks, nonceData⟩ := computed
    refine ⟨reached.next trivial moved, miningInfo_blocks came listed, ?_, ?_⟩
    · intro task member
      obtain ⟨known, present, same⟩ := tasks task member
      exact ⟨known, miningInfo_blocks came present, same⟩
    · intro sent member
      obtain ⟨known, present, same⟩ := nonceData sent member
      exact ⟨known, miningInfo_blocks came present, same⟩

theorem computed_reachable (reached : Reachable (system setup) always state) :
    Computed setup state := by
  refine reached.invariant (Computed setup) ?_ ?_
  · rintro _ rfl
    exact ⟨setup.reached, setup.listed, setup.tasksComputed, setup.nonceDataComputed⟩
  · intro before label after computed _ taken
    exact computed.step taken

theorem reached_anyway (reached : Reachable (system setup) (keepsBlock setup) state) :
    Reachable (system setup) always state := reached.mono fun _ _ _ => trivial

/-- The submission task takes every nonce of the channel. -/
theorem submit_enabled (computed : Computed setup state) {sent : Nat × SubmissionParameters}
    {rest : List (Nat × SubmissionParameters)} (channel : state.nonceData = sent :: rest) :
    ∃ filter, NonceFilter.step setup.miner state.filter (.nonce sent.1 sent.2) = some filter := by
  have known := computed.nonceData sent (by rw [channel]; exact List.mem_cons_self)
  rw [NonceFilter.step, if_pos known]
  split
  · exact ⟨_, rfl⟩
  · exact ⟨_, rfl⟩

/-- All tasks can be hashed and all nonces submitted. The induction is on what is left of both. -/
theorem drains (bound : Nat) (state : State)
    (reached : Reachable (system setup) (keepsBlock setup) state)
    (fits : 2 * state.tasks.length + state.nonceData.length ≤ bound) :
    ∃ final, Reachable (system setup) (keepsBlock setup) final ∧ final.tasks = [] ∧
      final.nonceData = [] ∧ final.concluded = state.concluded ∧
      final.interruptedCount = state.interruptedCount := by
  induction bound generalizing state with
  | zero =>
    have tasks : state.tasks = [] := List.eq_nil_of_length_eq_zero (by omega)
    have nonceData : state.nonceData = [] := List.eq_nil_of_length_eq_zero (by omega)
    exact ⟨state, reached, tasks, nonceData, rfl, rfl⟩
  | succ bound ih =>
    cases tasks : state.tasks with
    | cons task rest =>
      have taken : (system setup).step state (.hash 0) = some
          { state with
            tasks := rest
            nonceData := state.nonceData ++ [calcQualities setup.platform task] } := by
        simp only [system, State.step, tasks]
        rfl
      have allowed : keepsBlock setup state (.hash 0) := trivial
      rw [tasks, List.length_cons] at fits
      have less : 2 * rest.length +
          (state.nonceData ++ [calcQualities setup.platform task]).length ≤ bound := by
        rw [List.length_append, List.length_singleton]
        omega
      have moved := reached.next allowed taken
      have drained := ih _ moved less
      exact drained
    | nil =>
      cases channel : state.nonceData with
      | nil => exact ⟨state, reached, tasks, channel, rfl, rfl⟩
      | cons sent rest =>
        obtain ⟨filter, submitted⟩ :=
          submit_enabled (computed_reachable (reached_anyway reached)) channel
        have taken : (system setup).step state .submit = some
            { state with nonceData := rest, filter := filter } := by
          simp only [system, State.step, channel]
          rw [submitted]
          rfl
        have allowed : keepsBlock setup state .submit := trivial
        rw [tasks, channel, List.length_cons] at fits
        have less : 2 * state.tasks.length + rest.length ≤ bound := by
          rw [tasks]
          simp only [List.length_nil] at fits ⊢
          omega
        have moved := reached.next allowed taken
        have drained := ih _ moved less
        exact drained

theorem flatten_set {α : Type} {items : List (List α)} {index : Nat} {first : α} {rest : List α}
    (found : items[index]? = some (first :: rest)) :
    (items.set index rest).flatten.length + 1 = items.flatten.length := by
  induction items generalizing index with
  | nil => cases found
  | cons item items ih =>
    cases index with
    | zero =>
      obtain rfl := Option.some.inj found
      simp only [List.set_cons_zero, List.flatten_cons, List.length_append, List.length_cons]
      omega
    | succ index =>
      have less := ih found
      simp only [List.set_cons_succ, List.flatten_cons, List.length_append]
      omega

theorem messages_calm (setup : Setup) {disk : Disk} (calm : ReadDisk.Calm disk.supply) :
    .scanFinished ∈ setup.messages disk ∧ .scanInterrupted ∉ setup.messages disk :=
  ReadDisk.readDisk_calm calm _ _ _ _

/-- Nothing has interrupted the round, and it goes on until all disks are counted. -/
structure Unbroken (setup : Setup) (state : State) : Prop where
  uninterrupted : state.interruptedCount = 0
  goesOn : state.concluded = false → state.finishedCount ≠ setup.disks.length

theorem Unbroken.step (calm : ∀ disk ∈ setup.disks, ReadDisk.Calm disk.supply) {label : Label}
    (sourced : Sourced setup state) (unbroken : Unbroken setup state)
    (taken : state.step setup label = some after) : Unbroken setup after := by
  cases label with
  | receive index =>
    simp only [State.step] at taken
    split at taken
    · rename_i message rest running found
      obtain rfl := Option.some.inj taken
      obtain ⟨disk, listed, member⟩ := sourced.message found
      have uninterrupted : (state.receive setup index message rest).interruptedCount = 0 := by
        cases message with
        | scanInterrupted => exact absurd member (messages_calm setup (calm disk listed)).2
        | scanFinished => exact unbroken.uninterrupted
        | warpsProcessed warps => exact unbroken.uninterrupted
        | data plot reply =>
          exact (count_data setup state plot reply).2.2.2.trans unbroken.uninterrupted
      refine ⟨uninterrupted, ?_⟩
      intro running all
      have unfinished := beq_eq_false_iff_ne.mp running
      apply unfinished
      have counted : (state.count setup message).finishedCount = setup.disks.length := all
      have none : (state.count setup message).interruptedCount = 0 := uninterrupted
      rw [counted, none, Nat.zero_add]
    · cases taken
  | hash index =>
    obtain ⟨task, found, rfl⟩ := Option.map_eq_some_iff.mp taken
    exact ⟨unbroken.uninterrupted, unbroken.goesOn⟩
  | submit =>
    simp only [State.step] at taken
    split at taken
    · cases taken
    · obtain ⟨filter, submitted, rfl⟩ := Option.map_eq_some_iff.mp taken
      exact ⟨unbroken.uninterrupted, unbroken.goesOn⟩
  | miningInfo chainId miningInfo =>
    obtain ⟨filter, came, rfl⟩ := Option.map_eq_some_iff.mp taken
    exact ⟨unbroken.uninterrupted, unbroken.goesOn⟩

theorem unbroken_reachable (noGpu : setup.gpuContext = none)
    (calm : ∀ disk ∈ setup.disks, ReadDisk.Calm disk.supply) (mines : setup.disks ≠ [])
    (reached : Reachable (system setup) always state) : Unbroken setup state := by
  induction reached with
  | start initial =>
    obtain rfl := initial
    exact ⟨rfl, fun _ none => mines (List.eq_nil_of_length_eq_zero none.symm)⟩
  | next before _ taken ih => exact ih.step calm (sourced_reachable noGpu before) taken

/-- A round that has not ended has a message to receive. -/
theorem receive_enabled (cpu : setup.OnCpu) (newest : setup.Newest)
    (calm : ∀ disk ∈ setup.disks, ReadDisk.Calm disk.supply) (mines : setup.disks ≠ [])
    (reached : Reachable (system setup) (keepsBlock setup) state)
    (running : state.concluded = false) :
    ∃ (index : Nat) (message : ScanMessage) (rest : List ScanMessage),
      state.unread[index]? = some (message :: rest) := by
  have invariant := invariant_reachable cpu newest reached
  have unbroken := unbroken_reachable cpu.noGpu calm mines (reached_anyway reached)
  have all : (setup.disks.map setup.messages).countP (fun sent => sent.any isFinished) =
      (setup.disks.map setup.messages).length := by
    refine List.countP_eq_length.mpr ?_
    intro sent member
    obtain ⟨disk, listed, rfl⟩ := List.mem_map.mp member
    exact List.any_eq_true.mpr ⟨_, (messages_calm setup (calm disk listed)).1, rfl⟩
  have counted := invariant.counted
  have missing := unbroken.goesOn running
  rw [all, List.length_map] at counted
  have waiting : 0 < state.unread.countP (fun rest => rest.any isFinished) := by omega
  obtain ⟨rest, member, finishing⟩ := List.countP_pos_iff.mp waiting
  obtain ⟨index, found⟩ := List.mem_iff_getElem?.mp member
  cases rest with
  | nil => cases finishing
  | cons message rest => exact ⟨index, message, rest, found⟩

/-- The round can receive all messages. The induction is on how many are left. -/
theorem receives (cpu : setup.OnCpu) (newest : setup.Newest)
    (calm : ∀ disk ∈ setup.disks, ReadDisk.Calm disk.supply) (mines : setup.disks ≠ [])
    (bound : Nat) (state : State)
    (reached : Reachable (system setup) (keepsBlock setup) state)
    (fits : state.unread.flatten.length ≤ bound) :
    ∃ final, Reachable (system setup) (keepsBlock setup) final ∧ final.concluded = true := by
  induction bound generalizing state with
  | zero =>
    cases running : state.concluded with
    | true => exact ⟨state, reached, running⟩
    | false =>
      obtain ⟨index, message, rest, found⟩ := receive_enabled cpu newest calm mines reached running
      have less := flatten_set found
      omega
  | succ bound ih =>
    cases running : state.concluded with
    | true => exact ⟨state, reached, running⟩
    | false =>
      obtain ⟨index, message, rest, found⟩ := receive_enabled cpu newest calm mines reached running
      have taken : (system setup).step state (.receive index) =
          some (state.receive setup index message rest) := by
        simp only [system, State.step, running, found]
      have allowed : keepsBlock setup state (.receive index) := trivial
      have less := flatten_set found
      have moved := reached.next allowed taken
      refine ih _ moved ?_
      rw [receive_unread]
      omega

/-- From every state of a round that is not interrupted, it can end with all nonces submitted. -/
theorem round_completes (cpu : setup.OnCpu) (newest : setup.Newest)
    (calm : ∀ disk ∈ setup.disks, ReadDisk.Calm disk.supply) (mines : setup.disks ≠ [])
    (reached : Reachable (system setup) (keepsBlock setup) state) :
    ∃ final, Reachable (system setup) (keepsBlock setup) final ∧ final.concluded = true ∧
      final.interruptedCount = 0 ∧ final.tasks = [] ∧ final.nonceData = [] := by
  obtain ⟨ended, endedReached, concluded⟩ :=
    receives cpu newest calm mines _ state reached (Nat.le_refl _)
  obtain ⟨final, finalReached, hashed, submitted, same, -⟩ :=
    drains _ ended endedReached (Nat.le_refl _)
  have unbroken := unbroken_reachable cpu.noGpu calm mines (reached_anyway finalReached)
  exact ⟨final, finalReached, same.trans concluded, unbroken.uninterrupted, hashed, submitted⟩

theorem adjustedQuality_mono {quality worse : UInt64} (le : quality ≤ worse) (baseTarget : UInt64) :
    adjustedQuality quality baseTarget ≤ adjustedQuality worse baseTarget := by
  rw [adjustedQuality, adjustedQuality]
  split
  · exact UInt64.le_refl _
  · rw [UInt64.le_iff_toNat_le, UInt64.toNat_div, UInt64.toNat_div]
    exact Nat.div_le_div_right (UInt64.le_iff_toNat_le.mp le)

theorem Considered.worse {miner : Miner} {filter : NonceFilter.State} {chainId : Nat}
    {miningInfo : MiningInfo} {accountId : String} {quality worse : UInt64}
    (considered : Considered miner filter chainId miningInfo accountId quality)
    (le : quality ≤ worse) : Considered miner filter chainId miningInfo accountId worse := by
  rcases considered with target | ⟨sent, member, chain, competes, signature, better⟩
  · exact Or.inl (UInt64.le_trans target le)
  · exact Or.inr ⟨sent, member, chain, competes, signature, UInt64.le_trans better le⟩

/-- When all is hashed and submitted, the filter has considered every nonce of every mined plot. -/
theorem Invariant.considers (invariant : Invariant setup state) (reference : Platform)
    (concluded : state.concluded = true) (uninterrupted : state.interruptedCount = 0)
    (hashed : state.tasks = []) (submitted : state.nonceData = []) {disk : Disk}
    (listed : disk ∈ setup.disks) {index : Nat} {plot : Plot} {seed : U8s 32}
    (mined : Mined setup disk index plot seed) {nonce : Nat}
    (nonceLt : nonce <
      plot.numberOfWarps / 2 ^ (plotAction plot setup.compressionConfig).steps * numScoops) :
    ∃ quality, calculateQualityRaw reference plot.base58Decoded seed nonce
        (plot.compression + (plotAction plot setup.compressionConfig).steps)
        setup.decoded.scoop setup.decoded.generationSignatureBytes = .ok quality ∧
      Considered setup.miner state.filter setup.chainId setup.block.info
        (hexEncode plot.base58Decoded) (adjustedQuality quality setup.block.info.baseTarget) := by
  obtain ⟨finished, handled⟩ := invariant.finished concluded uninterrupted listed
  obtain ⟨reply, data, valid, behind, below⟩ := mined.told listed finished nonceLt
  obtain ⟨quality, computed, best⟩ := sends_least reference valid behind below
  refine ⟨quality, computed, ?_⟩
  rcases handled index reply data with waits | passes | considered
  · rw [hashed] at waits
    cases waits
  · rw [submitted] at passes
    cases passes
  · rw [← valid.account]
    exact considered.worse (adjustedQuality_mono best _)

end Progress

/-- In every round that hashes on the CPU and is not interrupted, while its block stays the newest
of its chain: when all is hashed and submitted, each nonce of each plot that it mines misses the
target of its account, or one as good was handed to the request handler under the generation
signature of the block, which is for the block unless the chain went through another block with
this signature. All that was handed over in the round was left by an earlier round or validates. -/
theorem round_finds_best (setup : Setup) (cpu : setup.OnCpu) (newest : setup.Newest)
    (reference : Platform) (state : State)
    (reached : Reachable (system setup) (keepsBlock setup) state)
    (concluded : state.concluded = true)
    (uninterrupted : state.interruptedCount = 0) (hashed : state.tasks = [])
    (submitted : state.nonceData = []) :
    (∀ disk ∈ setup.disks, ∀ index plot seed, Mined setup disk index plot seed →
        ∀ nonce <
            plot.numberOfWarps / 2 ^ (plotAction plot setup.compressionConfig).steps * numScoops,
          ∃ quality, calculateQualityRaw reference plot.base58Decoded seed nonce
              (plot.compression + (plotAction plot setup.compressionConfig).steps)
              setup.decoded.scoop setup.decoded.generationSignatureBytes = .ok quality ∧
            Considered setup.miner state.filter setup.chainId setup.block.info
              (hexEncode plot.base58Decoded)
              (adjustedQuality quality setup.block.info.baseTarget)) ∧
      ((∀ known ∈ state.filter.blocks setup.chainId, known.generationSignature.toLower =
            setup.block.info.generationSignature.toLower →
          known.blockHash = setup.block.info.blockHash) →
        ∀ sent ∈ state.filter.forwarded, sent.chainId = setup.chainId →
          sent.parameters.nonceSubmission.generationSignature =
            setup.block.info.generationSignature.toLower →
          sent.parameters.nonceSubmission.blockHash = setup.block.info.blockHash) ∧
      ∀ sent ∈ state.filter.forwarded, sent ∈ setup.filter.forwarded ∨
        (sent.chainId, sent.parameters) ∈ setup.nonceData ∨
        (∃ task ∈ setup.tasks, calcQualities setup.platform task = (sent.chainId, sent.parameters)) ∨
        ∃ disk ∈ setup.disks, ∃ index reply, .data index reply ∈ setup.messages disk ∧
          setup.sends reply = (sent.chainId, sent.parameters) ∧
          ∀ plot seed, Mined setup disk index plot seed →
            ReadDisk.Validates reference plot seed setup.decoded.scoop
              (plotAction plot setup.compressionConfig).steps
              setup.decoded.generationSignatureBytes sent.parameters.nonceSubmission := by
  have invariant := invariant_reachable cpu newest reached
  have sourced := sourced_reachable cpu.noGpu (reached_anyway reached)
  refine ⟨?_, ?_, ?_⟩
  · intro disk listed index plot seed mined nonce nonceLt
    exact invariant.considers reference concluded uninterrupted hashed submitted listed mined nonceLt
  · intro alone sent member chain signature
    obtain ⟨known, listed, hash, computed⟩ := forwarded_computed invariant.reached sent member
    rw [chain] at listed
    rw [hash]
    exact alone known listed (computed.symm.trans signature)
  · intro sent member
    rcases sourced.forwarded sent member with
      before | earlier | leftover | ⟨disk, listed, index, reply, data, same⟩
    · exact Or.inl before
    · exact Or.inr (Or.inl earlier)
    · exact Or.inr (Or.inr (Or.inl leftover))
    · refine Or.inr (Or.inr (Or.inr ⟨disk, listed, index, reply, data, same, ?_⟩))
      intro plot seed mined
      rw [← (Prod.mk.inj same).2]
      exact ((mined.observed listed).1 reply data).validates (scoop_lt setup) setup.platform
        reference setup.round

section Sample

def firstBlock : Block where
  info := { NonceFilter.block NonceFilter.zeroSignature "a" with baseTarget := 2 }
  height := 7
  minimumCompressionLevel := 1
  targetCompressionLevel := 5

/-- The filter of a pool miner behind its first block. -/
def firstFilter : NonceFilter.State :=
  { NonceFilter.start with
    chainStates := Function.update NonceFilter.start.chainStates 0
      ((NonceFilter.start.chainStates 0).updateMiningInfo firstBlock.info
        (NonceFilter.poolMiner.chains 0) NonceFilter.poolMiner.knownAccountPayloads)
    blocks := Function.update NonceFilter.start.blocks 0 [firstBlock.info] }

theorem firstFilter_reached :
    Reachable (NonceFilter.system NonceFilter.poolMiner) always firstFilter := by
  have moved : (NonceFilter.system NonceFilter.poolMiner).step NonceFilter.start
      (.miningInfo 0 firstBlock.info) = some firstFilter := rfl
  exact (Reachable.start rfl).next trivial moved

def oneWarpPlot : Plot := ReadDisk.levelPlot (fun _ => 0) (fun _ => 0) "00" 1 1

def oneWarpDisk : Disk where
  plots := [oneWarpPlot]
  supply := ReadDisk.twoWarpSupply

theorem oneWarpDisk_sized (disk : Disk) (listed : disk ∈ [oneWarpDisk]) (i : Nat) (buffer : Bytes)
    (received : disk.supply.rxEmptyBuffer i = some buffer) :
    buffer.len = 2 * (numScoops * scoopSize) := by
  obtain rfl := List.mem_singleton.mp listed
  exact ReadDisk.twoWarpSupply_sized i buffer received

/-- The first round of a pool miner of one disk with a plot of one warp. -/
def oneWarpRound (decoded : DecodedMiningInfo)
    (decodes : DecodedMiningInfo.new firstBlock = some decoded) : Setup where
  miner := NonceFilter.poolMiner
  platform := scalarPlatform .other
  gpuContext := none
  ioBench := false
  simd := false
  enableOnTheFlyCompression := false
  hddReadCacheInWarps := 2
  cached := by decide
  maxCompressionSteps := 0
  validated := rfl
  disks := [oneWarpDisk]
  buffers := oneWarpDisk_sized
  chainId := 0
  chainName := "chain"
  blockCount := 1
  block := firstBlock
  decoded := decoded
  decodes := decodes
  tasks := []
  nonceData := []
  filter := firstFilter
  reached := firstFilter_reached
  listed := List.mem_cons_self
  tasksComputed := fun _ none => absurd none List.not_mem_nil
  nonceDataComputed := fun _ none => absurd none List.not_mem_nil

theorem firstBlock_decodes : ∃ decoded, DecodedMiningInfo.new firstBlock = some decoded := by
  have readable : (DecodedMiningInfo.new firstBlock).isSome = true := by
    decide +kernel
  exact Option.isSome_iff_exists.mp readable

variable {setup : Setup}

theorem oneWarpDisk_completes (cpu : setup.OnCpu) (newest : setup.Newest)
    (disks : setup.disks = [oneWarpDisk]) :
    ∃ final, Reachable (system setup) (keepsBlock setup) final ∧ final.concluded = true ∧
      final.interruptedCount = 0 ∧ final.tasks = [] ∧ final.nonceData = [] := by
  have calm : ∀ disk ∈ setup.disks, ReadDisk.Calm disk.supply := by
    intro disk listed
    rw [disks, List.mem_singleton] at listed
    rw [listed]
    exact ReadDisk.twoWarpSupply_calm
  have mines : setup.disks ≠ [] := by
    rw [disks]
    exact List.cons_ne_nil _ _
  have begun : Reachable (system setup) (keepsBlock setup) setup.start := .start rfl
  exact round_completes cpu newest calm mines begun

theorem oneWarpPlot_action (uncompressed : setup.enableOnTheFlyCompression = false) :
    plotAction oneWarpPlot setup.compressionConfig = .mineNormal := by
  rw [Setup.compressionConfig, uncompressed, if_neg Bool.false_ne_true]
  rfl

theorem oneWarpPlot_mined (uncompressed : setup.enableOnTheFlyCompression = false) :
    Mined setup oneWarpDisk 0 oneWarpPlot (fun _ => 0) where
  found := rfl
  holds := plotted_holdsScoop
    (ReadDisk.levelPlot_plotted (scalarPlatform .other) (fun _ => 0) (fun _ => 0) "00" 1 1)
    (scoop_lt setup)
  level := Nat.le_refl 1
  fromStart := rfl
  kept := by
    intro reason
    rw [oneWarpPlot_action uncompressed]
    exact ReadDisk.CompressionAction.noConfusion
  levelFits := by
    rw [oneWarpPlot_action uncompressed]
    decide

/-- An account without a target of its own gets a nonce of the block forwarded. -/
theorem forwarded_of_considered {filter : NonceFilter.State} {chainId : Nat} {quality : UInt64}
    (considered : Considered NonceFilter.poolMiner filter chainId firstBlock.info
      (hexEncode oneWarpPlot.base58Decoded) (adjustedQuality quality firstBlock.info.baseTarget)) :
    filter.forwarded ≠ [] := by
  rcases considered with missed | ⟨sent, member, -⟩
  · have stranger : hexEncode oneWarpPlot.base58Decoded ∉
        NonceFilter.poolMiner.knownAccountPayloads := by
      decide +kernel
    rw [targetQuality, if_neg stranger, UInt64.le_iff_toNat_le] at missed
    have halved : (adjustedQuality quality firstBlock.info.baseTarget).toNat = quality.toNat / 2 :=
      rfl
    have bound := quality.toNat_lt
    have top : maxQuality.toNat = 2 ^ 64 - 1 := rfl
    omega
  · exact List.ne_nil_of_mem member

end Sample

theorem round_finds_best_one_warp :
    ∃ (setup : Setup) (state : State), setup.disks = [oneWarpDisk] ∧
      Reachable (system setup) (keepsBlock setup) state ∧ state.concluded = true ∧
      state.interruptedCount = 0 ∧ state.tasks = [] ∧ state.nonceData = [] ∧
      state.filter.forwarded ≠ [] ∧
      ∀ nonce < numScoops,
        ∃ quality, calculateQualityRaw (scalarPlatform .other) oneWarpPlot.base58Decoded
            (fun _ => 0) nonce 1 setup.decoded.scoop setup.decoded.generationSignatureBytes =
              .ok quality ∧
          Considered setup.miner state.filter setup.chainId setup.block.info
            (hexEncode oneWarpPlot.base58Decoded)
            (adjustedQuality quality setup.block.info.baseTarget) := by
  obtain ⟨decoded, decodes⟩ := firstBlock_decodes
  have cpu : (oneWarpRound decoded decodes).OnCpu := ⟨rfl, rfl⟩
  obtain ⟨state, reached, concluded, uninterrupted, hashed, submitted⟩ :=
    oneWarpDisk_completes cpu rfl rfl
  have best := (round_finds_best (oneWarpRound decoded decodes) cpu rfl (scalarPlatform .other) state
    reached concluded uninterrupted hashed submitted).1 oneWarpDisk List.mem_cons_self 0 oneWarpPlot
    (fun _ => 0) (oneWarpPlot_mined rfl)
  rw [oneWarpPlot_action rfl] at best
  obtain ⟨quality, -, considered⟩ := best 0 (by decide)
  exact ⟨oneWarpRound decoded decodes, state, rfl, reached, concluded, uninterrupted, hashed,
    submitted, forwarded_of_considered considered, best⟩

section Session

variable {first before after setup : Setup}

/-- A round starts where the one before it stands when it has ended. -/
structure Succeeds (before after : Setup) : Prop where
  miner : after.miner = before.miner
  platform : after.platform = before.platform
  ioBench : after.ioBench = before.ioBench
  simd : after.simd = before.simd
  enableOnTheFlyCompression : after.enableOnTheFlyCompression = before.enableOnTheFlyCompression
  hddReadCacheInWarps : after.hddReadCacheInWarps = before.hddReadCacheInWarps
  maxCompressionSteps : after.maxCompressionSteps = before.maxCompressionSteps
  left : ∃ state, Reachable (system before) always state ∧ state.concluded = true ∧
    after.gpuContext = before.gpuContext.map (fun gpu =>
      { gpu with resultsBuffer := state.resultsBuffer }) ∧
    after.tasks = state.tasks ∧ after.nonceData = state.nonceData ∧ after.filter = state.filter

/-- The rounds of a run of the miner, one after the other. -/
def Session : Setup → Setup → Prop := Relation.ReflTransGen Succeeds

/-- What an ended round leaves is all that a round of a block of any chain needs to start. -/
theorem succeeds_exists {state : State} (reached : Reachable (system before) always state)
    (concluded : state.concluded = true) (disks : List Disk)
    (buffers : ∀ disk ∈ disks, ∀ i buffer, disk.supply.rxEmptyBuffer i = some buffer →
      buffer.len = before.hddReadCacheInWarps * (numScoops * scoopSize))
    (chainId : Nat) (chainName : String) (blockCount : Nat) (block : Block)
    (listed : block.info ∈ state.filter.blocks chainId)
    {decoded : DecodedMiningInfo} (decodes : DecodedMiningInfo.new block = some decoded) :
    ∃ after, Succeeds before after ∧ after.disks = disks ∧ after.chainId = chainId ∧
      after.block = block ∧ after.filter = state.filter := by
  have computed := computed_reachable reached
  let after : Setup :=
    { before with
      gpuContext := before.gpuContext.map fun gpu =>
        { gpu with resultsBuffer := state.resultsBuffer }
      disks := disks
      buffers := buffers
      chainId := chainId
      chainName := chainName
      blockCount := blockCount
      block := block
      decoded := decoded
      decodes := decodes
      tasks := state.tasks
      nonceData := state.nonceData
      filter := state.filter
      reached := computed.reached
      listed := listed
      tasksComputed := computed.tasks
      nonceDataComputed := computed.nonceData }
  have succeeds : Succeeds before after :=
    { miner := rfl
      platform := rfl
      ioBench := rfl
      simd := rfl
      enableOnTheFlyCompression := rfl
      hddReadCacheInWarps := rfl
      maxCompressionSteps := rfl
      left := ⟨state, reached, concluded, rfl, rfl, rfl, rfl⟩ }
  exact ⟨after, succeeds, rfl, rfl, rfl, rfl⟩

/-- A data message of a round since the first has led to it. -/
def MinedSince (first setup : Setup) (leadsTo : Setup → ReadReply → Prop) : Prop :=
  ∃ round, Session first round ∧ Session round setup ∧ ∃ disk ∈ round.disks, ∃ index reply,
    .data index reply ∈ round.messages disk ∧ leadsTo round reply

theorem MinedSince.later {leadsTo : Setup → ReadReply → Prop} (succeeds : Succeeds before after)
    (mined : MinedSince first before leadsTo) : MinedSince first after leadsTo := by
  obtain ⟨round, since, later, data⟩ := mined
  exact ⟨round, since, later.tail succeeds, data⟩

theorem session_platform (session : Session before after) : after.platform = before.platform := by
  induction session with
  | refl => rfl
  | tail _ succeeds ih => rw [succeeds.platform, ih]

theorem session_noGpu (session : Session before after) (noGpu : before.gpuContext = none) :
    after.gpuContext = none := by
  induction session with
  | refl => exact noGpu
  | tail _ succeeds ih =>
    obtain ⟨state, -, -, gpu, -⟩ := succeeds.left
    rw [gpu, ih]
    rfl

/-- All that earlier rounds have left, and all that was forwarded, comes from their data messages. -/
structure Traced (first setup : Setup) : Prop where
  tasks : ∀ task ∈ setup.tasks,
    MinedSince first setup fun round reply => round.round.hashingTask reply = task
  nonceData : ∀ sent ∈ setup.nonceData,
    MinedSince first setup fun round reply => round.sends reply = sent
  forwarded : ∀ sent ∈ setup.filter.forwarded,
    MinedSince first setup fun round reply => round.sends reply = (sent.chainId, sent.parameters)

theorem Traced.task (session : Session first setup) (traced : Traced first setup)
    {task : HashingTask} (source : TaskOf setup task) :
    MinedSince first setup fun round reply => round.round.hashingTask reply = task := by
  rcases source with earlier | own
  · exact traced.tasks task earlier
  · exact ⟨setup, session, .refl, own⟩

theorem Traced.nonce (session : Session first setup) (traced : Traced first setup)
    {sent : Nat × SubmissionParameters} (source : NonceOf setup sent) :
    MinedSince first setup fun round reply => round.sends reply = sent := by
  rcases source with earlier | ⟨task, leftover, rfl⟩ | own
  · exact traced.nonceData sent earlier
  · obtain ⟨round, since, later, disk, listed, index, reply, data, rfl⟩ :=
      traced.tasks task leftover
    refine ⟨round, since, later, disk, listed, index, reply, data, ?_⟩
    rw [session_platform later]
    rfl
  · exact ⟨setup, session, .refl, own⟩

/-- Every nonce forwarded so far comes from a data message of the session. -/
theorem Traced.sent (noGpu : setup.gpuContext = none) (session : Session first setup)
    (traced : Traced first setup) {state : State}
    (reached : Reachable (system setup) always state) {sent : Forwarded}
    (member : sent ∈ state.filter.forwarded) :
    MinedSince first setup fun round reply =>
      round.sends reply = (sent.chainId, sent.parameters) := by
  rcases (sourced_reachable noGpu reached).forwarded sent member with earlier | source
  · exact traced.forwarded sent earlier
  · exact traced.nonce session source

theorem Traced.succeeds (noGpu : before.gpuContext = none) (session : Session first before)
    (traced : Traced first before) (succeeds : Succeeds before after) : Traced first after := by
  obtain ⟨state, reached, -, -, tasks, nonceData, filter⟩ := succeeds.left
  have sourced := sourced_reachable noGpu reached
  constructor
  · rw [tasks]
    intro task member
    exact (traced.task session (sourced.tasks task member)).later succeeds
  · rw [nonceData]
    intro sent member
    exact (traced.nonce session (sourced.nonceData sent member)).later succeeds
  · rw [filter]
    intro sent member
    exact (traced.sent noGpu session reached member).later succeeds

/-- Nothing is left to do when a miner starts. -/
structure Fresh (setup : Setup) : Prop where
  tasks : setup.tasks = []
  nonceData : setup.nonceData = []
  forwarded : setup.filter.forwarded = []

theorem traced_session (noGpu : first.gpuContext = none) (fresh : Fresh first)
    (session : Session first setup) : Traced first setup := by
  induction session with
  | refl =>
    constructor
    · simp [fresh.tasks]
    · simp [fresh.nonceData]
    · simp [fresh.forwarded]
  | tail earlier succeeds ih => exact ih.succeeds (session_noGpu earlier noGpu) earlier succeeds

/-- In every run of a miner that hashes on the CPU, over all its rounds and whatever blocks come: all
that was ever handed to a request handler was read in one of its rounds, and validates for the block
of that round when its plot was mined there from the start. -/
theorem session_validates (first setup : Setup) (noGpu : first.gpuContext = none)
    (fresh : Fresh first) (session : Session first setup) (reference : Platform) (state : State)
    (reached : Reachable (system setup) always state) :
    ∀ sent ∈ state.filter.forwarded, ∃ round, Session first round ∧ Session round setup ∧
      ∃ disk ∈ round.disks, ∃ index reply, .data index reply ∈ round.messages disk ∧
        round.sends reply = (sent.chainId, sent.parameters) ∧
        ∀ plot seed, Mined round disk index plot seed →
          ReadDisk.Validates reference plot seed round.decoded.scoop
            (plotAction plot round.compressionConfig).steps
            round.decoded.generationSignatureBytes sent.parameters.nonceSubmission := by
  intro sent member
  have traced := traced_session noGpu fresh session
  obtain ⟨round, since, later, disk, listed, index, reply, data, same⟩ :=
    traced.sent (session_noGpu session noGpu) session reached member
  refine ⟨round, since, later, disk, listed, index, reply, data, same, ?_⟩
  intro plot seed mined
  rw [← (Prod.mk.inj same).2]
  exact ((mined.observed listed).1 reply data).validates (scoop_lt round) round.platform
    reference round.round

/-- Two rounds of a block, with a nonce of the plot handed over. -/
theorem session_validates_two_rounds :
    ∃ (first second : Setup) (state : State), Succeeds first second ∧
      first.disks = [oneWarpDisk] ∧ second.disks = [oneWarpDisk] ∧
      Reachable (system second) always state ∧ state.concluded = true ∧
      state.filter.forwarded ≠ [] ∧
      ∀ sent ∈ state.filter.forwarded, ∃ round, Session first round ∧ Session round second ∧
        ∃ disk ∈ round.disks, ∃ index reply, .data index reply ∈ round.messages disk ∧
          round.sends reply = (sent.chainId, sent.parameters) ∧
          ∀ plot seed, Mined round disk index plot seed →
            ReadDisk.Validates (scalarPlatform .other) plot seed round.decoded.scoop
              (plotAction plot round.compressionConfig).steps
              round.decoded.generationSignatureBytes sent.parameters.nonceSubmission := by
  obtain ⟨decoded, decodes⟩ := firstBlock_decodes
  let first := oneWarpRound decoded decodes
  have cpu : first.OnCpu := ⟨rfl, rfl⟩
  obtain ⟨ended, reached, concluded, -⟩ := oneWarpDisk_completes cpu rfl rfl
  have current : (ended.filter.blocks 0).head? = some firstBlock.info :=
    (invariant_reachable cpu rfl reached).current
  obtain ⟨second, succeeds, disks, chainId, block, filter⟩ := succeeds_exists
    (reached_anyway reached) concluded [oneWarpDisk] oneWarpDisk_sized 0 "chain" 1 firstBlock
    (List.mem_of_mem_head? current) decodes
  have newest : second.Newest := by
    rw [Setup.Newest, filter, chainId, block]
    exact current
  have session : Session first second := .single succeeds
  have secondCpu : second.OnCpu := ⟨succeeds.ioBench, session_noGpu session rfl⟩
  obtain ⟨state, finished, ends, uninterrupted, hashed, submitted⟩ :=
    oneWarpDisk_completes secondCpu newest disks
  have mined : Mined second oneWarpDisk 0 oneWarpPlot fun _ => 0 :=
    oneWarpPlot_mined succeeds.enableOnTheFlyCompression
  have listed : oneWarpDisk ∈ second.disks := by
    rw [disks]
    exact List.mem_cons_self
  have inPlot : 0 < oneWarpPlot.numberOfWarps /
      2 ^ (plotAction oneWarpPlot second.compressionConfig).steps * numScoops := by
    rw [oneWarpPlot_action succeeds.enableOnTheFlyCompression]
    decide
  obtain ⟨quality, -, considered⟩ := (invariant_reachable secondCpu newest finished).considers
    (scalarPlatform .other) ends uninterrupted hashed submitted listed mined inPlot
  have miner : second.miner = NonceFilter.poolMiner := succeeds.miner
  rw [miner, block] at considered
  have fresh : Fresh first := ⟨rfl, rfl, rfl⟩
  exact ⟨first, second, state, succeeds, rfl, disks, reached_anyway finished, ends,
    forwarded_of_considered considered, session_validates first second rfl fresh session
      (scalarPlatform .other) state (reached_anyway finished)⟩

end Session

end Pocx.MiningRound
