import Pocx.Miner.SchedulerRuns

set_option autoImplicit false

namespace Pocx.Scheduler

open Transition (System Reachable always run)

variable {Resume : Type}

/-- The numbers of the blocks of a chain that wait in the channel, oldest first. -/
def pendingNumbers (chainId : Nat) (channel : List (SchedulerMessage Resume)) : List Nat :=
  channel.filterMap fun
    | .scheduleNewBlock other block _ => if other = chainId then some block.number else none
    | .rescheduleBlock _ _ _ => none
    | .processBlock => none

def isReschedule (chainId number : Nat) : SchedulerMessage Resume → Bool
  | .scheduleNewBlock _ _ _ => false
  | .rescheduleBlock other block _ => other == chainId && block.number == number
  | .processBlock => false

def isScanning (chainId number : Nat) (round : Round Resume) : Bool :=
  !round.closing && (round.chainId == chainId && round.block.number == number)

/-- The places that hold the last scheduled block of a chain: the queue, a round
that scans it, a reschedule message. -/
def holders (state : State Resume) (chainId : Nat) : Nat :=
  (state.queue chainId).toNat +
    state.rounds.countP (isScanning chainId (state.scheduled chainId)) +
    state.channel.countP (isReschedule chainId (state.scheduled chainId))

/-- A reschedule message that finds its chain out of the queue carries the block that
is stored for the chain. -/
def reschedulesCurrent (state : State Resume) (action : Action Resume) : Bool :=
  match action, state.channel with
  | .deliver, .rescheduleBlock chainId block _ :: _ =>
    state.queue chainId || (state.miningInfos chainId).number == block.number
  | _, _ => true

/-- What the guarded runs know of every chain: its blocks arrive in order, the last
scheduled one is the stored one and has one holder until it is finished, and only
superseded rounds are interrupted without a pause. -/
structure Current (state : State Resume) : Prop where
  stored : ∀ chainId, (state.miningInfos chainId).number = state.scheduled chainId
  scheduled_le : ∀ chainId, state.scheduled chainId ≤ (state.chainStates chainId).block
  pending : ∀ chainId, pendingNumbers chainId state.channel =
    List.range' (state.scheduled chainId + 1)
      ((state.chainStates chainId).block - state.scheduled chainId)
  round_le : ∀ round, round ∈ state.rounds →
    round.block.number ≤ state.scheduled round.chainId
  reschedule_le : ∀ chainId block resumeInfo,
    .rescheduleBlock chainId block resumeInfo ∈ state.channel →
    block.number ≤ state.scheduled chainId
  holders_le : ∀ chainId, holders state chainId ≤ 1
  held : ∀ chainId, 0 < state.scheduled chainId →
    holders state chainId = 1 ∨ (chainId, state.scheduled chainId) ∈ state.finished
  superseded : state.miner.interrupt = true → state.miner.pause = false →
    ∀ round, round ∈ state.rounds → round.block.number < state.scheduled round.chainId
  starts_latest : ∀ start, start ∈ state.starts → start.number = start.scheduled

theorem pendingNumbers_append (chainId : Nat) (channel : List (SchedulerMessage Resume))
    (message : SchedulerMessage Resume) :
    pendingNumbers chainId (channel ++ [message]) =
      pendingNumbers chainId channel ++ pendingNumbers chainId [message] :=
  List.filterMap_append

theorem pendingNumbers_same (chainId : Nat) (block : Block) (initial : Bool) :
    pendingNumbers chainId
      [(.scheduleNewBlock chainId block initial : SchedulerMessage Resume)] =
      [block.number] := by
  simp only [pendingNumbers, List.filterMap_cons, ↓reduceIte, List.filterMap_nil]

theorem pendingNumbers_other (chainId other : Nat) (block : Block) (initial : Bool)
    (apart : other ≠ chainId) :
    pendingNumbers chainId
      [(.scheduleNewBlock other block initial : SchedulerMessage Resume)] = [] := by
  simp only [pendingNumbers, List.filterMap_cons, apart, ↓reduceIte, List.filterMap_nil]

theorem pendingNumbers_cons (chainId : Nat) (message : SchedulerMessage Resume)
    (rest : List (SchedulerMessage Resume)) :
    pendingNumbers chainId (message :: rest) =
      pendingNumbers chainId [message] ++ pendingNumbers chainId rest :=
  List.filterMap_append (l := [message])

theorem start_current : Current (start : State Resume) := by
  refine ⟨fun _ => rfl, fun _ => Nat.le_refl _, fun _ => rfl, nofun, nofun,
    fun _ => Nat.zero_le _, nofun, nofun, nofun⟩

/-- Sending a message that holds no block changes no holder. -/
theorem holders_send (state : State Resume) (message : SchedulerMessage Resume) (chainId : Nat)
    (holds : isReschedule chainId (state.scheduled chainId) message = false) :
    holders (send state message) chainId = holders state chainId := by
  simp only [holders, send, List.countP_append, List.countP_singleton, holds,
    Bool.false_eq_true, ↓reduceIte, Nat.add_zero]

theorem send_current (state : State Resume) (message : SchedulerMessage Resume)
    (current : Current state)
    (unheld : ∀ chainId number, isReschedule chainId number message = false)
    (unscheduled : ∀ chainId, pendingNumbers chainId [message] = []) :
    Current (send state message) := by
  refine ⟨current.stored, current.scheduled_le, ?_, current.round_le, ?_, ?_, ?_,
    current.superseded, current.starts_latest⟩
  · intro chainId
    change pendingNumbers chainId (state.channel ++ [message]) = _
    rw [pendingNumbers_append, unscheduled, List.append_nil]
    exact current.pending chainId
  · intro chainId block resumeInfo listed
    rcases List.mem_append.mp listed with old | new
    · exact current.reschedule_le chainId block resumeInfo old
    · have holds := unheld chainId block.number
      rw [← List.mem_singleton.mp new] at holds
      simp only [isReschedule, beq_self_eq_true, Bool.and_self, reduceCtorEq] at holds
  · intro chainId
    rw [holders_send _ _ _ (unheld _ _)]
    exact current.holders_le chainId
  · intro chainId positive
    rw [holders_send _ _ _ (unheld _ _)]
    exact current.held chainId positive

theorem receive_current (chainId : Nat) (miningInfo : MiningInfo) (initial : Bool)
    (state : State Resume) (current : Current state) :
    Current (receive chainId miningInfo initial state) := by
  refine ⟨current.stored, ?_, ?_, current.round_le, ?_, ?_, ?_, current.superseded,
    current.starts_latest⟩
  · intro other
    have before := current.scheduled_le other
    change state.scheduled other ≤ (Function.update state.chainStates chainId _ other).block
    by_cases same : other = chainId
    · subst same
      rw [Function.update_self]
      exact Nat.le_succ_of_le before
    · rw [Function.update_of_ne same]
      exact before
  · intro other
    have before := current.scheduled_le other
    have pending := current.pending other
    change pendingNumbers other (state.channel ++ [_]) = List.range' (state.scheduled other + 1)
      ((Function.update state.chainStates chainId _ other).block - state.scheduled other)
    rw [pendingNumbers_append, pending]
    by_cases same : other = chainId
    · subst same
      rw [Function.update_self, pendingNumbers_same]
      simp only [ChainState.updateMiningInfo]
      rw [Nat.succ_sub before, List.range'_1_concat]
      congr 2
      omega
    · rw [Function.update_of_ne same, pendingNumbers_other _ _ _ _ (Ne.symm same),
        List.append_nil]
  · intro other block resumeInfo listed
    rcases List.mem_append.mp listed with old | new
    · exact current.reschedule_le other block resumeInfo old
    · cases List.mem_singleton.mp new
  · intro other
    rw [receive, holders_send _ _ _ rfl]
    exact current.holders_le other
  · intro other positive
    rw [receive, holders_send _ _ _ rfl]
    exact current.held other positive

theorem trigger_current (state : State Resume) (current : Current state) :
    Current (send { state with started := true } .processBlock) :=
  send_current { state with started := true } _
    ⟨current.stored, current.scheduled_le, current.pending, current.round_le,
      current.reschedule_le, current.holders_le, current.held, current.superseded,
      current.starts_latest⟩ (fun _ _ => rfl) (fun _ => rfl)

/-- A block scheduled after the last one of its chain has no holder yet. -/
theorem newer_unheld (state : State Resume) (current : Current state) (chainId number : Nat)
    (newer : state.scheduled chainId < number) :
    state.rounds.countP (isScanning chainId number) = 0 ∧
      state.channel.countP (isReschedule chainId number) = 0 := by
  constructor
  · rw [List.countP_eq_zero]
    intro round listed scans
    simp only [isScanning, Bool.and_eq_true, beq_iff_eq] at scans
    have old := current.round_le round listed
    rw [scans.2.1, scans.2.2] at old
    omega
  · rw [List.countP_eq_zero]
    intro message listed holds
    cases message with
    | scheduleNewBlock other block initial => cases holds
    | processBlock => cases holds
    | rescheduleBlock other block resumeInfo =>
      simp only [isReschedule, Bool.and_eq_true, beq_iff_eq] at holds
      have old := current.reschedule_le other block resumeInfo listed
      rw [holds.1, holds.2] at old
      omega

/-- The head of the channel is the next block of its chain. -/
theorem scheduleNewBlock_next (chainId : Nat) (block : Block) (initial : Bool)
    (rest : List (SchedulerMessage Resume)) (state : State Resume) (current : Current state)
    (head : state.channel = .scheduleNewBlock chainId block initial :: rest) :
    block.number = state.scheduled chainId + 1 ∧
      state.scheduled chainId + 1 ≤ (state.chainStates chainId).block ∧
      pendingNumbers chainId rest = List.range' (state.scheduled chainId + 2)
        ((state.chainStates chainId).block - (state.scheduled chainId + 1)) := by
  have pending := current.pending chainId
  rw [head, pendingNumbers_cons, pendingNumbers_same] at pending
  cases more : (state.chainStates chainId).block - state.scheduled chainId with
  | zero =>
    rw [more] at pending
    cases pending
  | succ left =>
    rw [more, List.range'_succ] at pending
    injection pending with number others
    have left_eq : left =
        (state.chainStates chainId).block - (state.scheduled chainId + 1) := by omega
    exact ⟨number, by omega, by rw [← left_eq]; exact others⟩

theorem scheduleNewBlock_current (chainId : Nat) (block : Block) (initial : Bool)
    (rest : List (SchedulerMessage Resume)) (state : State Resume) (current : Current state)
    (head : state.channel = .scheduleNewBlock chainId block initial :: rest) :
    Current (scheduleNewBlock chainId block initial { state with channel := rest }) := by
  obtain ⟨number, bounded, remaining⟩ :=
    scheduleNewBlock_next chainId block initial rest state current head
  obtain ⟨unscanned, unrescheduled⟩ := newer_unheld state current chainId
    (state.scheduled chainId + 1) (Nat.lt_succ_self _)
  rw [head, List.countP_cons] at unrescheduled
  have scheduledLater : ∀ other, state.scheduled other ≤
      Function.update state.scheduled chainId block.number other := by
    intro other
    by_cases same : other = chainId
    · subst same
      rw [Function.update_self]
      omega
    · exact Nat.le_of_eq (Function.update_of_ne same _ _).symm
  have stored : Current
      { state with
        channel := rest
        queue := push state.queue chainId
        miningInfos := Function.update state.miningInfos chainId block
        resumeStates := Function.update state.resumeStates chainId none
        scheduled := Function.update state.scheduled chainId block.number } := by
    refine ⟨?_, ?_, ?_, ?_, ?_, ?_, ?_, ?_, current.starts_latest⟩
    · intro other
      by_cases same : other = chainId
      · subst same
        simp only [Function.update_self]
      · simp only [Function.update_of_ne same]
        exact current.stored other
    · intro other
      by_cases same : other = chainId
      · subst same
        simp only [Function.update_self]
        omega
      · simp only [Function.update_of_ne same]
        exact current.scheduled_le other
    · intro other
      by_cases same : other = chainId
      · subst same
        simp only [Function.update_self, number]
        exact remaining
      · have pending := current.pending other
        rw [head, pendingNumbers_cons, pendingNumbers_other _ _ _ _ (Ne.symm same),
          List.nil_append] at pending
        simp only [Function.update_of_ne same]
        exact pending
    · intro round listed
      exact Nat.le_trans (current.round_le round listed) (scheduledLater _)
    · intro other old resumeInfo listed
      have before := current.reschedule_le other old resumeInfo
        (by rw [head]; exact List.mem_cons_of_mem _ listed)
      exact Nat.le_trans before (scheduledLater _)
    · intro other
      by_cases same : other = chainId
      · subst same
        simp only [holders, push_same, Function.update_self, number, unscanned, Bool.toNat_true]
        omega
      · have before := current.holders_le other
        simp only [holders, head, List.countP_cons, isReschedule] at before
        simp only [holders, push_other _ _ _ same, Function.update_of_ne same]
        exact before
    · intro other positive
      by_cases same : other = chainId
      · subst same
        apply Or.inl
        simp only [holders, push_same, Function.update_self, number, unscanned, Bool.toNat_true]
        omega
      · simp only [Function.update_of_ne same] at positive ⊢
        have before := current.held other positive
        simp only [holders, head, List.countP_cons, isReschedule] at before
        simp only [holders, push_other _ _ _ same, Function.update_of_ne same]
        exact before
    · intro interrupt pause round listed
      exact Nat.lt_of_lt_of_le (current.superseded interrupt pause round listed)
        (scheduledLater _)
  unfold scheduleNewBlock
  simp only
  split
  · exact stored
  · exact send_current _ _ stored (fun _ _ => rfl) (fun _ => rfl)

/-- A message that carries no block, or a superseded one, may be dropped. -/
theorem drop_current (message : SchedulerMessage Resume)
    (rest : List (SchedulerMessage Resume)) (state : State Resume) (current : Current state)
    (head : state.channel = message :: rest)
    (unheld : ∀ chainId, isReschedule chainId (state.scheduled chainId) message = false)
    (unscheduled : ∀ chainId, pendingNumbers chainId [message] = []) :
    Current { state with channel := rest } := by
  have same : ∀ chainId,
      holders { state with channel := rest } chainId = holders state chainId := by
    intro chainId
    simp only [holders, head, List.countP_cons, unheld chainId, Bool.false_eq_true, ↓reduceIte,
      Nat.add_zero]
  refine ⟨current.stored, current.scheduled_le, ?_, current.round_le, ?_, ?_, ?_,
    current.superseded, current.starts_latest⟩
  · intro chainId
    have pending := current.pending chainId
    rw [head, pendingNumbers_cons, unscheduled, List.nil_append] at pending
    exact pending
  · intro chainId block resumeInfo listed
    exact current.reschedule_le chainId block resumeInfo
      (by rw [head]; exact List.mem_cons_of_mem _ listed)
  · intro chainId
    rw [same]
    exact current.holders_le chainId
  · intro chainId positive
    rw [same]
    exact current.held chainId positive

/-- A queued chain has its last block in the queue, so that the message is late. -/
theorem queued_unheld (chainId : Nat) (block : Block) (resumeInfo : Resume)
    (rest : List (SchedulerMessage Resume)) (state : State Resume) (current : Current state)
    (head : state.channel = .rescheduleBlock chainId block resumeInfo :: rest)
    (queued : state.queue chainId = true) (other : Nat) :
    isReschedule other (state.scheduled other)
      (.rescheduleBlock chainId block resumeInfo : SchedulerMessage Resume) = false := by
  have single := current.holders_le other
  rw [holders, head, List.countP_cons] at single
  cases holds : isReschedule other (state.scheduled other)
      (.rescheduleBlock chainId block resumeInfo : SchedulerMessage Resume) with
  | false => rfl
  | true =>
    have same : chainId = other := by
      simp only [isReschedule, Bool.and_eq_true, beq_iff_eq] at holds
      exact holds.1
    subst same
    rw [queued, holds] at single
    simp only [Bool.toNat_true, ↓reduceIte] at single
    omega

/-- The block moves from the message into the queue. -/
theorem requeue_current (chainId : Nat) (block : Block) (resumeInfo : Resume)
    (rest : List (SchedulerMessage Resume)) (state : State Resume) (current : Current state)
    (head : state.channel = .rescheduleBlock chainId block resumeInfo :: rest)
    (absent : state.queue chainId = false)
    (exact : (state.miningInfos chainId).number = block.number) :
    Current
      { state with
        channel := rest
        queue := push state.queue chainId
        miningInfos := Function.update state.miningInfos chainId block
        resumeStates := Function.update state.resumeStates chainId (some resumeInfo) } := by
  have number : block.number = state.scheduled chainId := by
    rw [← exact]
    exact current.stored chainId
  have same : ∀ other, holders
      { state with
        channel := rest
        queue := push state.queue chainId
        miningInfos := Function.update state.miningInfos chainId block
        resumeStates := Function.update state.resumeStates chainId (some resumeInfo) } other =
      holders state other := by
    intro other
    by_cases here : other = chainId
    · subst here
      simp only [holders, head, List.countP_cons, push_same, absent, Bool.toNat_true,
        Bool.toNat_false, isReschedule, number, beq_self_eq_true, Bool.and_self, ↓reduceIte]
      omega
    · have apart : (chainId == other) = false := beq_false_of_ne (Ne.symm here)
      simp only [holders, head, List.countP_cons, push_other _ _ _ here, isReschedule, apart,
        Bool.false_and, Bool.false_eq_true, ↓reduceIte, Nat.add_zero]
  refine ⟨?_, current.scheduled_le, ?_, current.round_le, ?_, ?_, ?_, current.superseded,
    current.starts_latest⟩
  · intro other
    by_cases here : other = chainId
    · subst here
      simp only [Function.update_self]
      exact number
    · simp only [Function.update_of_ne here]
      exact current.stored other
  · intro other
    have pending := current.pending other
    rw [head, pendingNumbers_cons] at pending
    exact pending
  · intro other old oldResume listed
    exact current.reschedule_le other old oldResume
      (by rw [head]; exact List.mem_cons_of_mem _ listed)
  · intro other
    rw [same]
    exact current.holders_le other
  · intro other positive
    rw [same]
    exact current.held other positive

theorem rescheduleBlock_current (chainId : Nat) (block : Block) (resumeInfo : Resume)
    (rest : List (SchedulerMessage Resume)) (state : State Resume) (current : Current state)
    (head : state.channel = .rescheduleBlock chainId block resumeInfo :: rest)
    (guard : state.queue chainId = false → (state.miningInfos chainId).number = block.number) :
    Current (rescheduleBlock chainId block resumeInfo { state with channel := rest }) := by
  unfold rescheduleBlock
  simp only
  split
  · rename_i queued
    exact send_current _ _
      (drop_current _ rest state current head
        (queued_unheld chainId block resumeInfo rest state current head queued) (fun _ => rfl))
      (fun _ _ => rfl) (fun _ => rfl)
  · rename_i missing
    have absent : state.queue chainId = false := by simpa only [Bool.not_eq_true] using missing
    exact send_current _ _
      (requeue_current chainId block resumeInfo rest state current head absent (guard absent))
      (fun _ _ => rfl) (fun _ => rfl)

/-- The block moves from the queue into a round. -/
theorem startRound_current (chainId prio : Nat) (state : State Resume) (current : Current state)
    (none : state.rounds = []) (queued : state.queue chainId = true) :
    Current (startRound chainId prio state) := by
  have stored := current.stored chainId
  have same : ∀ other, holders (startRound chainId prio state) other = holders state other := by
    intro other
    by_cases here : other = chainId
    · subst here
      simp only [holders, startRound, none, List.nil_append, remove_same, queued,
        List.countP_singleton, List.countP_nil, isScanning, stored, beq_self_eq_true,
        Bool.not_false, Bool.and_self, ↓reduceIte, Bool.toNat_true, Bool.toNat_false]
    · have apart : (chainId == other) = false := beq_false_of_ne (Ne.symm here)
      simp only [holders, startRound, none, List.nil_append, remove_other _ _ _ here,
        List.countP_singleton, List.countP_nil, isScanning, apart, Bool.false_and,
        Bool.and_false, Bool.false_eq_true, ↓reduceIte]
  refine ⟨current.stored, current.scheduled_le, current.pending, ?_, current.reschedule_le,
    ?_, ?_, ?_, ?_⟩
  · intro round listed
    simp only [startRound, none, List.nil_append, List.mem_singleton] at listed
    rw [listed]
    exact Nat.le_of_eq stored
  · intro other
    rw [same]
    exact current.holders_le other
  · intro other positive
    rw [same]
    exact current.held other positive
  · intro interrupted
    cases interrupted
  · intro start listed
    rcases List.mem_append.mp listed with old | new
    · exact current.starts_latest start old
    · rw [List.mem_singleton.mp new]
      exact stored

/-- Equal priority means the same chain, whose stored block waits in the queue: the
round scans an older one. -/
theorem prioritize_superseded (chains chainId : Nat) (state : State Resume)
    (current : Current state) (round : Round Resume) (single : state.rounds = [round])
    (describes : Describes chains state.miner round) (inside : chainId < chains)
    (queued : state.queue chainId = true)
    (interrupt : (prioritize (chains - chainId) state.miner).interrupt = true)
    (pause : (prioritize (chains - chainId) state.miner).pause = false) :
    round.block.number < state.scheduled round.chainId := by
  have listed : round ∈ state.rounds := by rw [single]; exact List.mem_singleton_self _
  unfold prioritize at interrupt pause
  split at pause
  · rename_i equal
    simp only at pause
    rw [describes.prio_eq] at equal
    have chainEq : chainId = round.chainId := by
      have roundLt := describes.chain_lt
      omega
    have open_ : round.closing = false := by
      cases closing : round.closing with
      | false => rfl
      | true =>
        rw [(describes.paused closing).2] at pause
        cases pause
    have one := current.holders_le round.chainId
    rw [holders, ← chainEq, queued, single, List.countP_singleton] at one
    have bounded := current.round_le round listed
    by_cases last : round.block.number = state.scheduled round.chainId
    · rw [chainEq] at one
      simp only [isScanning, open_, last, beq_self_eq_true, Bool.not_false, Bool.and_self,
        ↓reduceIte, Bool.toNat_true] at one
      omega
    · omega
  · split at pause
    · cases pause
    · rename_i unequal kept
      simp only [unequal, kept, ↓reduceIte] at interrupt
      exact current.superseded interrupt pause round listed

theorem processBlock_current (chains : Nat) (rest : List (SchedulerMessage Resume))
    (state : State Resume) (alive : Alive chains state) (current : Current state)
    (head : state.channel = .processBlock :: rest) :
    Current (processBlock chains { state with channel := rest }) := by
  have dropped := drop_current _ rest state current head (fun _ => rfl) (fun _ => rfl)
  unfold processBlock
  rcases peek_spec chains state.queue with ⟨empty, -⟩ | ⟨chainId, top, inside, queued⟩
  · simp only [empty]
    exact dropped
  · simp only [top]
    rcases alive.one_round with ⟨none, idle⟩ | ⟨round, single, describes⟩
    · simp only [idle, Bool.false_eq_true, ↓reduceIte]
      exact startRound_current chainId _ _ dropped none queued
    · simp only [describes.scanning, ↓reduceIte]
      refine ⟨dropped.stored, dropped.scheduled_le, dropped.pending, dropped.round_le,
        dropped.reschedule_le, dropped.holders_le, dropped.held, ?_, dropped.starts_latest⟩
      intro interrupt pause other listed
      simp only [single, List.mem_singleton] at listed
      subst listed
      exact prioritize_superseded chains chainId state current other single describes inside
        queued interrupt pause

theorem sole_round {only round : Round Resume} {index : Nat}
    (running : [only][index]? = some round) : index = 0 ∧ only = round := by
  cases index with
  | zero => exact ⟨rfl, Option.some.inj running⟩
  | succ index => cases running

theorem leave_rounds (index : Nat) (round : Round Resume) (state : State Resume)
    (single : state.rounds = [round]) (running : state.rounds[index]? = some round) :
    (leave index state).rounds = [] := by
  simp only [leave, send]
  rw [single] at running ⊢
  rw [(sole_round running).1]
  rfl

/-- A round that holds no last block may leave. -/
theorem leave_current (index : Nat) (round : Round Resume) (state : State Resume)
    (current : Current state) (single : state.rounds = [round])
    (running : state.rounds[index]? = some round)
    (old : isScanning round.chainId (state.scheduled round.chainId) round = false) :
    Current (leave index state) := by
  have gone := leave_rounds index round state single running
  have unscanned : ∀ chainId, isScanning chainId (state.scheduled chainId) round = false := by
    intro chainId
    by_cases here : round.chainId = chainId
    · rw [← here]
      exact old
    · simp only [isScanning, beq_false_of_ne here, Bool.false_and, Bool.and_false]
  have same : ∀ chainId, holders (leave index state) chainId = holders state chainId := by
    intro chainId
    rw [holders, holders, gone, single, List.countP_nil, List.countP_singleton]
    simp only [leave, send, unscanned, Bool.false_eq_true, ↓reduceIte, List.countP_append,
      List.countP_singleton, isReschedule, Nat.add_zero]
  refine ⟨current.stored, current.scheduled_le, ?_, ?_, ?_, ?_, ?_, ?_, current.starts_latest⟩
  · intro chainId
    exact (pendingNumbers_append _ _ _).trans
      ((List.append_nil _).trans (current.pending chainId))
  · intro other listed
    rw [gone] at listed
    cases listed
  · intro chainId block resumeInfo listed
    rcases List.mem_append.mp listed with before | new
    · exact current.reschedule_le chainId block resumeInfo before
    · cases List.mem_singleton.mp new
  · intro chainId
    rw [same]
    exact current.holders_le chainId
  · intro chainId positive
    rw [same]
    exact current.held chainId positive
  · intro _ _ other listed
    rw [gone] at listed
    cases listed

/-- A round that ends complete records its block. -/
theorem complete_current (index : Nat) (round : Round Resume) (state : State Resume)
    (current : Current state) (single : state.rounds = [round])
    (running : state.rounds[index]? = some round) :
    Current { leave index state with
      finished := state.finished ++ [(round.chainId, round.block.number)] } := by
  have gone := leave_rounds index round state single running
  have fewer : ∀ chainId, holders state chainId = holders (leave index state) chainId +
      if isScanning chainId (state.scheduled chainId) round then 1 else 0 := by
    intro chainId
    rw [holders, holders, gone, single, List.countP_nil, List.countP_singleton]
    simp only [leave, send, List.countP_append, List.countP_singleton, isReschedule,
      Bool.false_eq_true, ↓reduceIte, Nat.add_zero]
    omega
  refine ⟨current.stored, current.scheduled_le, ?_, ?_, ?_, ?_, ?_, ?_, current.starts_latest⟩
  · intro chainId
    exact (pendingNumbers_append _ _ _).trans
      ((List.append_nil _).trans (current.pending chainId))
  · intro other listed
    simp only [gone] at listed
    cases listed
  · intro chainId block resumeInfo listed
    rcases List.mem_append.mp listed with before | new
    · exact current.reschedule_le chainId block resumeInfo before
    · cases List.mem_singleton.mp new
  · intro chainId
    have before := current.holders_le chainId
    rw [fewer chainId] at before
    exact Nat.le_trans (Nat.le_add_right _ _) before
  · intro chainId positive
    rcases current.held chainId positive with held | finished
    · by_cases scanned : isScanning chainId (state.scheduled chainId) round = true
      · apply Or.inr
        simp only [isScanning, Bool.and_eq_true, beq_iff_eq] at scanned
        apply List.mem_append_right
        rw [scanned.2.1, scanned.2.2]
        exact List.mem_singleton_self _
      · apply Or.inl
        rw [fewer chainId, if_neg scanned] at held
        exact held
    · exact Or.inr (List.mem_append_left _ finished)
  · intro _ _ other listed
    simp only [gone] at listed
    cases listed

/-- The block moves from a round into a message. -/
theorem pause_current (chains index : Nat) (round : Round Resume) (resumeInfo : Resume)
    (state : State Resume) (current : Current state) (single : state.rounds = [round])
    (describes : Describes chains state.miner round)
    (running : state.rounds[index]? = some round) (open_ : round.closing = false)
    (pause : state.miner.pause = true) :
    Current (send { state with rounds := state.rounds.set index { round with closing := true } }
      (.rescheduleBlock state.miner.chainId round.block resumeInfo)) := by
  have closed : state.rounds.set index { round with closing := true } =
      [{ round with closing := true }] := by
    rw [single] at running ⊢
    rw [(sole_round running).1]
    rfl
  rw [closed, describes.chain_eq]
  have bounded := current.round_le round (by rw [single]; exact List.mem_singleton_self _)
  have same : ∀ chainId, holders
      (send { state with rounds := [{ round with closing := true }] }
        (.rescheduleBlock round.chainId round.block resumeInfo)) chainId =
      holders state chainId := by
    intro chainId
    rw [holders, holders, single]
    simp only [send, List.countP_append, List.countP_singleton, isScanning, isReschedule, open_,
      Bool.not_true, Bool.not_false, Bool.false_and, Bool.true_and, Bool.false_eq_true,
      ↓reduceIte]
    by_cases here : (round.chainId == chainId &&
        round.block.number == state.scheduled chainId) = true
    · simp only [here, ↓reduceIte]
      omega
    · simp only [here, Bool.false_eq_true, ↓reduceIte]
      omega
  refine ⟨current.stored, current.scheduled_le, ?_, ?_, ?_, ?_, ?_, ?_, current.starts_latest⟩
  · intro chainId
    exact (pendingNumbers_append _ _ _).trans
      ((List.append_nil _).trans (current.pending chainId))
  · intro other listed
    rw [List.mem_singleton.mp listed]
    exact bounded
  · intro chainId block oldResume listed
    rcases List.mem_append.mp listed with before | new
    · exact current.reschedule_le chainId block oldResume before
    · cases List.mem_singleton.mp new
      exact bounded
  · intro chainId
    rw [same]
    exact current.holders_le chainId
  · intro chainId positive
    rw [same]
    exact current.held chainId positive
  · intro _ unpaused
    change state.miner.pause = false at unpaused
    rw [pause] at unpaused
    cases unpaused

theorem endRound_current (chains index : Nat) (round : Round Resume)
    (interrupted : Option Resume) (state : State Resume) (alive : Alive chains state)
    (current : Current state) (running : state.rounds[index]? = some round)
    (free : unlocked state = true) :
    Current (endRound index round interrupted state) := by
  obtain ⟨only, single, describes⟩ : ∃ only, state.rounds = [only] ∧
      Describes chains state.miner only := by
    rcases alive.one_round with ⟨none, -⟩ | one
    · rw [none] at running
      cases running
    · exact one
  have only_eq : only = round := by
    rw [single] at running
    exact (sole_round running).2
  subst only_eq
  have open_ : only.closing = false := by
    simpa only [unlocked, single, List.all_cons, List.all_nil, Bool.and_true,
      Bool.not_eq_true'] using free
  have complete := complete_current index only state current single running
  unfold endRound
  simp only
  split
  · rename_i interrupt
    split
    · rename_i pause
      cases interrupted with
      | none => exact complete
      | some resumeInfo =>
        exact pause_current chains index only resumeInfo state current single describes running
          open_ pause
    · rename_i unpaused
      have older := current.superseded interrupt (by simpa only [Bool.not_eq_true] using unpaused)
        only (by rw [single]; exact List.mem_singleton_self _)
      apply leave_current index only state current single running
      simp only [isScanning, beq_false_of_ne (Nat.ne_of_lt older), Bool.and_false]
  · exact complete

theorem step_current (chains : Nat) (before : State Resume) (action : Action Resume)
    (after : State Resume) (alive : Alive chains before) (current : Current before)
    (guard : reschedulesCurrent before action = true)
    (taken : step chains before action = some after) : Current after := by
  rcases step_cases taken with ⟨chainId, miningInfo, initial, -, -, rfl⟩ |
      ⟨-, -, rfl⟩ | ⟨message, rest, isDeliver, head, -, -, rfl⟩ |
      ⟨index, round, interrupted, running, free, rfl⟩ | ⟨index, round, running, closing, rfl⟩
  · exact receive_current chainId miningInfo initial before current
  · exact trigger_current before current
  · cases message with
    | scheduleNewBlock chainId block initial =>
      exact scheduleNewBlock_current chainId block initial rest before current head
    | rescheduleBlock chainId block resumeInfo =>
      apply rescheduleBlock_current chainId block resumeInfo rest before current head
      intro absent
      simpa only [reschedulesCurrent, isDeliver, head, absent, Bool.false_or, beq_iff_eq]
        using guard
    | processBlock => exact processBlock_current chains rest before alive current head
  · exact endRound_current chains index round interrupted before alive current running free
  · rcases alive.one_round with ⟨none, -⟩ | ⟨only, single, -⟩
    · rw [none] at running
      cases running
    · have only_eq : only = round := by
        rw [single] at running
        exact (sole_round running).2
      subst only_eq
      apply leave_current index only before current single running
      simp only [isScanning, closing, Bool.not_true, Bool.false_and]

theorem reachable_current (chains : Nat) {state : State Resume}
    (reached : Reachable (system Resume chains)
      (fun state action => reschedulesCurrent state action) state) :
    Alive chains state ∧ Current state :=
  reached.invariant (fun state => Alive chains state ∧ Current state)
    (by
      rintro state rfl
      exact ⟨start_alive chains, start_current⟩)
    (fun before action after sound guard taken =>
      ⟨step_alive chains before action after sound.1 taken,
        step_current chains before action after sound.1 sound.2 guard taken⟩)

end Pocx.Scheduler
