import Pocx.Miner.Scheduler

set_option autoImplicit false

namespace Pocx.Scheduler

open Transition (System Reachable always run)

variable {Resume : Type}

/-- The messages whose handling ends with a `ProcessBlock`, or is one. -/
def wakes : SchedulerMessage Resume → Bool
  | .scheduleNewBlock _ _ _ => false
  | .rescheduleBlock _ _ _ => true
  | .processBlock => true

def isInitial : SchedulerMessage Resume → Bool
  | .scheduleNewBlock _ _ initial => initial
  | .rescheduleBlock _ _ _ => false
  | .processBlock => false

/-- The chain that a message puts into the queue is a chain of the miner. -/
def Addressed (chains : Nat) : SchedulerMessage Resume → Prop
  | .scheduleNewBlock chainId _ _ => chainId < chains
  | .rescheduleBlock chainId _ _ => chainId < chains
  | .processBlock => True

/-- Behind every initial block there is a message that wakes the scheduler. -/
def Followed : List (SchedulerMessage Resume) → Prop
  | [] => True
  | message :: rest => (isInitial message = true → rest.any wakes = true) ∧ Followed rest

/-- The miner state describes the round. -/
structure Describes (chains : Nat) (miner : MinerState) (round : Round Resume) : Prop where
  scanning : miner.scanning = true
  chain_lt : round.chainId < chains
  chain_eq : miner.chainId = round.chainId
  prio_eq : miner.prio = chains - round.chainId
  paused : round.closing = true → miner.interrupt = true ∧ miner.pause = true

/-- What holds in every run: at most one round, described by the miner state, and a
waiting chain is waited for by a round or by a message. -/
structure Alive (chains : Nat) (state : State Resume) : Prop where
  one_round : (state.rounds = [] ∧ state.miner.scanning = false) ∨
    ∃ round, state.rounds = [round] ∧ Describes chains state.miner round
  woken : ∀ chainId, state.queue chainId = true → state.rounds = [] →
    state.channel.any wakes = true
  queue_lt : ∀ chainId, state.queue chainId = true → chainId < chains
  addressed : ∀ message, message ∈ state.channel → Addressed chains message
  followed : state.started = true → Followed state.channel
  unstarted : state.started = false → ∀ chainId, state.queue chainId = false

@[simp] theorem push_same (queue : Nat → Bool) (chainId : Nat) :
    push queue chainId chainId = true := Function.update_self _ _ _

theorem push_other (queue : Nat → Bool) (chainId other : Nat) (apart : other ≠ chainId) :
    push queue chainId other = queue other := Function.update_of_ne apart _ _

@[simp] theorem remove_same (queue : Nat → Bool) (chainId : Nat) :
    remove queue chainId chainId = false := Function.update_self _ _ _

theorem remove_other (queue : Nat → Bool) (chainId other : Nat) (apart : other ≠ chainId) :
    remove queue chainId other = queue other := Function.update_of_ne apart _ _

theorem push_lt (chains : Nat) (queue : Nat → Bool) (chainId : Nat) (inside : chainId < chains)
    (all : ∀ other, queue other = true → other < chains) (other : Nat)
    (queued : push queue chainId other = true) : other < chains := by
  by_cases same : other = chainId
  · rw [same]
    exact inside
  · rw [push_other _ _ _ same] at queued
    exact all other queued

theorem remove_true (queue : Nat → Bool) (chainId other : Nat)
    (queued : remove queue chainId other = true) : other ≠ chainId ∧ queue other = true := by
  by_cases same : other = chainId
  · rw [same, remove_same] at queued
    cases queued
  · rw [remove_other _ _ _ same] at queued
    exact ⟨same, queued⟩

theorem followed_append (messages : List (SchedulerMessage Resume))
    (message : SchedulerMessage Resume) (followed : Followed messages)
    (later : isInitial message = false) : Followed (messages ++ [message]) := by
  induction messages with
  | nil =>
    refine ⟨?_, trivial⟩
    intro initial
    rw [later] at initial
    cases initial
  | cons first rest ih =>
    refine ⟨?_, ih followed.2⟩
    intro initial
    change (rest ++ [message]).any wakes = true
    rw [List.any_append, followed.1 initial, Bool.true_or]

theorem followed_wake (messages : List (SchedulerMessage Resume)) :
    Followed (messages ++ [.processBlock]) := by
  induction messages with
  | nil => exact ⟨nofun, trivial⟩
  | cons first rest ih =>
    refine ⟨fun _ => ?_, ih⟩
    change (rest ++ [SchedulerMessage.processBlock]).any wakes = true
    rw [List.any_append]
    exact Bool.or_true _

theorem wakes_last (messages : List (SchedulerMessage Resume))
    (message : SchedulerMessage Resume) (wake : wakes message = true) :
    (messages ++ [message]).any wakes = true := by
  rw [List.any_append, List.any_cons, wake, Bool.true_or, Bool.or_true]

theorem addressed_append {chains : Nat} {messages : List (SchedulerMessage Resume)}
    {message : SchedulerMessage Resume}
    (all : ∀ old, old ∈ messages → Addressed chains old) (new : Addressed chains message) :
    ∀ sent, sent ∈ messages ++ [message] → Addressed chains sent := by
  intro sent listed
  rcases List.mem_append.mp listed with old | last
  · exact all sent old
  · rw [List.mem_singleton.mp last]
    exact new

theorem start_alive (chains : Nat) : Alive chains (start : State Resume) := by
  refine ⟨Or.inl ⟨rfl, rfl⟩, nofun, nofun, nofun, nofun, fun _ _ => rfl⟩

theorem receive_alive (chains chainId : Nat) (miningInfo : MiningInfo) (initial : Bool)
    (state : State Resume) (alive : Alive chains state) (inside : chainId < chains)
    (phase : state.started = !initial) :
    Alive chains (receive chainId miningInfo initial state) := by
  refine ⟨alive.one_round, ?_, alive.queue_lt, addressed_append alive.addressed inside, ?_,
    alive.unstarted⟩
  · intro other queued none
    have wake := alive.woken other queued none
    simp only [receive, send, List.any_append, wake, Bool.true_or]
  · intro running
    apply followed_append _ _ (alive.followed running)
    change state.started = true at running
    rw [phase] at running
    simpa only [isInitial, Bool.not_eq_true'] using running

theorem trigger_alive (chains : Nat) (state : State Resume) (alive : Alive chains state) :
    Alive chains (send { state with started := true } .processBlock) := by
  refine ⟨alive.one_round, fun _ _ _ => wakes_last _ _ rfl, alive.queue_lt,
    addressed_append alive.addressed trivial, fun _ => followed_wake _, nofun⟩

/-- The state a message is handled in. -/
structure Delivered (chains : Nat) (message : SchedulerMessage Resume) (state : State Resume) :
    Prop where
  started : state.started = true
  one_round : (state.rounds = [] ∧ state.miner.scanning = false) ∨
    ∃ round, state.rounds = [round] ∧ Describes chains state.miner round
  woken : ∀ chainId, state.queue chainId = true → state.rounds = [] →
    wakes message = true ∨ state.channel.any wakes = true
  queue_lt : ∀ chainId, state.queue chainId = true → chainId < chains
  message_ok : Addressed chains message
  addressed : ∀ other, other ∈ state.channel → Addressed chains other
  initial : isInitial message = true → state.channel.any wakes = true
  followed : Followed state.channel

theorem Alive.delivered {chains : Nat} {state : State Resume}
    {message : SchedulerMessage Resume} {rest : List (SchedulerMessage Resume)}
    (alive : Alive chains state) (started : state.started = true)
    (head : state.channel = message :: rest) :
    Delivered chains message { state with channel := rest } := by
  have followed := alive.followed started
  rw [head] at followed
  refine ⟨started, alive.one_round, ?_, alive.queue_lt, ?_, ?_, followed.1, followed.2⟩
  · intro chainId queued none
    have wake := alive.woken chainId queued none
    rw [head, List.any_cons, Bool.or_eq_true] at wake
    exact wake
  · exact alive.addressed message (by rw [head]; exact List.mem_cons_self)
  · intro other listed
    exact alive.addressed other (by rw [head]; exact List.mem_cons_of_mem _ listed)

theorem scheduleNewBlock_alive (chains chainId : Nat) (block : Block) (initial : Bool)
    (state : State Resume)
    (delivered : Delivered chains (.scheduleNewBlock chainId block initial) state) :
    Alive chains (scheduleNewBlock chainId block initial state) := by
  have queueLt := push_lt chains state.queue chainId delivered.message_ok delivered.queue_lt
  unfold scheduleNewBlock
  simp only
  split
  · rename_i isInitial
    refine ⟨delivered.one_round, ?_, queueLt, delivered.addressed, fun _ => delivered.followed, ?_⟩
    · intro _ _ _
      exact delivered.initial isInitial
    · intro unstarted
      rw [delivered.started] at unstarted
      cases unstarted
  · refine ⟨delivered.one_round, fun _ _ _ => wakes_last _ _ rfl, queueLt,
      addressed_append delivered.addressed trivial, fun _ => followed_wake _, ?_⟩
    intro unstarted
    simp only [send, delivered.started, reduceCtorEq] at unstarted

theorem rescheduleBlock_alive (chains chainId : Nat) (block : Block) (resumeInfo : Resume)
    (state : State Resume)
    (delivered : Delivered chains (.rescheduleBlock chainId block resumeInfo) state) :
    Alive chains (rescheduleBlock chainId block resumeInfo state) := by
  have queueLt := push_lt chains state.queue chainId delivered.message_ok delivered.queue_lt
  unfold rescheduleBlock
  simp only
  split
  · refine ⟨delivered.one_round, fun _ _ _ => wakes_last _ _ rfl, delivered.queue_lt,
      addressed_append delivered.addressed trivial, fun _ => followed_wake _, ?_⟩
    intro unstarted
    simp only [send, delivered.started, reduceCtorEq] at unstarted
  · refine ⟨delivered.one_round, fun _ _ _ => wakes_last _ _ rfl, queueLt,
      addressed_append delivered.addressed trivial, fun _ => followed_wake _, ?_⟩
    intro unstarted
    simp only [send, delivered.started, reduceCtorEq] at unstarted

theorem prioritize_describes (chains prio : Nat) (miner : MinerState) (round : Round Resume)
    (describes : Describes chains miner round) :
    Describes chains (prioritize prio miner) round := by
  unfold prioritize
  split
  · exact ⟨describes.scanning, describes.chain_lt, describes.chain_eq, describes.prio_eq,
      fun closing => ⟨rfl, (describes.paused closing).2⟩⟩
  · split
    · exact ⟨describes.scanning, describes.chain_lt, describes.chain_eq, describes.prio_eq,
        fun _ => ⟨rfl, rfl⟩⟩
    · exact describes

theorem startRound_alive (chains chainId : Nat) (state : State Resume)
    (delivered : Delivered chains .processBlock state) (inside : chainId < chains)
    (none : state.rounds = []) :
    Alive chains (startRound chainId (chains - chainId) state) := by
  have single : (startRound chainId (chains - chainId) state).rounds =
      [⟨chainId, state.miningInfos chainId, state.resumeStates chainId,
        (state.chainStates chainId).block, false⟩] := by
    simp only [startRound, none, List.nil_append]
  refine ⟨Or.inr ⟨_, single, rfl, inside, rfl, rfl, nofun⟩, ?_, ?_, delivered.addressed,
    fun _ => delivered.followed, ?_⟩
  · intro _ _ still
    rw [single] at still
    cases still
  · intro other listed
    exact delivered.queue_lt other (remove_true _ _ _ listed).2
  · intro unstarted
    simp only [startRound, delivered.started, reduceCtorEq] at unstarted

theorem processBlock_alive (chains : Nat) (state : State Resume)
    (delivered : Delivered chains .processBlock state) :
    Alive chains (processBlock chains state) := by
  have unstarted : state.started = false → ∀ chainId, state.queue chainId = false := by
    intro unstarted
    rw [delivered.started] at unstarted
    cases unstarted
  unfold processBlock
  rcases peek_spec chains state.queue with ⟨empty, absent⟩ | ⟨chainId, head, inside, queued⟩
  · rw [empty]
    refine ⟨delivered.one_round, ?_, delivered.queue_lt, delivered.addressed,
      fun _ => delivered.followed, unstarted⟩
    intro chainId queued
    rw [absent chainId (delivered.queue_lt chainId queued)] at queued
    cases queued
  · rw [head]
    simp only
    rcases delivered.one_round with ⟨none, idle⟩ | ⟨round, running, describes⟩
    · simp only [idle, Bool.false_eq_true, ↓reduceIte]
      exact startRound_alive chains chainId state delivered inside none
    · simp only [describes.scanning, ↓reduceIte]
      refine ⟨Or.inr ⟨round, running, prioritize_describes _ _ _ _ describes⟩, ?_,
        delivered.queue_lt, delivered.addressed, fun _ => delivered.followed, unstarted⟩
      intro _ _ none
      simp only [running, reduceCtorEq] at none

theorem handle_alive (chains : Nat) (message : SchedulerMessage Resume) (state : State Resume)
    (delivered : Delivered chains message state) : Alive chains (handle chains message state) := by
  cases message with
  | scheduleNewBlock chainId block initial =>
    exact scheduleNewBlock_alive chains chainId block initial state delivered
  | rescheduleBlock chainId block resumeInfo =>
    exact rescheduleBlock_alive chains chainId block resumeInfo state delivered
  | processBlock => exact processBlock_alive chains state delivered

theorem leave_alive (chains index : Nat) (round : Round Resume) (state : State Resume)
    (alive : Alive chains state) (running : state.rounds[index]? = some round) :
    Alive chains (leave index state) := by
  have unstarted : (leave index state).started = false →
      ∀ chainId, (leave index state).queue chainId = false := alive.unstarted
  refine ⟨Or.inl ⟨?_, rfl⟩, fun _ _ _ => wakes_last _ _ rfl, alive.queue_lt,
    addressed_append alive.addressed trivial, fun _ => followed_wake _, unstarted⟩
  rcases alive.one_round with ⟨none, _⟩ | ⟨other, single, _⟩
  · rw [none] at running
    cases running
  · simp only [leave, send]
    rw [single] at running ⊢
    cases index with
    | zero => rfl
    | succ index => cases running

/-- A round that pauses holds the miner state until it is released. -/
theorem pause_alive (chains index : Nat) (round : Round Resume) (resumeInfo : Resume)
    (state : State Resume) (alive : Alive chains state)
    (running : state.rounds[index]? = some round) (interrupt : state.miner.interrupt = true)
    (pause : state.miner.pause = true) :
    Alive chains
      (send { state with rounds := state.rounds.set index { round with closing := true } }
        (.rescheduleBlock state.miner.chainId round.block resumeInfo)) := by
  rcases alive.one_round with ⟨none, _⟩ | ⟨other, single, describes⟩
  · rw [none] at running
    cases running
  · rw [single] at running
    cases index with
    | succ index => cases running
    | zero =>
      cases running
      have addressed : state.miner.chainId < chains := by
        rw [describes.chain_eq]
        exact describes.chain_lt
      refine ⟨Or.inr ⟨{ round with closing := true }, ?_, describes.scanning,
          describes.chain_lt, describes.chain_eq, describes.prio_eq, fun _ => ⟨interrupt, pause⟩⟩,
        fun _ _ _ => wakes_last _ _ rfl, alive.queue_lt,
        addressed_append alive.addressed addressed, ?_, alive.unstarted⟩
      · simp only [send, single, List.set_cons_zero]
      · intro started
        exact followed_append _ _ (alive.followed started) rfl

theorem endRound_alive (chains index : Nat) (round : Round Resume)
    (interrupted : Option Resume) (state : State Resume) (alive : Alive chains state)
    (running : state.rounds[index]? = some round) :
    Alive chains (endRound index round interrupted state) := by
  have left := leave_alive chains index round state alive running
  have complete : Alive chains { leave index state with
      finished := state.finished ++ [(round.chainId, round.block.number)] } :=
    ⟨left.one_round, left.woken, left.queue_lt, left.addressed, left.followed, left.unstarted⟩
  unfold endRound
  simp only
  split
  · rename_i interrupt
    split
    · rename_i pause
      cases interrupted with
      | none => exact complete
      | some resumeInfo =>
        exact pause_alive chains index round resumeInfo state alive running interrupt pause
    · exact left
  · exact complete

/-- What each action does, with its guards. -/
theorem step_cases {chains : Nat} {before after : State Resume} {action : Action Resume}
    (taken : step chains before action = some after) :
    (∃ chainId miningInfo initial, chainId < chains ∧ before.started = !initial ∧
      after = receive chainId miningInfo initial before) ∨
    (action = .trigger ∧ before.started = false ∧
      after = send { before with started := true } .processBlock) ∨
    (∃ message rest, action = .deliver ∧ before.channel = message :: rest ∧
      before.started = true ∧ unlocked before = true ∧
      after = handle chains message { before with channel := rest }) ∨
    (∃ index round interrupted, before.rounds[index]? = some round ∧ unlocked before = true ∧
      after = endRound index round interrupted before) ∨
    (∃ index round, before.rounds[index]? = some round ∧ round.closing = true ∧
      after = leave index before) := by
  cases action with
  | initialBlock chainId miningInfo =>
    simp only [step, Option.ite_none_right_eq_some, Option.some.injEq] at taken
    exact Or.inl ⟨chainId, miningInfo, true, taken.1.2.1, taken.1.1, taken.2.symm⟩
  | trigger =>
    simp only [step, Option.ite_none_left_eq_some, Option.some.injEq, Bool.not_eq_true] at taken
    exact Or.inr (Or.inl ⟨rfl, taken.1, taken.2.symm⟩)
  | newBlock chainId miningInfo =>
    simp only [step, Option.ite_none_right_eq_some, Option.some.injEq] at taken
    exact Or.inl ⟨chainId, miningInfo, false, taken.1.2.1, taken.1.1, taken.2.symm⟩
  | deliver =>
    simp only [step] at taken
    cases head : before.channel with
    | nil =>
      rw [head] at taken
      cases taken
    | cons message rest =>
      simp only [head, Option.ite_none_right_eq_some, Option.some.injEq] at taken
      exact Or.inr (Or.inr (Or.inl ⟨message, rest, rfl, rfl, taken.1.1, taken.1.2, taken.2.symm⟩))
  | endRound index interrupted =>
    simp only [step] at taken
    cases running : before.rounds[index]? with
    | none =>
      rw [running] at taken
      cases taken
    | some round =>
      simp only [running, Option.ite_none_right_eq_some, Option.some.injEq] at taken
      exact Or.inr (Or.inr (Or.inr (Or.inl
        ⟨index, round, interrupted, running, taken.1.1, taken.2.symm⟩)))
  | release index =>
    simp only [step] at taken
    cases running : before.rounds[index]? with
    | none =>
      rw [running] at taken
      cases taken
    | some round =>
      simp only [running, Option.ite_none_right_eq_some, Option.some.injEq] at taken
      exact Or.inr (Or.inr (Or.inr (Or.inr ⟨index, round, running, taken.1, taken.2.symm⟩)))

theorem step_alive (chains : Nat) (before : State Resume) (action : Action Resume)
    (after : State Resume) (alive : Alive chains before)
    (taken : step chains before action = some after) : Alive chains after := by
  rcases step_cases taken with ⟨chainId, miningInfo, initial, inside, phase, rfl⟩ |
      ⟨-, -, rfl⟩ | ⟨message, rest, -, head, started, -, rfl⟩ |
      ⟨index, round, interrupted, running, -, rfl⟩ | ⟨index, round, running, -, rfl⟩
  · exact receive_alive chains chainId miningInfo initial before alive inside phase
  · exact trigger_alive chains before alive
  · exact handle_alive chains message _ (alive.delivered started head)
  · exact endRound_alive chains index round interrupted before alive running
  · exact leave_alive chains index round before alive running

end Pocx.Scheduler
