import Mathlib.Logic.Function.Basic
import Pocx.Lib.Transition

set_option autoImplicit false

namespace Pocx.Scheduler

open Transition (System)

/-- The fields of `MiningInfo` that the scheduler hands on. -/
structure MiningInfo where
  height : Nat
  generationSignature : String
  baseTarget : Nat
  blockHash : String

/-- Mining infos with the count that `ChainState::block` gave them. The messages of
the source carry the infos alone; the number tells apart two blocks that agree. -/
structure Block where
  number : Nat
  miningInfo : MiningInfo

structure ChainState where
  generationSignature : String
  blockHash : String
  baseTarget : Nat
  block : Nat

/-- `ChainState::update_mining_info`, as far as the scheduling goes. -/
def ChainState.updateMiningInfo (state : ChainState) (miningInfo : MiningInfo) : ChainState where
  generationSignature := miningInfo.generationSignature
  blockHash := miningInfo.blockHash
  baseTarget := miningInfo.baseTarget
  block := state.block + 1

structure MinerState where
  scanning : Bool
  chainId : Nat
  block : Nat
  prio : Nat
  generationSignature : String
  interrupt : Bool
  pause : Bool

def MinerState.updateState (state : MinerState) (chainId block prio : Nat)
    (generationSignature : String) : MinerState :=
  { state with
    scanning := true
    chainId := chainId
    block := block
    prio := prio
    interrupt := false
    pause := false
    generationSignature := generationSignature }

inductive SchedulerMessage (Resume : Type)
  | scheduleNewBlock (chainId : Nat) (block : Block) (initial : Bool)
  | rescheduleBlock (chainId : Nat) (block : Block) (resumeInfo : Resume)
  | processBlock

/-- A mining-round thread. It is closing once it has sent its `RescheduleBlock` and
until it releases the miner state. -/
structure Round (Resume : Type) where
  chainId : Nat
  block : Block
  resumeInfo : Option Resume
  blockCount : Nat
  closing : Bool

/-- A start of a round: the block it scans, and the last block of that chain whose
`ScheduleNewBlock` was processed by then. -/
structure Start where
  chainId : Nat
  number : Nat
  scheduled : Nat

structure State (Resume : Type) where
  started : Bool
  chainStates : Nat → ChainState
  queue : Nat → Bool
  miningInfos : Nat → Block
  resumeStates : Nat → Option Resume
  miner : MinerState
  rounds : List (Round Resume)
  channel : List (SchedulerMessage Resume)
  scheduled : Nat → Nat
  starts : List Start
  finished : List (Nat × Nat)

variable {Resume : Type}

/-- The head of the priority queue. A queued chain has priority `chains.len() - id`,
so that the highest priority is that of the smallest id. -/
def peek (chains : Nat) (queue : Nat → Bool) : Option (Nat × Nat) :=
  ((List.range chains).find? queue).map fun chainId => (chainId, chains - chainId)

def push (queue : Nat → Bool) (chainId : Nat) : Nat → Bool :=
  Function.update queue chainId true

def remove (queue : Nat → Bool) (chainId : Nat) : Nat → Bool :=
  Function.update queue chainId false

def send (state : State Resume) (message : SchedulerMessage Resume) : State Resume :=
  { state with channel := state.channel ++ [message] }

/-- A mining-info task of `chainId` got infos with a new block hash. -/
def receive (chainId : Nat) (miningInfo : MiningInfo) (initial : Bool) (state : State Resume) :
    State Resume :=
  let updated := (state.chainStates chainId).updateMiningInfo miningInfo
  send { state with chainStates := Function.update state.chainStates chainId updated }
    (.scheduleNewBlock chainId ⟨updated.block, miningInfo⟩ initial)

def scheduleNewBlock (chainId : Nat) (block : Block) (initial : Bool) (state : State Resume) :
    State Resume :=
  let stored :=
    { state with
      queue := push state.queue chainId
      miningInfos := Function.update state.miningInfos chainId block
      resumeStates := Function.update state.resumeStates chainId none
      scheduled := Function.update state.scheduled chainId block.number }
  if initial then stored else send stored .processBlock

def rescheduleBlock (chainId : Nat) (block : Block) (resumeInfo : Resume)
    (state : State Resume) : State Resume :=
  -- only reschedule if no new block in the meantime
  let stored :=
    if state.queue chainId then state
    else
      { state with
        queue := push state.queue chainId
        miningInfos := Function.update state.miningInfos chainId block
        resumeStates := Function.update state.resumeStates chainId (some resumeInfo) }
  send stored .processBlock

/-- Pop a chain and spawn the round that scans it. -/
def startRound (chainId prio : Nat) (state : State Resume) : State Resume :=
  let block := state.miningInfos chainId
  let blockCount := (state.chainStates chainId).block
  { state with
    queue := remove state.queue chainId
    miner := state.miner.updateState chainId blockCount prio block.miningInfo.generationSignature
    resumeStates := Function.update state.resumeStates chainId none
    rounds := state.rounds ++
      [⟨chainId, block, state.resumeStates chainId, blockCount, false⟩]
    starts := state.starts ++ [⟨chainId, block.number, state.scheduled chainId⟩] }

/-- The check of the prioritization while a round is running. -/
def prioritize (prio : Nat) (miner : MinerState) : MinerState :=
  if prio = miner.prio then { miner with interrupt := true }
  else if miner.prio < prio ∧ miner.interrupt = false ∧ miner.pause = false then
    { miner with interrupt := true, pause := true }
  else miner

def processBlock (chains : Nat) (state : State Resume) : State Resume :=
  match peek chains state.queue with
  | none => state
  | some (chainId, prio) =>
    if state.miner.scanning then { state with miner := prioritize prio state.miner }
    else startRound chainId prio state

def handle (chains : Nat) (message : SchedulerMessage Resume) (state : State Resume) :
    State Resume :=
  match message with
  | .scheduleNewBlock chainId block initial => scheduleNewBlock chainId block initial state
  | .rescheduleBlock chainId block resumeInfo => rescheduleBlock chainId block resumeInfo state
  | .processBlock => processBlock chains state

/-- The last lines of a round: the miner no longer scans, and the scheduler is told. -/
def leave (index : Nat) (state : State Resume) : State Resume :=
  send
    { state with
      rounds := state.rounds.eraseIdx index
      miner := { state.miner with scanning := false } }
    .processBlock

/-- A round whose disks have all reported takes the miner state. `interrupted` is the
snapshot it takes where some disk was interrupted. -/
def endRound (index : Nat) (round : Round Resume) (interrupted : Option Resume)
    (state : State Resume) : State Resume :=
  let complete :=
    { leave index state with finished := state.finished ++ [(round.chainId, round.block.number)] }
  if state.miner.interrupt then
    if state.miner.pause then
      match interrupted with
      | none => complete
      | some resumeInfo =>
        send { state with rounds := state.rounds.set index { round with closing := true } }
          (.rescheduleBlock state.miner.chainId round.block resumeInfo)
    else leave index state
  else complete

inductive Action (Resume : Type)
  | initialBlock (chainId : Nat) (miningInfo : MiningInfo)
  | trigger
  | newBlock (chainId : Nat) (miningInfo : MiningInfo)
  | deliver
  | endRound (index : Nat) (interrupted : Option Resume)
  | release (index : Nat)

/-- No round is between its two sends: the miner state can be locked. -/
def unlocked (state : State Resume) : Bool := state.rounds.all fun round => !round.closing

/-- The three parties of the scheduling. The initial infos are fetched, once for each
chain, before the scheduler task exists. A disk reports an interruption only after
it has read the interrupt flag, which stays up until the next round starts. -/
def step (chains : Nat) (state : State Resume) : Action Resume → Option (State Resume)
  | .initialBlock chainId miningInfo =>
    if state.started = false ∧ chainId < chains ∧ (state.chainStates chainId).block = 0 ∧
        miningInfo.blockHash ≠ (state.chainStates chainId).blockHash then
      some (receive chainId miningInfo true state)
    else none
  | .trigger =>
    if state.started then none else some (send { state with started := true } .processBlock)
  | .newBlock chainId miningInfo =>
    if state.started = true ∧ chainId < chains ∧
        miningInfo.blockHash ≠ (state.chainStates chainId).blockHash then
      some (receive chainId miningInfo false state)
    else none
  | .deliver =>
    match state.channel with
    | [] => none
    | message :: rest =>
      if state.started ∧ unlocked state then
        some (handle chains message { state with channel := rest })
      else none
  | .endRound index interrupted =>
    match state.rounds[index]? with
    | none => none
    | some round =>
      if unlocked state ∧ (interrupted.isSome → state.miner.interrupt) then
        some (endRound index round interrupted state)
      else none
  | .release index =>
    match state.rounds[index]? with
    | none => none
    | some round => if round.closing then some (leave index state) else none

/-- `Default` for the mining infos and the miner state. -/
def start : State Resume where
  started := false
  chainStates := fun _ => ⟨"", "", 0, 0⟩
  queue := fun _ => false
  miningInfos := fun _ => ⟨0, ⟨0, "", 0, ""⟩⟩
  resumeStates := fun _ => none
  miner := ⟨false, 0, 0, 0, "", false, false⟩
  rounds := []
  channel := []
  scheduled := fun _ => 0
  starts := []
  finished := []

def system (Resume : Type) (chains : Nat) : System (State Resume) (Action Resume) where
  initial := fun state => state = start
  step := step chains

/-- The queued chain with the highest priority, or no chain is queued. -/
theorem peek_spec (chains : Nat) (queue : Nat → Bool) :
    (peek chains queue = none ∧ ∀ chainId, chainId < chains → queue chainId = false) ∨
    ∃ chainId, peek chains queue = some (chainId, chains - chainId) ∧ chainId < chains ∧
      queue chainId = true := by
  unfold peek
  cases found : (List.range chains).find? queue with
  | none =>
    refine Or.inl ⟨rfl, ?_⟩
    intro chainId inside
    have absent := List.find?_eq_none.mp found chainId (List.mem_range.mpr inside)
    simpa only [Bool.not_eq_true] using absent
  | some chainId =>
    exact Or.inr ⟨chainId, rfl, List.mem_range.mp (List.mem_of_find?_eq_some found),
      List.find?_some found⟩

theorem peek_highest (chains : Nat) (queue : Nat → Bool) (chainId prio other : Nat)
    (head : peek chains queue = some (chainId, prio)) (inside : other < chains)
    (queued : queue other = true) : chains - other ≤ prio := by
  unfold peek at head
  obtain ⟨first, found, same⟩ := Option.map_eq_some_iff.mp head
  cases same
  obtain ⟨_, i, small, rfl, earlier⟩ := List.find?_eq_some_iff_getElem.mp found
  simp only [List.getElem_range]
  by_cases before : other < i
  · have skipped := earlier other before
    simp only [List.getElem_range, queued, Bool.not_true] at skipped
    cases skipped
  · omega

end Pocx.Scheduler
