import Mathlib.Data.Finset.Insert
import Mathlib.Logic.Function.Basic
import Pocx.Aggregator.TimeBending
import Pocx.Lib.Transition

set_option autoImplicit false

namespace Pocx.Stats

open Panicking (Panic divide divide_ok ok_bind)
open TimeBending (calculateTimeBendedDeadline)
open Transition (System Reachable always)

/-- Instants are in nanoseconds. -/
abbrev DateTime : Type := Int

structure BestSubmission where
  rawQuality : UInt64
  timestamp : DateTime

structure MinerInfo where
  accountId : String
  machineId : Option String
  lastSeen : DateTime
  bestRawQuality : Option UInt64
  currentHeight : UInt64
  bestPerBlock : UInt64 → Option BestSubmission

/-- Account and machine. -/
abbrev Key : Type := String × String

structure StatsInner where
  uniqueMiners : Finset String
  activeConnections : Key → Option MinerInfo
  currentHeight : UInt64
  currentBaseTarget : Option UInt64

/-- `u64::MAX` -/
def u64Max : UInt64 := 18446744073709551615

def saturatingSub (a b : UInt64) : UInt64 := if b ≤ a then a - b else 0

/-- A height at or below which the blocks are no longer kept. -/
def cutoffHeight (height : UInt64) : UInt64 := saturatingSub height 720

section record

variable (now : DateTime) (rawQuality height : UInt64)

/-- Reset or update the best of the current round. -/
def MinerInfo.updateRound (info : MinerInfo) : MinerInfo :=
  if height ≠ info.currentHeight then
    { info with currentHeight := height, bestRawQuality := some rawQuality }
  else if rawQuality < info.bestRawQuality.getD u64Max then
    { info with bestRawQuality := some rawQuality }
  else info

/-- Keep the best submission of each block. -/
def MinerInfo.updateBlock (info : MinerInfo) : BestSubmission :=
  match info.bestPerBlock height with
  | some best => if rawQuality < best.rawQuality then ⟨rawQuality, now⟩ else best
  | none => ⟨rawQuality, now⟩

/-- The `and_modify` of `record_submission`. -/
def MinerInfo.record (info : MinerInfo) : MinerInfo :=
  let bestPerBlock :=
    Function.update info.bestPerBlock height (some (info.updateBlock now rawQuality height))
  { info.updateRound rawQuality height with
    lastSeen := now
    bestPerBlock := fun block => if cutoffHeight height < block then bestPerBlock block else none }

end record

/-- `machine_id.unwrap_or_else(..)` -/
def machineName (machineId : Option String) : String := machineId.getD "unknown"

namespace StatsInner

def recordSubmission (now : DateTime) (accountId : String) (machineId : Option String)
    (rawQuality height : UInt64) (inner : StatsInner) : StatsInner :=
  let key := (accountId, machineName machineId)
  let info := match inner.activeConnections key with
    | some info => info.record now rawQuality height
    | none =>
      { accountId
        machineId := some (machineName machineId)
        lastSeen := now
        bestRawQuality := some rawQuality
        currentHeight := height
        bestPerBlock := Function.update (fun _ => none) height (some ⟨rawQuality, now⟩) }
  { inner with
    uniqueMiners := insert accountId inner.uniqueMiners
    activeConnections := Function.update inner.activeConnections key (some info) }

def updateHeight (height : UInt64) (inner : StatsInner) : StatsInner :=
  { inner with currentHeight := height }

def recordMinerHeartbeat (now : DateTime) (accountId : String) (machineId : Option String)
    (inner : StatsInner) : StatsInner :=
  let key := (accountId, machineName machineId)
  let info := match inner.activeConnections key with
    | some info => { info with lastSeen := now }
    | none =>
      { accountId
        machineId := some (machineName machineId)
        lastSeen := now
        bestRawQuality := none
        currentHeight := inner.currentHeight
        bestPerBlock := fun _ => none }
  { inner with
    uniqueMiners := insert accountId inner.uniqueMiners
    activeConnections := Function.update inner.activeConnections key (some info) }

end StatsInner

structure CurrentBlockBest where
  height : UInt64
  bestPocTime : Option UInt64
  bestRawQuality : Option UInt64
  bestAccountId : Option String
  bestMachineId : Option String

/-- What `pair_data` holds of a pair for the current block best. -/
structure Pair where
  accountId : String
  machineId : String
  bestRawQuality : Option UInt64

section snapshot

variable (inner : StatsInner)

/-- The best of a miner's round, if it is the current one. -/
def MinerInfo.currentBest (height : UInt64) (info : MinerInfo) : Option UInt64 :=
  if info.currentHeight = height then info.bestRawQuality else none

/-- The pairs seen within 24 hours, in the order in which the map gives its values. -/
def StatsInner.pairData (now : DateTime) (values : List MinerInfo) : List Pair :=
  (values.filter fun info => (now - info.lastSeen).tdiv (10 ^ 9) < 86400).map fun info =>
    { accountId := info.accountId
      machineId := machineName info.machineId
      bestRawQuality := info.currentBest inner.currentHeight }

/-- A turn of the loop that finds the best of the current block. -/
def StatsInner.consider (blockTimeSecs : UInt64) (best : CurrentBlockBest) (pair : Pair) :
    Except Panic CurrentBlockBest :=
  match pair.bestRawQuality with
  | none => .ok best
  | some quality =>
    if best.bestRawQuality.all (quality < ·) then do
      let bestPocTime ← match inner.currentBaseTarget with
        | some baseTarget =>
          (calculateTimeBendedDeadline quality baseTarget blockTimeSecs).map some
        | none => .ok best.bestPocTime
      return { best with
        bestPocTime
        bestRawQuality := some quality
        bestAccountId := some pair.accountId
        bestMachineId := some pair.machineId }
    else .ok best

/-- The `current_block_best` of `snapshot`. -/
def StatsInner.currentBlockBest (blockTimeSecs : UInt64) (now : DateTime)
    (values : List MinerInfo) : Except Panic CurrentBlockBest :=
  (inner.pairData now values).foldlM (inner.consider blockTimeSecs)
    { height := inner.currentHeight
      bestPocTime := none
      bestRawQuality := none
      bestAccountId := none
      bestMachineId := none }

/-- The division in `submission_percentage`. -/
def blocksPerDay (blockTimeSecs : UInt64) : Except Panic Nat := divide 86400 blockTimeSecs.toNat

/-- `snapshot` up to its `current_block_best`, behind the percentages of the pairs. -/
def StatsInner.snapshotBest (blockTimeSecs : UInt64) (now : DateTime)
    (values : List MinerInfo) : Except Panic CurrentBlockBest := do
  let _ ← (inner.pairData now values).mapM fun _ => blocksPerDay blockTimeSecs
  inner.currentBlockBest blockTimeSecs now values

end snapshot

/-- The calls that create a pair or record a quality for it. -/
inductive Entry
  | joined (height : UInt64)
  | submitted (height rawQuality : UInt64)
deriving DecidableEq

def Entry.height : Entry → UInt64
  | .joined height => height
  | .submitted height _ => height

/-- What a pair counts with, the largest quality before it submits. -/
def Entry.rawQuality : Entry → UInt64
  | .joined _ => u64Max
  | .submitted _ rawQuality => rawQuality

/-- The statistics, with the calls so far: of each pair the newest first, and their times. -/
structure State where
  inner : StatsInner
  log : Key → List Entry
  times : List DateTime

inductive Event
  | recordSubmission (now : DateTime) (accountId : String) (machineId : Option String)
      (rawQuality height : UInt64)
  | recordMinerHeartbeat (now : DateTime) (accountId : String) (machineId : Option String)
  | updateHeight (height : UInt64)

def State.step (state : State) : Event → State
  | .recordSubmission now accountId machineId rawQuality height =>
    let key := (accountId, machineName machineId)
    { inner := state.inner.recordSubmission now accountId machineId rawQuality height
      log := Function.update state.log key (.submitted height rawQuality :: state.log key)
      times := now :: state.times }
  | .recordMinerHeartbeat now accountId machineId =>
    let key := (accountId, machineName machineId)
    { inner := state.inner.recordMinerHeartbeat now accountId machineId
      log := Function.update state.log key
        (if state.log key = [] then [.joined state.inner.currentHeight] else state.log key)
      times := now :: state.times }
  | .updateHeight height => { state with inner := state.inner.updateHeight height }

def initialState : State := ⟨⟨∅, fun _ => none, 0, none⟩, fun _ => [], []⟩

def system : System State Event where
  initial := fun state => state = initialState
  step := fun state event => some (state.step event)

/-- A pair still holds a quality for a height: it has recorded it and nothing for another height
since. It never holds the largest quality if it joined in the round without a submission. -/
def Holds : List Entry → UInt64 → UInt64 → Prop
  | [], _, _ => False
  | newest :: older, height, quality =>
    newest.height = height ∧
      (newest = .submitted height quality ∧
          (quality ≠ u64Max ∨ older = [] ∨ ∃ entry ∈ older, entry.height ≠ height) ∨
        Holds older height quality)

instance decidableHolds : (log : List Entry) → (height quality : UInt64) →
    Decidable (Holds log height quality)
  | [], _, _ => instDecidableFalse
  | newest :: older, height, quality =>
    have : Decidable (Holds older height quality) :=
      decidableHolds older height quality
    inferInstanceAs (Decidable (newest.height = height ∧
      (newest = .submitted height quality ∧
          (quality ≠ u64Max ∨ older = [] ∨ ∃ entry ∈ older, entry.height ≠ height) ∨
        Holds older height quality)))

/-- What the two fields for the current round have to do with the calls. -/
structure Round (info : MinerInfo) (log : List Entry) : Prop where
  latest : ∃ newest older, log = newest :: older ∧ newest.height = info.currentHeight
  held : ∀ best, info.bestRawQuality = some best → Holds log info.currentHeight best
  least : ∀ quality, Holds log info.currentHeight quality →
    ∃ best, info.bestRawQuality = some best ∧ best ≤ quality
  fresh : info.bestRawQuality = none → ∀ entry ∈ log, entry.height = info.currentHeight

/-- What the map by height has to do with the calls. -/
structure Blocks (info : MinerInfo) (log : List Entry) : Prop where
  recorded : ∀ block best, info.bestPerBlock block = some best →
    .submitted block best.rawQuality ∈ log
  least : ∀ block quality, .submitted block quality ∈ log →
    (∀ height quality, .submitted height quality ∈ log → cutoffHeight height < block) →
    ∃ best, info.bestPerBlock block = some best ∧
      ∀ quality, .submitted block quality ∈ log → best.rawQuality ≤ quality

section record

variable {info : MinerInfo} {log : List Entry} {now : DateTime} {rawQuality height : UInt64}

theorem Holds.newest (apart : rawQuality ≠ u64Max ∨ log = [] ∨ ∃ entry ∈ log, entry.height ≠ height) :
    Holds (.submitted height rawQuality :: log) height rawQuality :=
  ⟨rfl, .inl ⟨rfl, apart⟩⟩

/-- A submission for another height starts a new round. -/
theorem Round.reset (round : Round info log) (other : height ≠ info.currentHeight) :
    Round { info with currentHeight := height, bestRawQuality := some rawQuality }
      (.submitted height rawQuality :: log) := by
  obtain ⟨newest, older, rfl, latest⟩ := round.latest
  have moved : newest.height ≠ height := by
    rw [latest]
    exact other.symm
  refine ⟨⟨_, _, rfl, rfl⟩, ?_, ?_, fun none => nomatch none⟩
  · intro best stored
    obtain rfl := Option.some.inj stored
    exact Holds.newest (.inr (.inr ⟨newest, List.mem_cons_self, moved⟩))
  · rintro quality ⟨-, ⟨same, -⟩ | ⟨behind, -⟩⟩
    · cases same
      exact ⟨rawQuality, rfl, UInt64.le_refl rawQuality⟩
    · exact absurd behind moved

/-- A better submission for the same height. -/
theorem Round.improve (round : Round info log)
    (better : rawQuality < info.bestRawQuality.getD u64Max) :
    Round { info with bestRawQuality := some rawQuality }
      (.submitted info.currentHeight rawQuality :: log) := by
  have below (quality : UInt64) (held : Holds log info.currentHeight quality) :
      rawQuality ≤ quality := by
    obtain ⟨best, stored, least⟩ := round.least quality held
    rw [stored] at better
    exact UInt64.le_trans (UInt64.le_of_lt better) least
  have small : rawQuality ≠ u64Max := by
    rintro rfl
    have largest : ∀ quality : UInt64, quality ≤ u64Max := by
      intro quality
      rw [UInt64.le_iff_toNat_le]
      exact Nat.le_of_lt_succ quality.toNat_lt
    exact absurd better (UInt64.not_lt.mpr (largest _))
  refine ⟨⟨_, _, rfl, rfl⟩, ?_, ?_, fun none => nomatch none⟩
  · intro best stored
    obtain rfl := Option.some.inj stored
    exact Holds.newest (.inl small)
  · rintro quality ⟨-, ⟨same, -⟩ | held⟩
    · cases same
      exact ⟨rawQuality, rfl, UInt64.le_refl rawQuality⟩
    · exact ⟨rawQuality, rfl, below quality held⟩

/-- Any other submission for the same height. -/
theorem Round.keep (round : Round info log)
    (worse : ¬ rawQuality < info.bestRawQuality.getD u64Max) :
    Round info (.submitted info.currentHeight rawQuality :: log) := by
  refine ⟨⟨_, _, rfl, rfl⟩, ?_, ?_, ?_⟩
  · intro best stored
    exact ⟨rfl, .inr (round.held best stored)⟩
  · rintro quality ⟨-, ⟨same, apart⟩ | held⟩
    · cases same
      cases stored : info.bestRawQuality with
      | some best =>
        rw [stored] at worse
        exact ⟨best, rfl, UInt64.not_lt.mp worse⟩
      | none =>
        rw [stored] at worse
        obtain ⟨newest, older, rfl, latest⟩ := round.latest
        rcases apart with small | empty | ⟨entry, found, other⟩
        · exfalso
          apply worse
          rw [Option.getD_none, UInt64.lt_iff_toNat_lt]
          have bounded : rawQuality.toNat < 2 ^ 64 := rawQuality.toNat_lt
          have apart : rawQuality.toNat ≠ u64Max.toNat := fun same =>
            small (UInt64.toNat_inj.mp same)
          have size : u64Max.toNat = 2 ^ 64 - 1 := by decide
          omega
        · cases empty
        · exact absurd (round.fresh stored entry found) other
    · exact round.least quality held
  · intro stored entry found
    rcases List.mem_cons.mp found with rfl | old
    · rfl
    · exact round.fresh stored entry old

theorem Round.updateRound (round : Round info log) :
    Round (info.updateRound rawQuality height) (.submitted height rawQuality :: log) := by
  rw [MinerInfo.updateRound]
  split
  · rename_i other
    exact round.reset other
  · rename_i same
    obtain rfl := not_not.mp same
    split
    · rename_i better
      exact round.improve better
    · rename_i worse
      exact round.keep worse

/-- The best of a block is a quality recorded for it, and no larger than the new one. -/
theorem MinerInfo.updateBlock_spec :
    ((info.updateBlock now rawQuality height).rawQuality = rawQuality ∨
      ∃ best, info.bestPerBlock height = some best ∧
        (info.updateBlock now rawQuality height).rawQuality = best.rawQuality) ∧
    (info.updateBlock now rawQuality height).rawQuality ≤ rawQuality ∧
    ∀ best, info.bestPerBlock height = some best →
      (info.updateBlock now rawQuality height).rawQuality ≤ best.rawQuality := by
  rw [MinerInfo.updateBlock]
  cases info.bestPerBlock height with
  | none => exact ⟨.inl rfl, UInt64.le_refl rawQuality, fun _ stored => nomatch stored⟩
  | some best =>
    dsimp only
    split
    · rename_i better
      refine ⟨.inl rfl, UInt64.le_refl rawQuality, ?_⟩
      intro _ stored
      obtain rfl := Option.some.inj stored
      exact UInt64.le_of_lt better
    · rename_i worse
      refine ⟨.inr ⟨best, rfl, rfl⟩, UInt64.not_lt.mp worse, ?_⟩
      intro _ stored
      obtain rfl := Option.some.inj stored
      exact UInt64.le_refl best.rawQuality

theorem Blocks.record (blocks : Blocks info log) :
    Blocks (info.record now rawQuality height) (.submitted height rawQuality :: log) := by
  obtain ⟨origin, below, improved⟩ := @MinerInfo.updateBlock_spec info now rawQuality height
  refine ⟨?_, ?_⟩
  · intro block best stored
    dsimp only [MinerInfo.record] at stored
    split at stored
    swap
    · cases stored
    by_cases same : block = height
    · rw [same, Function.update_self] at stored
      obtain rfl := Option.some.inj stored
      rw [same]
      rcases origin with new | ⟨old, kept, equal⟩
      · rw [new]
        exact List.mem_cons_self
      · rw [equal]
        exact List.mem_cons_of_mem _ (blocks.recorded height old kept)
    · rw [Function.update_of_ne same] at stored
      exact List.mem_cons_of_mem _ (blocks.recorded block best stored)
  · intro block quality submitted recent
    have retained : cutoffHeight height < block := recent height rawQuality List.mem_cons_self
    have before : ∀ height quality, Entry.submitted height quality ∈ log →
        cutoffHeight height < block := fun height quality found =>
      recent height quality (List.mem_cons_of_mem _ found)
    dsimp only [MinerInfo.record]
    rw [if_pos retained]
    by_cases same : block = height
    · subst same
      rw [Function.update_self]
      refine ⟨_, rfl, ?_⟩
      intro quality found
      rcases List.mem_cons.mp found with new | old
      · cases new
        exact below
      · obtain ⟨best, stored, least⟩ := blocks.least block quality old before
        exact UInt64.le_trans (improved best stored) (least quality old)
    · rw [Function.update_of_ne same]
      have old (quality : UInt64)
          (found : .submitted block quality ∈ Entry.submitted height rawQuality :: log) :
          .submitted block quality ∈ log := by
        rcases List.mem_cons.mp found with new | old
        · cases new
          exact absurd rfl same
        · exact old
      obtain ⟨best, stored, least⟩ := blocks.least block quality (old quality submitted) before
      exact ⟨best, stored, fun quality found => least quality (old quality found)⟩

end record

/-- What the statistics keep of a pair. -/
structure Tracked (times : List DateTime) (info : MinerInfo) (log : List Entry) : Prop where
  round : Round info log
  blocks : Blocks info log
  seen : info.lastSeen ∈ times

/-- The statistics agree with the calls. -/
structure Agrees (state : State) : Prop where
  tracked : ∀ key info, state.inner.activeConnections key = some info →
    Tracked state.times info (state.log key)
  untouched : ∀ key, state.inner.activeConnections key = none → state.log key = []
  targetless : state.inner.currentBaseTarget = none

theorem Tracked.later {times : List DateTime} {info : MinerInfo} {log : List Entry}
    (tracked : Tracked times info log) (now : DateTime) : Tracked (now :: times) info log :=
  ⟨tracked.round, tracked.blocks, List.mem_cons_of_mem _ tracked.seen⟩

/-- A call that touches one pair. -/
theorem Agrees.touch {state : State} (agrees : Agrees state) {now : DateTime} {key : Key}
    {info : MinerInfo} {log : List Entry} {miners : Finset String}
    (tracked : Tracked (now :: state.times) info log) :
    Agrees
      { inner := { state.inner with
          uniqueMiners := miners
          activeConnections := Function.update state.inner.activeConnections key (some info) }
        log := Function.update state.log key log
        times := now :: state.times } := by
  refine ⟨?_, ?_, agrees.targetless⟩
  · intro other info' stored
    dsimp only at stored ⊢
    by_cases same : other = key
    · rw [same, Function.update_self] at stored
      obtain rfl := Option.some.inj stored
      rw [same, Function.update_self]
      exact tracked
    · rw [Function.update_of_ne same] at stored ⊢
      exact (agrees.tracked other info' stored).later now
  · intro other missing
    dsimp only at missing ⊢
    by_cases same : other = key
    · rw [same, Function.update_self] at missing
      cases missing
    · rw [Function.update_of_ne same] at missing ⊢
      exact agrees.untouched other missing

theorem Agrees.recordSubmission {state : State} (agrees : Agrees state) (now : DateTime)
    (accountId : String) (machineId : Option String) (rawQuality height : UInt64) :
    Agrees (state.step (.recordSubmission now accountId machineId rawQuality height)) := by
  apply agrees.touch
  cases found : state.inner.activeConnections (accountId, machineName machineId) with
  | some info =>
    have tracked := agrees.tracked _ info found
    have round : Round (info.updateRound rawQuality height)
      (.submitted height rawQuality :: state.log (accountId, machineName machineId)) :=
        tracked.round.updateRound
    exact ⟨⟨round.latest, round.held, round.least, round.fresh⟩, tracked.blocks.record,
      List.mem_cons_self⟩
  | none =>
    rw [agrees.untouched _ found]
    refine ⟨⟨⟨_, _, rfl, rfl⟩, ?_, ?_, fun none => nomatch none⟩, ⟨?_, ?_⟩, List.mem_cons_self⟩
    · intro best stored
      obtain rfl := Option.some.inj stored
      exact Holds.newest (.inr (.inl rfl))
    · rintro quality ⟨-, ⟨same, -⟩ | older⟩
      · cases same
        exact ⟨rawQuality, rfl, UInt64.le_refl rawQuality⟩
      · cases older
    · intro block best stored
      dsimp only at stored
      by_cases same : block = height
      · rw [same, Function.update_self] at stored
        obtain rfl := Option.some.inj stored
        rw [same]
        exact List.mem_cons_self
      · rw [Function.update_of_ne same] at stored
        cases stored
    · intro block quality submitted _
      cases List.mem_singleton.mp submitted
      dsimp only
      rw [Function.update_self]
      refine ⟨_, rfl, ?_⟩
      intro quality found
      cases List.mem_singleton.mp found
      exact UInt64.le_refl rawQuality

theorem Agrees.recordMinerHeartbeat {state : State} (agrees : Agrees state) (now : DateTime)
    (accountId : String) (machineId : Option String) :
    Agrees (state.step (.recordMinerHeartbeat now accountId machineId)) := by
  apply agrees.touch
  cases found : state.inner.activeConnections (accountId, machineName machineId) with
  | some info =>
    obtain ⟨round, blocks, -⟩ := agrees.tracked _ info found
    obtain ⟨newest, older, known, -⟩ := round.latest
    rw [if_neg (by rw [known]; exact List.cons_ne_nil _ _)]
    exact ⟨⟨round.latest, round.held, round.least, round.fresh⟩, ⟨blocks.recorded, blocks.least⟩,
      List.mem_cons_self⟩
  | none =>
    rw [if_pos (agrees.untouched _ found)]
    refine ⟨⟨⟨_, _, rfl, rfl⟩, (fun _ stored => nomatch stored), ?_, ?_⟩,
      ⟨(fun _ _ stored => nomatch stored), ?_⟩, List.mem_cons_self⟩
    · rintro quality ⟨-, ⟨same, -⟩ | older⟩
      · cases same
      · cases older
    · intro _ entry joined
      rw [List.mem_singleton.mp joined]
      rfl
    · intro block quality submitted
      cases List.mem_singleton.mp submitted

theorem Agrees.step {state : State} (agrees : Agrees state) (event : Event) :
    Agrees (state.step event) := by
  cases event with
  | recordSubmission now accountId machineId rawQuality height =>
    exact agrees.recordSubmission now accountId machineId rawQuality height
  | recordMinerHeartbeat now accountId machineId =>
    exact agrees.recordMinerHeartbeat now accountId machineId
  | updateHeight height => exact ⟨agrees.tracked, agrees.untouched, agrees.targetless⟩

theorem agrees_reachable {state : State} (reached : Reachable system always state) :
    Agrees state := by
  induction reached with
  | start initial =>
    obtain rfl := initial
    exact ⟨(fun _ _ stored => nomatch stored), fun _ _ => rfl, rfl⟩
  | next _ _ taken ih =>
    obtain rfl := Option.some.inj taken
    exact ih.step _

/-- The minimum of some qualities, if there are any. -/
def Minimum (found : Option UInt64) (qualities : UInt64 → Prop) : Prop :=
  match found with
  | some best => qualities best ∧ ∀ quality, qualities quality → best ≤ quality
  | none => ∀ quality, ¬ qualities quality

theorem Minimum.pair (first second : Option UInt64) :
    Minimum (match second with
      | none => first
      | some quality => if first.all (quality < ·) then some quality else first)
      (fun quality => some quality = first ∨ some quality = second) := by
  cases second with
  | none =>
    cases first with
    | none => simp [Minimum]
    | some best => simp [Minimum]
  | some quality =>
    cases first with
    | none => simp [Minimum]
    | some best =>
      by_cases better : quality < best
      · simp [Minimum, better, UInt64.le_of_lt better]
      · simp [Minimum, better, UInt64.not_lt.mp better]

theorem Minimum.trans {found next : Option UInt64} {first second rest : UInt64 → Prop}
    (smallest : Minimum found fun quality => some quality = next ∨ rest quality)
    (least : Minimum next fun quality => first quality ∨ second quality) :
    Minimum found fun quality => first quality ∨ second quality ∨ rest quality := by
  have apart (quality : UInt64) (other : first quality ∨ second quality ∨ rest quality) :
      (first quality ∨ second quality) ∨ rest quality := or_assoc.mpr other
  cases next with
  | none =>
    cases found with
    | none =>
      intro quality other
      rcases apart quality other with early | late
      · exact least quality early
      · exact smallest quality (.inr late)
    | some best =>
      obtain ⟨attained | attained, below⟩ := smallest
      · cases attained
      · refine ⟨.inr (.inr attained), ?_⟩
        intro quality other
        rcases apart quality other with early | late
        · exact absurd early (least quality)
        · exact below quality (.inr late)
  | some middle =>
    cases found with
    | none => exact absurd (.inl rfl) (smallest middle)
    | some best =>
      obtain ⟨attained, below⟩ := smallest
      refine ⟨?_, ?_⟩
      · rcases attained with same | late
        · obtain rfl := Option.some.inj same
          exact or_assoc.mp (.inl least.1)
        · exact .inr (.inr late)
      · intro quality other
        rcases apart quality other with early | late
        · exact UInt64.le_trans (below middle (.inl rfl)) (least.2 quality early)
        · exact below quality (.inr late)

section snapshot

variable {inner : StatsInner} (targetless : inner.currentBaseTarget = none) (blockTimeSecs : UInt64)
include targetless

theorem StatsInner.consider_spec (best : CurrentBlockBest) (pair : Pair) :
    ∃ next, inner.consider blockTimeSecs best pair = .ok next ∧
      Minimum next.bestRawQuality fun quality =>
        some quality = best.bestRawQuality ∨ some quality = pair.bestRawQuality := by
  have least := Minimum.pair best.bestRawQuality pair.bestRawQuality
  rw [StatsInner.consider, targetless]
  cases candidate : pair.bestRawQuality with
  | none =>
    rw [candidate] at least
    exact ⟨best, rfl, least⟩
  | some quality =>
    rw [candidate] at least
    dsimp only at least ⊢
    split
    · rename_i better
      rw [if_pos better] at least
      exact ⟨_, rfl, least⟩
    · rename_i worse
      rw [if_neg worse] at least
      exact ⟨best, rfl, least⟩

/-- The loop finds the least quality that it considers. -/
theorem StatsInner.consider_all (best : CurrentBlockBest) (pairs : List Pair) :
    ∃ last, pairs.foldlM (inner.consider blockTimeSecs) best = .ok last ∧
      Minimum last.bestRawQuality fun quality =>
        some quality = best.bestRawQuality ∨ ∃ pair ∈ pairs, some quality = pair.bestRawQuality := by
  induction pairs generalizing best with
  | nil =>
    refine ⟨best, rfl, ?_⟩
    have least := Minimum.pair best.bestRawQuality none
    simpa using least
  | cons pair rest ih =>
    obtain ⟨next, considered, least⟩ := inner.consider_spec targetless blockTimeSecs best pair
    obtain ⟨last, done, smallest⟩ := ih next
    refine ⟨last, ?_, ?_⟩
    · rw [List.foldlM_cons, considered]
      exact done
    · have both := smallest.trans least
      simpa only [List.exists_mem_cons_iff] using both

end snapshot

theorem StatsInner.snapshotBest_eq (inner : StatsInner) {blockTimeSecs : UInt64}
    (nonzero : blockTimeSecs ≠ 0) (now : DateTime) (values : List MinerInfo) :
    inner.snapshotBest blockTimeSecs now values =
      inner.currentBlockBest blockTimeSecs now values := by
  have seconds : blockTimeSecs.toNat ≠ 0 := fun zero => nonzero (UInt64.toNat_inj.mp zero)
  have divided (pairs : List Pair) :
      ∃ shares, pairs.mapM (fun _ => blocksPerDay blockTimeSecs) = .ok shares := by
    induction pairs with
    | nil => exact ⟨[], rfl⟩
    | cons pair rest ih =>
      obtain ⟨shares, done⟩ := ih
      refine ⟨86400 / blockTimeSecs.toNat :: shares, ?_⟩
      rw [List.mapM_cons, done, blocksPerDay, divide_ok seconds]
      rfl
  obtain ⟨shares, done⟩ := divided (inner.pairData now values)
  rw [snapshotBest, done, ok_bind]

/-- Without a block time the snapshot of a pair divides by zero. -/
theorem StatsInner.snapshotBest_zero (inner : StatsInner) {now : DateTime}
    {values : List MinerInfo} (seen : inner.pairData now values ≠ []) :
    inner.snapshotBest 0 now values = .error .divisionByZero := by
  obtain ⟨pair, rest, pairs⟩ := List.exists_cons_of_ne_nil seen
  rw [snapshotBest, pairs, List.mapM_cons]
  rfl

/-- The values of a map, in any order. -/
def StatsInner.Enumerates (inner : StatsInner) (values : List MinerInfo) : Prop :=
  ∀ info, info ∈ values ↔ ∃ key, inner.activeConnections key = some info

/-- A quality is recorded for the current height. -/
def State.Recorded (state : State) (quality : UInt64) : Prop :=
  ∃ key, .submitted state.inner.currentHeight quality ∈ state.log key

/-- For each quality recorded for the current height, some pair still holds one as good. -/
def State.HoldsBest (state : State) : Prop :=
  ∀ quality, state.Recorded quality →
    ∃ key, ∃ held ≤ quality, Holds (state.log key) state.inner.currentHeight held

/-- The map by height has the minimum of every block that is still kept. -/
def State.BlockBests (state : State) : Prop :=
  ∀ key block quality, .submitted block quality ∈ state.log key →
    (∀ height quality, .submitted height quality ∈ state.log key → cutoffHeight height < block) →
    ∃ info best, state.inner.activeConnections key = some info ∧
      info.bestPerBlock block = some best ∧
      Minimum (some best.rawQuality) fun quality => .submitted block quality ∈ state.log key

theorem Holds.submitted {log : List Entry} {height quality : UInt64}
    (holds : Holds log height quality) : .submitted height quality ∈ log := by
  induction log with
  | nil => cases holds
  | cons newest older ih =>
    obtain ⟨-, ⟨rfl, -⟩ | behind⟩ := holds
    · exact List.mem_cons_self
    · exact List.mem_cons_of_mem _ (ih behind)

theorem Round.currentBest_holds {info : MinerInfo} {log : List Entry} (round : Round info log)
    {height best : UInt64} (current : info.currentBest height = some best) :
    Holds log height best := by
  rw [MinerInfo.currentBest] at current
  split at current
  · rename_i same
    rw [← same]
    exact round.held best current
  · cases current

theorem Round.holds_currentBest {info : MinerInfo} {log : List Entry} (round : Round info log)
    {height quality : UInt64} (holds : Holds log height quality) :
    ∃ best, info.currentBest height = some best ∧ best ≤ quality := by
  obtain ⟨newest, older, rfl, latest⟩ := round.latest
  obtain rfl : newest.height = height := holds.1
  rw [latest] at holds
  rw [MinerInfo.currentBest, if_pos latest.symm]
  exact round.least quality holds

theorem Agrees.blockBests {state : State} (agrees : Agrees state) : state.BlockBests := by
  intro key block quality submitted recent
  cases found : state.inner.activeConnections key with
  | none =>
    rw [agrees.untouched key found] at submitted
    cases submitted
  | some info =>
    have blocks := (agrees.tracked key info found).blocks
    obtain ⟨best, stored, least⟩ := blocks.least block quality submitted recent
    exact ⟨info, best, rfl, stored, blocks.recorded block best stored, least⟩

/-- All calls so far are less than 24 hours old. -/
def State.WithinDay (state : State) (now : DateTime) : Prop :=
  ∀ time ∈ state.times, now - time < 86400 * 10 ^ 9

theorem withinDay_seconds {age : Int} (recent : age < 86400 * 10 ^ 9) :
    age.tdiv (10 ^ 9) < 86400 := by
  rcases lt_or_ge age 0 with negative | positive
  · have positive : 0 ≤ (-age).tdiv (10 ^ 9) := Int.tdiv_nonneg (by omega) (by decide)
    rw [Int.neg_tdiv] at positive
    omega
  · rw [Int.tdiv_eq_ediv_of_nonneg positive]
    omega

/-- The snapshot finds the least of the qualities that the pairs hold for the current height. -/
theorem Agrees.currentBlockBest {state : State} (agrees : Agrees state) (blockTimeSecs : UInt64)
    {now : DateTime} {values : List MinerInfo} (recent : state.WithinDay now)
    (enumerates : state.inner.Enumerates values) :
    ∃ best, state.inner.currentBlockBest blockTimeSecs now values = .ok best ∧
      Minimum best.bestRawQuality fun quality => ∃ key info,
        state.inner.activeConnections key = some info ∧
          some quality = info.currentBest state.inner.currentHeight := by
  obtain ⟨best, done, least⟩ := StatsInner.consider_all agrees.targetless blockTimeSecs
    { height := state.inner.currentHeight, bestPocTime := none, bestRawQuality := none,
      bestAccountId := none, bestMachineId := none } (state.inner.pairData now values)
  refine ⟨best, done, ?_⟩
  have all : (values.filter fun info => (now - info.lastSeen).tdiv (10 ^ 9) < 86400) = values := by
    rw [List.filter_eq_self]
    intro info listed
    obtain ⟨key, found⟩ := (enumerates info).mp listed
    exact decide_eq_true (withinDay_seconds (recent _ (agrees.tracked key info found).seen))
  have candidates (quality : UInt64) :
      (some quality = none ∨ ∃ pair ∈ state.inner.pairData now values,
        some quality = pair.bestRawQuality) ↔
      ∃ key info, state.inner.activeConnections key = some info ∧
        some quality = info.currentBest state.inner.currentHeight := by
    rw [StatsInner.pairData, all]
    constructor
    · rintro (absent | ⟨pair, listed, same⟩)
      · cases absent
      · obtain ⟨info, known, rfl⟩ := List.mem_map.mp listed
        obtain ⟨key, found⟩ := (enumerates info).mp known
        exact ⟨key, info, found, same⟩
    · rintro ⟨key, info, found, same⟩
      exact .inr ⟨_, List.mem_map_of_mem ((enumerates info).mpr ⟨key, found⟩), same⟩
  simpa only [candidates] using least

/-- What is found is right exactly when some pair still holds the best quality of the height. -/
theorem Agrees.currentBlockBest_iff {state : State} (agrees : Agrees state)
    (blockTimeSecs : UInt64) {now : DateTime} {values : List MinerInfo}
    (recent : state.WithinDay now) (enumerates : state.inner.Enumerates values) :
    (∃ best, state.inner.currentBlockBest blockTimeSecs now values = .ok best ∧
      Minimum best.bestRawQuality state.Recorded) ↔ state.HoldsBest := by
  obtain ⟨best, done, least⟩ := agrees.currentBlockBest blockTimeSecs recent enumerates
  have held {key : Key} {quality : UInt64}
      (holds : Holds (state.log key) state.inner.currentHeight quality) :
      ∃ info current, state.inner.activeConnections key = some info ∧
        some current = info.currentBest state.inner.currentHeight ∧ current ≤ quality := by
    cases found : state.inner.activeConnections key with
    | none =>
      rw [agrees.untouched key found] at holds
      cases holds
    | some info =>
      obtain ⟨current, same, below⟩ := (agrees.tracked key info found).round.holds_currentBest holds
      exact ⟨info, current, rfl, same.symm, below⟩
  constructor
  · rintro ⟨best', done', right⟩ quality recorded
    obtain rfl := Except.ok.inj (done.symm.trans done')
    cases chosen : best.bestRawQuality with
    | none =>
      rw [chosen] at right
      exact absurd recorded (right quality)
    | some minimum =>
      rw [chosen] at right least
      obtain ⟨⟨key, info, found, same⟩, -⟩ := least
      exact ⟨key, minimum, right.2 quality recorded,
        (agrees.tracked key info found).round.currentBest_holds same.symm⟩
  · intro holdsBest
    refine ⟨best, done, ?_⟩
    cases chosen : best.bestRawQuality with
    | none =>
      rw [chosen] at least
      intro quality recorded
      obtain ⟨key, quality', -, holds⟩ := holdsBest quality recorded
      obtain ⟨info, current, found, same, -⟩ := held holds
      exact least current ⟨key, info, found, same⟩
    | some minimum =>
      rw [chosen] at least
      obtain ⟨⟨key, info, found, same⟩, below⟩ := least
      refine ⟨⟨key, ?_⟩, ?_⟩
      · exact ((agrees.tracked key info found).round.currentBest_holds same.symm).submitted
      · intro quality recorded
        obtain ⟨key, quality', small, holds⟩ := holdsBest quality recorded
        obtain ⟨info, current, found, same, lower⟩ := held holds
        exact UInt64.le_trans (below current ⟨key, info, found, same⟩)
          (UInt64.le_trans lower small)

/-- The best quality of the current height is still held after each call. -/
def keepsBest (state : State) (event : Event) : Prop := (state.step event).HoldsBest

/-- The statistics agree with the submissions as long as the best quality of the current height
was not given up for another height; the map by height always does. -/
theorem statistics_agree (state : State) :
    (Reachable system always state → state.BlockBests) ∧
    (Reachable system always state → ∀ blockTimeSecs now values, state.WithinDay now →
      state.inner.Enumerates values →
      ((∃ best, state.inner.currentBlockBest blockTimeSecs now values = .ok best ∧
        Minimum best.bestRawQuality state.Recorded) ↔ state.HoldsBest)) ∧
    (Reachable system keepsBest state → ∀ blockTimeSecs now values, state.WithinDay now →
      state.inner.Enumerates values →
      ∃ best, state.inner.currentBlockBest blockTimeSecs now values = .ok best ∧
        Minimum best.bestRawQuality state.Recorded) := by
  refine ⟨?_, ?_, ?_⟩
  · intro reached
    exact (agrees_reachable reached).blockBests
  · intro reached blockTimeSecs now values recent enumerates
    exact (agrees_reachable reached).currentBlockBest_iff blockTimeSecs recent enumerates
  · intro reached blockTimeSecs now values recent enumerates
    have agrees := agrees_reachable (reached.mono fun _ _ _ => trivial)
    rw [agrees.currentBlockBest_iff blockTimeSecs recent enumerates]
    cases reached with
    | start initial =>
      obtain rfl := initial
      rintro quality ⟨key, submitted⟩
      cases submitted
    | next _ allows taken =>
      obtain rfl := Option.some.inj taken
      exact allows

/-- A machine submits for a height. -/
def submission (rawQuality height : UInt64) : Event :=
  .recordSubmission 0 "account" (some "machine") rawQuality height

/-- The pair that a call touches. -/
def Event.key : Event → Option Key
  | .recordSubmission _ accountId machineId _ _ => some (accountId, machineName machineId)
  | .recordMinerHeartbeat _ accountId machineId => some (accountId, machineName machineId)
  | .updateHeight _ => none

theorem step_untouched (state : State) {event : Event} {key : Key} (other : event.key ≠ some key) :
    (state.step event).inner.activeConnections key = state.inner.activeConnections key := by
  cases event with
  | recordSubmission now accountId machineId rawQuality height =>
    exact Function.update_of_ne (fun same => other (congrArg some same.symm)) _ _
  | recordMinerHeartbeat now accountId machineId =>
    exact Function.update_of_ne (fun same => other (congrArg some same.symm)) _ _
  | updateHeight height => rfl

/-- The statistics after some calls. -/
def stateAfter (events : List Event) : State := events.foldl State.step initialState

theorem stateAfter_snoc (events : List Event) (event : Event) :
    stateAfter (events ++ [event]) = (stateAfter events).step event := List.foldl_concat ..

theorem reached_after (events : List Event) : Reachable system always (stateAfter events) := by
  induction events using List.reverseRecOn with
  | nil => exact .start rfl
  | append_singleton front last ih =>
    rw [stateAfter_snoc]
    exact .next ih trivial rfl

/-- A run keeps the best if it is held after each of its calls. -/
theorem keepsBest_after {events : List Event}
    (holds : ∀ n < events.length, (stateAfter (events.take (n + 1))).HoldsBest) :
    Reachable system keepsBest (stateAfter events) := by
  induction events using List.reverseRecOn with
  | nil => exact .start rfl
  | append_singleton front last ih =>
    have length : (front ++ [last]).length = front.length + 1 := List.length_append
    have before : Reachable system keepsBest (stateAfter front) := by
      apply ih
      intro n inside
      have held := holds n (by omega)
      rw [List.take_append_of_le_length (by omega)] at held
      exact held
    have kept := holds front.length (by omega)
    rw [← length, List.take_length, stateAfter_snoc] at kept
    rw [stateAfter_snoc]
    exact .next before kept rfl

section calls

variable {events : List Event} {keys : List Key}
  (touched : ∀ event ∈ events, ∀ key ∈ event.key, key ∈ keys)
include touched

theorem untouched_after {key : Key} (other : key ∉ keys) :
    (stateAfter events).inner.activeConnections key = none := by
  induction events using List.reverseRecOn with
  | nil => rfl
  | append_singleton front last ih =>
    rw [stateAfter_snoc, step_untouched]
    · exact ih fun event listed => touched event (List.mem_append_left _ listed)
    · exact fun same => other (touched last (by simp) key same)

theorem enumerates_after :
    (stateAfter events).inner.Enumerates
      (keys.filterMap (stateAfter events).inner.activeConnections) := by
  intro info
  rw [List.mem_filterMap]
  constructor
  · rintro ⟨key, -, found⟩
    exact ⟨key, found⟩
  · rintro ⟨key, found⟩
    refine ⟨key, ?_, found⟩
    by_contra other
    rw [untouched_after touched other] at found
    cases found

/-- The best is held if the logs of the pairs say so. -/
theorem holdsBest_after
    (held : ∀ key ∈ keys, ∀ entry ∈ (stateAfter events).log key,
      entry.height = (stateAfter events).inner.currentHeight →
        ∃ other ∈ keys, ∃ best ∈ (stateAfter events).log other, best.rawQuality ≤ entry.rawQuality ∧
          Holds ((stateAfter events).log other) (stateAfter events).inner.currentHeight
            best.rawQuality) :
    (stateAfter events).HoldsBest := by
  rintro quality ⟨key, submitted⟩
  have known : key ∈ keys := by
    by_contra other
    have empty := (agrees_reachable (reached_after events)).untouched key
      (untouched_after touched other)
    rw [empty] at submitted
    cases submitted
  obtain ⟨other, -, best, -, le, holds⟩ := held key known _ submitted rfl
  exact ⟨other, best.rawQuality, le, holds⟩

end calls

theorem withinDay_zero {state : State} (times : ∀ time ∈ state.times, time = 0) :
    state.WithinDay 0 := by
  intro time recorded
  rw [times time recorded]
  decide

/-- Two machines of an account submit for two heights, each after it has become the current one. -/
def inOrder : List Event :=
  [.updateHeight 9, submission 9 9, .recordSubmission 0 "account" none 7 9, .updateHeight 10,
    submission 5 10, .recordSubmission 0 "account" none 6 10, submission 8 10]

def twoMachines : List Key := [("account", "machine"), ("account", "unknown")]

theorem submissions_in_order :
    ∃ values best, (stateAfter inOrder).inner.Enumerates values ∧ values.length = 2 ∧
      (stateAfter inOrder).inner.snapshotBest 120 0 values = .ok best ∧
      (stateAfter inOrder).inner.currentBlockBest 120 0 values = .ok best ∧
      best.bestRawQuality = some 5 ∧
      Minimum best.bestRawQuality (stateAfter inOrder).Recorded := by
  have touched : ∀ event ∈ inOrder, ∀ key ∈ event.key, key ∈ twoMachines := by decide
  have kept : ∀ n < inOrder.length, (stateAfter (inOrder.take (n + 1))).HoldsBest := by
    intro n inside
    apply holdsBest_after fun event listed => touched event (List.mem_of_mem_take listed)
    revert n
    decide +kernel
  have enumerates := enumerates_after touched
  obtain ⟨best, done, right⟩ := (statistics_agree _).2.2 (keepsBest_after kept) 120 0 _
    (withinDay_zero (by decide)) enumerates
  have snapshot := (StatsInner.snapshotBest_eq _ (by decide) _ _).trans done
  refine ⟨_, best, enumerates, rfl, snapshot, done, ?_, right⟩
  obtain rfl := Except.ok.inj done
  rfl

/-- The newest submission is replayed first, then an older one for the height before. -/
def replay : List Event := [submission 5 10, submission 3 9, .updateHeight 10]

/-- The replay at the start loses the best of the current block. -/
theorem replay_loses_best :
    ¬ ∀ state, Reachable system always state → ∀ blockTimeSecs now values, state.WithinDay now →
      state.inner.Enumerates values →
      ∃ best, state.inner.currentBlockBest blockTimeSecs now values = .ok best ∧
        Minimum best.bestRawQuality state.Recorded := by
  intro right
  have touched : ∀ event ∈ replay, ∀ key ∈ event.key, key ∈ [("account", "machine")] := by decide
  obtain ⟨best, done, least⟩ := right (stateAfter replay) (reached_after replay) 120 0 _
    (withinDay_zero (by decide)) (enumerates_after touched)
  obtain rfl := Except.ok.inj done
  exact least 5 ⟨("account", "machine"), by decide⟩

end Pocx.Stats
