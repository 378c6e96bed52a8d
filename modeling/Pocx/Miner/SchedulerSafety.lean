import Pocx.Miner.SchedulerBlocks

set_option autoImplicit false

namespace Pocx.Scheduler

open Transition (System Reachable always run)

variable {Resume : Type}

/-- In every run whose late reschedule messages still carry the stored block, every
round starts on the last scheduled block of its chain, the stored infos are never
older, and only a superseded round is interrupted for good. -/
theorem rounds_scan_last_block (chains : Nat) (state : State Resume)
    (reached : Reachable (system Resume chains)
      (fun state action => reschedulesCurrent state action) state) :
    (∀ start, start ∈ state.starts → start.scheduled ≤ start.number) ∧
    (∀ chainId, state.scheduled chainId ≤ (state.miningInfos chainId).number) ∧
    (∀ round, round ∈ state.rounds → state.miner.interrupt = true →
      state.miner.pause = false → round.block.number < state.scheduled round.chainId) := by
  obtain ⟨-, current⟩ := reachable_current chains reached
  refine ⟨?_, ?_, ?_⟩
  · intro start listed
    exact Nat.le_of_eq (current.starts_latest start listed).symm
  · intro chainId
    exact Nat.le_of_eq (current.stored chainId).symm
  · intro round listed interrupt unpaused
    exact current.superseded interrupt unpaused round listed

def infos (blockHash : String) : MiningInfo := ⟨1, "", 1, blockHash⟩

/-- A round that is paused for a chain of higher priority and then resumed. -/
def pausedRun : List (Action Unit) :=
  [.trigger, .deliver, .newBlock 1 (infos "b1"), .deliver, .deliver,
    .newBlock 0 (infos "a1"), .deliver, .deliver, .endRound 0 (some ()), .release 0,
    .deliver, .deliver, .endRound 0 none, .deliver]

theorem rounds_scan_last_block_paused :
    ∃ state : State Unit, state.starts.length = 3 ∧
      ∀ start, start ∈ state.starts → start.scheduled ≤ start.number := by
  have complete : (Transition.runAllowed (system Unit 2) reschedulesCurrent start
      pausedRun).any (fun state => state.starts.length == 3) = true := by decide +kernel
  obtain ⟨final, finished, three⟩ := (Option.any_eq_true _ _).mp complete
  have reached := Reachable.runAllowed pausedRun (.start rfl) finished
  exact ⟨final, beq_iff_eq.mp three, (rounds_scan_last_block 2 final reached).1⟩

/-- Two `ProcessBlock`s are ahead of the reschedule message of chain 1: the first lets
chain 0 run, the second starts chain 1 on its new block, and the message then puts
the old block back. -/
def lateRun : List (Action Unit) :=
  [.trigger, .deliver, .newBlock 1 (infos "b1"), .deliver, .deliver,
    .newBlock 0 (infos "a1"), .deliver, .deliver,
    .newBlock 1 (infos "b2"), .newBlock 0 (infos "a2"), .deliver, .deliver,
    .endRound 0 (some ()), .release 0, .deliver, .endRound 0 none, .deliver, .deliver,
    .deliver, .endRound 0 none]

theorem late_reschedule_restarts_old_block :
    ¬ ∀ state : State Unit, Reachable (system Unit 2) always state →
      (∀ start, start ∈ state.starts → start.scheduled ≤ start.number) ∧
      (∀ chainId, state.scheduled chainId ≤ (state.miningInfos chainId).number) ∧
      (∀ round, round ∈ state.rounds → state.miner.interrupt = true →
        state.miner.pause = false → round.block.number < state.scheduled round.chainId) := by
  intro claim
  have complete : (run (system Unit 2) start (lateRun ++ [.deliver])).any
      (fun state => state.starts.any fun start =>
        decide (start.number < start.scheduled)) = true := by decide +kernel
  obtain ⟨final, finished, wrong⟩ := (Option.any_eq_true _ _).mp complete
  obtain ⟨start, listed, older⟩ := List.any_eq_true.mp wrong
  have latest := (claim final (Reachable.run _ (.start rfl) finished)).1 start listed
  exact absurd latest (Nat.not_le_of_lt (of_decide_eq_true older))

end Pocx.Scheduler
