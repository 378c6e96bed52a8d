import Pocx.Plotter.CpuSchedulerRuns

set_option autoImplicit false

namespace Pocx.CpuScheduler

open ByteStore
open Pocx.Plotter
open Hashlib (NonceGenerator)
open PlotFile (warpSize)

variable {Payload Seed : Type}

section Sends

variable (task : PlotterTask Payload Seed) (generator : NonceGenerator Payload Seed)

/-- What the main loop sends to the writer of a path: whole warps of it in a whole write
buffer, or the end. -/
def Delivers (path : Nat) : WriterTask Bytes Seed → Prop
  | .processTask buffer seed warpOffset warpsToWrite numberOfWarps =>
    buffer.len = task.escalate * warpSize ∧ warpsToWrite ≤ task.escalate ∧
      numberOfWarps = task.warps path ∧
      Right task generator (.processTask buffer seed warpOffset warpsToWrite numberOfWarps)
  | .finalize _ _ => False
  | .endTask => True

/-- The channels grow, and only by such tasks. -/
def Extends (before after : Nat → List (WriterTask Bytes Seed)) : Prop :=
  ∀ path, ∃ more, after path = before path ++ more ∧
    ∀ writerTask ∈ more, Delivers task generator path writerTask

variable {task generator}

theorem Extends.refl (sent : Nat → List (WriterTask Bytes Seed)) :
    Extends task generator sent sent := by
  intro path
  exact ⟨[], (List.append_nil _).symm, by simp⟩

theorem Extends.trans {first second third : Nat → List (WriterTask Bytes Seed)}
    (earlier : Extends task generator first second) (later : Extends task generator second third) :
    Extends task generator first third := by
  intro path
  obtain ⟨more, moreEq, delivers⟩ := earlier path
  obtain ⟨rest, restEq, delivers'⟩ := later path
  refine ⟨more ++ rest, by rw [restEq, moreEq, List.append_assoc], ?_⟩
  intro writerTask member
  rcases List.mem_append.mp member with inMore | inRest
  · exact delivers writerTask inMore
  · exact delivers' writerTask inRest

theorem extends_send (sent : Nat → List (WriterTask Bytes Seed)) {path : Nat}
    {writerTask : WriterTask Bytes Seed} (delivers : Delivers task generator path writerTask) :
    Extends task generator sent (send sent path writerTask) := by
  intro other
  by_cases same : other = path
  · subst same
    refine ⟨[writerTask], by rw [send, Function.update_self], ?_⟩
    intro listed member
    rw [List.mem_singleton.mp member]
    exact delivers
  · refine ⟨[], by rw [send, Function.update_of_ne same, List.append_nil], by simp⟩

theorem extends_end (sent : Nat → List (WriterTask Bytes Seed)) :
    Extends task generator sent
      (fun path => if path < task.outputPaths then sent path ++ [.endTask] else sent path) := by
  intro path
  by_cases inside : path < task.outputPaths
  · refine ⟨[.endTask], by simp only [inside, ↓reduceIte], ?_⟩
    intro listed member
    rw [List.mem_singleton.mp member]
    trivial
  · exact ⟨[], by simp only [inside, ↓reduceIte, List.append_nil], by simp⟩

/-- Complete warps of a path, as the flush sends them. -/
theorem Complete.delivers {buffer : Bytes} {seed : Seed} {startWarp warps : Nat}
    (complete : Complete task generator buffer seed startWarp warps)
    (compressed : 1 ≤ task.compress) (fits : warps ≤ task.escalate) (path : Nat) :
    Delivers task generator path
      (.processTask buffer seed startWarp warps (task.warps path)) :=
  ⟨complete.len, fits, rfl, complete.right compressed _⟩

theorem finish_extends {state : State Seed} (compressed : 1 ≤ task.compress)
    (active : Active task generator state) :
    Extends task generator state.sent (finish task state).sent := by
  simp only [finish]
  refine Extends.trans ?_ (extends_end _)
  split
  · cases inUse : state.writeBuffer with
    | none =>
      have empty : flushBuffer task state (state.paths state.bufferPath).seed
          (state.paths state.bufferPath).warpOffset state.bufferPath = state := by
        simp only [flushBuffer, inUse]
      rw [empty]
      exact Extends.refl _
    | some buffer =>
      obtain ⟨held, filling⟩ := active.holding.held buffer inUse
      rw [flushBuffer_holding inUse, held.path]
      exact extends_send _
        (filling.complete.delivers compressed (Nat.le_of_lt filling.room) state.pathPointer)
  · exact Extends.refl _

theorem Counting.extends {state : State Seed} (counting : Counting task generator state)
    (compressed : 1 ≤ task.compress) (drawn : Seed) :
    Extends task generator state.sent (CpuScheduler.flushFile task drawn state).sent := by
  obtain ⟨buffer, held, complete⟩ := counting.buffer
  have sends := @extends_send _ _ task generator state.sent _ _
    (complete.delivers compressed counting.warps_le state.pathPointer)
  rw [← held.path] at sends
  simp only [CpuScheduler.flushFile, flushBuffer_holding held.holding]
  rw [held.path] at sends ⊢
  split
  · exact sends
  · exact sends

theorem switch_extends {state : State Seed} (compressed : 1 ≤ task.compress)
    (flushed : Flushed task state) (boundary : Bool) :
    Extends task generator state.sent (switch task boundary state).sent := by
  unfold switch
  cases switchPath task state.paths state.pathPointer with
  | none => exact finish_extends compressed flushed.active
  | some next =>
    simp only
    split
    · exact Extends.refl _
    · exact Extends.refl _

theorem compressTurn_extends {before state : State Seed} (compressed : 1 ≤ task.compress)
    (escalated : 1 ≤ task.escalate) (pass : HashedPass task generator before state)
    (right : SentRight task generator state.sent) (supply : Supply task) :
    Extends task generator before.sent (compressTurn task supply state).sent := by
  have after := pass.passed escalated supply
  have sent : (compressPass task supply (acquire task supply state)).sent = before.sent :=
    (acquire_same supply state).sent.trans pass.sent
  rw [pass.sent] at right
  unfold compressTurn
  generalize compressPass task supply (acquire task supply state) = next at after sent ⊢
  rw [← sent] at right ⊢
  simp only
  split
  · rename_i last
    have counting := after.counting last
    split
    · have flushes := counting.extends compressed supply.seed
      have flushed := (counting.flushFile compressed right supply.seed).1
      exact flushes.trans (switch_extends compressed flushed _)
    · exact Extends.refl _
  · exact Extends.refl _

/-- A turn of the main loop adds whole warps of a path, or the ends, to what was sent. -/
theorem step_extends {before after : State Seed} (compressed : 1 ≤ task.compress)
    (escalated : 1 ≤ task.escalate) (sound : Sound task generator before) (supply : Supply task)
    (taken : step task generator.generateNonces before supply = some after) :
    Extends task generator before.sent after.sent := by
  unfold step at taken
  split at taken
  · cases taken
  · rename_i running
    have active := sound.active (Bool.eq_false_iff.mpr running)
    split at taken
    · cases taken
      exact finish_extends compressed active
    · obtain ⟨hashed, done, pass⟩ := hashPass_spec active supply
      rw [done, Option.map_some, Option.some.injEq] at taken
      rw [← taken]
      exact compressTurn_extends compressed escalated pass
        (by rw [pass.sent]; exact sound.sent_right) supply

end Sends

end Pocx.CpuScheduler
