import Pocx.PlotFile.CrashContent

set_option autoImplicit false

namespace Pocx.PlotFile.Crash

open ByteStore
open Transition (System)

theorem setContent_setContent (file : File) (first second : Bytes) :
    (file.setContent first).setContent second = file.setContent second := by
  simp only [File.setContent, Function.update_idem]

/-- Where a process is behind some scoops of a batch. -/
def pointBehind (batch : Batch) (scoops : Nat) : Point :=
  if scoops < numScoops then .scoops batch scoops
  else .progress (batch.startWarp + batch.warpsToWrite)

theorem run_snoc (numberOfWarps : Nat) (platform : Platform) (state : State) (count : Nat) :
    Transition.run (system numberOfWarps platform) state (List.replicate (count + 1) .run) =
      (Transition.run (system numberOfWarps platform) state (List.replicate count .run)).bind
        (runPoint platform) := by
  rw [List.replicate_succ', Transition.run_append]
  congr 1
  funext after
  exact Option.bind_fun_some _

/-- The scoops of a batch, write by write. -/
theorem run_scoops (numberOfWarps : Nat) (platform : Platform) (state : State) (batch : Batch)
    (at_ : state.point = .scoops batch 0) (handle : state.file.fileHandle = true) (scoop : Nat)
    (scoopLt : scoop < numScoops) (content : Bytes)
    (written : writeScoops state.file.numberOfWarps batch.data batch.startWarp batch.warpsToWrite
      (scoop + 1) state.file.content = some content) :
    Transition.run (system numberOfWarps platform) state (List.replicate (scoop + 1) .run) =
      some { state with
        file := state.file.setContent content
        point := pointBehind batch (scoop + 1) } := by
  induction scoop generalizing content with
  | zero =>
    rw [writeScoops_succ, writeScoops, Option.bind_some] at written
    rw [run_snoc]
    simp only [List.replicate_zero, Transition.run, Option.bind_some, runPoint, at_, handle,
      written, ↓reduceIte, pointBehind]
  | succ scoop ih =>
    rw [writeScoops_succ, Option.bind_eq_some_iff] at written
    obtain ⟨before, earlier, last⟩ := written
    have more : pointBehind batch (scoop + 1) = .scoops batch (scoop + 1) := if_pos scoopLt
    have open_ : (state.file.setContent before).fileHandle = true := handle
    have warps : (state.file.setContent before).numberOfWarps = state.file.numberOfWarps := rfl
    rw [run_snoc, ih (by omega) before earlier, Option.bind_some, more]
    simp only [runPoint, open_, warps, content_setContent, last, ↓reduceIte,
      setContent_setContent, pointBehind]

theorem run_scoops_detached (numberOfWarps : Nat) (platform : Platform) (state : State)
    (batch : Batch) (at_ : state.point = .scoops batch 0)
    (handle : state.file.fileHandle = false) (scoop : Nat) (scoopLt : scoop < numScoops) :
    Transition.run (system numberOfWarps platform) state (List.replicate (scoop + 1) .run) =
      some { state with point := pointBehind batch (scoop + 1) } := by
  induction scoop with
  | zero =>
    rw [run_snoc]
    simp only [List.replicate_zero, Transition.run, Option.bind_some, runPoint, at_, handle,
      Bool.false_eq_true, ↓reduceIte, pointBehind]
  | succ scoop ih =>
    have more : pointBehind batch (scoop + 1) = .scoops batch (scoop + 1) := if_pos scoopLt
    rw [run_snoc, ih (by omega), Option.bind_some, more]
    simp only [runPoint, handle, Bool.false_eq_true, ↓reduceIte, pointBehind]

/-- The writes of the scoops are those of the loop of the writer. -/
theorem run_batch (numberOfWarps : Nat) (platform : Platform) (state : State) (batch : Batch)
    (at_ : state.point = .scoops batch 0) (written : File)
    (done : writeBatch state.file batch.data batch.startWarp batch.warpsToWrite = some written) :
    Transition.run (system numberOfWarps platform) state (List.replicate numScoops .run) =
      some { state with
        file := written
        point := .progress (batch.startWarp + batch.warpsToWrite) } := by
  have last : numScoops - 1 < numScoops := by decide
  have all : numScoops = numScoops - 1 + 1 := by decide
  have behind : pointBehind batch (numScoops - 1 + 1) =
      .progress (batch.startWarp + batch.warpsToWrite) := by
    rw [← all]
    exact if_neg (Nat.lt_irrefl _)
  rw [writeBatch] at done
  split at done
  · rename_i handle
    rw [Option.map_eq_some_iff] at done
    obtain ⟨content, scoops, rfl⟩ := done
    rw [all] at scoops ⊢
    rw [run_scoops numberOfWarps platform state batch at_ handle _ last content scoops, behind]
  · rename_i handle
    cases done
    rw [all, run_scoops_detached numberOfWarps platform state batch at_ (Bool.eq_false_iff.mpr handle)
      _ last, behind]

/-- The two writes of the marker are those of `write_resume_info`. -/
theorem run_marker (numberOfWarps : Nat) (platform : Platform) (state : State)
    (warpsWritten : Nat) (at_ : state.point = .progress warpsWritten)
    (access : state.file.access = .readWrite) (marked : File)
    (done : writeResumeInfo state.file warpsWritten = .ok marked) :
    Transition.run (system numberOfWarps platform) state (List.replicate 2 .run) =
      some { state with
        file := marked
        point := if warpsWritten = state.file.numberOfWarps then .finalizing else .idle } := by
  have same := reopened_same state.file
  rw [run_snoc, run_snoc]
  simp only [List.replicate_zero, Transition.run, Option.bind_some, runPoint, at_]
  simp only [writeResumeInfo, access] at done
  cases handle : state.file.reopened.fileHandle with
  | false =>
    simp only [handle, Bool.false_eq_true, ↓reduceIte, Except.ok.injEq] at done ⊢
    rw [done, ← same.warps, done]
  | true =>
    have open_ (content : Bytes) : (state.file.reopened.setContent content).fileHandle = true :=
      handle
    have warps (content : Bytes) :
        (state.file.reopened.setContent content).numberOfWarps = state.file.numberOfWarps :=
      same.warps
    simp only [handle, ↓reduceIte, Except.ok.injEq] at done ⊢
    simp only [open_, warps, ↓reduceIte, setContent_setContent, content_setContent, same.warps]
    rw [← done]
    rfl

theorem accept_writes (state : State) (plot : File) (batch : Batch) (progress total : Nat)
    (final : File)
    (done : writeFrom plot batch.data batch.startWarp batch.warpsToWrite progress =
      .ok (total, final)) :
    (accept state plot batch progress).file = plot ∧
      (accept state plot batch progress).point = .scoops batch 0 ∧
      ∃ written marked, writeBatch plot batch.data batch.startWarp batch.warpsToWrite =
          some written ∧
        writeResumeInfo written (batch.startWarp + batch.warpsToWrite) = .ok marked ∧
        finishBatch marked (batch.startWarp + batch.warpsToWrite == plot.numberOfWarps) =
          .ok final := by
  unfold writeFrom at done
  split at done
  · cases done
  rename_i atProgress
  split at done
  · cases done
  rename_i inside
  split at done
  · cases done
  rename_i written writtenEq
  split at done
  · cases done
  rename_i marked markedEq
  split at done
  · cases done
  rename_i finished finishedEq
  cases done
  have accepted : accept state plot batch progress =
      { file := plot
        point := .scoops batch 0
        supplied := fun warp => if batch.covers warp then some batch else state.supplied warp } := by
    rw [accept, if_neg atProgress, if_neg inside]
  rw [accepted]
  exact ⟨rfl, rfl, written, marked, writtenEq, markedEq, finishedEq⟩

theorem writeBatch_frame (plot written : File) (batch : Batch)
    (done : writeBatch plot batch.data batch.startWarp batch.warpsToWrite = some written) :
    written.numberOfWarps = plot.numberOfWarps ∧ written.access = plot.access := by
  rw [writeBatch] at done
  split at done
  · rw [Option.map_eq_some_iff] at done
    obtain ⟨content, -, rfl⟩ := done
    exact ⟨rfl, rfl⟩
  · cases done
    exact ⟨rfl, rfl⟩

/-- The elementary writes of a call add up to `write_optimised_buffer_into_plotfile`. -/
theorem write_refines (numberOfWarps : Nat) (platform : Platform) (state : State) (batch : Batch)
    (running : state.point = .idle) (access : state.file.access = .readWrite) (total : Nat)
    (final : File)
    (done : writeOptimisedBufferIntoPlotfile state.file batch.data batch.startWarp
      batch.warpsToWrite = .ok (total, final)) :
    ∃ writes after, Transition.run (system numberOfWarps platform) state
        (.write batch :: List.replicate writes .run) = some after ∧
      after.file = final ∧ after.point = .idle := by
  have begins : ∃ plot progress, plot.access = .readWrite ∧
      beginWrite state batch = accept state plot batch progress ∧
      writeFrom plot batch.data batch.startWarp batch.warpsToWrite progress =
        .ok (total, final) := by
    have same := (reopened_same state.file).access.trans access
    simp only [writeOptimisedBufferIntoPlotfile, access, readResumeInfo] at done
    simp only [beginWrite, readResumeInfo, access]
    cases read : readMarker state.file.reopened with
    | ok progress =>
      rw [read] at done
      exact ⟨_, _, same, rfl, done⟩
    | error error =>
      rw [read] at done
      cases error with
      | noResumeInfo => exact ⟨_, _, same, rfl, done⟩
      | io => cases done
      | resumeGap => cases done
      | writeExceedsEof => cases done
      | readOnlyAccess => cases done
  obtain ⟨plot, progress, plotAccess, begun, finishes⟩ := begins
  obtain ⟨file, at_, written, marked, writtenEq, markedEq, finishedEq⟩ :=
    accept_writes state plot batch progress total final finishes
  obtain ⟨warps, writtenAccess⟩ := writeBatch_frame plot written batch writtenEq
  have scoops := run_batch numberOfWarps platform (accept state plot batch progress) batch at_
    written (by rw [file]; exact writtenEq)
  have marker := run_marker numberOfWarps platform
    { accept state plot batch progress with
      file := written
      point := .progress (batch.startWarp + batch.warpsToWrite) }
    (batch.startWarp + batch.warpsToWrite) rfl (writtenAccess.trans plotAccess) marked markedEq
  have taken : (system numberOfWarps platform).step state (.write batch) =
      some (accept state plot batch progress) := by
    simp only [system, step, running, begun]
  by_cases last : batch.startWarp + batch.warpsToWrite = plot.numberOfWarps
  · have finalized : finalize marked = .ok final := by
      rw [finishBatch, if_pos (beq_iff_eq.mpr last)] at finishedEq
      exact finishedEq
    rw [if_pos (last.trans warps.symm)] at marker
    refine ⟨numScoops + 2 + 1, { accept state plot batch progress with
      file := final
      point := .idle }, ?_, rfl, rfl⟩
    rw [Transition.run, taken, Option.bind_some, run_snoc,
      ← List.replicate_append_replicate, Transition.run_append, scoops, Option.bind_some, marker, Option.bind_some]
    simp only [runPoint, finalized]
  · have kept : marked = final := by
      rw [finishBatch, if_neg (fun equal => last (beq_iff_eq.mp equal))] at finishedEq
      cases finishedEq
      rfl
    rw [if_neg (fun equal => last (equal.trans warps))] at marker
    refine ⟨numScoops + 2, { accept state plot batch progress with
      file := final
      point := .idle }, ?_, rfl, rfl⟩
    rw [Transition.run, taken, Option.bind_some, ← List.replicate_append_replicate,
      Transition.run_append, scoops, Option.bind_some, marker, kept]

end Pocx.PlotFile.Crash
