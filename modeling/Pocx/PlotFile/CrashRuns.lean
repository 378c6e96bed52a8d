import Pocx.PlotFile.CrashContent

set_option autoImplicit false

namespace Pocx.PlotFile.Crash

open ByteStore
open Transition (System Reachable)

/-- A plot that a process holds. It has been renamed, or it
reads and writes the file that its name says. -/
structure Plot (numberOfWarps : Nat) (file : File) : Prop where
  warps : file.numberOfWarps = numberOfWarps
  access : file.access = .readWrite
  name : (file.extension = .tmp ∧ file.fileHandle = true ∧ file.files .tmp = some file.content) ∨
    (file.extension = .pocx ∧ file.files .tmp = none)

/-- A finished plot that no function opens again. -/
structure Detached (file : File) : Prop where
  extension : file.extension = .pocx
  handle : file.fileHandle = false
  directIo : file.directIo = false

theorem Plot.setContent {numberOfWarps : Nat} {file : File} (plot : Plot numberOfWarps file)
    (content : Bytes) : Plot numberOfWarps (file.setContent content) := by
  refine ⟨plot.warps, plot.access, ?_⟩
  rcases plot.name with ⟨extension, handle, -⟩ | ⟨extension, absent⟩
  · refine Or.inl ⟨extension, handle, ?_⟩
    rw [content_setContent]
    simp only [File.setContent, extension, Function.update_self]
  · refine Or.inr ⟨extension, ?_⟩
    simp only [File.setContent, extension]
    rw [Function.update_of_ne (by decide)]
    exact absent

theorem Plot.reopened {numberOfWarps : Nat} {file : File} (plot : Plot numberOfWarps file) :
    Plot numberOfWarps file.reopened := by
  unfold File.reopened
  split
  · have again := plot.setContent file.content
    refine ⟨again.warps, again.access, ?_⟩
    rcases again.name with ⟨extension, -, present⟩ | finished
    · exact Or.inl ⟨extension, rfl, present⟩
    · exact Or.inr finished
  · exact plot

theorem reopened_handle (file : File) (attached : file.fileHandle = true ∨ file.directIo = true) :
    file.reopened.fileHandle = true := by
  unfold File.reopened
  split
  · rfl
  · rename_i buffered
    exact attached.resolve_right buffered

theorem Detached.reopened {file : File} (detached : Detached file) : file.reopened = file := by
  rw [File.reopened, detached.directIo, if_neg Bool.false_ne_true]

theorem readResumeInfo_eq (file : File) (access : file.access = .readWrite) :
    readResumeInfo file = (readMarker file.reopened, file.reopened) := by
  simp only [readResumeInfo, access]

/-- The marker of a sound plot. -/
theorem reads_marker (numberOfWarps : Nat) (file : File) (supplied : Nat → Option Batch)
    (plot : Plot numberOfWarps file) (positive : 1 ≤ numberOfWarps)
    (attached : file.fileHandle = true ∨ file.directIo = true)
    (sound : Sound numberOfWarps supplied file.content) :
    readResumeInfo file =
      (if hasMagic numberOfWarps file.content = true then
        .ok (progressOf numberOfWarps file.content)
      else .error .noResumeInfo, file.reopened) := by
  have same := reopened_same file
  have warps := same.warps.trans plot.warps
  have read := readMarker_eq file.reopened (reopened_handle file attached)
    (by rw [warps]; exact positive) (by rw [warps, same.content]; exact sound.len)
  rw [warps, same.content] at read
  rw [readResumeInfo_eq file plot.access, read]

theorem detached_marker (file : File) (access : file.access = .readWrite)
    (detached : Detached file) : readResumeInfo file = (.error .noResumeInfo, file) := by
  rw [readResumeInfo_eq file access, detached.reopened]
  simp only [readMarker, detached.handle, Bool.false_eq_true, ↓reduceIte]

/-- A finished plot without a handle takes every batch, and writes nothing. -/
theorem Detached.accepts {numberOfWarps : Nat} {file : File} (plot : Plot numberOfWarps file)
    (detached : Detached file) : Accepts file 0 := by
  intro batch start fits
  have inside : ¬ file.numberOfWarps < batch.startWarp + batch.warpsToWrite := by omega
  have skipped : writeBatch file batch.data batch.startWarp batch.warpsToWrite = some file := by
    rw [writeBatch, detached.handle, if_neg Bool.false_ne_true]
  have marked : writeResumeInfo file (batch.startWarp + batch.warpsToWrite) = .ok file := by
    simp only [writeResumeInfo, plot.access, detached.reopened, detached.handle,
      Bool.false_eq_true, ↓reduceIte]
  have finished : finishBatch file (batch.startWarp + batch.warpsToWrite == file.numberOfWarps) =
      .ok file := by
    simp only [finishBatch, finalize, detached.extension, ite_self]
  refine ⟨numScoops * (batch.warpsToWrite * numScoops * scoopSize), file, ?_⟩
  simp only [writeOptimisedBufferIntoPlotfile, plot.access, detached_marker file plot.access detached,
    writeFrom, start, ne_eq, not_true_eq_false, ↓reduceIte]
  rw [start] at inside skipped marked finished
  simp only [inside, ↓reduceIte, skipped, marked, finished]

theorem Detached.resumable {numberOfWarps : Nat} {file : File} (plot : Plot numberOfWarps file)
    (detached : Detached file) (supplied : Nat → Option Batch) : Resumable supplied file := by
  unfold Resumable
  rw [detached_marker file plot.access detached]
  exact detached.accepts plot

theorem Sound.resumable {numberOfWarps : Nat} {file : File} {supplied : Nat → Option Batch}
    (sound : Sound numberOfWarps supplied file.content) (plot : Plot numberOfWarps file)
    (positive : 1 ≤ numberOfWarps) (attached : file.fileHandle = true ∨ file.directIo = true) :
    Resumable supplied file := by
  have read := reads_marker numberOfWarps file supplied plot positive attached sound
  have handle := reopened_handle file attached
  have again := plot.reopened
  have writes (batch : Batch)
      (fits : batch.startWarp + batch.warpsToWrite ≤ file.numberOfWarps) :=
    writeFrom_succeeds file.reopened batch again.access handle
      (by rw [again.warps, ← plot.warps]; exact fits)
  unfold Resumable
  rw [read]
  by_cases magic : hasMagic numberOfWarps file.content = true
  · rw [if_pos magic] at read ⊢
    rw [plot.warps]
    refine ⟨sound.inside magic, sound.holds magic, ?_⟩
    intro batch start fits
    rw [← start] at fits read
    simp only [writeOptimisedBufferIntoPlotfile, plot.access, read]
    exact writes batch fits
  · rw [if_neg magic] at read ⊢
    intro batch start fits
    have done := writes batch (by omega)
    simp only [writeOptimisedBufferIntoPlotfile, plot.access, read]
    rw [start] at done ⊢
    exact done

/-- What the content of a plot is like before each write, and behind the last one. The
renamed plot keeps its last marker. -/
def Facts (numberOfWarps : Nat) (supplied : Nat → Option Batch) (extension : Extension)
    (content : Bytes) : Point → Prop
  | .crashed | .preallocating _ => False
  | .idle =>
    Sound numberOfWarps supplied content ∧
      (extension = .pocx → hasMagic numberOfWarps content = true ∧
        progressOf numberOfWarps content = numberOfWarps)
  | .scoops batch scoop =>
    scoop < numScoops ∧ Writing numberOfWarps supplied batch scoop content ∧
      (extension = .pocx → batch.startWarp + batch.warpsToWrite = numberOfWarps)
  | .progress warpsWritten =>
    Sound numberOfWarps supplied content ∧ warpsWritten ≤ numberOfWarps ∧
      HoldsBelow numberOfWarps supplied content warpsWritten ∧
      (extension = .pocx → warpsWritten = numberOfWarps)
  | .magic warpsWritten =>
    Sound numberOfWarps supplied content ∧ warpsWritten ≤ numberOfWarps ∧
      HoldsBelow numberOfWarps supplied content warpsWritten ∧
      (extension = .pocx → warpsWritten = numberOfWarps) ∧
      progressOf numberOfWarps content = warpsWritten
  | .finalizing =>
    Sound numberOfWarps supplied content ∧ hasMagic numberOfWarps content = true ∧
      progressOf numberOfWarps content = numberOfWarps

theorem Facts.sound {numberOfWarps : Nat} {supplied : Nat → Option Batch}
    {extension : Extension} {content : Bytes} {point : Point} (positive : 1 ≤ numberOfWarps)
    (facts : Facts numberOfWarps supplied extension content point) :
    Sound numberOfWarps supplied content := by
  cases point with
  | crashed => cases facts
  | preallocating => cases facts
  | idle => exact facts.1
  | scoops batch scoop => exact facts.2.1.sound positive (Nat.le_of_lt facts.1)
  | progress => exact facts.1
  | magic => exact facts.1
  | finalizing => exact facts.1

/-- Between the calls the handle may have to be opened again. -/
def Attached (file : File) (point : Point) : Prop :=
  file.fileHandle = true ∨ (point = .idle ∧ file.directIo = true)

/-- A process that is past the preallocation. -/
structure Live (numberOfWarps : Nat) (state : State) : Prop where
  plot : Plot numberOfWarps state.file
  running : state.point ≠ .crashed
  facts : Detached state.file ∨ (Attached state.file state.point ∧
    Facts numberOfWarps state.supplied state.file.extension state.file.content state.point)

/-- A process that is about to preallocate. -/
structure Creating (numberOfWarps : Nat) (platform : Platform) (state : State) : Prop where
  file : ∃ directIo, state.file = opened numberOfWarps directIo state.file.files
  absent : state.file.files .tmp = none
  blank : ∀ stale, state.point = .preallocating stale → hasMagic numberOfWarps
    ⟨numberOfWarps * warpSize, preallocate platform stale⟩ = false

def Invariant (numberOfWarps : Nat) (platform : Platform) (state : State) : Prop :=
  match state.point with
  | .crashed => ∀ content, state.file.files .tmp = some content →
    Sound numberOfWarps state.supplied content
  | .preallocating _ => Creating numberOfWarps platform state
  | _ => Live numberOfWarps state

/-- The content of an unfinished plot is sound, whoever holds it. -/
theorem Invariant.sound {numberOfWarps : Nat} {platform : Platform} {state : State}
    (positive : 1 ≤ numberOfWarps) (invariant : Invariant numberOfWarps platform state)
    (content : Bytes) (present : state.file.files .tmp = some content) :
    Sound numberOfWarps state.supplied content := by
  have live (holds : Live numberOfWarps state) : Sound numberOfWarps state.supplied content := by
    rcases holds.plot.name with ⟨extension, handle, stored⟩ | ⟨-, absent⟩
    · rw [present, Option.some.injEq] at stored
      rcases holds.facts with detached | ⟨-, facts⟩
      · rw [detached.handle] at handle
        cases handle
      · rw [stored]
        exact facts.sound positive
    · rw [present] at absent
      cases absent
  unfold Invariant at invariant
  split at invariant
  · exact invariant content present
  · rw [invariant.absent] at present
    cases present
  · exact live invariant

theorem opened_plot (numberOfWarps : Nat) (directIo : Bool) (files : Extension → Option Bytes)
    (content : Bytes) (present : files .tmp = some content) :
    Plot numberOfWarps (opened numberOfWarps directIo files) ∧
      (opened numberOfWarps directIo files).content = content := by
  have read : (opened numberOfWarps directIo files).content = content := by
    simp only [File.content, opened, present, Option.getD_some]
  refine ⟨⟨rfl, rfl, Or.inl ⟨rfl, rfl, ?_⟩⟩, read⟩
  rw [read]
  exact present

/-- Whatever the state, a plot that is there can be resumed. -/
theorem Invariant.safe {numberOfWarps : Nat} {platform : Platform} {state : State}
    (positive : 1 ≤ numberOfWarps) (invariant : Invariant numberOfWarps platform state) :
    Safe numberOfWarps state := by
  constructor
  · intro directIo present
    obtain ⟨content, stored⟩ := Option.isSome_iff_exists.mp present
    obtain ⟨plot, read⟩ := opened_plot numberOfWarps directIo state.file.files content stored
    have sound := invariant.sound positive content stored
    rw [← read] at sound
    exact sound.resumable plot positive (Or.inl rfl)
  · intro idle
    simp only [Invariant, idle] at invariant
    rcases invariant.facts with detached | ⟨attached, facts⟩
    · exact detached.resumable invariant.plot state.supplied
    · refine (facts.sound positive).resumable invariant.plot positive ?_
      rcases attached with handle | ⟨-, directIo⟩
      · exact Or.inl handle
      · exact Or.inr directIo

/-- The data of a batch never looks like a marker. -/
def suppliesNoMagic (numberOfWarps : Nat) : State → Label → Prop
  | _, .write batch => AvoidsMagic numberOfWarps batch
  | _, _ => True

/-- The bytes of a new file do not look like a marker. -/
def preallocatesNoMagic (numberOfWarps : Nat) (platform : Platform) : State → Label → Prop
  | state, .openPlot true _ stale => state.file.files .tmp = none →
    hasMagic numberOfWarps ⟨numberOfWarps * warpSize, preallocate platform stale⟩ = false
  | _, _ => True

def noMagic (numberOfWarps : Nat) (platform : Platform) (state : State) (label : Label) : Prop :=
  suppliesNoMagic numberOfWarps state label ∧
    preallocatesNoMagic numberOfWarps platform state label

theorem zeros_blank (numberOfWarps : Nat) :
    hasMagic numberOfWarps ⟨numberOfWarps * warpSize, fun _ => 0⟩ = false := rfl

/-- A file that is grown with zeros meets the condition. -/
theorem zeros_preallocate (numberOfWarps : Nat) (platform : Platform)
    (zeros : platform ≠ .windows true) (state : State) (label : Label) :
    preallocatesNoMagic numberOfWarps platform state label := by
  cases label with
  | openPlot create directIo stale =>
    cases create with
    | false => exact trivial
    | true =>
      intro _
      cases platform with
      | unix => exact zeros_blank numberOfWarps
      | windows validData =>
        cases validData with
        | false => exact zeros_blank numberOfWarps
        | true => exact absurd rfl zeros
  | write => exact trivial
  | run => exact trivial
  | crash => exact trivial

theorem newPlot_invariant (numberOfWarps : Nat) (platform : Platform) (create directIo : Bool)
    (stale : Nat → UInt8) (state after : State) (crashed : state.point = .crashed)
    (invariant : Invariant numberOfWarps platform state)
    (blank : preallocatesNoMagic numberOfWarps platform state (.openPlot create directIo stale))
    (taken : newPlot numberOfWarps create directIo stale state = some after) :
    Invariant numberOfWarps platform after := by
  simp only [Invariant, crashed] at invariant
  unfold newPlot at taken
  cases present : state.file.files .tmp with
  | some content =>
    simp only [present, Option.some.injEq] at taken
    subst taken
    obtain ⟨plot, read⟩ := opened_plot numberOfWarps directIo state.file.files content present
    have sound := invariant content present
    rw [← read] at sound
    exact ⟨plot, nofun, Or.inr ⟨Or.inl rfl, sound, nofun⟩⟩
  | none =>
    simp only [present, Option.ite_none_right_eq_some, Option.some.injEq] at taken
    obtain ⟨rfl, rfl⟩ := taken
    refine ⟨⟨directIo, rfl⟩, present, ?_⟩
    intro other same
    cases same
    exact blank present

/-- An accepted batch of an attached plot. -/
theorem accept_live (numberOfWarps : Nat) (state : State) (plot : File) (batch : Batch)
    (progress : Nat) (running : state.point = .idle) (held : Plot numberOfWarps plot)
    (handle : plot.fileHandle = true)
    (facts : Facts numberOfWarps state.supplied plot.extension plot.content .idle)
    (read : progress = if hasMagic numberOfWarps plot.content = true then
      progressOf numberOfWarps plot.content else 0)
    (avoids : AvoidsMagic numberOfWarps batch) :
    Live numberOfWarps (accept state plot batch progress) := by
  have unchanged : Live numberOfWarps { state with file := plot } := by
    refine ⟨held, ?_, Or.inr ⟨Or.inl handle, ?_⟩⟩
    · simp only [running, ne_eq, reduceCtorEq, not_false_eq_true]
    · simp only [running]
      exact facts
  unfold accept
  split
  · exact unchanged
  split
  · exact unchanged
  rename_i atProgress fits
  rw [Decidable.not_not] at atProgress
  rw [held.warps] at fits
  refine ⟨held, nofun, Or.inr ⟨Or.inl handle, by decide, ?_, ?_⟩⟩
  · apply facts.1.accepted batch (by omega) avoids
    rw [atProgress, read]
    split
    · rfl
    · rfl
  · intro finished
    obtain ⟨magic, whole⟩ := facts.2 finished
    rw [if_pos magic, whole] at read
    omega

theorem accept_detached (numberOfWarps : Nat) (state : State) (batch : Batch) (progress : Nat)
    (running : state.point = .idle) (held : Plot numberOfWarps state.file)
    (detached : Detached state.file) :
    Live numberOfWarps (accept state state.file batch progress) := by
  have alive : state.point ≠ .crashed := by
    rw [running]
    nofun
  unfold accept
  split
  · exact ⟨held, alive, Or.inl detached⟩
  split
  · exact ⟨held, alive, Or.inl detached⟩
  · exact ⟨held, nofun, Or.inl detached⟩

theorem accept_point (state : State) (plot : File) (batch : Batch) (progress : Nat)
    (running : state.point = .idle) :
    (accept state plot batch progress).point = .idle ∨
      (accept state plot batch progress).point = .scoops batch 0 := by
  unfold accept
  split
  · exact Or.inl running
  split
  · exact Or.inl running
  · exact Or.inr rfl

theorem beginWrite_live (numberOfWarps : Nat) (positive : 1 ≤ numberOfWarps) (state : State)
    (batch : Batch) (running : state.point = .idle) (live : Live numberOfWarps state)
    (avoids : AvoidsMagic numberOfWarps batch) :
    ∃ plot progress, beginWrite state batch = accept state plot batch progress ∧
      Live numberOfWarps (beginWrite state batch) := by
  rcases live.facts with detached | ⟨attached, facts⟩
  · have begun : beginWrite state batch = accept state state.file batch 0 := by
      simp only [beginWrite, detached_marker state.file live.plot.access detached]
    refine ⟨state.file, 0, begun, ?_⟩
    rw [begun]
    exact accept_detached numberOfWarps state batch 0 running live.plot detached
  · have open_ : state.file.fileHandle = true ∨ state.file.directIo = true := by
      rcases attached with handle | ⟨-, directIo⟩
      · exact Or.inl handle
      · exact Or.inr directIo
    have same := reopened_same state.file
    have read := reads_marker numberOfWarps state.file state.supplied live.plot positive open_
      (facts.sound positive)
    rw [running] at facts
    have begun : beginWrite state batch = accept state state.file.reopened batch
        (if hasMagic numberOfWarps state.file.content = true then
          progressOf numberOfWarps state.file.content else 0) := by
      by_cases magic : hasMagic numberOfWarps state.file.content = true
      · rw [if_pos magic] at read ⊢
        simp only [beginWrite, read]
      · rw [if_neg magic] at read ⊢
        simp only [beginWrite, read]
    refine ⟨_, _, begun, ?_⟩
    rw [begun]
    apply accept_live numberOfWarps state _ batch _ running live.plot.reopened
      (reopened_handle state.file open_) ?_ (by rw [same.content]) avoids
    rw [same.content, same.extension]
    exact facts

/-- A live process is not about to preallocate. -/
theorem Live.invariant {numberOfWarps : Nat} {platform : Platform} {state : State}
    (live : Live numberOfWarps state) (past : ∀ stale, state.point ≠ .preallocating stale) :
    Invariant numberOfWarps platform state := by
  unfold Invariant
  split
  · rename_i crashed
    exact absurd crashed live.running
  · rename_i stale preallocating
    exact absurd preallocating (past stale)
  · exact live

theorem writeScoop_succeeds (numberOfWarps : Nat) (batch : Batch) (scoop : Nat) (content : Bytes)
    (scoopLt : scoop < numScoops) :
    ∃ after, writeScoop numberOfWarps batch scoop content = some after := by
  obtain ⟨after, whole⟩ := writeScoops_succeeds numberOfWarps batch content (scoop + 1) scoopLt
  rw [writeScoops, Option.bind_eq_some_iff] at whole
  obtain ⟨before, -, mapped⟩ := whole
  rw [Option.map_eq_some_iff] at mapped
  obtain ⟨chunk, sliced, -⟩ := mapped
  rw [writeScoop, sliced, Option.map_some]
  exact ⟨_, rfl⟩

/-- A write of a scoop. -/
theorem scoops_live (numberOfWarps : Nat) (positive : 1 ≤ numberOfWarps) (platform : Platform)
    (state after : State) (batch : Batch) (scoop : Nat) (at_ : state.point = .scoops batch scoop)
    (live : Live numberOfWarps state) (taken : runPoint platform state = some after) :
    Live numberOfWarps after := by
  have alive (point : Point) : (if scoop + 1 < numScoops then Point.scoops batch (scoop + 1)
      else .progress (batch.startWarp + batch.warpsToWrite)) ≠ .crashed := by
    split
    · nofun
    · nofun
  simp only [runPoint, at_] at taken
  rcases live.facts with detached | ⟨attached, facts⟩
  · simp only [detached.handle, Bool.false_eq_true, ↓reduceIte, Option.some.injEq] at taken
    subst taken
    exact ⟨live.plot, alive state.point, Or.inl detached⟩
  · have handle : state.file.fileHandle = true := by
      rw [Attached, at_] at attached
      exact attached.resolve_right fun between => nomatch between.1
    rw [at_] at facts
    obtain ⟨scoopLt, writing, finished⟩ := facts
    obtain ⟨content, written⟩ :=
      writeScoop_succeeds state.file.numberOfWarps batch scoop state.file.content scoopLt
    simp only [handle, ↓reduceIte, written, Option.some.injEq] at taken
    rw [live.plot.warps] at written
    have next := writing.step written
    subst taken
    refine ⟨live.plot.setContent content, alive state.point, Or.inr ⟨Or.inl handle, ?_⟩⟩
    rw [content_setContent]
    split
    · rename_i more
      exact ⟨more, next, finished⟩
    · rename_i last
      have all : scoop + 1 = numScoops := by omega
      rw [all] at next
      exact ⟨next.sound positive (Nat.le_refl _), writing.fits, next.complete, finished⟩

theorem progress_live (numberOfWarps : Nat) (positive : 1 ≤ numberOfWarps)
    (bounded : numberOfWarps < 2 ^ 32) (platform : Platform)
    (state after : State) (warpsWritten : Nat) (at_ : state.point = .progress warpsWritten)
    (live : Live numberOfWarps state) (taken : runPoint platform state = some after) :
    Live numberOfWarps after := by
  have same := reopened_same state.file
  simp only [runPoint, at_, Option.some.injEq] at taken
  rcases live.facts with detached | ⟨attached, facts⟩
  · simp only [detached.reopened, detached.handle, Bool.false_eq_true, ↓reduceIte] at taken
    subst taken
    exact ⟨live.plot, nofun, Or.inl detached⟩
  · have handle : state.file.fileHandle = true := by
      rw [Attached, at_] at attached
      exact attached.resolve_right fun between => nomatch between.1
    rw [at_] at facts
    obtain ⟨sound, inside, holds, finished⟩ := facts
    have again := live.plot.reopened
    simp only [same.opened handle, ↓reduceIte, same.content, again.warps] at taken
    subst taken
    refine ⟨again.setContent _, nofun, Or.inr ⟨Or.inl (same.opened handle), ?_⟩⟩
    rw [content_setContent]
    refine ⟨withProgress_sound numberOfWarps warpsWritten _ positive sound.len inside bounded holds,
      inside, holds.congr inside (withProgress_before numberOfWarps warpsWritten _ positive sound.len),
      ?_, withProgress_progressOf numberOfWarps warpsWritten _ (by omega)⟩
    intro name
    exact finished (same.extension ▸ name)

theorem magic_live (numberOfWarps : Nat) (positive : 1 ≤ numberOfWarps) (platform : Platform)
    (state after : State) (warpsWritten : Nat) (at_ : state.point = .magic warpsWritten)
    (live : Live numberOfWarps state) (taken : runPoint platform state = some after) :
    Live numberOfWarps after := by
  simp only [runPoint, at_, Option.some.injEq] at taken
  have alive : (if warpsWritten = state.file.numberOfWarps then Point.finalizing else .idle) ≠
      .crashed := by
    split
    · nofun
    · nofun
  rcases live.facts with detached | ⟨attached, facts⟩
  · simp only [detached.handle, Bool.false_eq_true, ↓reduceIte] at taken
    subst taken
    exact ⟨live.plot, alive, Or.inl detached⟩
  · have handle : state.file.fileHandle = true := by
      rw [Attached, at_] at attached
      exact attached.resolve_right fun between => nomatch between.1
    rw [at_] at facts
    obtain ⟨sound, inside, holds, finished, progress⟩ := facts
    simp only [handle, ↓reduceIte, live.plot.warps] at taken
    have marked := withMagic_sound numberOfWarps warpsWritten state.file.content positive sound.len
      inside progress holds
    have magic := withMagic_hasMagic numberOfWarps state.file.content
    have kept := (withMagic_progressOf numberOfWarps state.file.content positive sound.len).trans
      progress
    rw [live.plot.warps] at alive
    subst taken
    refine ⟨live.plot.setContent _, alive, Or.inr ⟨Or.inl handle, ?_⟩⟩
    rw [content_setContent]
    split
    · rename_i last
      exact ⟨marked, magic, kept.trans last⟩
    · exact ⟨marked, fun name => ⟨magic, kept.trans (finished name)⟩⟩

theorem finalizing_live (numberOfWarps : Nat) (platform : Platform) (state after : State)
    (at_ : state.point = .finalizing) (live : Live numberOfWarps state)
    (taken : runPoint platform state = some after) : Live numberOfWarps after := by
  simp only [runPoint, at_] at taken
  rcases live.plot.name with ⟨extension, handle, present⟩ | ⟨extension, absent⟩
  · rcases live.facts with detached | ⟨-, facts⟩
    · rw [detached.handle] at handle
      cases handle
    rw [at_] at facts
    obtain ⟨sound, magic, progress⟩ := facts
    simp only [finalize, extension, present, Option.some.injEq] at taken
    subst taken
    refine ⟨⟨live.plot.warps, live.plot.access, Or.inr ⟨rfl, rfl⟩⟩, nofun, ?_⟩
    cases directIo : state.file.directIo with
    | false => exact Or.inl ⟨rfl, rfl, rfl⟩
    | true => exact Or.inr ⟨Or.inr ⟨rfl, rfl⟩, sound, fun _ => ⟨magic, progress⟩⟩
  · simp only [finalize, extension, Option.some.injEq] at taken
    subst taken
    refine ⟨live.plot, nofun, ?_⟩
    rcases live.facts with detached | ⟨attached, facts⟩
    · exact Or.inl detached
    · rw [at_] at facts
      obtain ⟨sound, magic, progress⟩ := facts
      rw [Attached, at_] at attached
      exact Or.inr ⟨Or.inl (attached.resolve_right fun between => nomatch between.1), sound,
        fun _ => ⟨magic, progress⟩⟩

/-- The preallocated file gets its first marker. -/
theorem preallocating_live (numberOfWarps : Nat) (platform : Platform) (state after : State)
    (stale : Nat → UInt8) (at_ : state.point = .preallocating stale)
    (creating : Creating numberOfWarps platform state)
    (taken : runPoint platform state = some after) : Live numberOfWarps after := by
  simp only [runPoint, at_, Option.some.injEq] at taken
  subst taken
  obtain ⟨directIo, file⟩ := creating.file
  have warps : state.file.numberOfWarps = numberOfWarps := by
    rw [file]
    rfl
  have blank := creating.blank stale at_
  refine ⟨⟨warps, ?_, Or.inl ⟨?_, ?_, ?_⟩⟩, nofun, Or.inr ⟨Or.inl ?_, ?_, Nat.zero_le _,
    HoldsBelow.zero _ _ _, ?_⟩⟩
  · rw [file]
    rfl
  · rw [file]
    rfl
  · rw [file]
    rfl
  · rw [content_setContent, file]
    simp only [File.setContent, opened, Function.update_self]
  · rw [file]
    rfl
  · rw [content_setContent, warps]
    refine ⟨Nat.le_refl _, fun magic => ?_, fun magic => ?_⟩
    · rw [blank] at magic
      cases magic
    · rw [blank] at magic
      cases magic
  · intro name
    rw [file] at name
    cases name

theorem runPoint_live (numberOfWarps : Nat) (positive : 1 ≤ numberOfWarps)
    (bounded : numberOfWarps < 2 ^ 32) (platform : Platform) (state after : State)
    (invariant : Invariant numberOfWarps platform state)
    (taken : runPoint platform state = some after) : Live numberOfWarps after := by
  cases at_ : state.point with
  | crashed => simp only [runPoint, at_, reduceCtorEq] at taken
  | idle => simp only [runPoint, at_, reduceCtorEq] at taken
  | preallocating stale =>
    simp only [Invariant, at_] at invariant
    exact preallocating_live numberOfWarps platform state after stale at_ invariant taken
  | scoops batch scoop =>
    simp only [Invariant, at_] at invariant
    exact scoops_live numberOfWarps positive platform state after batch scoop at_ invariant taken
  | progress warpsWritten =>
    simp only [Invariant, at_] at invariant
    exact progress_live numberOfWarps positive bounded platform state after warpsWritten at_
      invariant taken
  | magic warpsWritten =>
    simp only [Invariant, at_] at invariant
    exact magic_live numberOfWarps positive platform state after warpsWritten at_ invariant taken
  | finalizing =>
    simp only [Invariant, at_] at invariant
    exact finalizing_live numberOfWarps platform state after at_ invariant taken

theorem runPoint_past (platform : Platform) (state after : State)
    (taken : runPoint platform state = some after) (stale : Nat → UInt8) :
    after.point ≠ .preallocating stale := by
  unfold runPoint at taken
  grind

theorem step_invariant (numberOfWarps : Nat) (positive : 1 ≤ numberOfWarps)
    (bounded : numberOfWarps < 2 ^ 32) (platform : Platform) (before : State) (label : Label)
    (after : State) (invariant : Invariant numberOfWarps platform before)
    (allowed : noMagic numberOfWarps platform before label)
    (taken : (system numberOfWarps platform).step before label = some after) :
    Invariant numberOfWarps platform after := by
  cases label with
  | openPlot create directIo stale =>
    simp only [system, step] at taken
    split at taken
    · rename_i crashed
      exact newPlot_invariant numberOfWarps platform create directIo stale before after crashed
        invariant allowed.2 taken
    · cases taken
  | write batch =>
    simp only [system, step] at taken
    split at taken
    · rename_i running
      cases taken
      simp only [Invariant, running] at invariant
      obtain ⟨plot, progress, begun, live⟩ :=
        beginWrite_live numberOfWarps positive before batch running invariant allowed.1
      apply live.invariant
      intro stale
      rw [begun]
      rcases accept_point before plot batch progress running with idle | writing
      · rw [idle]
        nofun
      · rw [writing]
        nofun
    · cases taken
  | run =>
    exact (runPoint_live numberOfWarps positive bounded platform before after invariant
      taken).invariant (runPoint_past platform before after taken)
  | crash =>
    cases taken
    exact fun content present => invariant.sound positive content present

/-- Wherever a run has come, a crash leaves a plot whose marker is true, and a plot between
two calls has one too. -/
theorem crash_safe (numberOfWarps : Nat) (positive : 1 ≤ numberOfWarps)
    (bounded : numberOfWarps < 2 ^ 32) (platform : Platform) (state : State)
    (reached : Reachable (system numberOfWarps platform) (noMagic numberOfWarps platform) state) :
    Safe numberOfWarps state := by
  have invariant : Invariant numberOfWarps platform state := by
    apply reached.invariant (Invariant numberOfWarps platform) ?_
      (step_invariant numberOfWarps positive bounded platform)
    rintro _ rfl
    exact nofun
  exact invariant.safe positive

/-- The start of a plot, and the first scoop of its only batch. -/
def firstScoop : List Label :=
  [.openPlot true false fun _ => 0, .run, .run, .run, .write zeroBatch, .run, .crash]

theorem zeroBatch_avoidsMagic : AvoidsMagic 1 zeroBatch := by
  intro _
  exact ⟨0, by decide, by decide⟩

theorem crash_safe_first_scoop :
    ∃ state, (state.supplied 0).isSome = true ∧ Safe 1 state := by
  have complete : (Transition.run (system 1 .unix) (start 1) firstScoop).any (fun state =>
      (state.supplied 0).isSome) = true := by
    decide +kernel
  obtain ⟨state, finished, supplies⟩ := (Option.any_eq_true _ _).mp complete
  refine ⟨state, supplies, crash_safe 1 (Nat.le_refl _) (by decide) .unix state ?_⟩
  apply Reachable.admitted firstScoop ?_ (.start rfl) finished
  intro label member before
  refine ⟨?_, zeros_preallocate 1 .unix nofun before label⟩
  simp only [firstScoop, List.mem_cons, List.not_mem_nil, or_false] at member
  rcases member with rfl | rfl | rfl | rfl | rfl | rfl | rfl
  · exact trivial
  · exact trivial
  · exact trivial
  · exact trivial
  · exact zeroBatch_avoidsMagic
  · exact trivial
  · exact trivial

/-- A disk that holds an old plot of one warp. -/
def stalePlot (i : Nat) : UInt8 :=
  if i < markerOffset 1 then 0 else markerByte 1 (i - markerOffset 1)

theorem stalePlot_marker (i : Nat) : stalePlot (markerOffset 1 + i) = markerByte 1 i := by
  rw [stalePlot, if_neg (by omega), Nat.add_sub_cancel_left]

theorem stalePlot_hasMagic : hasMagic 1 ⟨1 * warpSize, stalePlot⟩ = true := by
  rw [hasMagic_iff]
  intro i lt
  have magic : markerByte 1 (4 + i) = resumeMagic.byte i := by
    rw [markerByte, if_neg (by omega), Nat.add_sub_cancel_left]
  rw [Nat.add_assoc]
  exact (stalePlot_marker (4 + i)).trans magic

theorem stalePlot_progressOf : progressOf 1 ⟨1 * warpSize, stalePlot⟩ = 1 := by
  simp only [progressOf, stalePlot_marker]
  decide

/-- A new plot over the old one, before its first marker. -/
def staleState : State where
  file := (opened 1 false fun _ => none).setContent ⟨1 * warpSize, stalePlot⟩
  point := .progress 0
  supplied := fun _ => none

theorem staleState_reached :
    Reachable (system 1 (.windows true)) (suppliesNoMagic 1) staleState := by
  have created : Reachable (system 1 (.windows true)) (suppliesNoMagic 1)
      { start 1 with point := .preallocating stalePlot } :=
    @Reachable.next _ _ _ _ _ _ (.openPlot true false stalePlot) (.start rfl) trivial rfl
  exact @Reachable.next _ _ _ _ _ _ .run created trivial rfl

/-- The process is killed between the preallocation and the first marker, and the old marker
tells of a warp that nobody supplied. -/
theorem stale_marker_resumes :
    ¬ ∀ (numberOfWarps : Nat) (platform : Platform) (state : State), 1 ≤ numberOfWarps →
      numberOfWarps < 2 ^ 32 →
      Reachable (system numberOfWarps platform) (suppliesNoMagic numberOfWarps) state →
      Safe numberOfWarps state := by
  intro claim
  have resumable := (claim 1 _ staleState (Nat.le_refl _) (by decide) staleState_reached).reopened
    false rfl
  obtain ⟨plot, content⟩ := opened_plot 1 false staleState.file.files ⟨1 * warpSize, stalePlot⟩ rfl
  have read := readMarker_eq (opened 1 false staleState.file.files) rfl
    (Nat.le_of_eq plot.warps.symm) (Nat.le_of_eq (by rw [content, plot.warps]))
  rw [content, plot.warps, if_pos stalePlot_hasMagic, stalePlot_progressOf] at read
  have unbuffered : (opened 1 false staleState.file.files).reopened =
      opened 1 false staleState.file.files := rfl
  unfold Resumable at resumable
  rw [readResumeInfo_eq _ plot.access, unbuffered, read] at resumable
  have supplied := resumable.2.1 0 0 0 0 (by decide) (by decide) (by decide) (by decide)
    fun atMarker => absurd atMarker.1 (by decide)
  cases supplied

end Pocx.PlotFile.Crash
