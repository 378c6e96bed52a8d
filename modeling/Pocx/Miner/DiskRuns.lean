import Pocx.Miner.Disk

set_option autoImplicit false

namespace Pocx.Disk

open Transition (System Reachable always run)

/-- The reply delivers the warp. -/
def covers (disk plot warp : Nat) (reply : ReadReply) : Bool :=
  reply.disk == disk && reply.plot == plot &&
    (decide (reply.warpOffset ≤ warp) && decide (warp < reply.warpOffset + reply.numberOfWarps))

/-- The warp is in the buffer of the reader. -/
def inBuffer (plot warp : Nat) : Reader → Bool
  | .filling other start total =>
    other == plot && (decide (start ≤ warp) && decide (warp < start + total))
  | .checking other start total =>
    other == plot && (decide (start ≤ warp) && decide (warp < start + total))
  | _ => false

/-- The warp has been read, given the progress of its plot. -/
def wasRead (progress warp : Nat) : Bool := decide (warp < progress)

/-- The progress the block goes on from. -/
def blockProgress (state : State) : Nat → Nat → Nat :=
  match state.phase with
  | .paused scanProgress => scanProgress
  | _ => state.readProgress

/-- The plots before `plot` are read to their ends. -/
def ReadBefore (array : Array) (disk plot : Nat) (progress : Nat → Nat) : Prop :=
  ∀ earlier, earlier < plot → earlier < array.plots disk →
    progress earlier = array.warps disk earlier

def ReaderSound (array : Array) (disk : Nat) (progress : Nat → Nat) : Reader → Prop
  | .scanning plot => ReadBefore array disk plot progress
  | .filling plot start total =>
    plot < array.plots disk ∧ ReadBefore array disk plot progress ∧
      start + total = progress plot ∧ (total = 0 → progress plot < array.warps disk plot)
  | .checking plot start total =>
    plot < array.plots disk ∧ ReadBefore array disk plot progress ∧
      start + total = progress plot ∧ 0 < total
  | .finished => ReadBefore array disk (array.plots disk) progress
  | .interrupted => True

/-- The warps up to the progress of a plot have been delivered, thrown or are in the
buffer of the reader, each of them once. -/
structure Sound (array : Array) (state : State) : Prop where
  counted : ∀ disk plot warp, disk < array.disks →
    state.delivered.countP (covers disk plot warp) + state.thrown.countP (covers disk plot warp) +
      (inBuffer plot warp (state.readers disk)).toNat =
      (wasRead (blockProgress state disk plot) warp).toNat
  progress_le : ∀ disk plot, disk < array.disks → plot < array.plots disk →
    blockProgress state disk plot ≤ array.warps disk plot
  reader_sound : ∀ disk, disk < array.disks →
    ReaderSound array disk (blockProgress state disk) (state.readers disk)
  flagged : ∀ disk, disk < array.disks → state.readers disk = .interrupted →
    state.interrupt = true
  thrown_sound : ∀ reply, reply ∈ state.thrown → reply.disk < array.disks ∧
    reply.plot < array.plots reply.disk ∧ 0 < reply.numberOfWarps ∧
      reply.warpOffset + reply.numberOfWarps ≤ array.warps reply.disk reply.plot
  settled : state.phase ≠ .running → ∀ disk, disk < array.disks → reported state disk = true
  complete : state.phase = .finished → ∀ disk plot, disk < array.disks →
    plot < array.plots disk → state.readProgress disk plot = array.warps disk plot

theorem covers_reply (disk plot warp other plot' start total : Nat) :
    covers disk plot warp ⟨other, plot', start, total⟩ =
      (other == disk && inBuffer plot warp (.filling plot' start total)) := by
  simp only [covers, inBuffer, Bool.and_assoc]

theorem inBuffer_empty (plot warp other start : Nat) :
    inBuffer plot warp (.filling other start 0) = false := by
  by_cases below : start ≤ warp
  · simp only [inBuffer, Nat.add_zero, Nat.not_lt_of_le below, decide_false, Bool.and_false]
  · simp only [inBuffer, below, decide_false, Bool.false_and, Bool.and_false]

theorem readers_same (disk : Nat) (reader : Reader) (state : State) :
    (setReader disk reader state).readers disk = reader := Function.update_self _ _ _

theorem readers_other (disk other : Nat) (reader : Reader) (state : State)
    (apart : other ≠ disk) : (setReader disk reader state).readers other = state.readers other :=
  Function.update_of_ne apart _ _

theorem blockProgress_running (state : State) (phase : state.phase = .running) :
    blockProgress state = state.readProgress := by
  rw [blockProgress, phase]

theorem start_sound (array : Array) : Sound array start := by
  refine ⟨?_, fun _ _ _ _ => Nat.zero_le _, ?_, nofun, nofun, fun running => absurd rfl running,
    nofun⟩
  · intro disk plot warp _
    rfl
  · intro disk _ earlier inside
    exact absurd inside (Nat.not_lt_zero _)

/-- A reader moves without touching a warp. -/
theorem setReader_sound (array : Array) (disk : Nat) (reader : Reader) (state : State)
    (sound : Sound array state) (phase : state.phase = .running)
    (same : ∀ plot warp, inBuffer plot warp reader = inBuffer plot warp (state.readers disk))
    (readerSound : ReaderSound array disk (state.readProgress disk) reader)
    (uninterrupted : reader ≠ .interrupted) : Sound array (setReader disk reader state) := by
  have progress := blockProgress_running state phase
  refine ⟨?_, sound.progress_le, ?_, ?_, sound.thrown_sound, fun settled => absurd phase settled,
    sound.complete⟩
  · intro other plot warp inside
    by_cases here : other = disk
    · subst here
      rw [readers_same, same]
      exact sound.counted other plot warp inside
    · rw [readers_other _ _ _ _ here]
      exact sound.counted other plot warp inside
  · intro other inside
    by_cases here : other = disk
    · subst here
      rw [readers_same]
      change ReaderSound array other (blockProgress state other) reader
      rw [progress]
      exact readerSound
    · rw [readers_other _ _ _ _ here]
      exact sound.reader_sound other inside
  · intro other inside interrupted
    by_cases here : other = disk
    · subst here
      rw [readers_same] at interrupted
      exact absurd interrupted uninterrupted
    · rw [readers_other _ _ _ _ here] at interrupted
      exact sound.flagged other inside interrupted

theorem setProgress_same (progress : Nat → Nat → Nat) (disk plot value : Nat) :
    setProgress progress disk plot value disk plot = value := by
  rw [setProgress, Function.update_self, Function.update_self]

theorem setProgress_plot (progress : Nat → Nat → Nat) (disk plot value other : Nat)
    (apart : other ≠ plot) :
    setProgress progress disk plot value disk other = progress disk other := by
  rw [setProgress, Function.update_self, Function.update_of_ne apart]

theorem setProgress_disk (progress : Nat → Nat → Nat) (disk plot value other : Nat)
    (apart : other ≠ disk) :
    setProgress progress disk plot value other = progress other := by
  rw [setProgress, Function.update_of_ne apart]

/-- A read takes the next warps of the plot into the buffer. -/
theorem readWarps_counted (array : Array) (disk plot start total warpsRed : Nat) (state : State)
    (sound : Sound array state) (phase : state.phase = .running) (inside : disk < array.disks)
    (reader : state.readers disk = .filling plot start total)
    (buffer : start + total = state.readProgress disk plot) (other plot' warp : Nat)
    (otherLt : other < array.disks) :
    state.delivered.countP (covers other plot' warp) +
        state.thrown.countP (covers other plot' warp) +
        (inBuffer plot' warp
          ((readWarps disk plot start total warpsRed state).readers other)).toNat =
      (wasRead ((readWarps disk plot start total warpsRed state).readProgress other plot')
        warp).toNat := by
  have counted := sound.counted other plot' warp otherLt
  rw [blockProgress_running state phase] at counted
  by_cases here : other = disk
  · subst here
    rw [reader] at counted
    simp only [readWarps, readers_same]
    simp only [setReader]
    by_cases current : plot' = plot
    · subst current
      rw [setProgress_same]
      simp only [inBuffer, wasRead, beq_self_eq_true, Bool.true_and] at counted ⊢
      by_cases old : warp < state.readProgress other plot'
      · have read : warp < start + (total + warpsRed) := by omega
        have held : warp < start + total := by omega
        have later : warp < state.readProgress other plot' + warpsRed := by omega
        simp only [old, held, decide_true, Bool.and_true] at counted
        simp only [read, later, decide_true, Bool.and_true]
        exact counted
      · have notHeld : ¬ warp < start + total := by omega
        simp only [old, notHeld, decide_false, Bool.and_false, Bool.toNat_false] at counted
        have from_ : start ≤ warp := by omega
        by_cases new : warp < state.readProgress other plot' + warpsRed
        · have read : warp < start + (total + warpsRed) := by omega
          simp only [from_, read, new, decide_true, Bool.and_true, Bool.toNat_true]
          omega
        · have notRead : ¬ warp < start + (total + warpsRed) := by omega
          simp only [notRead, new, decide_false, Bool.and_false, Bool.toNat_false]
          omega
    · rw [setProgress_plot _ _ _ _ _ current]
      have apart : (plot == plot') = false := beq_false_of_ne (Ne.symm current)
      simp only [inBuffer, apart, Bool.false_and] at counted ⊢
      exact counted
  · simp only [readWarps, readers_other _ _ _ _ here]
    simp only [setReader, setProgress_disk _ _ _ _ _ here]
    exact counted

theorem readWarps_sound (array : Array) (disk plot start total warpsRed : Nat) (state : State)
    (sound : Sound array state) (phase : state.phase = .running) (inside : disk < array.disks)
    (reader : state.readers disk = .filling plot start total)
    (positive : 0 < warpsRed)
    (bounded : warpsRed ≤ array.warps disk plot - state.readProgress disk plot) :
    Sound array (readWarps disk plot start total warpsRed state) := by
  have progress := blockProgress_running state phase
  have progress' := blockProgress_running (readWarps disk plot start total warpsRed state) phase
  have readerSound := sound.reader_sound disk inside
  rw [reader, progress] at readerSound
  obtain ⟨plotLt, before, buffer, -⟩ := readerSound
  refine ⟨?_, ?_, ?_, ?_, sound.thrown_sound, fun settled => absurd phase settled, ?_⟩
  · intro other plot' warp otherLt
    rw [progress']
    exact readWarps_counted array disk plot start total warpsRed state sound phase inside reader
      buffer other plot' warp otherLt
  · intro other plot' otherLt plotLt'
    rw [progress']
    have bound := sound.progress_le other plot' otherLt plotLt'
    rw [progress] at bound
    simp only [readWarps, setReader]
    by_cases here : other = disk
    · subst here
      by_cases current : plot' = plot
      · subst current
        rw [setProgress_same]
        omega
      · rw [setProgress_plot _ _ _ _ _ current]
        exact bound
    · rw [setProgress_disk _ _ _ _ _ here]
      exact bound
  · intro other otherLt
    rw [progress']
    by_cases here : other = disk
    · subst here
      simp only [readWarps, readers_same]
      simp only [setReader]
      refine ⟨plotLt, ?_, ?_, by omega⟩
      · intro earlier earlierLt listed
        rw [setProgress_plot _ _ _ _ _ (Nat.ne_of_lt earlierLt)]
        exact before earlier earlierLt listed
      · rw [setProgress_same]
        omega
    · simp only [readWarps, readers_other _ _ _ _ here]
      simp only [setReader, setProgress_disk _ _ _ _ _ here]
      have old := sound.reader_sound other otherLt
      rw [progress] at old
      exact old
  · intro other otherLt interrupted
    by_cases here : other = disk
    · subst here
      simp only [readWarps, readers_same, reduceCtorEq] at interrupted
    · simp only [readWarps, readers_other _ _ _ _ here] at interrupted
      exact sound.flagged other otherLt interrupted
  · intro finished
    change state.phase = .finished at finished
    rw [phase] at finished
    cases finished

/-- What leaves the buffer of the reader counts as much as it did there. -/
theorem buffer_counted (disk plot start total : Nat) (reader : Reader)
    (buffer : ∀ plot' warp, inBuffer plot' warp reader =
      inBuffer plot' warp (.filling plot start total)) (plot' warp : Nat) (log : List ReadReply) :
    (log ++ [ReadReply.mk disk plot start total]).countP (covers disk plot' warp) =
      log.countP (covers disk plot' warp) + (inBuffer plot' warp reader).toNat := by
  rw [List.countP_append, List.countP_singleton, covers_reply, beq_self_eq_true, Bool.true_and,
    buffer]
  cases inBuffer plot' warp (.filling plot start total) <;> rfl

theorem other_counted (disk other plot start total plot' warp : Nat) (log : List ReadReply)
    (apart : other ≠ disk) :
    (log ++ [ReadReply.mk disk plot start total]).countP (covers other plot' warp) =
      log.countP (covers other plot' warp) := by
  rw [List.countP_append, List.countP_singleton, covers_reply, beq_false_of_ne (Ne.symm apart)]
  rfl

theorem deliver_sound (array : Array) (disk plot start total : Nat) (state : State)
    (sound : Sound array state) (phase : state.phase = .running) (inside : disk < array.disks)
    (reader : state.readers disk = .filling plot start total) :
    Sound array (deliver disk plot start total state) := by
  have readerSound := sound.reader_sound disk inside
  rw [reader] at readerSound
  refine ⟨?_, sound.progress_le, ?_, ?_, sound.thrown_sound, fun settled => absurd phase settled,
    sound.complete⟩
  · intro other plot' warp otherLt
    have counted := sound.counted other plot' warp otherLt
    change (state.delivered ++ [_]).countP _ + state.thrown.countP _ + _ =
      (wasRead (blockProgress state other plot') warp).toNat
    by_cases here : other = disk
    · subst here
      rw [buffer_counted other plot start total _ (fun _ _ => rfl)]
      rw [reader] at counted
      simp only [deliver, readers_same]
      simp only [inBuffer, Bool.toNat_false] at counted ⊢
      omega
    · rw [other_counted _ _ _ _ _ _ _ _ here]
      simp only [deliver, readers_other _ _ _ _ here]
      exact counted
  · intro other otherLt
    by_cases here : other = disk
    · subst here
      simp only [deliver, readers_same]
      exact readerSound.2.1
    · simp only [deliver, readers_other _ _ _ _ here]
      exact sound.reader_sound other otherLt
  · intro other otherLt interrupted
    by_cases here : other = disk
    · subst here
      simp only [deliver, readers_same, reduceCtorEq] at interrupted
    · simp only [deliver, readers_other _ _ _ _ here] at interrupted
      exact sound.flagged other otherLt interrupted

theorem throwBuffer_sound (array : Array) (disk plot start total : Nat) (state : State)
    (sound : Sound array state) (phase : state.phase = .running) (inside : disk < array.disks)
    (reader : state.readers disk = .checking plot start total)
    (interrupt : state.interrupt = true) :
    Sound array (throwBuffer disk plot start total state) := by
  have readerSound := sound.reader_sound disk inside
  rw [reader] at readerSound
  obtain ⟨plotLt, -, buffer, positive⟩ := readerSound
  have bound := sound.progress_le disk plot inside plotLt
  refine ⟨?_, sound.progress_le, ?_, fun _ _ _ => interrupt, ?_,
    fun settled => absurd phase settled, sound.complete⟩
  · intro other plot' warp otherLt
    have counted := sound.counted other plot' warp otherLt
    change state.delivered.countP _ + (state.thrown ++ [_]).countP _ + _ =
      (wasRead (blockProgress state other plot') warp).toNat
    by_cases here : other = disk
    · subst here
      rw [buffer_counted other plot start total (.checking plot start total) (fun _ _ => rfl)]
      rw [reader] at counted
      simp only [throwBuffer, readers_same]
      simp only [inBuffer, Bool.toNat_false] at counted ⊢
      omega
    · rw [other_counted _ _ _ _ _ _ _ _ here]
      simp only [throwBuffer, readers_other _ _ _ _ here]
      exact counted
  · intro other otherLt
    by_cases here : other = disk
    · subst here
      simp only [throwBuffer, readers_same]
      exact trivial
    · simp only [throwBuffer, readers_other _ _ _ _ here]
      exact sound.reader_sound other otherLt
  · intro reply listed
    rcases List.mem_append.mp listed with old | new
    · exact sound.thrown_sound reply old
    · rw [List.mem_singleton.mp new]
      exact ⟨inside, plotLt, positive, by simp only; omega⟩

theorem readDisk_sound (array : Array) (disk : Nat) (before after : State)
    (sound : Sound array before) (phase : before.phase = .running) (inside : disk < array.disks)
    (taken : readDisk array disk before = some after) : Sound array after := by
  have readerSound := sound.reader_sound disk inside
  rw [blockProgress_running before phase] at readerSound
  cases reader : before.readers disk with
  | finished => simp only [readDisk, reader, reduceCtorEq] at taken
  | interrupted => simp only [readDisk, reader, reduceCtorEq] at taken
  | scanning plot =>
    rw [reader] at readerSound
    simp only [readDisk, reader] at taken
    have empty : ∀ plot' warp, inBuffer plot' warp (before.readers disk) = false := by
      intro plot' warp
      rw [reader]
      rfl
    split at taken
    · rename_i listed
      split at taken
      · rename_i remaining
        cases taken
        refine setReader_sound array disk _ before sound phase ?_ ?_ (by nofun)
        · intro plot' warp
          rw [empty, inBuffer_empty]
        · exact ⟨listed, readerSound, rfl, fun _ => remaining⟩
      · rename_i readOut
        cases taken
        refine setReader_sound array disk _ before sound phase ?_ ?_ (by nofun)
        · intro plot' warp
          rw [empty]
          rfl
        · intro earlier earlierLt earlierListed
          by_cases here : earlier = plot
          · subst here
            have bound := sound.progress_le disk earlier inside earlierListed
            rw [blockProgress_running before phase] at bound
            omega
          · exact readerSound earlier (by omega) earlierListed
    · rename_i last
      cases taken
      refine setReader_sound array disk _ before sound phase ?_ ?_ (by nofun)
      · intro plot' warp
        rw [empty]
        rfl
      · intro earlier _ listed
        exact readerSound earlier (by omega) listed
  | filling plot start total =>
    rw [reader] at readerSound
    obtain ⟨plotLt, earlierRead, buffer, fresh⟩ := readerSound
    simp only [readDisk, reader] at taken
    split at taken
    · rename_i reads
      cases taken
      simp only [Bool.and_eq_true, bne_iff_ne] at reads
      exact readWarps_sound array disk plot start total _ before sound phase inside reader
        (Nat.pos_of_ne_zero reads.2) (warpsToRead_le _ _ _)
    · rename_i stops
      split at taken
      · -- An empty buffer always reads, since it holds a warp.
        rename_i none
        have pos := warpsToRead_pos array _ _ (fresh none)
        simp only [fillsOn, none, decide_true, Bool.true_or, Bool.true_and, bne_iff_ne] at stops
        omega
      · cases taken
        exact deliver_sound array disk plot start total before sound phase inside reader
  | checking plot start total =>
    rw [reader] at readerSound
    obtain ⟨plotLt, earlierRead, buffer, positive⟩ := readerSound
    simp only [readDisk, reader] at taken
    split at taken
    · rename_i interrupt
      cases taken
      exact throwBuffer_sound array disk plot start total before sound phase inside reader
        interrupt
    · cases taken
      refine setReader_sound array disk _ before sound phase ?_ ?_ (by nofun)
      · intro plot' warp
        rw [reader]
        rfl
      · exact ⟨plotLt, earlierRead, buffer, fun none => by omega⟩

/-- The block leaves a round with every reader settled. -/
theorem endRound_sound (array : Array) (state : State) (sound : Sound array state)
    (phase : state.phase = .running)
    (settled : ∀ disk, disk < array.disks → reported state disk = true) :
    Sound array (endRound array state) := by
  have progress := blockProgress_running state phase
  have leave : ∀ next : Phase, next ≠ .running →
      (∀ scanProgress, next = .paused scanProgress → scanProgress = state.readProgress) →
      (next = .finished → ∀ disk, disk < array.disks → state.readers disk = .finished) →
      Sound array { state with phase := next } := by
    intro next stopped snapshot complete
    have same : blockProgress { state with phase := next } = blockProgress state := by
      rw [progress]
      cases next with
      | paused scanProgress => exact snapshot scanProgress rfl
      | running => rfl
      | finished => rfl
      | dropped => rfl
    refine ⟨?_, ?_, ?_, sound.flagged, sound.thrown_sound, fun _ => settled, ?_⟩
    · rw [same]
      exact sound.counted
    · rw [same]
      exact sound.progress_le
    · rw [same]
      exact sound.reader_sound
    · intro finished disk plot inside listed
      have readerSound := sound.reader_sound disk inside
      rw [complete finished disk inside, progress] at readerSound
      exact readerSound plot listed listed
  unfold endRound
  split
  · split
    · split
      · refine leave _ (by nofun) ?_ (by nofun)
        intro scanProgress same
        cases same
        rfl
      · rename_i uninterrupted
        refine leave _ (by nofun) (by nofun) ?_
        intro _ disk inside
        have done := settled disk inside
        simp only [reported, Bool.or_eq_true, beq_iff_eq] at done
        rcases done with finished | interrupted
        · exact finished
        · refine absurd ?_ uninterrupted
          exact List.any_eq_true.mpr
            ⟨disk, List.mem_range.mpr inside, beq_iff_eq.mpr interrupted⟩
    · exact leave _ (by nofun) (by nofun) (by nofun)
  · rename_i unflagged
    refine leave _ (by nofun) (by nofun) ?_
    intro _ disk inside
    have done := settled disk inside
    simp only [reported, Bool.or_eq_true, beq_iff_eq] at done
    rcases done with finished | interrupted
    · exact finished
    · exact absurd (sound.flagged disk inside interrupted) unflagged

/-- A round that resumes goes on from the snapshot, with empty buffers. -/
theorem startRound_sound (array : Array) (scanProgress : Nat → Nat → Nat) (state : State)
    (sound : Sound array state) (phase : state.phase = .paused scanProgress) :
    Sound array (startRound scanProgress state) := by
  have progress : blockProgress state = scanProgress := by rw [blockProgress, phase]
  refine ⟨?_, ?_, ?_, nofun, sound.thrown_sound, fun stopped => absurd rfl stopped, nofun⟩
  · intro disk plot warp inside
    have counted := sound.counted disk plot warp inside
    rw [progress] at counted
    have done := sound.settled (by rw [phase]; nofun) disk inside
    have empty : inBuffer plot warp (state.readers disk) = false := by
      simp only [reported, Bool.or_eq_true, beq_iff_eq] at done
      rcases done with finished | interrupted
      · rw [finished]
        rfl
      · rw [interrupted]
        rfl
    rw [empty] at counted
    exact counted
  · intro disk plot inside listed
    have bound := sound.progress_le disk plot inside listed
    rw [progress] at bound
    exact bound
  · intro disk _ earlier earlierLt
    exact absurd earlierLt (Nat.not_lt_zero _)

theorem step_sound (array : Array) (before : State) (action : Action) (after : State)
    (sound : Sound array before) (taken : step array before action = some after) :
    Sound array after := by
  unfold step at taken
  cases action with
  | read disk =>
    simp only at taken
    split at taken
    · rename_i phase
      split at taken
      · rename_i inside
        exact readDisk_sound array disk before after sound phase inside taken
      · cases taken
    · cases taken
  | interrupt =>
    simp only at taken
    split at taken
    · cases taken
      exact ⟨sound.counted, sound.progress_le, sound.reader_sound, fun _ _ _ => rfl,
        sound.thrown_sound, sound.settled, sound.complete⟩
    · cases taken
  | pause =>
    simp only at taken
    split at taken
    · split at taken
      · cases taken
      · cases taken
        exact ⟨sound.counted, sound.progress_le, sound.reader_sound, fun _ _ _ => rfl,
          sound.thrown_sound, sound.settled, sound.complete⟩
    · cases taken
  | endRound =>
    simp only at taken
    split at taken
    · rename_i phase
      split at taken
      · rename_i ready
        cases taken
        simp only [Bool.and_eq_true, List.all_eq_true, List.mem_range] at ready
        exact endRound_sound array before sound phase ready.2
      · cases taken
    · cases taken
  | otherRound readProgress =>
    simp only at taken
    split at taken
    · rename_i scanProgress phase
      cases taken
      have same : blockProgress { before with readProgress := readProgress } =
          blockProgress before := by
        simp only [blockProgress, phase]
      refine ⟨?_, ?_, ?_, sound.flagged, sound.thrown_sound, sound.settled, ?_⟩
      · rw [same]
        exact sound.counted
      · rw [same]
        exact sound.progress_le
      · rw [same]
        exact sound.reader_sound
      · intro finished
        simp only [phase, reduceCtorEq] at finished
    · cases taken
  | resume =>
    simp only at taken
    split at taken
    · rename_i scanProgress phase
      cases taken
      exact startRound_sound array scanProgress before sound phase
    · cases taken

theorem reachable_sound (array : Array) {allowed : State → Action → Prop} {state : State}
    (reached : Reachable (system array) allowed state) : Sound array state :=
  reached.invariant (Sound array)
    (by
      rintro state rfl
      exact start_sound array)
    (fun before action after sound _ taken => step_sound array before action after sound taken)

/-- The reader that moves finds the interrupt flag up after a read. -/
def seesInterrupt (state : State) : Action → Bool
  | .read disk =>
    match state.readers disk with
    | .checking _ _ _ => state.interrupt
    | _ => false
  | _ => false

/-- Only an interrupted reader throws a buffer. -/
theorem readDisk_thrown (array : Array) (disk : Nat) (before after : State)
    (taken : readDisk array disk before = some after)
    (unseen : seesInterrupt before (.read disk) = false) : after.thrown = before.thrown := by
  unfold readDisk at taken
  cases reader : before.readers disk with
  | finished => simp only [reader, reduceCtorEq] at taken
  | interrupted => simp only [reader, reduceCtorEq] at taken
  | scanning plot =>
    simp only [reader] at taken
    split at taken
    · split at taken <;> (cases taken; rfl)
    · cases taken
      rfl
  | filling plot start total =>
    simp only [reader] at taken
    split at taken
    · cases taken
      rfl
    · split at taken <;> (cases taken; rfl)
  | checking plot start total =>
    simp only [seesInterrupt, reader] at unseen
    simp only [reader, unseen, Bool.false_eq_true, ↓reduceIte, Option.some.injEq] at taken
    rw [← taken]
    rfl

theorem step_thrown (array : Array) (before : State) (action : Action) (after : State)
    (taken : step array before action = some after)
    (unseen : seesInterrupt before action = false) : after.thrown = before.thrown := by
  unfold step at taken
  cases action with
  | read disk =>
    simp only at taken
    split at taken
    · split at taken
      · exact readDisk_thrown array disk before after taken unseen
      · cases taken
    · cases taken
  | interrupt =>
    simp only at taken
    split at taken <;> cases taken
    rfl
  | pause =>
    simp only at taken
    split at taken
    · split at taken <;> cases taken
      rfl
    · cases taken
  | endRound =>
    simp only at taken
    split at taken
    · split at taken
      · cases taken
        unfold endRound
        split
        · split
          · split <;> rfl
          · rfl
        · rfl
      · cases taken
    · cases taken
  | otherRound readProgress =>
    simp only at taken
    split at taken <;> cases taken
    rfl
  | resume =>
    simp only at taken
    split at taken <;> cases taken
    rfl

/-- A scan that finishes has delivered or thrown every warp of every plot, once. -/
theorem finished_accounts (array : Array) (state : State) (sound : Sound array state)
    (finished : state.phase = .finished) (disk plot warp : Nat) (inside : disk < array.disks)
    (listed : plot < array.plots disk) (warpLt : warp < array.warps disk plot) :
    state.delivered.countP (covers disk plot warp) +
      state.thrown.countP (covers disk plot warp) = 1 := by
  have counted := sound.counted disk plot warp inside
  have done := sound.settled (by rw [finished]; nofun) disk inside
  have empty : inBuffer plot warp (state.readers disk) = false := by
    simp only [reported, Bool.or_eq_true, beq_iff_eq] at done
    rcases done with readerDone | interrupted
    · rw [readerDone]
      rfl
    · rw [interrupted]
      rfl
  have progress : blockProgress state disk plot = array.warps disk plot := by
    rw [← sound.complete finished disk plot inside listed, blockProgress, finished]
  rw [empty, progress, wasRead, decide_eq_true warpLt] at counted
  exact counted

/-- Every warp is in exactly one data message of the rounds of the block. -/
def DeliveredOnce (array : Array) (state : State) : Prop :=
  ∀ disk plot warp, disk < array.disks → plot < array.plots disk →
    warp < array.warps disk plot → state.delivered.countP (covers disk plot warp) = 1

theorem deliveredOnce_iff (array : Array) (state : State) (sound : Sound array state)
    (finished : state.phase = .finished) : DeliveredOnce array state ↔ state.thrown = [] := by
  constructor
  · intro once
    rw [List.eq_nil_iff_forall_not_mem]
    intro reply listed
    obtain ⟨inside, plotLt, positive, bound⟩ := sound.thrown_sound reply listed
    have accounts := finished_accounts array state sound finished reply.disk reply.plot
      reply.warpOffset inside plotLt (by omega)
    have delivered := once reply.disk reply.plot reply.warpOffset inside plotLt (by omega)
    have lost : 0 < state.thrown.countP (covers reply.disk reply.plot reply.warpOffset) := by
      rw [List.countP_pos_iff]
      refine ⟨reply, listed, ?_⟩
      have within : reply.warpOffset < reply.warpOffset + reply.numberOfWarps := by omega
      simp only [covers, beq_self_eq_true, Nat.le_refl, within, decide_true, Bool.and_self]
    omega
  · intro none disk plot warp inside listed warpLt
    have accounts := finished_accounts array state sound finished disk plot warp inside listed
      warpLt
    rw [none, List.countP_nil, Nat.add_zero] at accounts
    exact accounts

/-- In every run in which no reader finds the interrupt flag up after a read, a scan
that finishes has delivered every warp once. In any run it has done so exactly when
no reader has thrown a buffer. -/
theorem finished_scan_delivers_once (array : Array) (state : State)
    (finished : state.phase = .finished) :
    (Reachable (system array) (fun state action => !seesInterrupt state action) state →
      DeliveredOnce array state) ∧
    (Reachable (system array) always state →
      (DeliveredOnce array state ↔ state.thrown = [])) := by
  constructor
  · intro reached
    have kept : state.thrown = [] := by
      refine reached.invariant (fun state => state.thrown = []) ?_ ?_
      · rintro state rfl
        rfl
      · intro before action after none unseen taken
        rw [step_thrown array before action after taken
          (by simpa only [Bool.not_eq_true'] using unseen)]
        exact none
    exact (deliveredOnce_iff array state (reachable_sound array reached) finished).mpr kept
  · intro reached
    exact deliveredOnce_iff array state (reachable_sound array reached) finished

def isFinished : Phase → Bool
  | .finished => true
  | _ => false

theorem isFinished_phase {phase : Phase} (finished : isFinished phase = true) :
    phase = .finished := by
  cases phase with
  | finished => rfl
  | running => cases finished
  | paused scanProgress => cases finished
  | dropped => cases finished

/-- One plot of two warps, with a buffer of one warp. -/
def twoWarps : Array where
  disks := 1
  plots := fun _ => 1
  warps := fun _ _ => 2
  capacity := 262144
  capacity_ge := by decide

/-- The flags rise after the last read, and no reader sees them. -/
def quietRun : List Action :=
  List.replicate 4 (.read 0) ++ List.replicate 6 (.read 0) ++ [.pause, .endRound]

theorem finished_scan_delivers_once_quiet :
    ∃ state : State, state.delivered = [⟨0, 0, 0, 1⟩, ⟨0, 0, 1, 1⟩] ∧
      state.delivered.countP (covers 0 0 1) = 1 := by
  have complete : (Transition.runAllowed (system twoWarps)
      (fun state action => !seesInterrupt state action) start quietRun).any (fun state =>
        isFinished state.phase &&
          state.delivered == [⟨0, 0, 0, 1⟩, ⟨0, 0, 1, 1⟩]) = true := by decide +kernel
  obtain ⟨final, ran, ends⟩ := (Option.any_eq_true _ _).mp complete
  simp only [Bool.and_eq_true, beq_iff_eq] at ends
  have finished := isFinished_phase ends.1
  have reached := Reachable.runAllowed quietRun (.start rfl) ran
  exact ⟨final, ends.2, (finished_scan_delivers_once twoWarps final finished).1 reached 0 0 1
    (by decide) (by decide) (by decide)⟩

/-- The reader is paused behind its first read and resumes at the second warp. -/
def pausedRun : List Action :=
  [.read 0, .read 0, .pause, .read 0, .endRound, .resume] ++ List.replicate 6 (.read 0) ++
    [.endRound]

theorem paused_scan_loses_warp :
    ¬ ∀ state : State, Reachable (system twoWarps) always state → state.phase = .finished →
      DeliveredOnce twoWarps state := by
  intro claim
  have complete : (run (system twoWarps) start pausedRun).any (fun state =>
      isFinished state.phase &&
        state.delivered.countP (covers 0 0 0) == 0) = true := by decide +kernel
  obtain ⟨final, ran, ends⟩ := (Option.any_eq_true _ _).mp complete
  simp only [Bool.and_eq_true, beq_iff_eq] at ends
  have finished := isFinished_phase ends.1
  have once := claim final (Reachable.run _ (.start rfl) ran) finished 0 0 0 (by decide)
    (by decide) (by decide)
  rw [ends.2] at once
  cases once

end Pocx.Disk
