import Pocx.Aggregator.Database

set_option autoImplicit false

namespace Pocx.AggregatorServer

open Database (DbCommand RowKey Record Submission RecentSubmissions literal liveSaves deletes readI64)
open Stats (DateTime StatsInner Minimum cutoffHeight)
open Transition (System Reachable)

/-- A submission that the pool manager has taken, with the address it came from. -/
structure Accepted where
  accountId : String
  clientIp : String
  rawQuality : UInt64
  height : UInt64
deriving DecidableEq

namespace Accepted

def record (submission : Accepted) (now : DateTime) (stats : StatsInner) : StatsInner :=
  stats.recordSubmission now submission.accountId (some submission.clientIp)
    submission.rawQuality submission.height

def save (submission : Accepted) : DbCommand :=
  .saveSubmission submission.accountId (some submission.clientIp) submission.rawQuality
    submission.height

end Accepted

/-- The arguments that `AggregatorServer::new` takes from a row. -/
def ofRow (row : Submission) : Accepted where
  accountId := row.accountId
  clientIp := row.machineId
  rawQuality := UInt64.ofNat row.rawQuality
  height := UInt64.ofNat row.height

/-- The loop of `AggregatorServer::new`, with the time of each call. -/
def replay (calls : List (DateTime × Submission)) (stats : StatsInner) : StatsInner :=
  calls.foldl (fun stats call => (ofRow call.2).record call.1 stats) stats

def updateBaseTarget (baseTarget : UInt64) (stats : StatsInner) : StatsInner :=
  { stats with currentBaseTarget := some baseTarget }

/-- The server and its database. `saving` holds the submissions of the tasks that are between
their call of `record_submission` and their call of `save_submission`, and `accepted` those that
were ever recorded. -/
structure State where
  stats : StatsInner
  saving : List Accepted
  commands : List DbCommand
  database : Database.State
  accepted : List Accepted

/-- `record` and `save` are the two halves of `handle_submit_nonce`. The tasks of
`handle_get_mining_info` read and write the height at different times, so the `oldHeight` of one
is any that another has written. `restart` has the rows that were loaded, if they could be. -/
inductive Label
  | record (now : DateTime) (submission : Accepted)
  | save (submission : Accepted)
  | getMiningInfo (height oldHeight baseTarget : UInt64)
  | write (now : DateTime)
  | fail
  | restart (loaded : Option (DateTime × List (DateTime × Submission)))

section system

variable (nearest : Nat → Nat) (retentionBlocks : UInt64)

def step (state : State) : Label → Option State
  | .record now submission =>
    some { state with
      stats := submission.record now state.stats
      saving := submission :: state.saving
      accepted := submission :: state.accepted }
  | .save submission =>
    if submission ∈ state.saving then
      some { state with
        saving := state.saving.erase submission
        commands := state.commands ++ [submission.save] }
    else none
  | .getMiningInfo height oldHeight baseTarget =>
    some { state with
      stats := updateBaseTarget baseTarget (state.stats.updateHeight height)
      commands :=
        if height ≠ oldHeight ∧ retentionBlocks > 0 then
          state.commands ++ [.cleanup height retentionBlocks]
        else state.commands }
  | .write now =>
    match state.commands with
    | [] => none
    | command :: rest =>
      some { state with
        commands := rest
        database := state.database.step nearest (.executed now command) }
  | .fail =>
    match state.commands with
    | [] => none
    | command :: rest =>
      some { state with
        commands := rest
        database := state.database.step nearest (.failed command) }
  | .restart none =>
    some { state with
      stats := Stats.initialState.inner
      saving := []
      commands := [] }
  | .restart (some (cutoff, calls)) =>
    if RecentSubmissions state.database.table cutoff (calls.map (·.2)) then
      some { state with
        stats := replay calls Stats.initialState.inner
        saving := []
        commands := [] }
    else none

def initialState : State := ⟨Stats.initialState.inner, [], [], ⟨∅, []⟩, []⟩

def system : System State Label where
  initial := fun state => state = initialState
  step := step nearest retentionBlocks

end system

/-- The best of a block that the statistics hold for a pair. -/
def blockBest (stats : StatsInner) (accountId clientIp : String) (block : UInt64) :
    Option UInt64 :=
  ((stats.activeConnections (accountId, clientIp)).bind fun info => info.bestPerBlock block).map
    (·.rawQuality)

/-- The integers of a submission fit the columns. -/
def Accepted.Narrow (submission : Accepted) : Prop :=
  submission.rawQuality.toNat < 2 ^ 63 ∧ submission.height.toNat < 2 ^ 63

section target

variable (accountId clientIp : String) (block : UInt64)

def Accepted.OfPair (submission : Accepted) : Prop :=
  submission.accountId = accountId ∧ submission.clientIp = clientIp

def Accepted.IsFor (submission : Accepted) : Prop :=
  submission.OfPair accountId clientIp ∧ submission.height = block

/-- The qualities that some submissions of a pair have for a block. -/
def qualities (submissions : List Accepted) (quality : UInt64) : Prop :=
  ∃ submission ∈ submissions, submission.IsFor accountId clientIp block ∧
    submission.rawQuality = quality

/-- The submissions of the pair fit the columns of the table. -/
def Fits : State → Label → Prop
  | _, .record _ submission => submission.OfPair accountId clientIp → submission.Narrow
  | _, _ => True

/-- The steps that keep what is known of a block: later submissions and cleanups leave it, no
write of it fails, and the server is stopped when it is written and is started again while it is
recent. -/
def Keeps (state : State) : Label → Prop
  | .record _ submission =>
    submission.OfPair accountId clientIp →
      submission.Narrow ∧ cutoffHeight submission.height < block
  | .write _ =>
    ∀ currentHeight retentionBlocks,
      state.commands.head? = some (.cleanup currentHeight retentionBlocks) →
        retentionBlocks = 0 ∨ deletes currentHeight retentionBlocks block.toNat = false
  | .fail =>
    ∀ submission : Accepted, submission.IsFor accountId clientIp block →
      state.commands.head? ≠ some submission.save
  | .restart none => False
  | .restart (some (cutoff, _)) =>
    ∀ submission : Accepted, submission.IsFor accountId clientIp block →
      submission ∉ state.saving ∧ submission.save ∉ state.commands ∧
        ∀ now, (now, submission.save) ∈ state.database.log → cutoff < now
  | .save _ | .getMiningInfo .. => True

end target

section statistics

variable {stats : StatsInner} {now : DateTime} {submission : Accepted}
  {accountId clientIp : String} {block : UInt64}

/-- The least of a quality and of what was held before. -/
def improved (before : Option UInt64) (quality : UInt64) : UInt64 :=
  match before with
  | some best => if quality < best then quality else best
  | none => quality

theorem blockBest_record (ofPair : submission.OfPair accountId clientIp) :
    blockBest (submission.record now stats) accountId clientIp block =
      if block = submission.height then
        if cutoffHeight submission.height < block ∨
            stats.activeConnections (accountId, clientIp) = none then
          some (improved (blockBest stats accountId clientIp block) submission.rawQuality)
        else none
      else if cutoffHeight submission.height < block then
        blockBest stats accountId clientIp block
      else none := by
  obtain ⟨rfl, rfl⟩ := ofPair
  simp only [blockBest, Accepted.record, StatsInner.recordSubmission, Stats.machineName,
    Option.getD_some, Function.update_self, Option.bind_some]
  cases found : stats.activeConnections (submission.accountId, submission.clientIp) with
  | none =>
    by_cases own : block = submission.height
    · subst own
      simp [improved]
    · simp [own]
  | some info =>
    by_cases kept : cutoffHeight submission.height < block
    · by_cases own : block = submission.height
      · subst own
        simp only [Stats.MinerInfo.record, kept, ↓reduceIte, Function.update_self, Option.map_some,
          Option.bind_some, true_or, Option.some.injEq, Stats.MinerInfo.updateBlock]
        cases info.bestPerBlock submission.height with
        | none => rfl
        | some best => exact apply_ite Stats.BestSubmission.rawQuality _ _ _
      · simp [Stats.MinerInfo.record, kept, own]
    · simp [Stats.MinerInfo.record, kept]

/-- A submission changes nothing for the other pairs. -/
theorem blockBest_record_apart (apart : ¬ submission.OfPair accountId clientIp) :
    blockBest (submission.record now stats) accountId clientIp block =
      blockBest stats accountId clientIp block := by
  have elsewhere : (accountId, clientIp) ≠ (submission.accountId, submission.clientIp) := by
    intro same
    obtain ⟨account, client⟩ := Prod.mk.inj same
    exact apart ⟨account.symm, client.symm⟩
  simp only [blockBest, Accepted.record, StatsInner.recordSubmission, Stats.machineName,
    Option.getD_some, Function.update_of_ne elsewhere]

/-- The statistics hold what they held before or what is recorded now. -/
theorem blockBest_record_from {quality : UInt64}
    (held : blockBest (submission.record now stats) accountId clientIp block = some quality) :
    submission.IsFor accountId clientIp block ∧ submission.rawQuality = quality ∨
      blockBest stats accountId clientIp block = some quality := by
  by_cases ofPair : submission.OfPair accountId clientIp
  · rw [blockBest_record ofPair] at held
    by_cases own : block = submission.height
    · rw [if_pos own, Option.ite_none_right_eq_some, Option.some.injEq] at held
      have least := held.2
      cases before : blockBest stats accountId clientIp block with
      | none =>
        rw [before] at least
        exact .inl ⟨⟨ofPair, own.symm⟩, least⟩
      | some best =>
        rw [before, improved] at least
        by_cases better : submission.rawQuality < best
        · rw [if_pos better] at least
          exact .inl ⟨⟨ofPair, own.symm⟩, least⟩
        · rw [if_neg better] at least
          exact .inr (congrArg some least)
    · rw [if_neg own, Option.ite_none_right_eq_some] at held
      exact .inr held.2
  · rw [blockBest_record_apart ofPair] at held
    exact .inr held

theorem minimum_improved {found : Option UInt64} {among : UInt64 → Prop}
    (least : Minimum found among) (quality : UInt64) :
    Minimum (some (improved found quality)) fun other => other = quality ∨ among other := by
  cases found with
  | none =>
    refine ⟨.inl rfl, ?_⟩
    rintro other (rfl | before)
    · exact UInt64.le_refl other
    · exact absurd before (least other)
  | some best =>
    rw [improved]
    by_cases better : quality < best
    · rw [if_pos better]
      refine ⟨.inl rfl, ?_⟩
      rintro other (rfl | before)
      · exact UInt64.le_refl other
      · exact UInt64.le_trans (UInt64.le_of_lt better) (least.2 other before)
    · rw [if_neg better]
      refine ⟨.inr least.1, ?_⟩
      rintro other (rfl | before)
      · exact UInt64.not_lt.mp better
      · exact least.2 other before

/-- The minimum of some qualities that have, for each of others, one that is no larger. -/
theorem minimum_of_coinitial {found : Option UInt64} {some' all : UInt64 → Prop}
    (least : Minimum found some') (subset : ∀ quality, some' quality → all quality)
    (coinitial : ∀ quality, all quality → ∃ other, some' other ∧ other ≤ quality) :
    Minimum found all := by
  cases found with
  | none =>
    intro quality listed
    obtain ⟨other, among, -⟩ := coinitial quality listed
    exact least other among
  | some best =>
    refine ⟨subset best least.1, ?_⟩
    intro quality listed
    obtain ⟨other, among, below⟩ := coinitial quality listed
    exact UInt64.le_trans (least.2 other among) below

/-- A recorded submission, as long as it does not end the time of the block. -/
theorem minimum_record {submissions : List Accepted}
    (least : Minimum (blockBest stats accountId clientIp block)
      (qualities accountId clientIp block submissions))
    (kept : submission.OfPair accountId clientIp → cutoffHeight submission.height < block) :
    Minimum (blockBest (submission.record now stats) accountId clientIp block)
      (qualities accountId clientIp block (submission :: submissions)) := by
  by_cases isFor : submission.IsFor accountId clientIp block
  · rw [blockBest_record isFor.1, if_pos isFor.2.symm, if_pos (.inl (kept isFor.1))]
    apply minimum_of_coinitial (minimum_improved least submission.rawQuality)
    · rintro quality (rfl | ⟨other, listed, found⟩)
      · exact ⟨submission, List.mem_cons_self, isFor, rfl⟩
      · exact ⟨other, List.mem_cons_of_mem _ listed, found⟩
    · rintro quality ⟨other, listed, found, rfl⟩
      refine ⟨other.rawQuality, ?_, UInt64.le_refl _⟩
      rcases List.mem_cons.mp listed with rfl | earlier
      · exact .inl rfl
      · exact .inr ⟨other, earlier, found, rfl⟩
  · have unchanged : blockBest (submission.record now stats) accountId clientIp block =
        blockBest stats accountId clientIp block := by
      by_cases ofPair : submission.OfPair accountId clientIp
      · have other : block ≠ submission.height := fun same => isFor ⟨ofPair, same.symm⟩
        rw [blockBest_record ofPair, if_neg other, if_pos (kept ofPair)]
      · exact blockBest_record_apart ofPair
    rw [unchanged]
    apply minimum_of_coinitial least
    · rintro quality ⟨other, listed, found⟩
      exact ⟨other, List.mem_cons_of_mem _ listed, found⟩
    · rintro quality ⟨other, listed, found, same⟩
      refine ⟨quality, ⟨other, ?_, found, same⟩, UInt64.le_refl _⟩
      rcases List.mem_cons.mp listed with rfl | earlier
      · exact absurd found isFor
      · exact earlier

/-- The replay of some rows, by induction on those that are left. -/
theorem minimum_replay (calls : List (DateTime × Submission)) {done : List Accepted}
    (least : Minimum (blockBest stats accountId clientIp block)
      (qualities accountId clientIp block done))
    (kept : ∀ call ∈ calls, (ofRow call.2).OfPair accountId clientIp →
      cutoffHeight (ofRow call.2).height < block) :
    Minimum (blockBest (replay calls stats) accountId clientIp block)
      (qualities accountId clientIp block ((calls.map (ofRow ·.2)).reverse ++ done)) := by
  induction calls generalizing stats done with
  | nil => exact least
  | cons call rest ih =>
    have here := @minimum_record stats call.1 _ _ _ _ _ least (kept call List.mem_cons_self)
    have behind := ih here fun later listed => kept later (List.mem_cons_of_mem _ listed)
    rw [List.map_cons, List.reverse_cons, List.append_assoc, List.singleton_append]
    exact behind

theorem blockBest_replay_from (calls : List (DateTime × Submission)) {quality : UInt64}
    (held : blockBest (replay calls stats) accountId clientIp block = some quality) :
    (∃ call ∈ calls, (ofRow call.2).IsFor accountId clientIp block ∧
        (ofRow call.2).rawQuality = quality) ∨
      blockBest stats accountId clientIp block = some quality := by
  induction calls generalizing stats with
  | nil => exact .inr held
  | cons call rest ih =>
    rcases ih held with ⟨later, listed, found⟩ | before
    · exact .inl ⟨later, List.mem_cons_of_mem _ listed, found⟩
    · rcases blockBest_record_from before with here | earlier
      · exact .inl ⟨call, List.mem_cons_self, here⟩
      · exact .inr earlier

end statistics

section runs

variable {nearest : Nat → Nat} {retentionBlocks : UInt64} {accountId clientIp : String}
  {block : UInt64}

/-- A submission is only written where it was accepted. -/
def Issued (accepted : List Accepted) : DbCommand → Prop
  | .saveSubmission accountId machineId rawQuality height =>
    ∃ submission ∈ accepted,
      submission.save = .saveSubmission accountId machineId rawQuality height
  | .cleanup .. => True

theorem Issued.more {accepted : List Accepted} {command : DbCommand}
    (issued : Issued accepted command) (submission : Accepted) :
    Issued (submission :: accepted) command := by
  cases command with
  | saveSubmission accountId machineId rawQuality height =>
    obtain ⟨other, listed, same⟩ := issued
    exact ⟨other, List.mem_cons_of_mem _ listed, same⟩
  | cleanup currentHeight retentionBlocks => trivial

/-- The row of a submission. -/
def Accepted.key (submission : Accepted) (nearest : Nat → Nat) : RowKey :=
  ⟨submission.accountId, submission.clientIp, literal nearest submission.height⟩

/-- Whatever the server knows of a pair has been accepted. -/
structure Grounded (nearest : Nat → Nat) (accountId clientIp : String) (state : State) : Prop where
  narrow : ∀ submission ∈ state.accepted, submission.OfPair accountId clientIp → submission.Narrow
  saving : ∀ submission ∈ state.saving, submission ∈ state.accepted
  commands : ∀ command ∈ state.commands, Issued state.accepted command
  log : ∀ entry ∈ state.database.log, Issued state.accepted entry.2
  table : ∀ key, Database.Keeps (liveSaves nearest key state.database.log)
    (state.database.table.lookup key)

/-- A row of the pair is read as a submission that was accepted and written at its time. -/
theorem Grounded.row {state : State} (grounded : Grounded nearest accountId clientIp state)
    {key : RowKey} {row : Record} (stored : state.database.table.lookup key = some row)
    (ofPair : (ofRow (Database.submissionOf key row)).OfPair accountId clientIp) :
    ofRow (Database.submissionOf key row) ∈ state.accepted ∧
      (row.timestamp, (ofRow (Database.submissionOf key row)).save) ∈ state.database.log ∧
      key = (ofRow (Database.submissionOf key row)).key nearest ∧
      row.rawQuality =
        literal nearest (ofRow (Database.submissionOf key row)).rawQuality := by
  have best := grounded.table key
  rw [stored] at best
  obtain ⟨account, machine, rawQuality, height, listed, rfl, quality⟩ :=
    Database.mem_liveSaves (Database.Best.mem best)
  obtain ⟨submission, accepted, same⟩ := grounded.log _ listed
  cases same
  have narrow := grounded.narrow submission accepted ofPair
  have read : ofRow (Database.submissionOf
      ⟨submission.accountId, submission.clientIp, literal nearest submission.height⟩ row) =
        submission := by
    simp only [ofRow, Database.submissionOf, quality, Database.readI64_literal narrow.1,
      Database.readI64_literal narrow.2]
  have stays : ofRow (Database.submissionOf ⟨submission.accountId,
      Stats.machineName (some submission.clientIp), literal nearest submission.height⟩ row) =
        submission := read
  rw [stays]
  exact ⟨accepted, listed, rfl, quality⟩

theorem Grounded.step {before after : State} {label : Label}
    (grounded : Grounded nearest accountId clientIp before)
    (fits : Fits accountId clientIp before label)
    (taken : AggregatorServer.step nearest retentionBlocks before label = some after) :
    Grounded nearest accountId clientIp after := by
  obtain ⟨narrow, saving, commands, log, table⟩ := grounded
  cases label with
  | record now submission =>
    cases taken
    refine ⟨?_, ?_, fun command listed => (commands command listed).more submission,
      fun entry listed => (log entry listed).more submission, table⟩
    · intro other listed ofPair
      rcases List.mem_cons.mp listed with rfl | earlier
      · exact fits ofPair
      · exact narrow other earlier ofPair
    · intro other listed
      rcases List.mem_cons.mp listed with rfl | earlier
      · exact List.mem_cons_self
      · exact List.mem_cons_of_mem _ (saving other earlier)
  | save submission =>
    simp only [AggregatorServer.step, Option.ite_none_right_eq_some] at taken
    obtain ⟨pending, taken⟩ := taken
    cases taken
    refine ⟨narrow, fun other listed => saving other (List.mem_of_mem_erase listed), ?_, log, table⟩
    intro command listed
    rcases List.mem_append.mp listed with earlier | own
    · exact commands command earlier
    · rw [List.mem_singleton.mp own]
      exact ⟨submission, saving submission pending, rfl⟩
  | getMiningInfo height oldHeight baseTarget =>
    cases taken
    refine ⟨narrow, saving, ?_, log, table⟩
    intro command listed
    dsimp only at listed
    by_cases cleans : height ≠ oldHeight ∧ retentionBlocks > 0
    · rw [if_pos cleans] at listed
      rcases List.mem_append.mp listed with earlier | own
      · exact commands command earlier
      · rw [List.mem_singleton.mp own]
        trivial
    · rw [if_neg cleans] at listed
      exact commands command listed
  | write now =>
    cases queued : before.commands with
    | nil => simp [AggregatorServer.step, queued] at taken
    | cons command rest =>
      simp only [AggregatorServer.step, queued, Option.some.injEq] at taken
      cases taken
      rw [queued] at commands
      refine ⟨narrow, saving, fun other listed => commands other (List.mem_cons_of_mem _ listed),
        ?_, Database.step_keeps before.database (.executed now command) table⟩
      intro entry listed
      rcases List.mem_cons.mp listed with rfl | earlier
      · exact commands command List.mem_cons_self
      · exact log entry earlier
  | fail =>
    cases queued : before.commands with
    | nil => simp [AggregatorServer.step, queued] at taken
    | cons command rest =>
      simp only [AggregatorServer.step, queued, Option.some.injEq] at taken
      cases taken
      rw [queued] at commands
      exact ⟨narrow, saving, fun other listed => commands other (List.mem_cons_of_mem _ listed),
        log, table⟩
  | restart loaded =>
    cases loaded with
    | none =>
      cases taken
      exact ⟨narrow, by simp, by simp, log, table⟩
    | some found =>
      simp only [AggregatorServer.step, Option.ite_none_right_eq_some] at taken
      obtain ⟨-, taken⟩ := taken
      cases taken
      exact ⟨narrow, by simp, by simp, log, table⟩

theorem grounded_initialState : Grounded nearest accountId clientIp initialState :=
  ⟨by simp [initialState], by simp [initialState], by simp [initialState], by simp [initialState],
    fun _ => rfl⟩

/-- The calls of a replay are for accepted submissions. -/
theorem Grounded.replayed {state : State} (grounded : Grounded nearest accountId clientIp state)
    {cutoff : DateTime} {calls : List (DateTime × Submission)}
    (recent : RecentSubmissions state.database.table cutoff (calls.map (·.2)))
    {call : DateTime × Submission} (listed : call ∈ calls)
    (ofPair : (ofRow call.2).OfPair accountId clientIp) : ofRow call.2 ∈ state.accepted := by
  obtain ⟨key, row, stored, -, same⟩ :=
    (recent.mem_iff call.2).mp (List.mem_map_of_mem listed)
  rw [← same] at ofPair ⊢
  exact (grounded.row stored ofPair).1

/-- The statistics hold what was accepted. -/
structure Sound (nearest : Nat → Nat) (accountId clientIp : String) (state : State) : Prop
    extends Grounded nearest accountId clientIp state where
  held : ∀ block quality, blockBest state.stats accountId clientIp block = some quality →
    qualities accountId clientIp block state.accepted quality

theorem Sound.step {before after : State} {label : Label}
    (sound : Sound nearest accountId clientIp before)
    (fits : Fits accountId clientIp before label)
    (taken : AggregatorServer.step nearest retentionBlocks before label = some after) :
    Sound nearest accountId clientIp after := by
  obtain ⟨grounded, held⟩ := sound
  refine ⟨grounded.step fits taken, ?_⟩
  intro block quality present
  cases label with
  | record now submission =>
    cases taken
    rcases blockBest_record_from present with ⟨isFor, same⟩ | earlier
    · exact ⟨submission, List.mem_cons_self, isFor, same⟩
    · obtain ⟨other, listed, found⟩ := held block quality earlier
      exact ⟨other, List.mem_cons_of_mem _ listed, found⟩
  | save submission =>
    simp only [AggregatorServer.step, Option.ite_none_right_eq_some] at taken
    obtain ⟨-, taken⟩ := taken
    cases taken
    exact held block quality present
  | getMiningInfo height oldHeight baseTarget =>
    cases taken
    exact held block quality present
  | write now =>
    cases queued : before.commands with
    | nil => simp [AggregatorServer.step, queued] at taken
    | cons command rest =>
      simp only [AggregatorServer.step, queued, Option.some.injEq] at taken
      cases taken
      exact held block quality present
  | fail =>
    cases queued : before.commands with
    | nil => simp [AggregatorServer.step, queued] at taken
    | cons command rest =>
      simp only [AggregatorServer.step, queued, Option.some.injEq] at taken
      cases taken
      exact held block quality present
  | restart loaded =>
    cases loaded with
    | none =>
      cases taken
      cases present
    | some found =>
      obtain ⟨cutoff, calls⟩ := found
      simp only [AggregatorServer.step, Option.ite_none_right_eq_some] at taken
      obtain ⟨recent, taken⟩ := taken
      cases taken
      rcases blockBest_replay_from calls present with ⟨call, listed, isFor, same⟩ | empty
      · exact ⟨ofRow call.2, grounded.replayed recent listed isFor.1, isFor, same⟩
      · cases empty

/-- However the tasks, the writer and restarts of the server interleave, and whatever fails or is
lost: the statistics hold for a block of a pair only what the pool manager took of it. -/
theorem statistics_were_accepted (nearest : Nat → Nat) (retentionBlocks : UInt64)
    (accountId clientIp : String) (state : State)
    (reached : Reachable (system nearest retentionBlocks) (Fits accountId clientIp) state)
    (block quality : UInt64)
    (held : blockBest state.stats accountId clientIp block = some quality) :
    qualities accountId clientIp block state.accepted quality := by
  have sound : Sound nearest accountId clientIp state := by
    apply reached.invariant
    · rintro _ rfl
      exact ⟨grounded_initialState, by simp [initialState, blockBest, Stats.initialState]⟩
    · intro before label after sound fits taken
      exact sound.step fits taken
  exact sound.held block quality held

/-- A submission of a miner for block 10. -/
def submissionOf (rawQuality : UInt64) : Accepted := ⟨"account", "10.0.0.1", rawQuality, 10⟩

/-- A first submission is written, and the server is started again with its row. -/
def someLabels : List Label :=
  [.record 1 (submissionOf 4), .save (submissionOf 4), .write 2,
    .restart (some (0, [(3, ⟨"account", "10.0.0.1", 10, 4, 2⟩)]))]

theorem statistics_were_accepted_restarted :
    ∃ state : State, blockBest state.stats "account" "10.0.0.1" 10 = some 4 ∧
      qualities "account" "10.0.0.1" 10 state.accepted 4 := by
  obtain ⟨state, complete, held⟩ : ∃ state,
      Transition.run (system id 0) initialState someLabels = some state ∧
        blockBest state.stats "account" "10.0.0.1" 10 = some 4 := ⟨_, rfl, rfl⟩
  have fits : ∀ label ∈ someLabels, ∀ state, Fits "account" "10.0.0.1" state label := by
    simp [someLabels, Fits, Accepted.Narrow, submissionOf]
  exact ⟨state, held, statistics_were_accepted id 0 "account" "10.0.0.1" state
    (Reachable.admitted someLabels fits (.start rfl) complete) 10 4 held⟩

/-- A submission is among those for its row since that was last deleted. -/
def Live (nearest : Nat → Nat) (log : List (DateTime × DbCommand)) (submission : Accepted) : Prop :=
  ∃ now, ⟨literal nearest submission.rawQuality, now⟩ ∈
    liveSaves nearest (submission.key nearest) log

theorem Live.written (log : List (DateTime × DbCommand)) (now : DateTime) (submission : Accepted) :
    Live nearest ((now, submission.save) :: log) submission := by
  refine ⟨now, ?_⟩
  rw [Accepted.save, liveSaves, if_pos]
  · exact List.mem_cons_self
  · rfl

theorem Live.later {log : List (DateTime × DbCommand)} {submission : Accepted}
    (live : Live nearest log submission) (now : DateTime) (command : DbCommand)
    (kept : ∀ currentHeight retentionBlocks, command = .cleanup currentHeight retentionBlocks →
      retentionBlocks = 0 ∨
        deletes currentHeight retentionBlocks (literal nearest submission.height) = false) :
    Live nearest ((now, command) :: log) submission := by
  obtain ⟨time, listed⟩ := live
  refine ⟨time, ?_⟩
  cases command with
  | saveSubmission accountId machineId rawQuality height =>
    rw [liveSaves]
    by_cases own : submission.key nearest =
        ⟨accountId, Stats.machineName machineId, literal nearest height⟩
    · rw [if_pos own]
      exact List.mem_cons_of_mem _ listed
    · rw [if_neg own]
      exact listed
  | cleanup currentHeight retentionBlocks =>
    rw [liveSaves, if_neg]
    · exact listed
    · rintro ⟨cleans, deleted⟩
      rcases kept currentHeight retentionBlocks rfl with never | stays
      · exact cleans never
      · have above : deletes currentHeight retentionBlocks (submission.key nearest).height = false :=
          stays
        rw [above] at deleted
        cases deleted

/-- A block that is kept: the statistics hold the best of all that were ever accepted for it. -/
structure Kept (nearest : Nat → Nat) (accountId clientIp : String) (block : UInt64)
    (state : State) : Prop extends Grounded nearest accountId clientIp state where
  recent : ∀ submission ∈ state.accepted, submission.OfPair accountId clientIp →
    cutoffHeight submission.height < block
  written : ∀ submission ∈ state.accepted, submission.IsFor accountId clientIp block →
    submission ∈ state.saving ∨ submission.save ∈ state.commands ∨
      Live nearest state.database.log submission
  least : Minimum (blockBest state.stats accountId clientIp block)
    (qualities accountId clientIp block state.accepted)

/-- What is live of a kept block is in a row that is no worse and was written at some time of the
log. -/
theorem Grounded.row_of_live {state : State} (grounded : Grounded nearest accountId clientIp state)
    {submission : Accepted} (isFor : submission.IsFor accountId clientIp block)
    (accepted : submission ∈ state.accepted)
    (live : Live nearest state.database.log submission) :
    ∃ key row, state.database.table.lookup key = some row ∧
      (ofRow (Database.submissionOf key row)).IsFor accountId clientIp block ∧
      (ofRow (Database.submissionOf key row)).rawQuality ≤ submission.rawQuality := by
  obtain ⟨now, listed⟩ := live
  have best := grounded.table (submission.key nearest)
  cases stored : state.database.table.lookup (submission.key nearest) with
  | none =>
    rw [stored] at best
    have empty : liveSaves nearest (submission.key nearest) state.database.log = [] := best
    rw [empty] at listed
    cases listed
  | some row =>
    rw [stored] at best
    have below := Database.Best.le best listed
    have narrow := grounded.narrow submission accepted isFor.1
    have height : (ofRow (Database.submissionOf (submission.key nearest) row)).height =
        submission.height := Database.readI64_literal narrow.2
    have ofPair : (ofRow (Database.submissionOf (submission.key nearest) row)).OfPair
        accountId clientIp := isFor.1
    obtain ⟨known, -, -, quality⟩ := grounded.row stored ofPair
    refine ⟨_, row, stored, ⟨ofPair, height.trans isFor.2⟩, ?_⟩
    have small := (grounded.narrow _ known ofPair).1
    rw [quality, literal, if_pos small, literal, if_pos narrow.1] at below
    exact UInt64.le_iff_toNat_le.mpr below

theorem Keeps.fits {state : State} {label : Label}
    (keeps : Keeps accountId clientIp block state label) : Fits accountId clientIp state label := by
  cases label with
  | record now submission => exact fun ofPair => (keeps ofPair).1
  | _ => trivial

namespace Kept

variable {before after : State}

theorem record (kept : Kept nearest accountId clientIp block before) {now : DateTime}
    {submission : Accepted} (keeps : Keeps accountId clientIp block before (.record now submission))
    (taken : step nearest retentionBlocks before (.record now submission) = some after) :
    Kept nearest accountId clientIp block after := by
  have grounded := kept.toGrounded.step (Keeps.fits keeps) taken
  cases taken
  refine ⟨grounded, ?_, ?_, minimum_record kept.least fun ofPair => (keeps ofPair).2⟩
  · intro other listed ofPair
    rcases List.mem_cons.mp listed with rfl | earlier
    · exact (keeps ofPair).2
    · exact kept.recent other earlier ofPair
  · intro other listed isFor
    rcases List.mem_cons.mp listed with rfl | earlier
    · exact .inl List.mem_cons_self
    · rcases kept.written other earlier isFor with waits | queued
      · exact .inl (List.mem_cons_of_mem _ waits)
      · exact .inr queued

theorem save (kept : Kept nearest accountId clientIp block before) {submission : Accepted}
    (taken : step nearest retentionBlocks before (.save submission) = some after) :
    Kept nearest accountId clientIp block after := by
  have fits : Fits accountId clientIp before (.save submission) := trivial
  have grounded := kept.toGrounded.step fits taken
  simp only [AggregatorServer.step, Option.ite_none_right_eq_some] at taken
  obtain ⟨-, taken⟩ := taken
  cases taken
  refine ⟨grounded, kept.recent, ?_, kept.least⟩
  intro other listed isFor
  rcases kept.written other listed isFor with waits | queued | live
  · by_cases own : other = submission
    · subst own
      exact .inr (.inl (List.mem_append_right _ (List.mem_singleton_self _)))
    · exact .inl ((List.mem_erase_of_ne own).mpr waits)
  · exact .inr (.inl (List.mem_append_left _ queued))
  · exact .inr (.inr live)

theorem getMiningInfo (kept : Kept nearest accountId clientIp block before)
    {height oldHeight baseTarget : UInt64}
    (taken : step nearest retentionBlocks before (.getMiningInfo height oldHeight baseTarget) =
      some after) :
    Kept nearest accountId clientIp block after := by
  have fits : Fits accountId clientIp before (.getMiningInfo height oldHeight baseTarget) := trivial
  have grounded := kept.toGrounded.step fits taken
  cases taken
  refine ⟨grounded, kept.recent, ?_, kept.least⟩
  intro other listed isFor
  rcases kept.written other listed isFor with waits | queued | live
  · exact .inl waits
  · refine .inr (.inl ?_)
    dsimp only
    by_cases cleans : height ≠ oldHeight ∧ retentionBlocks > 0
    · rw [if_pos cleans]
      exact List.mem_append_left _ queued
    · rw [if_neg cleans]
      exact queued
  · exact .inr (.inr live)

theorem write (kept : Kept nearest accountId clientIp block before) {now : DateTime}
    (keeps : Keeps accountId clientIp block before (.write now))
    (taken : step nearest retentionBlocks before (.write now) = some after) :
    Kept nearest accountId clientIp block after := by
  have grounded := kept.toGrounded.step (Keeps.fits keeps) taken
  cases waiting : before.commands with
  | nil => simp [AggregatorServer.step, waiting] at taken
  | cons command rest =>
    simp only [AggregatorServer.step, waiting, Option.some.injEq] at taken
    cases taken
    refine ⟨grounded, kept.recent, ?_, kept.least⟩
    intro other listed isFor
    rcases kept.written other listed isFor with waits | queued | live
    · exact .inl waits
    · rw [waiting] at queued
      rcases List.mem_cons.mp queued with rfl | behind
      · exact .inr (.inr (Live.written _ now other))
      · exact .inr (.inl behind)
    · refine .inr (.inr (live.later now command ?_))
      rintro currentHeight retentionBlocks rfl
      have narrow := (kept.narrow other listed isFor.1).2
      have spares := keeps currentHeight retentionBlocks (by rw [waiting, List.head?_cons])
      rw [literal, if_pos narrow, isFor.2]
      exact spares

theorem fail (kept : Kept nearest accountId clientIp block before)
    (keeps : Keeps accountId clientIp block before .fail)
    (taken : step nearest retentionBlocks before .fail = some after) :
    Kept nearest accountId clientIp block after := by
  have grounded := kept.toGrounded.step (Keeps.fits keeps) taken
  cases waiting : before.commands with
  | nil => simp [AggregatorServer.step, waiting] at taken
  | cons command rest =>
    simp only [AggregatorServer.step, waiting, Option.some.injEq] at taken
    cases taken
    refine ⟨grounded, kept.recent, ?_, kept.least⟩
    intro other listed isFor
    rcases kept.written other listed isFor with waits | queued | live
    · exact .inl waits
    · rw [waiting] at queued
      rcases List.mem_cons.mp queued with same | behind
      · refine absurd ?_ (keeps other isFor)
        rw [waiting, List.head?_cons, same]
      · exact .inr (.inl behind)
    · exact .inr (.inr live)

theorem restart (kept : Kept nearest accountId clientIp block before) {cutoff : DateTime}
    {calls : List (DateTime × Submission)}
    (keeps : Keeps accountId clientIp block before (.restart (some (cutoff, calls))))
    (taken : step nearest retentionBlocks before (.restart (some (cutoff, calls))) = some after) :
    Kept nearest accountId clientIp block after := by
  have grounded := kept.toGrounded.step (Keeps.fits keeps) taken
  simp only [AggregatorServer.step, Option.ite_none_right_eq_some] at taken
  obtain ⟨recent, taken⟩ := taken
  cases taken
  have live (other : Accepted) (listed : other ∈ before.accepted)
      (isFor : other.IsFor accountId clientIp block) :
      Live nearest before.database.log other := by
    obtain ⟨idle, sent, -⟩ := keeps other isFor
    rcases kept.written other listed isFor with waits | queued | live
    · exact absurd waits idle
    · exact absurd queued sent
    · exact live
  refine ⟨grounded, kept.recent,
    fun other listed isFor => .inr (.inr (live other listed isFor)), ?_⟩
  have empty : Minimum (blockBest Stats.initialState.inner accountId clientIp block)
      (qualities accountId clientIp block []) := by
    rintro quality ⟨other, listed, -⟩
    cases listed
  have replayed := minimum_replay calls empty fun call listed ofPair =>
    kept.recent _ (kept.replayed recent listed ofPair) ofPair
  rw [List.append_nil] at replayed
  apply minimum_of_coinitial replayed
  · rintro quality ⟨other, listed, isFor, same⟩
    obtain ⟨call, found, rfl⟩ := List.mem_map.mp (List.mem_reverse.mp listed)
    exact ⟨_, kept.replayed recent found isFor.1, isFor, same⟩
  · rintro quality ⟨other, listed, isFor, rfl⟩
    obtain ⟨key, row, stored, rowFor, below⟩ :=
      kept.row_of_live isFor listed (live other listed isFor)
    obtain ⟨-, logged, -⟩ := kept.row stored rowFor.1
    have young : cutoff < row.timestamp := (keeps _ rowFor).2.2 row.timestamp logged
    have loaded := (recent.mem_iff _).mpr ⟨key, row, stored, young, rfl⟩
    obtain ⟨call, called, same⟩ := List.mem_map.mp loaded
    refine ⟨_, ⟨ofRow (Database.submissionOf key row), ?_, rowFor, rfl⟩, below⟩
    apply List.mem_reverse.mpr
    apply List.mem_map.mpr
    exact ⟨call, called, congrArg ofRow same⟩

theorem step (kept : Kept nearest accountId clientIp block before) {label : Label}
    (keeps : Keeps accountId clientIp block before label)
    (taken : AggregatorServer.step nearest retentionBlocks before label = some after) :
    Kept nearest accountId clientIp block after := by
  cases label with
  | record now submission => exact kept.record keeps taken
  | save submission => exact kept.save taken
  | getMiningInfo height oldHeight baseTarget => exact kept.getMiningInfo taken
  | write now => exact kept.write keeps taken
  | fail => exact kept.fail keeps taken
  | restart loaded =>
    cases loaded with
    | none => exact keeps.elim
    | some found => exact kept.restart keeps taken

end Kept

end runs

end Pocx.AggregatorServer
