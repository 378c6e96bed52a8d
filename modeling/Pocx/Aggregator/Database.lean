import Pocx.Aggregator.Stats
import Pocx.Lib.KeyedMap

set_option autoImplicit false

namespace Pocx.Database

open KeyedMap (Map filterKeys)
open Stats (DateTime machineName saturatingSub)
open Transition (System Reachable always)

/-- The columns of `UNIQUE(account_id, machine_id, height)`. -/
structure RowKey where
  accountId : String
  machineId : String
  height : Nat
deriving DecidableEq

/-- The other columns of a row. -/
structure Record where
  rawQuality : Nat
  timestamp : DateTime

/-- The table `submissions`. -/
abbrev Table : Type := Map RowKey Record

inductive DbCommand
  | saveSubmission (accountId : String) (machineId : Option String) (rawQuality height : UInt64)
  | cleanup (currentHeight retentionBlocks : UInt64)

/-- A cast `as i64`. -/
def asI64 (value : UInt64) : Int := value.toBitVec.toInt

section commands

variable (nearest : Nat → Nat)

/-- An integer in the text of a statement. SQLite takes one of more than 63 bits for the
`nearest` floating-point number. -/
def literal (value : UInt64) : Nat :=
  if value.toNat < 2 ^ 63 then value.toNat else nearest value.toNat

/-- `do_save_submission`: the row of the key is made, or updated where it is improved on. -/
def doSaveSubmission (now : DateTime) (accountId : String) (machineId : Option String)
    (rawQuality height : UInt64) (table : Table) : Table :=
  let key := ⟨accountId, machineName machineId, literal nearest height⟩
  let excluded := literal nearest rawQuality
  match table.lookup key with
  | none => table.insert key ⟨excluded, now⟩
  | some row =>
    table.insert key
      { rawQuality := if excluded < row.rawQuality then excluded else row.rawQuality
        timestamp := if excluded < row.rawQuality then now else row.timestamp }

/-- The filter of `do_cleanup`. -/
def deletes (currentHeight retentionBlocks : UInt64) (height : Nat) : Bool :=
  decide ((height : Int) < asI64 (saturatingSub currentHeight retentionBlocks))

/-- `do_cleanup`, for what it deletes. -/
def doCleanup (currentHeight retentionBlocks : UInt64) (table : Table) : Table :=
  if retentionBlocks = 0 then table
  else filterKeys (fun key => !deletes currentHeight retentionBlocks key.height) table

def execute (now : DateTime) (table : Table) : DbCommand → Table
  | .saveSubmission accountId machineId rawQuality height =>
    doSaveSubmission nearest now accountId machineId rawQuality height table
  | .cleanup currentHeight retentionBlocks => doCleanup currentHeight retentionBlocks table

/-- The table, and the commands executed so far, the newest first. -/
structure State where
  table : Table
  log : List (DateTime × DbCommand)

/-- What becomes of the next command of the channel: it is executed, or it fails, which is only
reported. -/
inductive Event
  | executed (now : DateTime) (command : DbCommand)
  | failed (command : DbCommand)

/-- `writer_task` -/
def State.step (state : State) : Event → State
  | .executed now command =>
    { table := execute nearest now state.table command
      log := (now, command) :: state.log }
  | .failed _ => state

def system : System State Event where
  initial := fun state => state = ⟨∅, []⟩
  step := fun state event => some (state.step nearest event)

/-- The submissions for a row since it was last deleted, the newest first. -/
def liveSaves (key : RowKey) : List (DateTime × DbCommand) → List Record
  | [] => []
  | (now, .saveSubmission accountId machineId rawQuality height) :: older =>
    if key = ⟨accountId, machineName machineId, literal nearest height⟩ then
      ⟨literal nearest rawQuality, now⟩ :: liveSaves key older
    else liveSaves key older
  | (_, .cleanup currentHeight retentionBlocks) :: older =>
    if retentionBlocks ≠ 0 ∧ deletes currentHeight retentionBlocks key.height = true then []
    else liveSaves key older

end commands

/-- The best of some submissions, and of equals the oldest. -/
def Best (saves : List Record) (row : Record) : Prop :=
  ∃ newer older, saves = newer ++ row :: older ∧
    (∀ save ∈ newer, row.rawQuality ≤ save.rawQuality) ∧
    ∀ save ∈ older, row.rawQuality < save.rawQuality

/-- A row is the best of its submissions. -/
def Keeps (saves : List Record) : Option Record → Prop
  | none => saves = []
  | some row => Best saves row

theorem Best.mem {saves : List Record} {row : Record} (best : Best saves row) : row ∈ saves := by
  obtain ⟨newer, older, rfl, -, -⟩ := best
  exact List.mem_append_right _ List.mem_cons_self

theorem Best.le {saves : List Record} {row save : Record} (best : Best saves row)
    (listed : save ∈ saves) : row.rawQuality ≤ save.rawQuality := by
  obtain ⟨newer, older, rfl, newest, oldest⟩ := best
  rcases List.mem_append.mp listed with inNewer | rest
  · exact newest save inNewer
  · rcases List.mem_cons.mp rest with rfl | inOlder
    · exact Nat.le_refl _
    · exact Nat.le_of_lt (oldest save inOlder)

theorem Best.single (save : Record) : Best [save] save :=
  ⟨[], [], rfl, nofun, nofun⟩

/-- A better submission replaces the best. -/
theorem Best.improve {saves : List Record} {row save : Record} (best : Best saves row)
    (better : save.rawQuality < row.rawQuality) : Best (save :: saves) save := by
  obtain ⟨newer, older, rfl, newest, oldest⟩ := best
  refine ⟨[], newer ++ row :: older, rfl, nofun, ?_⟩
  intro other listed
  rcases List.mem_append.mp listed with inNewer | rest
  · exact Nat.lt_of_lt_of_le better (newest other inNewer)
  · rcases List.mem_cons.mp rest with rfl | inOlder
    · exact better
    · exact Nat.lt_trans better (oldest other inOlder)

theorem Best.keep {saves : List Record} {row save : Record} (best : Best saves row)
    (noBetter : ¬ save.rawQuality < row.rawQuality) : Best (save :: saves) row := by
  obtain ⟨newer, older, rfl, newest, oldest⟩ := best
  refine ⟨save :: newer, older, rfl, ?_, oldest⟩
  intro other listed
  rcases List.mem_cons.mp listed with rfl | inNewer
  · exact Nat.le_of_not_lt noBetter
  · exact newest other inNewer

section runs

variable {nearest : Nat → Nat}

theorem doSaveSubmission_keeps {table : Table} {saves : RowKey → List Record}
    (keeps : ∀ key, Keeps (saves key) (table.lookup key)) (now : DateTime) (accountId : String)
    (machineId : Option String) (rawQuality height : UInt64) (key : RowKey) :
    Keeps
      (if key = ⟨accountId, machineName machineId, literal nearest height⟩ then
        ⟨literal nearest rawQuality, now⟩ :: saves key
      else saves key)
      ((doSaveSubmission nearest now accountId machineId rawQuality height table).lookup key) := by
  have before := keeps ⟨accountId, machineName machineId, literal nearest height⟩
  simp only [doSaveSubmission]
  generalize (⟨accountId, machineName machineId, literal nearest height⟩ : RowKey) = own at before ⊢
  cases found : table.lookup own with
  | none =>
    rw [found] at before
    simp only [KeyedMap.lookup_insert]
    by_cases here : key = own
    · subst here
      have first : saves key = [] := before
      simp only [↓reduceIte, first]
      exact Best.single _
    · simp only [here, ↓reduceIte]
      exact keeps key
  | some row =>
    rw [found] at before
    have best : Best (saves own) row := before
    simp only [KeyedMap.lookup_insert]
    by_cases here : key = own
    · subst here
      simp only [↓reduceIte]
      by_cases better : literal nearest rawQuality < row.rawQuality
      · simp only [better, ↓reduceIte]
        exact best.improve better
      · simp only [better, ↓reduceIte]
        exact best.keep better
    · simp only [here, ↓reduceIte]
      exact keeps key

theorem doCleanup_keeps {table : Table} {saves : RowKey → List Record}
    (keeps : ∀ key, Keeps (saves key) (table.lookup key)) (currentHeight retentionBlocks : UInt64)
    (key : RowKey) :
    Keeps
      (if retentionBlocks ≠ 0 ∧ deletes currentHeight retentionBlocks key.height = true then []
      else saves key)
      ((doCleanup currentHeight retentionBlocks table).lookup key) := by
  unfold doCleanup
  by_cases forever : retentionBlocks = 0
  · simp only [forever, ne_eq, not_true_eq_false, false_and, ↓reduceIte]
    exact keeps key
  · simp only [forever, ne_eq, not_false_eq_true, true_and, ↓reduceIte, KeyedMap.lookup_filterKeys]
    cases deleted : deletes currentHeight retentionBlocks key.height with
    | true => exact rfl
    | false => exact keeps key

theorem step_keeps (before : State) (event : Event)
    (keeps : ∀ key, Keeps (liveSaves nearest key before.log) (before.table.lookup key))
    (key : RowKey) :
    Keeps (liveSaves nearest key (before.step nearest event).log)
      ((before.step nearest event).table.lookup key) := by
  cases event with
  | failed command => exact keeps key
  | executed now command =>
    cases command with
    | saveSubmission accountId machineId rawQuality height =>
      exact doSaveSubmission_keeps keeps now accountId machineId rawQuality height key
    | cleanup currentHeight retentionBlocks =>
      exact doCleanup_keeps keeps currentHeight retentionBlocks key

/-- A submission for a row was executed. -/
def Executed (nearest : Nat → Nat) (key : RowKey) (log : List (DateTime × DbCommand))
    (save : Record) : Prop :=
  ∃ accountId machineId rawQuality height,
    (save.timestamp, DbCommand.saveSubmission accountId machineId rawQuality height) ∈ log ∧
      key = ⟨accountId, machineName machineId, literal nearest height⟩ ∧
      save.rawQuality = literal nearest rawQuality

theorem mem_liveSaves {key : RowKey} {log : List (DateTime × DbCommand)} {save : Record}
    (live : save ∈ liveSaves nearest key log) : Executed nearest key log save := by
  induction log with
  | nil => cases live
  | cons entry older ih =>
    have earlier : save ∈ liveSaves nearest key older →
        Executed nearest key (entry :: older) save := by
      intro found
      obtain ⟨accountId, machineId, rawQuality, height, listed, own⟩ := ih found
      exact ⟨accountId, machineId, rawQuality, height, List.mem_cons_of_mem _ listed, own⟩
    obtain ⟨now, command⟩ := entry
    cases command with
    | saveSubmission accountId machineId rawQuality height =>
      rw [liveSaves] at live
      by_cases own : key = ⟨accountId, machineName machineId, literal nearest height⟩
      · rw [if_pos own] at live
        rcases List.mem_cons.mp live with rfl | found
        · exact ⟨accountId, machineId, rawQuality, height, List.mem_cons_self, own, rfl⟩
        · exact earlier found
      · rw [if_neg own] at live
        exact earlier live
    | cleanup currentHeight retentionBlocks =>
      rw [liveSaves] at live
      by_cases deleted : retentionBlocks ≠ 0 ∧
          deletes currentHeight retentionBlocks key.height = true
      · rw [if_pos deleted] at live
        cases live
      · rw [if_neg deleted] at live
        exact earlier live

/-- Whatever was saved and cleaned up, in whatever order, the row of an account, a machine and a
height is the best of its submissions since it was last deleted. -/
theorem table_keeps_best (nearest : Nat → Nat) (state : State)
    (reached : Reachable (system nearest) always state) (key : RowKey) :
    Keeps (liveSaves nearest key state.log) (state.table.lookup key) := by
  apply reached.invariant
    (fun state => ∀ key, Keeps (liveSaves nearest key state.log) (state.table.lookup key))
  · rintro _ rfl key
    exact rfl
  · rintro before event _ keeps - ⟨⟩
    exact step_keeps before event keeps

/-- Two submissions of a machine for a height, a cleanup that deletes the row, and two more. -/
def someEvents : List Event :=
  [.executed 1 (.saveSubmission "account" none 4 10), .executed 2 (.saveSubmission "account" none 3 10),
    .executed 3 (.cleanup 20 5), .executed 4 (.saveSubmission "account" none 6 10),
    .executed 5 (.saveSubmission "account" none 5 10), .failed (.cleanup 30 5)]

theorem table_keeps_best_some_events :
    ∃ state : State, state.table.lookup ⟨"account", "unknown", 10⟩ = some ⟨5, 5⟩ ∧
      Keeps (liveSaves id ⟨"account", "unknown", 10⟩ state.log) (some ⟨5, 5⟩) := by
  obtain ⟨state, complete, found⟩ : ∃ state : State,
      Transition.run (system id) ⟨∅, []⟩ someEvents = some state ∧
        state.table.lookup ⟨"account", "unknown", 10⟩ = some ⟨5, 5⟩ := ⟨_, rfl, rfl⟩
  refine ⟨state, found, ?_⟩
  rw [← found]
  exact table_keeps_best id state (Reachable.run someEvents (.start rfl) complete) _

end runs

section rows

/-- A row as it is read: a number above 63 bits is cut off. -/
structure Submission where
  accountId : String
  machineId : String
  height : Nat
  rawQuality : Nat
  timestamp : DateTime
deriving DecidableEq

/-- A column of type `BIGINT` read as an `i64`. -/
def readI64 (stored : Nat) : Nat := min stored (2 ^ 63 - 1)

def submissionOf (key : RowKey) (row : Record) : Submission where
  accountId := key.accountId
  machineId := key.machineId
  height := readI64 key.height
  rawQuality := readI64 row.rawQuality
  timestamp := row.timestamp

/-- `get_all_recent_submissions`. Rows of one time come in any order. -/
structure RecentSubmissions (table : Table) (cutoff : DateTime) (rows : List Submission) : Prop where
  perm : rows.Perm ((table.entries.filter fun entry => cutoff < entry.2.timestamp).map
    fun entry => submissionOf entry.1 entry.2)
  newestFirst : rows.Pairwise fun first second => second.timestamp ≤ first.timestamp

instance decidableRecentSubmissions (table : Table) (cutoff : DateTime) (rows : List Submission) :
    Decidable (RecentSubmissions table cutoff rows) :=
  decidable_of_iff
    (rows.Perm ((table.entries.filter fun entry => cutoff < entry.2.timestamp).map
        fun entry => submissionOf entry.1 entry.2) ∧
      rows.Pairwise fun first second => second.timestamp ≤ first.timestamp)
    ⟨fun parts => ⟨parts.1, parts.2⟩, fun recent => ⟨recent.perm, recent.newestFirst⟩⟩

/-- A row that is read is a recent one of the table. -/
theorem RecentSubmissions.mem_iff {table : Table} {cutoff : DateTime} {rows : List Submission}
    (recent : RecentSubmissions table cutoff rows) (submission : Submission) :
    submission ∈ rows ↔ ∃ key row, table.lookup key = some row ∧ cutoff < row.timestamp ∧
      submissionOf key row = submission := by
  rw [recent.perm.mem_iff, List.mem_map]
  constructor
  · rintro ⟨⟨key, row⟩, listed, same⟩
    obtain ⟨stored, young⟩ := List.mem_filter.mp listed
    exact ⟨key, row, AList.mem_lookup_iff.mpr stored, of_decide_eq_true young, same⟩
  · rintro ⟨key, row, stored, young, same⟩
    refine ⟨⟨key, row⟩, List.mem_filter.mpr ⟨AList.mem_lookup_iff.mp stored, ?_⟩, same⟩
    exact decide_eq_true young

/-- What is below 63 bits is read as it was written. -/
theorem readI64_literal {nearest : Nat → Nat} {value : UInt64} (narrow : value.toNat < 2 ^ 63) :
    UInt64.ofNat (readI64 (literal nearest value)) = value := by
  have fits : value.toNat ≤ 2 ^ 63 - 1 := Nat.le_pred_of_lt narrow
  rw [literal, if_pos narrow, readI64, Nat.min_eq_left fits, UInt64.ofNat_toNat]

end rows

end Pocx.Database
