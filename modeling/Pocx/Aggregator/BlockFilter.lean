import Mathlib.Logic.Function.Basic
import Pocx.Aggregator.TimeBending
import Pocx.Protocol.Types

set_option autoImplicit false

namespace Pocx.BlockFilter

open Panicking (Panic sliceTo sliceTo_ok_iff IsBoundary)
open Protocol (SubmitNonceParams SubmitNonceResult)
open TimeBending (calculateTimeBendedDeadline calculateTimeBendedDeadline_ok_iff)

/-- The levels of the log lines below. -/
inductive Level
  | info
  | debug

/-- `log::LevelFilter` -/
inductive LevelFilter
  | off
  | error
  | warn
  | info
  | debug
  | trace
deriving DecidableEq

def LevelFilter.enables : LevelFilter → Level → Bool
  | .info, .info => true
  | .debug, _ => true
  | .trace, _ => true
  | _, _ => false

/-- A log line, with the texts it slices and where. -/
structure LogLine where
  level : Level
  slices : List (String × Nat)

/-- The arguments of a line are evaluated where its level is enabled. -/
def LogLine.write (line : LogLine) (levels : LevelFilter) : Except Panic Unit :=
  if levels.enables line.level then line.slices.forM fun slice => discard (sliceTo slice.1 slice.2)
  else .ok ()

/-- The log lines of a filter. -/
structure LogLines where
  filtered : LogLine
  updated : LogLine
  evicted : String → LogLine
  added : LogLine

/-- The best qualities of the last blocks. -/
structure AccountFilter where
  blockHashes : List String
  bestQualities : String → Option UInt64

def AccountFilter.empty : AccountFilter := ⟨[], fun _ => none⟩

def maxBlocks : Nat := 3

section submit

variable (lines : LogLines) (levels : LevelFilter) (blockHash : String) (rawQuality : UInt64)
  (filter : AccountFilter)

/-- Evict the oldest block. -/
def AccountFilter.makeRoom : AccountFilter × Except Panic Unit :=
  if maxBlocks ≤ filter.blockHashes.length then
    match filter.blockHashes with
    | oldestHash :: blockHashes =>
      ({ blockHashes
         bestQualities := Function.update filter.bestQualities oldestHash none },
        (lines.evicted oldestHash).write levels)
    | [] => (filter, .ok ())
  else (filter, .ok ())

/-- The part of `submit` that the two queues have in common, up to the sending: the filter, and
whether the submission is to be sent. -/
def AccountFilter.submit : AccountFilter × Except Panic Bool :=
  match filter.bestQualities blockHash with
  | some bestQuality =>
    if bestQuality ≤ rawQuality then
      (filter, (lines.filtered.write levels).map fun _ => false)
    else
      ({ filter with
          bestQualities := Function.update filter.bestQualities blockHash (some rawQuality) },
        (lines.updated.write levels).map fun _ => true)
  | none =>
    match filter.makeRoom lines levels with
    | (filter, .error panic) => (filter, .error panic)
    | (filter, .ok ()) =>
      ({ blockHashes := filter.blockHashes ++ [blockHash]
         bestQualities := Function.update filter.bestQualities blockHash (some rawQuality) },
        (lines.added.write levels).map fun _ => true)

end submit

/-- The channel to the sending task, with what has been sent. -/
structure Channel where
  sent : List SubmitNonceParams
  alive : Bool

/-- `unbounded_send` -/
def Channel.unboundedSend (channel : Channel) (params : SubmitNonceParams) : Channel × Bool :=
  if channel.alive then ({ channel with sent := channel.sent ++ [params] }, true)
  else (channel, false)

/-- What both queues do with the outcome of the filter. -/
def Channel.forward (channel : Channel) (params : SubmitNonceParams) :
    Except Panic Bool → Channel × Except Panic Bool
  | .ok true => ((channel.unboundedSend params).1, .ok (channel.unboundedSend params).2)
  | .ok false => (channel, .ok false)
  | .error panic => (channel, .error panic)

structure SubmissionQueue where
  accountFilters : String → Option AccountFilter
  txSubmit : Channel

/-- `&account_id[..8.min(account_id.len())]` and the first eight bytes of a hash. -/
def accountAndHash (accountId hash : String) : List (String × Nat) :=
  [(accountId, min 8 accountId.utf8ByteSize), (hash, 8)]

def SubmissionQueue.lines (params : SubmitNonceParams) : LogLines where
  filtered := ⟨.debug, accountAndHash params.accountId params.blockHash⟩
  updated := ⟨.info, accountAndHash params.accountId params.blockHash⟩
  evicted := fun oldestHash => ⟨.debug, accountAndHash params.accountId oldestHash⟩
  added := ⟨.info, accountAndHash params.accountId params.blockHash⟩

def SubmissionQueue.submit (levels : LevelFilter) (params : SubmitNonceParams)
    (queue : SubmissionQueue) : SubmissionQueue × Except Panic Bool :=
  let accountFilter := (queue.accountFilters params.accountId).getD .empty
  let (accountFilter, outcome) := accountFilter.submit (SubmissionQueue.lines params) levels
    params.blockHash params.rawQuality
  let (txSubmit, outcome) := queue.txSubmit.forward params outcome
  ({ accountFilters := Function.update queue.accountFilters params.accountId (some accountFilter)
     txSubmit },
    outcome)

structure GlobalBestQueue where
  filter : AccountFilter
  txSubmit : Channel

/-- Two of the lines are missing here. -/
def GlobalBestQueue.lines (params : SubmitNonceParams) : LogLines where
  filtered := ⟨.debug, [(params.blockHash, 16)]⟩
  updated := ⟨.info, []⟩
  evicted := fun oldestHash => ⟨.debug, [(oldestHash, 16)]⟩
  added := ⟨.info, []⟩

def GlobalBestQueue.submit (levels : LevelFilter) (params : SubmitNonceParams)
    (queue : GlobalBestQueue) : GlobalBestQueue × Except Panic Bool :=
  let (filter, outcome) := queue.filter.submit (GlobalBestQueue.lines params) levels
    params.blockHash params.rawQuality
  let (txSubmit, outcome) := queue.txSubmit.forward params outcome
  ({ filter, txSubmit }, outcome)

inductive SubmissionHandler
  | pool (queue : SubmissionQueue)
  | wallet (queue : GlobalBestQueue)

def SubmissionHandler.submit (levels : LevelFilter) (params : SubmitNonceParams) :
    SubmissionHandler → SubmissionHandler × Except Panic Bool
  | .pool queue => ((queue.submit levels params).map .pool id)
  | .wallet queue => ((queue.submit levels params).map .wallet id)

structure PoolManager where
  submissionHandler : SubmissionHandler
  blockTimeSecs : UInt64

/-- `submit_nonce` -/
def PoolManager.submitNonce (levels : LevelFilter) (params : SubmitNonceParams)
    (manager : PoolManager) : PoolManager × Except Panic SubmitNonceResult :=
  let (submissionHandler, outcome) := manager.submissionHandler.submit levels params
  ({ manager with submissionHandler },
    do
      let _ ← outcome
      let pocTime ← calculateTimeBendedDeadline params.rawQuality params.baseTarget
        manager.blockTimeSecs
      return { rawQuality := params.rawQuality, pocTime })

/-- A line that is not written, or that slices its texts between characters. -/
def LogLine.Quiet (levels : LevelFilter) (line : LogLine) : Prop :=
  levels.enables line.level = true → ∀ slice ∈ line.slices, IsBoundary slice.1 slice.2

theorem slices_ok_iff (slices : List (String × Nat)) :
    (slices.forM fun slice => discard (sliceTo slice.1 slice.2)) = .ok () ↔
      ∀ slice ∈ slices, IsBoundary slice.1 slice.2 := by
  induction slices with
  | nil => exact ⟨fun _ => List.forall_mem_nil _, fun _ => rfl⟩
  | cons slice rest ih =>
    rw [List.forall_mem_cons, ← sliceTo_ok_iff, ← ih, List.forM_eq_forM, List.forM_cons]
    cases sliceTo slice.1 slice.2 with
    | error panic => simp [discard, Functor.discard, Functor.mapConst, Except.map, bind, Except.bind]
    | ok front => simp [discard, Functor.discard, Functor.mapConst, Except.map, bind, Except.bind]

theorem LogLine.write_ok_iff (levels : LevelFilter) (line : LogLine) :
    line.write levels = .ok () ↔ line.Quiet levels := by
  rw [LogLine.write, LogLine.Quiet]
  split
  · rename_i enabled
    rw [slices_ok_iff]
    exact ⟨fun quiet _ => quiet, fun quiet => quiet enabled⟩
  · rename_i disabled
    exact ⟨fun _ enabled => absurd enabled disabled, fun _ => rfl⟩

theorem LogLine.write_cases (levels : LevelFilter) (line : LogLine) :
    (line.Quiet levels ∧ line.write levels = .ok ()) ∨
      ¬ line.Quiet levels ∧ ∃ panic, line.write levels = .error panic := by
  rw [← LogLine.write_ok_iff]
  cases written : line.write levels with
  | ok _ => exact .inl ⟨rfl, rfl⟩
  | error panic => exact .inr ⟨by simp, panic, rfl⟩

section submit

variable (lines : LogLines) (levels : LevelFilter) (blockHash : String) (rawQuality : UInt64)
  (filter : AccountFilter)

theorem AccountFilter.submit_cases :
    (∃ bestQuality, filter.bestQualities blockHash = some bestQuality ∧ bestQuality ≤ rawQuality ∧
      filter.submit lines levels blockHash rawQuality =
        (filter, (lines.filtered.write levels).map fun _ => false)) ∨
    (∃ bestQuality, filter.bestQualities blockHash = some bestQuality ∧ rawQuality < bestQuality ∧
      filter.submit lines levels blockHash rawQuality =
        ({ filter with
            bestQualities := Function.update filter.bestQualities blockHash (some rawQuality) },
          (lines.updated.write levels).map fun _ => true)) ∨
    (filter.bestQualities blockHash = none ∧ ∃ panic,
      (filter.makeRoom lines levels).2 = .error panic ∧
      filter.submit lines levels blockHash rawQuality =
        ((filter.makeRoom lines levels).1, .error panic)) ∨
    (filter.bestQualities blockHash = none ∧ (filter.makeRoom lines levels).2 = .ok () ∧
      filter.submit lines levels blockHash rawQuality =
        ({ blockHashes := (filter.makeRoom lines levels).1.blockHashes ++ [blockHash]
           bestQualities := Function.update (filter.makeRoom lines levels).1.bestQualities blockHash
            (some rawQuality) },
          (lines.added.write levels).map fun _ => true)) := by
  rw [AccountFilter.submit]
  cases known : filter.bestQualities blockHash with
  | some bestQuality =>
    by_cases better : bestQuality ≤ rawQuality
    · exact .inl ⟨bestQuality, rfl, better, if_pos better⟩
    · exact .inr (.inl ⟨bestQuality, rfl, UInt64.not_le.mp better, if_neg better⟩)
  | none =>
    rcases filter.makeRoom lines levels with ⟨room, panic | _⟩
    · exact .inr (.inr (.inl ⟨rfl, panic, rfl, rfl⟩))
    · exact .inr (.inr (.inr ⟨rfl, rfl, rfl⟩))

/-- The log lines of an eviction, if there is one. -/
def AccountFilter.evictionLogs : List LogLine :=
  if maxBlocks ≤ filter.blockHashes.length then
    (filter.blockHashes.head?.map lines.evicted).toList
  else []

/-- The log lines of the branch that `submit` takes. -/
def AccountFilter.logs : List LogLine :=
  match filter.bestQualities blockHash with
  | some bestQuality => if bestQuality ≤ rawQuality then [lines.filtered] else [lines.updated]
  | none => filter.evictionLogs lines ++ [lines.added]

/-- A quality that the filter lets through. -/
def AccountFilter.Improves : Prop :=
  ∀ bestQuality, filter.bestQualities blockHash = some bestQuality → rawQuality < bestQuality

variable {lines levels blockHash rawQuality filter}

theorem AccountFilter.not_improves {bestQuality : UInt64}
    (known : filter.bestQualities blockHash = some bestQuality) (better : bestQuality ≤ rawQuality) :
    ¬ filter.Improves blockHash rawQuality :=
  fun improves => absurd (improves bestQuality known) (UInt64.not_lt.mpr better)

theorem AccountFilter.Improves.ne_some (improves : filter.Improves blockHash rawQuality) :
    filter.bestQualities blockHash ≠ some rawQuality :=
  fun known => absurd (improves rawQuality known) (UInt64.lt_irrefl rawQuality)

theorem AccountFilter.improves_known {bestQuality : UInt64}
    (known : filter.bestQualities blockHash = some bestQuality) (better : rawQuality < bestQuality) :
    filter.Improves blockHash rawQuality := by
  intro bestQuality' known'
  rw [known] at known'
  obtain rfl := Option.some.inj known'
  exact better

theorem AccountFilter.improves_new (unknown : filter.bestQualities blockHash = none) :
    filter.Improves blockHash rawQuality := by
  intro bestQuality known
  rw [unknown] at known
  cases known

theorem AccountFilter.makeRoom_ok_iff :
    (filter.makeRoom lines levels).2 = .ok () ↔
      ∀ line ∈ filter.evictionLogs lines, line.Quiet levels := by
  rw [AccountFilter.makeRoom, AccountFilter.evictionLogs]
  split
  · cases filter.blockHashes with
    | nil => simp
    | cons oldestHash rest => simp [LogLine.write_ok_iff]
  · simp

/-- A call whose log lines can be written decides by the quality alone. -/
theorem AccountFilter.submit_quiet
    (quiet : ∀ line ∈ filter.logs lines blockHash rawQuality, line.Quiet levels) :
    (filter.Improves blockHash rawQuality ∧
      (filter.submit lines levels blockHash rawQuality).2 = .ok true ∧
      (filter.submit lines levels blockHash rawQuality).1.bestQualities blockHash =
        some rawQuality) ∨
    (¬ filter.Improves blockHash rawQuality ∧
      filter.submit lines levels blockHash rawQuality = (filter, .ok false)) := by
  rw [AccountFilter.logs] at quiet
  rcases filter.submit_cases lines levels blockHash rawQuality with
    ⟨best, known, better, submitted⟩ | ⟨best, known, better, submitted⟩ |
    ⟨unknown, panic, stopped, submitted⟩ | ⟨unknown, room, submitted⟩
  · rw [known] at quiet
    simp only [if_pos better, List.forall_mem_singleton, ← LogLine.write_ok_iff] at quiet
    rw [quiet] at submitted
    exact .inr ⟨not_improves known better, submitted⟩
  · rw [known] at quiet
    simp only [if_neg (UInt64.not_le.mpr better), List.forall_mem_singleton,
      ← LogLine.write_ok_iff] at quiet
    rw [submitted, quiet]
    exact .inl ⟨improves_known known better, rfl, Function.update_self _ _ _⟩
  · simp only [unknown, List.forall_mem_append] at quiet
    rw [← makeRoom_ok_iff, stopped] at quiet
    cases quiet.1
  · simp only [unknown, List.forall_mem_append, List.forall_mem_singleton] at quiet
    rw [submitted, (LogLine.write_ok_iff levels lines.added).mpr quiet.2]
    exact .inl ⟨improves_new unknown, rfl, Function.update_self _ _ _⟩

/-- A call with a log line that cannot be written panics. -/
theorem AccountFilter.submit_loud
    (loud : ¬ ∀ line ∈ filter.logs lines blockHash rawQuality, line.Quiet levels) :
    ∃ panic, (filter.submit lines levels blockHash rawQuality).2 = .error panic := by
  rw [AccountFilter.logs] at loud
  have written (line : LogLine) (found : Bool) (loud : ¬ line.Quiet levels) :
      ∃ panic, ((line.write levels).map fun _ => found) = .error panic := by
    rcases line.write_cases levels with ⟨quiet, -⟩ | ⟨-, panic, stopped⟩
    · exact absurd quiet loud
    · exact ⟨panic, by rw [stopped]; rfl⟩
  rcases filter.submit_cases lines levels blockHash rawQuality with
    ⟨best, known, better, submitted⟩ | ⟨best, known, better, submitted⟩ |
    ⟨unknown, panic, stopped, submitted⟩ | ⟨unknown, room, submitted⟩
  · rw [known] at loud
    simp only [if_pos better, List.forall_mem_singleton] at loud
    rw [submitted]
    exact written _ _ loud
  · rw [known] at loud
    simp only [if_neg (UInt64.not_le.mpr better), List.forall_mem_singleton] at loud
    rw [submitted]
    exact written _ _ loud
  · rw [submitted]
    exact ⟨panic, rfl⟩
  · rw [makeRoom_ok_iff] at room
    simp only [unknown, List.forall_mem_append, List.forall_mem_singleton] at loud
    rw [submitted]
    exact written _ _ fun quiet => loud ⟨room, quiet⟩

end submit

section handler

variable (levels : LevelFilter) (params : SubmitNonceParams)

/-- The filter that a submission of an account goes to. -/
def SubmissionHandler.filter (accountId : String) : SubmissionHandler → AccountFilter
  | .pool queue => (queue.accountFilters accountId).getD .empty
  | .wallet queue => queue.filter

def SubmissionHandler.lines : SubmissionHandler → LogLines
  | .pool _ => SubmissionQueue.lines params
  | .wallet _ => GlobalBestQueue.lines params

def SubmissionHandler.txSubmit : SubmissionHandler → Channel
  | .pool queue => queue.txSubmit
  | .wallet queue => queue.txSubmit

/-- What the filter of a submission makes of it. -/
def SubmissionHandler.filtered (handler : SubmissionHandler) : AccountFilter × Except Panic Bool :=
  (handler.filter params.accountId).submit (handler.lines params) levels params.blockHash
    params.rawQuality

/-- Both modes filter and forward alike. -/
theorem SubmissionHandler.submit_eq (handler : SubmissionHandler) :
    (handler.submit levels params).1.filter params.accountId =
        (handler.filtered levels params).1 ∧
      (handler.submit levels params).1.txSubmit =
        (handler.txSubmit.forward params (handler.filtered levels params).2).1 ∧
      (handler.submit levels params).2 =
        (handler.txSubmit.forward params (handler.filtered levels params).2).2 := by
  cases handler with
  | pool queue =>
    refine ⟨?_, rfl, rfl⟩
    simp [SubmissionHandler.submit, SubmissionQueue.submit, SubmissionHandler.filter,
      SubmissionHandler.lines, SubmissionHandler.filtered]
  | wallet queue => exact ⟨rfl, rfl, rfl⟩

/-- The call makes the quality the best one of its block. -/
def SubmissionHandler.Records (handler : SubmissionHandler) : Prop :=
  ((handler.submit levels params).1.filter params.accountId).bestQualities params.blockHash =
      some params.rawQuality ∧
    (handler.filter params.accountId).bestQualities params.blockHash ≠ some params.rawQuality

/-- The call hands the submission to the sending task. -/
def SubmissionHandler.HandsOver (handler : SubmissionHandler) : Prop :=
  (handler.submit levels params).1.txSubmit.sent = handler.txSubmit.sent ++ [params]

end handler

/-- What is answered when the submission has been forwarded or filtered. -/
theorem PoolManager.submitNonce_ok_iff (levels : LevelFilter) (params : SubmitNonceParams)
    (manager : PoolManager) :
    (∃ result, (manager.submitNonce levels params).2 = .ok result) ↔
      (∃ sent, (manager.submissionHandler.submit levels params).2 = .ok sent) ∧
        (params.rawQuality = 0 ∨ params.baseTarget ≠ 0 ∧ manager.blockTimeSecs ≠ 0) := by
  rw [← calculateTimeBendedDeadline_ok_iff, PoolManager.submitNonce]
  rcases manager.submissionHandler.submit levels params with ⟨handler, panic | sent⟩
  · simp [bind, Except.bind]
  · cases calculateTimeBendedDeadline params.rawQuality params.baseTarget
      manager.blockTimeSecs with
    | error panic => simp [bind, Except.bind]
    | ok deadline => simp [bind, Except.bind, pure, Except.pure]

/-- `submit_nonce` is safe exactly when its log lines can be written, nothing is divided by zero
and a quality that is recorded finds the sending task alive. -/
theorem submitNonce_safe_iff (levels : LevelFilter) (params : SubmitNonceParams)
    (manager : PoolManager) :
    ((∃ result, (manager.submitNonce levels params).2 = .ok result) ∧
      (manager.submissionHandler.Records levels params ↔
        manager.submissionHandler.HandsOver levels params)) ↔
    (∀ line ∈ (manager.submissionHandler.filter params.accountId).logs
        (manager.submissionHandler.lines params) params.blockHash params.rawQuality,
        line.Quiet levels) ∧
      (params.rawQuality = 0 ∨ params.baseTarget ≠ 0 ∧ manager.blockTimeSecs ≠ 0) ∧
      ((manager.submissionHandler.filter params.accountId).Improves params.blockHash
        params.rawQuality → manager.submissionHandler.txSubmit.alive = true) := by
  obtain ⟨filtered, channel, answer⟩ := manager.submissionHandler.submit_eq levels params
  rw [PoolManager.submitNonce_ok_iff, SubmissionHandler.Records, SubmissionHandler.HandsOver,
    filtered, channel, answer, SubmissionHandler.filtered]
  generalize manager.submissionHandler.filter params.accountId = filter
  generalize manager.submissionHandler.lines params = lines
  generalize manager.submissionHandler.txSubmit = txSubmit
  by_cases quiet : ∀ line ∈ filter.logs lines params.blockHash params.rawQuality, line.Quiet levels
  · rw [and_iff_right quiet]
    rcases AccountFilter.submit_quiet quiet with ⟨improves, sent, recorded⟩ | ⟨worse, submitted⟩
    · have fresh := improves.ne_some
      rw [sent, Channel.forward]
      cases alive : txSubmit.alive <;>
        simp [recorded, fresh, improves, Channel.unboundedSend, alive]
    · rw [submitted, Channel.forward]
      simp [worse]
  · obtain ⟨panic, stopped⟩ := AccountFilter.submit_loud quiet
    rw [stopped, Channel.forward]
    simp [quiet]

/-- A request that the server accepts, with a block hash of two bytes. -/
def shortHash : SubmitNonceParams where
  blockHash := "ab"
  height := 10
  generationSignature := "00"
  baseTarget := 5
  accountId := "0123456789012345678901234567890123456789"
  seed := "00"
  nonce := 3
  compression := 1
  rawQuality := 7

def newPool : PoolManager := ⟨.pool ⟨fun _ => none, ⟨[], true⟩⟩, 120⟩

theorem short_hash_half_updates :
    ¬ ((∃ result, (newPool.submitNonce .info shortHash).2 = .ok result) ∧
      (newPool.submissionHandler.Records .info shortHash ↔
        newPool.submissionHandler.HandsOver .info shortHash)) ∧
    newPool.submissionHandler.Records .info shortHash ∧
    ¬ newPool.submissionHandler.HandsOver .info shortHash := by
  have stopped : (newPool.submitNonce .info shortHash).2 = .error .badSlice := by
    decide +kernel
  have recorded : newPool.submissionHandler.Records .info shortHash := by
    rw [SubmissionHandler.Records]
    decide +kernel
  have silent : ¬ newPool.submissionHandler.HandsOver .info shortHash := by
    rw [SubmissionHandler.HandsOver]
    decide +kernel
  refine ⟨?_, recorded, silent⟩
  rintro ⟨⟨result, done⟩, -⟩
  rw [stopped] at done
  cases done

end Pocx.BlockFilter
