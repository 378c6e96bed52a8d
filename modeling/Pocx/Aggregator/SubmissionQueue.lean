import Mathlib.Algebra.Ring.Nat
import Mathlib.Logic.Function.Basic
import Mathlib.Tactic.Tauto
import Pocx.Lib.Transition

set_option autoImplicit false

namespace Pocx.SubmissionQueue

open Transition (System Reachable always)

structure SubmitNonceParams where
  blockHash : String
  height : Nat
  generationSignature : String
  baseTarget : Nat
  accountId : String
  seed : String
  nonce : Nat
  compression : Nat
  rawQuality : Nat
deriving DecidableEq

/-- Account and block hash. -/
abbrev Key : Type := String × String

def SubmitNonceParams.key (params : SubmitNonceParams) : Key := (params.accountId, params.blockHash)

/-- Instants are in nanoseconds. -/
structure TimestampedSubmission where
  params : SubmitNonceParams
  queuedAt : Nat
  retryCount : Nat
deriving DecidableEq

def staleTimeout : Nat := 240 * 10 ^ 9

def maxRetries : Nat := 5

/-- What `client.submit_nonce` returns; `error` stands for all other errors. -/
inductive Answer
  | ok
  | rateLimited
  | invalidSubmission (message : String)
  | staleSubmission
  | error
deriving DecidableEq

/-- Where the handler stands: at the head of its loop, waiting for a new item, or behind the
loop. -/
inductive Control
  | head
  | waiting
  | exited
deriving DecidableEq

/-- The handler and its channel. The lists behind `control` keep what the handler has received
and how it got rid of it; a discarded submission with those that were queued then. -/
structure State where
  pendingQueue : List TimestampedSubmission
  inQueueBest : Key → Option Nat
  channel : List SubmitNonceParams
  control : Control
  received : List SubmitNonceParams
  answered : List SubmitNonceParams
  stale : List SubmitNonceParams
  exhausted : List SubmitNonceParams
  discarded : List (SubmitNonceParams × List SubmitNonceParams)

def State.queued (state : State) : List SubmitNonceParams :=
  state.pendingQueue.map TimestampedSubmission.params

/-- `in_queue_best.remove(&key)` -/
def State.remove (state : State) (key : Key) : State :=
  { state with inQueueBest := Function.update state.inQueueBest key none }

/-- The new best of its key goes to the end of the queue. -/
def State.add (state : State) (now : Nat) (params : SubmitNonceParams) : State :=
  { state with
    inQueueBest := Function.update state.inQueueBest params.key (some params.rawQuality)
    pendingQueue :=
      state.pendingQueue ++ [{ params := params, queuedAt := now, retryCount := 0 }] }

def State.discard (state : State) (params : SubmitNonceParams) : State :=
  { state with discarded := (params, state.queued) :: state.discarded }

def State.receive (state : State) (params : SubmitNonceParams) : State :=
  { state with received := params :: state.received }

/-- The body of the drain loop. -/
def State.enqueue (now : Nat) (state : State) (params : SubmitNonceParams) : State :=
  let state := state.receive params
  match state.inQueueBest params.key with
  | some bestInQueue =>
    if params.rawQuality < bestInQueue then state.add now params else state.discard params
  | none => state.add now params

/-- The drain loop. -/
def State.drain (now : Nat) (state : State) : State :=
  state.channel.foldl (State.enqueue now) { state with channel := [] }

/-- An attempt failed: back to the front of the queue, until the retries are exhausted. -/
def State.retry (state : State) (item : TimestampedSubmission) : State :=
  let item := { item with retryCount := item.retryCount + 1 }
  if maxRetries < item.retryCount then
    { state.remove item.params.key with exhausted := item.params :: state.exhausted }
  else { state with pendingQueue := item :: state.pendingQueue }

def State.submit (answer : Answer) (state : State) (item : TimestampedSubmission) : State :=
  match answer with
  | .ok => { state.remove item.params.key with answered := item.params :: state.answered }
  | .rateLimited => state.retry item
  | .invalidSubmission _ =>
    { state.remove item.params.key with answered := item.params :: state.answered }
  | .staleSubmission =>
    { state.remove item.params.key with answered := item.params :: state.answered }
  | .error => state.retry item

/-- The processing of an item that was taken from the queue. -/
def State.process (now : Nat) (answer : Answer) (state : State) (item : TimestampedSubmission) :
    State :=
  if staleTimeout < now - item.queuedAt then
    { state.remove item.params.key with stale := item.params :: state.stale }
  else
    match state.inQueueBest item.params.key with
    | some bestInQueue =>
      if bestInQueue < item.params.rawQuality then state.discard item.params
      else state.submit answer item
    | none => state.submit answer item

/-- A round of the loop, up to the wait where the queue is empty. -/
def State.turn (now : Nat) (answer : Answer) (state : State) : State :=
  let drained := state.drain now
  match drained.pendingQueue with
  | [] => { drained with control := .waiting }
  | item :: rest => { drained with pendingQueue := rest }.process now answer item

inductive Label
  | send (params : SubmitNonceParams)
  | turn (now : Nat) (answer : Answer)
  | receive (now : Nat)
  | closed
deriving DecidableEq

/-- Submissions are sent at any time. The upstream answers anything. -/
def step (state : State) : Label → Option State
  | .send params => some { state with channel := state.channel ++ [params] }
  | .turn now answer =>
    match state.control with
    | .head => some (state.turn now answer)
    | .waiting | .exited => none
  | .receive now =>
    match state.control, state.channel with
    | .waiting, params :: rest =>
      some { (state.receive params).add now params with channel := rest, control := .head }
    | _, _ => none
  | .closed =>
    match state.control, state.channel with
    | .waiting, [] => some { state with control := .exited }
    | _, _ => none

def system : System State Label where
  initial := fun state =>
    state.pendingQueue = [] ∧ (∀ key, state.inQueueBest key = none) ∧ state.channel = [] ∧
      state.control = .head ∧ state.received = [] ∧ state.answered = [] ∧ state.stale = [] ∧
      state.exhausted = [] ∧ state.discarded = []
  step := step

/-- The submissions that are queued or came to an end of their own. -/
def State.kept (state : State) : List SubmitNonceParams :=
  state.queued ++ (state.answered ++ (state.stale ++ state.exhausted))

/-- Of the same key and no worse. -/
def Beats (better params : SubmitNonceParams) : Prop :=
  better.key = params.key ∧ better.rawQuality ≤ params.rawQuality

/-- The best of a key in the map is queued. -/
def Backed (state : State) : Prop :=
  ∀ key quality, state.inQueueBest key = some quality →
    ∃ params ∈ state.queued, params.key = key ∧ params.rawQuality = quality

/-- No submission is lost but for a better one. -/
structure DropsOnlyForBetter (state : State) : Prop where
  backed : Backed state
  discarded : ∀ params queued, (params, queued) ∈ state.discarded →
    ∃ better ∈ queued, Beats better params
  best : ∀ params ∈ state.received, (∀ other ∈ state.received, other.key = params.key →
      params.rawQuality ≤ other.rawQuality) →
    ∃ kept ∈ state.received, kept.key = params.key ∧ kept.rawQuality = params.rawQuality ∧
      (kept ∈ state.answered ∨ kept ∈ state.stale ∨ kept ∈ state.exhausted ∨
        kept ∈ state.queued)

section beats

theorem Beats.refl (params : SubmitNonceParams) : Beats params params := ⟨rfl, Nat.le_refl _⟩

theorem Beats.trans {best better params : SubmitNonceParams} (first : Beats best better)
    (second : Beats better params) : Beats best params :=
  ⟨first.1.trans second.1, Nat.le_trans first.2 second.2⟩

end beats

/-- Every received submission is beaten by one that is kept. -/
structure Invariant (state : State) : Prop where
  backed : Backed state
  discarded : ∀ params queued, (params, queued) ∈ state.discarded →
    ∃ better ∈ queued, Beats better params
  covered : ∀ params ∈ state.received, ∃ better ∈ state.kept, Beats better params
  known : ∀ params ∈ state.kept, params ∈ state.received

section invariant

variable {state : State}

theorem Backed.remove (backed : Backed state) (key : Key) : Backed (state.remove key) := by
  intro other quality found
  change Function.update state.inQueueBest key none other = some quality at found
  by_cases same : other = key
  · rw [same, Function.update_self] at found
    cases found
  · rw [Function.update_of_ne same] at found
    exact backed other quality found

theorem queued_add (now : Nat) (params : SubmitNonceParams) :
    (state.add now params).queued = state.queued ++ [params] := by
  simp only [State.add, State.queued, List.map_append, List.map_cons, List.map_nil]

theorem Backed.add (backed : Backed state) (now : Nat) (params : SubmitNonceParams) :
    Backed (state.add now params) := by
  intro key quality found
  rw [queued_add]
  change Function.update state.inQueueBest params.key (some params.rawQuality) key = some quality
    at found
  by_cases same : key = params.key
  · rw [same, Function.update_self, Option.some.injEq] at found
    exact ⟨params, List.mem_append_right _ List.mem_cons_self, same.symm, found⟩
  · rw [Function.update_of_ne same] at found
    obtain ⟨other, listed, facts⟩ := backed key quality found
    exact ⟨other, List.mem_append_left _ listed, facts⟩

/-- A received submission joins the queue. -/
theorem Invariant.add (inv : Invariant state) (now : Nat) (params : SubmitNonceParams) :
    Invariant ((state.receive params).add now params) := by
  have kept : ((state.receive params).add now params).kept =
      (state.queued ++ [params]) ++ (state.answered ++ (state.stale ++ state.exhausted)) := by
    unfold State.kept
    rw [queued_add]
    rfl
  constructor
  · exact Backed.add (show Backed (state.receive params) from inv.backed) now params
  · exact inv.discarded
  · intro other listed
    rw [kept]
    rcases List.mem_cons.mp listed with rfl | earlier
    · refine ⟨other, ?_, Beats.refl other⟩
      exact List.mem_append_left _ (List.mem_append_right _ List.mem_cons_self)
    · obtain ⟨better, present, beats⟩ := inv.covered other earlier
      refine ⟨better, ?_, beats⟩
      rcases List.mem_append.mp present with queued | ended
      · exact List.mem_append_left _ (List.mem_append_left _ queued)
      · exact List.mem_append_right _ ended
  · intro other listed
    rw [kept] at listed
    rcases List.mem_append.mp listed with queued | ended
    · rcases List.mem_append.mp queued with earlier | last
      · exact List.mem_cons_of_mem _ (inv.known other (List.mem_append_left _ earlier))
      · rw [List.mem_singleton.mp last]
        exact List.mem_cons_self
    · exact List.mem_cons_of_mem _ (inv.known other (List.mem_append_right _ ended))

/-- A received submission is worse than one that is queued. -/
theorem Invariant.discard (inv : Invariant state) {params better : SubmitNonceParams}
    (queued : better ∈ state.queued) (beats : Beats better params) :
    Invariant ((state.receive params).discard params) := by
  constructor
  · exact inv.backed
  · intro other listed member
    rcases List.mem_cons.mp member with same | earlier
    · cases same
      exact ⟨better, queued, beats⟩
    · exact inv.discarded other listed earlier
  · intro other listed
    rcases List.mem_cons.mp listed with rfl | earlier
    · exact ⟨better, List.mem_append_left _ queued, beats⟩
    · exact inv.covered other earlier
  · intro other listed
    exact List.mem_cons_of_mem _ (inv.known other listed)

theorem Invariant.enqueue (inv : Invariant state) (now : Nat) (params : SubmitNonceParams) :
    Invariant (state.enqueue now params) := by
  unfold State.enqueue
  cases found : state.inQueueBest params.key with
  | none =>
    have vacant : (state.receive params).inQueueBest params.key = none := found
    simp only [vacant]
    exact inv.add now params
  | some bestInQueue =>
    have present : (state.receive params).inQueueBest params.key = some bestInQueue := found
    simp only [present]
    split
    · exact inv.add now params
    · rename_i worse
      obtain ⟨better, queued, key, quality⟩ := inv.backed params.key bestInQueue found
      apply inv.discard queued
      exact ⟨key, by omega⟩

/-- The drain loop, by induction on what is in the channel. -/
theorem Invariant.drain (inv : Invariant state) (now : Nat) : Invariant (state.drain now) := by
  have emptied : Invariant { state with channel := [] } :=
    ⟨inv.backed, inv.discarded, inv.covered, inv.known⟩
  unfold State.drain
  generalize { state with channel := [] } = start at emptied
  induction state.channel generalizing start with
  | nil => exact emptied
  | cons params rest ih => exact ih (start.enqueue now params) (emptied.enqueue now params)

/-- A step that receives nothing keeps the invariant where it leaves every kept submission, or a
better one, among the kept ones. -/
theorem Invariant.of_kept (inv : Invariant state) {after : State}
    (received : after.received = state.received) (backed : Backed after)
    (discarded : ∀ params queued, (params, queued) ∈ after.discarded →
      ∃ better ∈ queued, Beats better params)
    (covers : ∀ params ∈ state.kept, ∃ better ∈ after.kept, Beats better params)
    (known : ∀ params ∈ after.kept, params ∈ state.kept) : Invariant after := by
  constructor
  · exact backed
  · exact discarded
  · intro params listed
    rw [received] at listed
    obtain ⟨kept, present, beats⟩ := inv.covered params listed
    obtain ⟨better, present', beats'⟩ := covers kept present
    exact ⟨better, present', beats'.trans beats⟩
  · intro params listed
    rw [received]
    exact inv.known params (known params listed)

variable {item : TimestampedSubmission} {rest : List TimestampedSubmission}

theorem queued_cons (front : state.pendingQueue = item :: rest) :
    state.queued = item.params :: rest.map TimestampedSubmission.params := by
  rw [State.queued, front, List.map_cons]

/-- With its entry gone the front item may leave the queue. -/
theorem Backed.pop (backed : Backed state) (front : state.pendingQueue = item :: rest) :
    Backed ({ state with pendingQueue := rest }.remove item.params.key) := by
  intro key quality found
  change Function.update state.inQueueBest item.params.key none key = some quality at found
  by_cases same : key = item.params.key
  · rw [same, Function.update_self] at found
    cases found
  · rw [Function.update_of_ne same] at found
    obtain ⟨other, listed, otherKey, facts⟩ := backed key quality found
    rw [queued_cons front] at listed
    rcases List.mem_cons.mp listed with rfl | later
    · exact absurd otherKey.symm same
    · exact ⟨other, later, otherKey, facts⟩

/-- The front item comes to an end of its own. -/
theorem Invariant.finish (inv : Invariant state) (front : state.pendingQueue = item :: rest)
    {after : State} (pendingQueue : after.pendingQueue = rest)
    (inQueueBest : after.inQueueBest = Function.update state.inQueueBest item.params.key none)
    (received : after.received = state.received) (discarded : after.discarded = state.discarded)
    (ended : ∀ params, (params ∈ after.answered ∨ params ∈ after.stale ∨
        params ∈ after.exhausted) ↔
      (params = item.params ∨ params ∈ state.answered ∨ params ∈ state.stale ∨
        params ∈ state.exhausted)) : Invariant after := by
  have same : ∀ params, params ∈ after.kept ↔ params ∈ state.kept := by
    intro params
    have queued : after.queued = rest.map TimestampedSubmission.params := by
      rw [State.queued, pendingQueue]
    simp only [State.kept, queued, queued_cons front, List.mem_append, List.mem_cons, ended]
    tauto
  apply inv.of_kept received
  · intro key quality found
    rw [inQueueBest] at found
    rw [State.queued, pendingQueue]
    exact inv.backed.pop front key quality found
  · rw [discarded]
    exact inv.discarded
  · intro params listed
    exact ⟨params, (same params).mpr listed, Beats.refl params⟩
  · intro params listed
    exact (same params).mp listed

theorem Invariant.retry (inv : Invariant state) (front : state.pendingQueue = item :: rest) :
    Invariant ({ state with pendingQueue := rest }.retry item) := by
  simp only [State.retry]
  split
  · refine inv.finish front ?_ ?_ ?_ ?_ ?_
    · rfl
    · rfl
    · rfl
    · rfl
    · intro params
      simp only [State.remove, List.mem_cons]
      tauto
  · have queued : State.queued { state with
          pendingQueue := { item with retryCount := item.retryCount + 1 } :: rest } =
        state.queued := by
      rw [queued_cons front]
      rfl
    have kept : State.kept { state with
          pendingQueue := { item with retryCount := item.retryCount + 1 } :: rest } =
        state.kept := by
      unfold State.kept
      rw [queued]
    refine inv.of_kept ?_ ?_ ?_ ?_ ?_
    · rfl
    · intro key quality found
      rw [queued]
      exact inv.backed key quality found
    · exact inv.discarded
    · intro params listed
      rw [kept]
      exact ⟨params, listed, Beats.refl params⟩
    · intro params listed
      rwa [kept] at listed

theorem Invariant.submit (inv : Invariant state) (front : state.pendingQueue = item :: rest)
    (answer : Answer) : Invariant ({ state with pendingQueue := rest }.submit answer item) := by
  have answered : Invariant { State.remove { state with pendingQueue := rest } item.params.key with
      answered := item.params :: state.answered } := by
    refine inv.finish front ?_ ?_ ?_ ?_ ?_
    · rfl
    · rfl
    · rfl
    · rfl
    · intro params
      simp only [State.remove, List.mem_cons]
      tauto
  cases answer with
  | ok => exact answered
  | rateLimited => exact inv.retry front
  | invalidSubmission message => exact answered
  | staleSubmission => exact answered
  | error => exact inv.retry front

/-- The front item is worse than the best of its key, which is queued behind it. -/
theorem Invariant.discardFront (inv : Invariant state)
    (front : state.pendingQueue = item :: rest) {bestInQueue : Nat}
    (found : state.inQueueBest item.params.key = some bestInQueue)
    (worse : bestInQueue < item.params.rawQuality) :
    Invariant ({ state with pendingQueue := rest }.discard item.params) := by
  have behind : ∀ key quality, state.inQueueBest key = some quality →
      ∃ params ∈ rest.map TimestampedSubmission.params,
        params.key = key ∧ params.rawQuality = quality := by
    intro key quality entry
    obtain ⟨other, listed, otherKey, otherQuality⟩ := inv.backed key quality entry
    rw [queued_cons front] at listed
    rcases List.mem_cons.mp listed with rfl | later
    · rw [← otherKey, found, Option.some.injEq] at entry
      omega
    · exact ⟨other, later, otherKey, otherQuality⟩
  obtain ⟨better, listed, key, quality⟩ := behind item.params.key bestInQueue found
  have beats : Beats better item.params := ⟨key, by omega⟩
  have kept : ∀ params, params ∈ state.kept ↔ params = item.params ∨
      params ∈ (State.discard { state with pendingQueue := rest } item.params).kept := by
    intro params
    unfold State.kept
    rw [queued_cons front]
    simp only [List.mem_append, List.mem_cons, State.discard, State.queued]
    tauto
  refine inv.of_kept ?_ ?_ ?_ ?_ ?_
  · rfl
  · exact behind
  · intro params queued member
    rcases List.mem_cons.mp member with same | earlier
    · cases same
      exact ⟨better, listed, beats⟩
    · exact inv.discarded params queued earlier
  · intro params present
    rcases (kept params).mp present with rfl | later
    · exact ⟨better, List.mem_append_left _ listed, beats⟩
    · exact ⟨params, later, Beats.refl params⟩
  · intro params present
    exact (kept params).mpr (Or.inr present)

theorem Invariant.process (inv : Invariant state) (front : state.pendingQueue = item :: rest)
    (now : Nat) (answer : Answer) :
    Invariant ({ state with pendingQueue := rest }.process now answer item) := by
  unfold State.process
  split
  · refine inv.finish front ?_ ?_ ?_ ?_ ?_
    · rfl
    · rfl
    · rfl
    · rfl
    · intro params
      simp only [State.remove, List.mem_cons]
      tauto
  · cases found : state.inQueueBest item.params.key with
    | none => exact inv.submit front answer
    | some bestInQueue =>
      simp only
      split
      · rename_i worse
        exact inv.discardFront front found worse
      · exact inv.submit front answer

theorem Invariant.turn (inv : Invariant state) (now : Nat) (answer : Answer) :
    Invariant (state.turn now answer) := by
  have drained := inv.drain now
  unfold State.turn
  simp only
  split
  · exact ⟨drained.backed, drained.discarded, drained.covered, drained.known⟩
  · rename_i item rest front
    exact drained.process front now answer

end invariant

theorem invariant_initially {state : State} (initial : system.initial state) :
    Invariant state := by
  obtain ⟨pendingQueue, inQueueBest, -, -, received, answered, stale, exhausted, discarded⟩ :=
    initial
  have kept : state.kept = [] := by
    rw [State.kept, State.queued, pendingQueue, answered, stale, exhausted]
    rfl
  constructor
  · intro key quality found
    rw [inQueueBest] at found
    cases found
  · rw [discarded]
    nofun
  · rw [received]
    nofun
  · rw [kept]
    nofun

theorem step_invariant {state after : State} {label : Label} (inv : Invariant state)
    (taken : step state label = some after) : Invariant after := by
  cases label with
  | send params =>
    cases taken
    exact ⟨inv.backed, inv.discarded, inv.covered, inv.known⟩
  | turn now answer =>
    simp only [step] at taken
    split at taken <;> cases taken
    exact inv.turn now answer
  | receive now =>
    simp only [step] at taken
    split at taken <;> cases taken
    rename_i params rest waiting channel
    have added := inv.add now params
    exact ⟨added.backed, added.discarded, added.covered, added.known⟩
  | closed =>
    simp only [step] at taken
    split at taken <;> cases taken
    exact ⟨inv.backed, inv.discarded, inv.covered, inv.known⟩

/-- In every reachable state submissions are dropped for better ones only. -/
theorem drops_only_for_better {state : State} (reached : Reachable system always state) :
    DropsOnlyForBetter state := by
  have inv : Invariant state := by
    apply Reachable.invariant Invariant ?_ ?_ reached
    · intro start initial
      exact invariant_initially initial
    · intro before label after inv _ taken
      exact step_invariant inv taken
  refine ⟨inv.backed, inv.discarded, ?_⟩
  intro params listed best
  obtain ⟨kept, present, key, quality⟩ := inv.covered params listed
  have known := inv.known kept present
  have bound := best kept known key
  refine ⟨kept, known, key, by omega, ?_⟩
  simp only [State.kept, List.mem_append] at present
  tauto

/-- The first submission is put back, and a better one comes in. -/
def betterArrives : List Label :=
  let first : SubmitNonceParams :=
    { blockHash := "b", height := 1, generationSignature := "g", baseTarget := 1
      accountId := "a", seed := "s", nonce := 1, compression := 1, rawQuality := 10 }
  [.send first, .turn 0 .rateLimited, .send { first with nonce := 2, rawQuality := 5 },
    .turn 1 .ok]

/-- The first submission is discarded for the better one, which is queued. -/
theorem first_dropped_for_better :
    ∃ state, Reachable system always state ∧ state.discarded.length = 1 ∧
      state.queued.length = 1 ∧ DropsOnlyForBetter state := by
  have start : system.initial
      { pendingQueue := [], inQueueBest := fun _ => none, channel := [], control := .head
        received := [], answered := [], stale := [], exhausted := [], discarded := [] } :=
    ⟨rfl, fun _ => rfl, rfl, rfl, rfl, rfl, rfl, rfl, rfl⟩
  have reached := Reachable.run betterArrives (.start start) rfl
  exact ⟨_, reached, rfl, rfl, drops_only_for_better reached⟩

end Pocx.SubmissionQueue
