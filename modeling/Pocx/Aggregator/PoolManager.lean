import Mathlib.Algebra.Ring.Nat
import Mathlib.Data.List.Pairwise
import Mathlib.Logic.Function.Basic
import Pocx.Lib.Transition
import Pocx.Protocol.Types

set_option autoImplicit false

namespace Pocx.PoolManager

open Protocol (MiningInfo)
open Transition (System Reachable always)

/-- Instants are in nanoseconds. -/
structure CachedMiningInfo where
  info : MiningInfo
  cachedAt : Nat
deriving DecidableEq

/-- Where a call of `get_mining_info` stands. From `locked` on it has `fetch_lock`. -/
inductive Task
  | idle
  | waiting
  | locked
  | fetching
  | fetched (info : MiningInfo)
deriving DecidableEq

def Task.hasLock : Task → Bool
  | .idle | .waiting => false
  | .locked | .fetching | .fetched _ => true

/-- What a call returned, and when. -/
structure Answer where
  cached : CachedMiningInfo
  answeredAt : Nat
deriving DecidableEq

/-- The pool manager and its callers. Behind `tasks` are the instants of the requests to the
upstream, what was stored and what the callers were given, the newest first. -/
structure State where
  now : Nat
  currentMiningInfo : Option CachedMiningInfo
  fetchLock : Option Nat
  tasks : Nat → Task
  requests : List Nat
  stored : List CachedMiningInfo
  answers : List Answer

/-- A step of time or of a task. A task that is cancelled, as the connection of its client is
closed, drops its guards. -/
inductive Label
  | tick (elapsed : Nat)
  | call (task : Nat)
  | acquire (task : Nat)
  | recheck (task : Nat)
  | respond (task : Nat) (response : Option MiningInfo)
  | store (task : Nat)
  | cancel (task : Nat)

/-- `&text[..16]` returns. -/
def sliceable (text : String) : Bool :=
  let bytes := text.toUTF8
  decide (bytes.size = 16) ||
    (decide (16 < bytes.size) && bytes.get! 16 &&& 0xC0 != 0x80)

namespace State

variable (cacheTtl : Nat) (infoEnabled : Bool) (state : State)

/-- A look at the cache. -/
def fresh : Option CachedMiningInfo :=
  state.currentMiningInfo.filter fun cached => state.now - cached.cachedAt < cacheTtl

def goto (task : Nat) (next : Task) : State :=
  { state with tasks := Function.update state.tasks task next }

def release : State := { state with fetchLock := none }

def answer (cached : CachedMiningInfo) : State :=
  { state with answers := ⟨cached, state.now⟩ :: state.answers }

def signatureChanged (info : MiningInfo) : Bool :=
  state.currentMiningInfo.all fun cached =>
    cached.info.generationSignature != info.generationSignature

/-- The new block is logged with a slice of its signature. -/
def logPanics (info : MiningInfo) : Bool :=
  infoEnabled && state.signatureChanged info && !sliceable info.generationSignature

def step : Label → Option State
  | .tick elapsed => some { state with now := state.now + elapsed }
  | .call task =>
    if state.tasks task = .idle then
      match state.fresh cacheTtl with
      | some cached => some (state.answer cached)
      | none => some (state.goto task .waiting)
    else none
  | .acquire task =>
    if state.tasks task = .waiting ∧ state.fetchLock = none then
      some { state.goto task .locked with fetchLock := some task }
    else none
  | .recheck task =>
    if state.tasks task = .locked then
      match state.fresh cacheTtl with
      | some cached => some ((state.answer cached).goto task .idle).release
      | none =>
        some { state.goto task .fetching with requests := state.now :: state.requests }
    else none
  | .respond task response =>
    if state.tasks task = .fetching then
      match response with
      | some info => some (state.goto task (.fetched info))
      | none => some (state.goto task .idle).release
    else none
  | .store task =>
    match state.tasks task with
    | .fetched info =>
      if state.logPanics infoEnabled info then some (state.goto task .idle).release
      else
        let cached := ⟨info, state.now⟩
        some { ((state.answer cached).goto task .idle).release with
          currentMiningInfo := some cached
          stored := cached :: state.stored }
    | _ => none
  | .cancel task =>
    if (state.tasks task).hasLock then some (state.goto task .idle).release
    else some (state.goto task .idle)

end State

def initialState : State := ⟨0, none, none, fun _ => .idle, [], [], []⟩

def system (cacheTtl : Nat) (infoEnabled : Bool) : System State Label where
  initial := fun state => state = initialState
  step := fun state label => state.step cacheTtl infoEnabled label

/-- A request to the upstream is under way, or its response is still to be stored. -/
def Task.inFlight : Task → Bool
  | .fetching | .fetched _ => true
  | .idle | .waiting | .locked => false

theorem Task.hasLock_of_inFlight {task : Task} (inFlight : task.inFlight = true) :
    task.hasLock = true := by
  cases task with
  | idle => cases inFlight
  | waiting => cases inFlight
  | _ => rfl

section invariant

variable {cacheTtl : Nat} {infoEnabled : Bool} {state : State}

/-- `fetch_lock` tells the task that is behind it. -/
def Exclusive (state : State) : Prop :=
  ∀ task, (state.tasks task).hasLock = true ↔ state.fetchLock = some task

theorem Exclusive.goto (exclusive : Exclusive state) {task : Nat} {next : Task}
    (same : next.hasLock = (state.tasks task).hasLock) : Exclusive (state.goto task next) := by
  intro other
  simp only [State.goto]
  by_cases here : other = task
  · rw [here, Function.update_self, same]
    exact exclusive task
  · rw [Function.update_of_ne here]
    exact exclusive other

theorem Exclusive.acquire (exclusive : Exclusive state) {task : Nat} {next : Task}
    (free : state.fetchLock = none) (locks : next.hasLock = true) :
    Exclusive { state.goto task next with fetchLock := some task } := by
  intro other
  simp only [State.goto]
  by_cases here : other = task
  · rw [here, Function.update_self]
    exact ⟨fun _ => rfl, fun _ => locks⟩
  · rw [Function.update_of_ne here, exclusive other, free]
    simp only [reduceCtorEq, Option.some.injEq, false_iff]
    exact fun same => here same.symm

theorem Exclusive.release (exclusive : Exclusive state) {task : Nat} {next : Task}
    (locked : (state.tasks task).hasLock = true) (unlocks : next.hasLock = false) :
    Exclusive (state.goto task next).release := by
  have holder := (exclusive task).mp locked
  intro other
  simp only [State.goto, State.release]
  by_cases here : other = task
  · rw [here, Function.update_self, unlocks]
    simp
  · rw [Function.update_of_ne here, exclusive other, holder]
    simp only [Option.some.injEq, reduceCtorEq, iff_false]
    exact fun same => here same.symm

/-- Nothing was stored within the lifetime of the cache. -/
def Expired (cacheTtl : Nat) (state : State) : Prop :=
  ∀ cached ∈ state.stored, cached.cachedAt + cacheTtl ≤ state.now

/-- What was stored, what was asked for and what was answered. -/
structure Cached (cacheTtl : Nat) (state : State) : Prop where
  latest : state.currentMiningInfo = state.stored.head?
  past : ∀ cached ∈ state.stored, cached.cachedAt ≤ state.now
  asked : ∀ request ∈ state.requests, request ≤ state.now
  spaced : state.stored.Pairwise fun newer older => older.cachedAt + cacheTtl ≤ newer.cachedAt
  rested : ∀ request ∈ state.requests, ∀ cached ∈ state.stored, cached.cachedAt < request →
    cached.cachedAt + cacheTtl ≤ request
  answered : ∀ answer ∈ state.answers, answer.cached ∈ state.stored ∧
    answer.cached.cachedAt ≤ answer.answeredAt ∧
    (answer.answeredAt = answer.cached.cachedAt ∨
      answer.answeredAt < answer.cached.cachedAt + cacheTtl)
  ordered : state.answers.Pairwise fun later earlier =>
    earlier.cached.cachedAt ≤ later.cached.cachedAt

namespace Cached

theorem tick (cached : Cached cacheTtl state) (elapsed : Nat) :
    Cached cacheTtl { state with now := state.now + elapsed } :=
  { cached with
    past := fun entry listed => Nat.le_add_right_of_le (cached.past entry listed)
    asked := fun request listed => Nat.le_add_right_of_le (cached.asked request listed) }

/-- The newest of what was stored. -/
theorem newest (cached : Cached cacheTtl state) {entry : CachedMiningInfo}
    (current : state.currentMiningInfo = some entry) :
    entry ∈ state.stored ∧ ∀ other ∈ state.stored, other.cachedAt ≤ entry.cachedAt := by
  have head := cached.latest
  have spaced := cached.spaced
  rw [current] at head
  cases known : state.stored with
  | nil =>
    rw [known] at head
    cases head
  | cons first rest =>
    rw [known] at head spaced
    cases head
    refine ⟨List.mem_cons_self, ?_⟩
    intro other listed
    rcases List.mem_cons.mp listed with rfl | older
    · exact Nat.le_refl _
    · have apart := List.rel_of_pairwise_cons spaced older
      omega

theorem answer (cached : Cached cacheTtl state) {entry : CachedMiningInfo}
    (current : state.currentMiningInfo = some entry)
    (young : state.now = entry.cachedAt ∨ state.now - entry.cachedAt < cacheTtl) :
    Cached cacheTtl (state.answer entry) := by
  obtain ⟨known, newest⟩ := cached.newest current
  have before := cached.past entry known
  refine { cached with answered := ?_, ordered := ?_ }
  · intro answer listed
    rcases List.mem_cons.mp listed with rfl | earlier
    · refine ⟨known, before, ?_⟩
      rcases young with now | within
      · exact .inl now
      · right
        simp only
        omega
    · exact cached.answered answer earlier
  · refine List.pairwise_cons.mpr ⟨?_, cached.ordered⟩
    intro earlier listed
    exact newest earlier.cached (cached.answered earlier listed).1

theorem request (cached : Cached cacheTtl state) (expired : Expired cacheTtl state) :
    Cached cacheTtl { state with requests := state.now :: state.requests } := by
  refine { cached with asked := ?_, rested := ?_ }
  · intro request listed
    rcases List.mem_cons.mp listed with rfl | earlier
    · exact Nat.le_refl _
    · exact cached.asked request earlier
  · intro request listed entry known after
    rcases List.mem_cons.mp listed with rfl | earlier
    · exact expired entry known
    · exact cached.rested request earlier entry known after

theorem store (cached : Cached cacheTtl state) (expired : Expired cacheTtl state)
    (info : MiningInfo) :
    Cached cacheTtl { state with
      currentMiningInfo := some ⟨info, state.now⟩
      stored := ⟨info, state.now⟩ :: state.stored } := by
  refine { cached with latest := rfl, past := ?_, spaced := ?_, rested := ?_, answered := ?_ }
  · intro entry listed
    rcases List.mem_cons.mp listed with rfl | earlier
    · exact Nat.le_refl _
    · exact cached.past entry earlier
  · exact List.pairwise_cons.mpr ⟨fun older listed => expired older listed, cached.spaced⟩
  · intro request listed entry known after
    rcases List.mem_cons.mp known with rfl | earlier
    · have before := cached.asked request listed
      exact absurd after (Nat.not_lt.mpr before)
    · exact cached.rested request listed entry earlier after
  · intro answer listed
    obtain ⟨known, age⟩ := cached.answered answer listed
    exact ⟨List.mem_cons_of_mem _ known, age⟩

end Cached

/-- A look at the cache that finds something. -/
theorem fresh_some {entry : CachedMiningInfo} (found : state.fresh cacheTtl = some entry) :
    state.currentMiningInfo = some entry ∧ state.now - entry.cachedAt < cacheTtl := by
  obtain ⟨current, young⟩ := Option.filter_eq_some_iff.mp found
  exact ⟨current, of_decide_eq_true young⟩

/-- A look at the cache that finds nothing. -/
theorem Cached.expired (cached : Cached cacheTtl state) (found : state.fresh cacheTtl = none) :
    Expired cacheTtl state := by
  intro entry listed
  cases current : state.currentMiningInfo with
  | none =>
    have head := cached.latest
    rw [current, eq_comm, List.head?_eq_none_iff] at head
    rw [head] at listed
    cases listed
  | some latest =>
    obtain ⟨known, newest⟩ := cached.newest current
    have before := cached.past latest known
    have below := newest entry listed
    rw [State.fresh, current, Option.filter_some] at found
    have old : ¬ state.now - latest.cachedAt < cacheTtl := by
      intro young
      rw [if_pos (decide_eq_true young)] at found
      cases found
    omega

structure Inv (cacheTtl : Nat) (state : State) : Prop where
  exclusive : Exclusive state
  cached : Cached cacheTtl state
  waits : ∀ task, (state.tasks task).inFlight = true → Expired cacheTtl state

/-- Without a holder of the lock nothing is in flight. -/
theorem Inv.free (exclusive : Exclusive state) (cached : Cached cacheTtl state)
    (free : state.fetchLock = none) : Inv cacheTtl state := by
  refine ⟨exclusive, cached, ?_⟩
  intro task inFlight
  have holder := (exclusive task).mp (Task.hasLock_of_inFlight inFlight)
  rw [free] at holder
  cases holder

/-- A task that neither takes the lock nor sends a request. -/
theorem Inv.goto (inv : Inv cacheTtl state) {task : Nat} {next : Task}
    (same : next.hasLock = (state.tasks task).hasLock)
    (expired : next.inFlight = true → Expired cacheTtl state) :
    Inv cacheTtl (state.goto task next) := by
  refine ⟨inv.exclusive.goto same, { inv.cached with }, ?_⟩
  intro other inFlight
  simp only [State.goto] at inFlight
  by_cases here : other = task
  · rw [here, Function.update_self] at inFlight
    exact expired inFlight
  · rw [Function.update_of_ne here] at inFlight
    exact inv.waits other inFlight

theorem Inv.release (inv : Inv cacheTtl state) {task : Nat}
    (locked : (state.tasks task).hasLock = true) :
    Inv cacheTtl (state.goto task .idle).release :=
  Inv.free (inv.exclusive.release locked rfl) { inv.cached with } rfl

theorem Inv.step {before after : State} {label : Label} (inv : Inv cacheTtl before)
    (taken : before.step cacheTtl infoEnabled label = some after) : Inv cacheTtl after := by
  cases label with
  | tick elapsed =>
    cases taken
    refine ⟨inv.exclusive, inv.cached.tick elapsed, ?_⟩
    intro task inFlight entry listed
    exact Nat.le_add_right_of_le (inv.waits task inFlight entry listed)
  | call task =>
    simp only [State.step, Option.ite_none_right_eq_some] at taken
    obtain ⟨idle, taken⟩ := taken
    cases found : before.fresh cacheTtl with
    | some entry =>
      rw [found] at taken
      cases taken
      obtain ⟨current, young⟩ := fresh_some found
      exact ⟨inv.exclusive, inv.cached.answer current (.inr young), inv.waits⟩
    | none =>
      rw [found] at taken
      cases taken
      refine inv.goto ?_ ?_
      · rw [idle]
        rfl
      · intro inFlight
        cases inFlight
  | acquire task =>
    simp only [State.step, Option.ite_none_right_eq_some] at taken
    obtain ⟨⟨-, free⟩, taken⟩ := taken
    cases taken
    refine ⟨inv.exclusive.acquire free rfl, { inv.cached with }, ?_⟩
    intro other inFlight
    simp only [State.goto] at inFlight
    by_cases here : other = task
    · rw [here, Function.update_self] at inFlight
      cases inFlight
    · rw [Function.update_of_ne here] at inFlight
      exact inv.waits other inFlight
  | recheck task =>
    simp only [State.step, Option.ite_none_right_eq_some] at taken
    obtain ⟨locked, taken⟩ := taken
    have hasLock : (before.tasks task).hasLock = true := by
      rw [locked]
      rfl
    cases found : before.fresh cacheTtl with
    | some entry =>
      rw [found] at taken
      cases taken
      obtain ⟨current, young⟩ := fresh_some found
      have answered : Inv cacheTtl (before.answer entry) :=
        ⟨inv.exclusive, inv.cached.answer current (.inr young), inv.waits⟩
      exact answered.release hasLock
    | none =>
      rw [found] at taken
      cases taken
      have expired := inv.cached.expired found
      have sent : Inv cacheTtl (before.goto task .fetching) :=
        inv.goto hasLock.symm fun _ => expired
      exact ⟨sent.exclusive, sent.cached.request expired, sent.waits⟩
  | respond task response =>
    simp only [State.step, Option.ite_none_right_eq_some] at taken
    obtain ⟨fetching, taken⟩ := taken
    have hasLock : (before.tasks task).hasLock = true := by
      rw [fetching]
      rfl
    cases response with
    | some info =>
      cases taken
      refine inv.goto hasLock.symm fun _ => inv.waits task ?_
      rw [fetching]
      rfl
    | none =>
      cases taken
      exact inv.release hasLock
  | store task =>
    cases stands : before.tasks task with
    | fetched info =>
      have hasLock : (before.tasks task).hasLock = true := by
        rw [stands]
        rfl
      have expired : Expired cacheTtl before := by
        apply inv.waits task
        rw [stands]
        rfl
      simp only [State.step, stands] at taken
      by_cases panics : before.logPanics infoEnabled info = true
      · rw [if_pos panics] at taken
        cases taken
        exact inv.release hasLock
      · rw [if_neg panics] at taken
        cases taken
        have stored := inv.cached.store expired info
        have answered := @Cached.answer _ _ stored ⟨info, before.now⟩ rfl (.inl rfl)
        exact Inv.free (inv.exclusive.release hasLock rfl) { answered with } rfl
    | _ => simp [State.step, stands] at taken
  | cancel task =>
    simp only [State.step] at taken
    by_cases hasLock : (before.tasks task).hasLock = true
    · rw [if_pos hasLock] at taken
      cases taken
      exact inv.release hasLock
    · rw [if_neg hasLock] at taken
      cases taken
      refine inv.goto ?_ ?_
      · rw [Bool.not_eq_true] at hasLock
        rw [hasLock]
        rfl
      · intro inFlight
        cases inFlight

theorem inv_initialState : Inv cacheTtl initialState := by
  refine Inv.free ?_ ⟨rfl, ?_, ?_, .nil, ?_, ?_, .nil⟩ rfl
  · intro task
    simp [initialState, Task.hasLock]
  all_goals simp [initialState]

theorem inv_reachable (reached : Reachable (system cacheTtl infoEnabled) always state) :
    Inv cacheTtl state := by
  apply reached.invariant
  · rintro _ rfl
    exact inv_initialState
  · intro before label after inv _ taken
    exact inv.step taken

/-- Instants that lie apart take time. -/
theorem length_of_spaced {entries : List CachedMiningInfo} {now : Nat}
    (past : ∀ entry ∈ entries, entry.cachedAt ≤ now)
    (spaced : entries.Pairwise fun newer older => older.cachedAt + cacheTtl ≤ newer.cachedAt) :
    entries.length * cacheTtl ≤ now + cacheTtl := by
  induction entries generalizing now with
  | nil => simp
  | cons newest rest ih =>
    obtain ⟨apart, spaced⟩ := List.pairwise_cons.mp spaced
    have recent := past newest List.mem_cons_self
    rw [List.length_cons, Nat.succ_mul]
    cases rest with
    | nil => simp
    | cons second older =>
      have gap := apart second List.mem_cons_self
      have earlier : ∀ entry ∈ second :: older, entry.cachedAt ≤ newest.cachedAt - cacheTtl := by
        intro entry listed
        have later := apart entry listed
        omega
      have length := ih earlier spaced
      omega

end invariant

/-- However many tasks call, and however they interleave, fail and are cancelled: at most one of
them is behind a request, no request is sent while what was last stored is alive, and so there is
at most one response that is stored for each lifetime of the cache, besides the first. -/
theorem upstream_is_spared (cacheTtl : Nat) (infoEnabled : Bool) (state : State)
    (reached : Reachable (system cacheTtl infoEnabled) always state) :
    (∀ first second, (state.tasks first).inFlight = true → (state.tasks second).inFlight = true →
      first = second) ∧
    (∀ request ∈ state.requests, ∀ cached ∈ state.stored, cached.cachedAt < request →
      cached.cachedAt + cacheTtl ≤ request) ∧
    state.stored.length * cacheTtl ≤ state.now + cacheTtl := by
  have inv := inv_reachable reached
  refine ⟨?_, inv.cached.rested, length_of_spaced inv.cached.past inv.cached.spaced⟩
  intro first second firstSends secondSends
  have holder := (inv.exclusive first).mp (Task.hasLock_of_inFlight firstSends)
  have other := (inv.exclusive second).mp (Task.hasLock_of_inFlight secondSends)
  rw [holder] at other
  exact Option.some.inj other

/-- An answer of the upstream. -/
def someInfo : MiningInfo := ⟨"0123456789abcdef", 1, 2, "00", none, none, none⟩

/-- Two calls find nothing; one of them fetches, and the other is answered behind the lock. -/
def someLabels : List Label :=
  [.call 0, .call 1, .acquire 0, .recheck 0, .tick 3, .respond 0 (some someInfo), .store 0,
    .tick 4, .acquire 1, .recheck 1]

theorem upstream_is_spared_two_calls :
    ∃ state : State, state.stored = [⟨someInfo, 3⟩] ∧
      state.stored.length * 5 ≤ state.now + 5 := by
  obtain ⟨state, complete, stored⟩ : ∃ state : State,
      Transition.run (system 5 false) initialState someLabels = some state ∧
        state.stored = [⟨someInfo, 3⟩] := ⟨_, rfl, rfl⟩
  have reached := Reachable.run someLabels (.start rfl) complete
  exact ⟨state, stored, (upstream_is_spared 5 false state reached).2.2⟩

/-- Whatever a call returned was stored in that instant or is younger than the lifetime of the
cache, and what is returned later was not stored before. -/
theorem answers_are_fresh (cacheTtl : Nat) (infoEnabled : Bool) (state : State)
    (reached : Reachable (system cacheTtl infoEnabled) always state) :
    (∀ answer ∈ state.answers, answer.cached ∈ state.stored ∧
      answer.cached.cachedAt ≤ answer.answeredAt ∧
      (answer.answeredAt = answer.cached.cachedAt ∨
        answer.answeredAt < answer.cached.cachedAt + cacheTtl)) ∧
    state.answers.Pairwise fun later earlier =>
      earlier.cached.cachedAt ≤ later.cached.cachedAt := by
  have inv := inv_reachable reached
  exact ⟨inv.cached.answered, inv.cached.ordered⟩

theorem answers_are_fresh_two_calls :
    ∃ state : State, state.answers = [⟨⟨someInfo, 3⟩, 7⟩, ⟨⟨someInfo, 3⟩, 3⟩] ∧
      state.answers.Pairwise fun later earlier =>
        earlier.cached.cachedAt ≤ later.cached.cachedAt := by
  obtain ⟨state, complete, answers⟩ : ∃ state : State,
      Transition.run (system 5 false) initialState someLabels = some state ∧
        state.answers = [⟨⟨someInfo, 3⟩, 7⟩, ⟨⟨someInfo, 3⟩, 3⟩] := ⟨_, rfl, rfl⟩
  have reached := Reachable.run someLabels (.start rfl) complete
  exact ⟨state, answers, (answers_are_fresh 5 false state reached).2⟩

end Pocx.PoolManager
