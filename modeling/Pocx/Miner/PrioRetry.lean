import Mathlib.Data.List.Basic
import Pocx.Lib.Panicking
import Pocx.Lib.Transition

set_option autoImplicit false

namespace Pocx.PrioRetry

open Panicking (Panic bind_eq_ok fit fit_checked fit_ok guarded_eq_ok)
open Transition (System Reachable always)

structure NonceSubmission where
  blockHash : String
  blockHeight : UInt64
  generationSignature : String
  baseTarget : UInt64
  accountId : String
  seed : String
  nonce : UInt64
  rawQuality : UInt64
  compression : UInt8
deriving DecidableEq

structure SubmissionParameters where
  chain : String
  blockCount : UInt64
  nonceSubmission : NonceSubmission
deriving DecidableEq

/-- `impl Ord for SubmissionParameters` -/
instance : Ord SubmissionParameters where
  compare self other :=
    match compare self.blockCount other.blockCount with
    | .eq => compare other.nonceSubmission.rawQuality self.nonceSubmission.rawQuality
    | order => order

instance : Std.TransOrd SubmissionParameters :=
  inferInstanceAs (Std.TransCmp (compareLex (compareOn SubmissionParameters.blockCount)
    fun self other => compareOn (fun item : SubmissionParameters =>
      item.nonceSubmission.rawQuality) other self))

/-- An item that is yielded again when it has slept until `delay`. -/
structure DelayedItem (Item : Type) where
  attempt : Nat
  delay : Option Nat
  value : Item

/-- Durations and instants are in nanoseconds. The platform has a last instant. -/
structure Config where
  delayDuration : Nat
  overflowChecks : Bool
  lastInstant : Nat

/-- A factor times a `Duration` of 64 bits of seconds. -/
def mulDuration (factor duration : Nat) : Except Panic Nat :=
  if factor * duration < 2 ^ 64 * 10 ^ 9 then .ok (factor * duration) else .error .overflow

def addInstant (lastInstant now backoff : Nat) : Except Panic Nat :=
  if now + backoff ≤ lastInstant then .ok (now + backoff) else .error .overflow

section poll

variable {Item : Type}

def DelayedItem.new (value : Item) : DelayedItem Item where
  attempt := 0
  delay := none
  value

def DelayedItem.expBackoff (config : Config) (now : Nat) (item : DelayedItem Item) :
    Except Panic (DelayedItem Item) := do
  let factor ← fit 32 config.overflowChecks (2 ^ item.attempt)
  let backoff ← mulDuration factor config.delayDuration
  let deadline ← addInstant config.lastInstant now backoff
  let attempt ← fit 32 config.overflowChecks (item.attempt + 1)
  return { item with delay := some deadline, attempt }

def DelayedItem.pause (item : DelayedItem Item) : DelayedItem Item := { item with delay := none }

/-- What is yielded, whether the timer had to elapse, and what had arrived by then. -/
structure Yield (Item : Type) where
  value : Item
  delayed : Bool
  inputs : List Item

/-- The stream with what has arrived and what has been yielded, the newest first, and whether an
operation of the back-off has overflowed. -/
structure State (Item : Type) where
  delayedItem : Option (DelayedItem Item)
  ended : Bool
  panicked : Bool
  arrived : List Item
  yielded : List (Yield Item)
  overflowed : Bool

def initialState : State Item := ⟨none, false, false, [], [], false⟩

/-- What the inner stream answers when it is polled; if it is pending, whether the timer has
elapsed. -/
inductive Event (Item : Type)
  | item (new : Item) (now : Nat)
  | pending (elapsed : Bool)
  | finished

variable [Ord Item] (config : Config)

/-- A new item is yielded at once. -/
def State.take (new : Item) (state : State Item) : State Item :=
  { state with
    delayedItem := some (.new new)
    arrived := new :: state.arrived
    yielded := ⟨new, false, new :: state.arrived⟩ :: state.yielded }

/-- The current item has come again. -/
def State.requeue (new : Item) (now : Nat) (item : DelayedItem Item) (state : State Item) :
    State Item :=
  let overflowed := state.overflowed ||
    !(item.expBackoff { config with overflowChecks := true } now).isOk
  match item.expBackoff config now with
  | .ok delayed =>
    { state with delayedItem := some delayed, arrived := new :: state.arrived, overflowed }
  | .error _ => { state with panicked := true, arrived := new :: state.arrived, overflowed }

/-- A turn of the loop of `poll_next` with an item. -/
def State.receive (new : Item) (now : Nat) (state : State Item) : State Item :=
  match state.delayedItem with
  | some item =>
    match compare item.value new with
    | .lt => state.take new
    | .eq => state.requeue config new now item
    | .gt => { state with arrived := new :: state.arrived }
  | none => state.take new

/-- The end of `poll_next`. -/
def State.pollDelay (elapsed : Bool) (state : State Item) : State Item :=
  match state.delayedItem with
  | some item =>
    if elapsed && item.delay.isSome then
      { state with
        delayedItem := some item.pause
        yielded := ⟨item.value, true, state.arrived⟩ :: state.yielded }
    else state
  | none => state

/-- The inner stream is fused. -/
def State.step (state : State Item) : Event Item → Option (State Item)
  | .item new now =>
    if state.panicked || state.ended then none else some (state.receive config new now)
  | .pending elapsed =>
    if state.panicked || state.ended then none else some (state.pollDelay elapsed)
  | .finished => if state.panicked then none else some { state with ended := true }

def system : System (State Item) (Event Item) where
  initial := fun state => state = initialState
  step := State.step config

/-- The value is the largest of the inputs, up to the order. -/
def Reigns (inputs : List Item) (value : Item) : Prop :=
  (∃ input ∈ inputs, compare input value = .eq) ∧
    ∀ input ∈ inputs, (compare input value).isLE = true

instance (inputs : List Item) (value : Item) : Decidable (Reigns inputs value) :=
  inferInstanceAs (Decidable (_ ∧ _))

/-- The inputs up to each item that is greater than all before it. -/
def records : List Item → List (List Item)
  | [] => []
  | item :: earlier =>
    if ∀ input ∈ earlier, compare input item = .lt then (item :: earlier) :: records earlier
    else records earlier

/-- How often a value has arrived again while it was the largest. -/
def again (value : Item) : List Item → Nat
  | [] => 0
  | item :: earlier =>
    again value earlier + if compare item value = .eq ∧ Reigns earlier value then 1 else 0

/-- How often a value has been yielded by the timer. -/
def repetitions (value : Item) : List (Yield Item) → Nat
  | [] => 0
  | yield :: earlier =>
    repetitions value earlier +
      if yield.delayed = true ∧ compare yield.value value = .eq then 1 else 0

/-- What is yielded is the running maximum. -/
structure RunningMaximum (state : State Item) : Prop where
  nondecreasing : state.yielded.Pairwise fun later earlier =>
    (compare earlier.value later.value).isLE = true
  once : (state.yielded.filter fun yield => !yield.delayed).map Yield.inputs =
    records state.arrived
  undelayed : ∀ yield ∈ state.yielded, yield.delayed = false →
    yield.inputs.head? = some yield.value
  repeated : ∀ yield ∈ state.yielded, yield.delayed = true →
    yield.value ∈ yield.inputs ∧ Reigns yield.inputs yield.value
  bounded : ∀ value, repetitions value state.yielded ≤ again value state.arrived

/-- No operation overflows when an item comes again. -/
def fits (state : State Item) : Event Item → Prop
  | .item new now =>
    ∀ value ∈ state.arrived, Reigns state.arrived value → compare value new = .eq →
      again value state.arrived < 32 ∧
        2 ^ again value state.arrived * config.delayDuration < 2 ^ 64 * 10 ^ 9 ∧
        now + 2 ^ again value state.arrived * config.delayDuration ≤ config.lastInstant
  | _ => True

end poll

section backoff

variable {Item : Type} {config : Config} {now : Nat} {item delayed : DelayedItem Item}

theorem mulDuration_eq_ok {factor duration result : Nat} :
    mulDuration factor duration = .ok result ↔
      factor * duration < 2 ^ 64 * 10 ^ 9 ∧ result = factor * duration := guarded_eq_ok

theorem addInstant_eq_ok {lastInstant backoff result : Nat} :
    addInstant lastInstant now backoff = .ok result ↔
      now + backoff ≤ lastInstant ∧ result = now + backoff := guarded_eq_ok

theorem DelayedItem.expBackoff_value (done : item.expBackoff config now = .ok delayed) :
    delayed.value = item.value := by
  rw [DelayedItem.expBackoff] at done
  obtain ⟨factor, -, done⟩ := bind_eq_ok.mp done
  obtain ⟨backoff, -, done⟩ := bind_eq_ok.mp done
  obtain ⟨deadline, -, done⟩ := bind_eq_ok.mp done
  obtain ⟨attempt, -, done⟩ := bind_eq_ok.mp done
  obtain rfl := Except.ok.inj done
  rfl

/-- With overflow checks the back-off succeeds when each of its operations fits. -/
theorem DelayedItem.expBackoff_checked_iff :
    (∃ delayed, item.expBackoff { config with overflowChecks := true } now = .ok delayed) ↔
      item.attempt < 32 ∧ 2 ^ item.attempt * config.delayDuration < 2 ^ 64 * 10 ^ 9 ∧
        now + 2 ^ item.attempt * config.delayDuration ≤ config.lastInstant := by
  constructor
  · rintro ⟨delayed, done⟩
    rw [DelayedItem.expBackoff] at done
    obtain ⟨factor, raised, done⟩ := bind_eq_ok.mp done
    obtain ⟨small, rfl⟩ := fit_checked.mp raised
    obtain ⟨backoff, multiplied, done⟩ := bind_eq_ok.mp done
    obtain ⟨inside, rfl⟩ := mulDuration_eq_ok.mp multiplied
    obtain ⟨deadline, added, -⟩ := bind_eq_ok.mp done
    obtain ⟨early, -⟩ := addInstant_eq_ok.mp added
    exact ⟨(Nat.pow_lt_pow_iff_right (by decide)).mp small, inside, early⟩
  · rintro ⟨small, inside, early⟩
    refine ⟨_, bind_eq_ok.mpr ⟨_, fit_checked.mpr ⟨?_, rfl⟩, bind_eq_ok.mpr ⟨_,
      mulDuration_eq_ok.mpr ⟨inside, rfl⟩, bind_eq_ok.mpr ⟨_, addInstant_eq_ok.mpr ⟨early, rfl⟩,
      bind_eq_ok.mpr ⟨_, fit_checked.mpr ⟨?_, rfl⟩, rfl⟩⟩⟩⟩⟩
    · exact (Nat.pow_lt_pow_iff_right (by decide)).mpr small
    · omega

/-- It then succeeds without overflow checks as well. -/
theorem DelayedItem.expBackoff_fits (small : item.attempt < 32)
    (inside : 2 ^ item.attempt * config.delayDuration < 2 ^ 64 * 10 ^ 9)
    (early : now + 2 ^ item.attempt * config.delayDuration ≤ config.lastInstant) :
    item.expBackoff config now = .ok
      { item with
        delay := some (now + 2 ^ item.attempt * config.delayDuration)
        attempt := item.attempt + 1 } := by
  have factor : 2 ^ item.attempt < 2 ^ 32 := (Nat.pow_lt_pow_iff_right (by decide)).mpr small
  have next : item.attempt + 1 < 2 ^ 32 := by omega
  rw [DelayedItem.expBackoff, fit_ok factor, fit_ok next]
  refine bind_eq_ok.mpr ⟨_, rfl, bind_eq_ok.mpr ⟨_, mulDuration_eq_ok.mpr ⟨inside, rfl⟩,
    bind_eq_ok.mpr ⟨_, addInstant_eq_ok.mpr ⟨early, rfl⟩, rfl⟩⟩⟩

end backoff

section order

variable {Item : Type} [Ord Item] [Std.TransOrd Item] {value other : Item}

open Std (TransCmp OrientedCmp ReflCmp)

theorem Reigns.congr {inputs : List Item} (same : compare value other = .eq) :
    Reigns inputs value ↔ Reigns inputs other := by
  have equal (input : Item) : compare input value = compare input other := TransCmp.congr_right same
  simp only [Reigns, equal]

theorem again_congr (same : compare value other = .eq) (inputs : List Item) :
    again value inputs = again other inputs := by
  induction inputs with
  | nil => rfl
  | cons item earlier ih =>
    have equal : compare item value = compare item other := TransCmp.congr_right same
    simp only [again, ih, equal, Reigns.congr same]

theorem repetitions_congr (same : compare value other = .eq) (yielded : List (Yield Item)) :
    repetitions value yielded = repetitions other yielded := by
  induction yielded with
  | nil => rfl
  | cons yield earlier ih =>
    have equal : compare yield.value value = compare yield.value other := TransCmp.congr_right same
    simp only [repetitions, ih, equal]

/-- Two largest values are equal in the order. -/
theorem Reigns.unique {inputs : List Item} (reigns : Reigns inputs value)
    (also : Reigns inputs other) : compare value other = .eq := by
  obtain ⟨input, found, same⟩ := reigns.1
  obtain ⟨input', found', same'⟩ := also.1
  apply OrientedCmp.isLE_antisymm
  · exact TransCmp.isLE_trans (Ordering.isLE_of_eq_eq (OrientedCmp.eq_symm same))
      (also.2 input found)
  · exact TransCmp.isLE_trans (Ordering.isLE_of_eq_eq (OrientedCmp.eq_symm same'))
      (reigns.2 input' found')

omit [Std.TransOrd Item] in
theorem again_le_cons (value item : Item) (earlier : List Item) :
    again value earlier ≤ again value (item :: earlier) := Nat.le_add_right _ _

omit [Std.TransOrd Item] in
theorem again_eq_zero {inputs : List Item} (less : ∀ input ∈ inputs, compare input value = .lt) :
    again value inputs = 0 := by
  induction inputs with
  | nil => rfl
  | cons item earlier ih =>
    rw [List.forall_mem_cons] at less
    have apart : ¬ (compare item value = .eq ∧ Reigns earlier value) := by
      rintro ⟨same, -⟩
      rw [less.1] at same
      cases same
    rw [again, ih less.2, if_neg apart]

omit [Std.TransOrd Item] in
theorem again_new {inputs : List Item} (less : ∀ input ∈ inputs, compare input value = .lt) :
    again value (value :: inputs) = 0 := by
  have apart : ¬ (compare value value = .eq ∧ Reigns inputs value) := by
    rintro ⟨-, ⟨input, found, same⟩, -⟩
    rw [less input found] at same
    cases same
  rw [again, again_eq_zero less, if_neg apart]

end order

/-- The item that is kept is the largest of the inputs, and its timer is accounted for. -/
structure Current {Item : Type} [Ord Item] (state : State Item) (item : DelayedItem Item) :
    Prop where
  arrived : item.value ∈ state.arrived
  reigns : Reigns state.arrived item.value
  above : ∀ yield ∈ state.yielded, (compare yield.value item.value).isLE = true
  pending : repetitions item.value state.yielded + (if item.delay.isSome then 1 else 0) ≤
    again item.value state.arrived

structure Invariant {Item : Type} [Ord Item] (state : State Item) : Prop where
  maximum : RunningMaximum state
  current : ∀ item, state.delayedItem = some item → Current state item
  start : state.delayedItem = none → state.arrived = [] ∧ state.yielded = []

section steps

variable {Item : Type} [Ord Item] [Std.TransOrd Item] {state : State Item}

open Std (TransCmp OrientedCmp ReflCmp)

/-- An item that is greater than all before it is yielded. -/
theorem Invariant.take (invariant : Invariant state) {new : Item}
    (record : ∀ input ∈ state.arrived, compare input new = .lt)
    (above : ∀ yield ∈ state.yielded, compare yield.value new = .lt) :
    Invariant (state.take new) := by
  have maximum := invariant.maximum
  have equal : compare new new = .eq := ReflCmp.compare_self
  refine ⟨⟨?_, ?_, ?_, ?_, ?_⟩, ?_, fun none => nomatch none⟩
  · refine List.pairwise_cons.mpr ⟨?_, maximum.nondecreasing⟩
    intro yield found
    exact Ordering.isLE_of_eq_lt (above yield found)
  · have recorded : records (new :: state.arrived) =
        (new :: state.arrived) :: records state.arrived := if_pos record
    dsimp only [State.take]
    rw [recorded, ← maximum.once]
    rfl
  · refine List.forall_mem_cons.mpr ⟨fun _ => rfl, maximum.undelayed⟩
  · refine List.forall_mem_cons.mpr ⟨nofun, maximum.repeated⟩
  · intro value
    exact Nat.le_trans (maximum.bounded value) (again_le_cons value new state.arrived)
  · intro item kept
    obtain rfl := Option.some.inj kept
    refine ⟨List.mem_cons_self, ⟨⟨new, List.mem_cons_self, equal⟩, ?_⟩, ?_, ?_⟩
    · refine List.forall_mem_cons.mpr ⟨Ordering.isLE_of_eq_eq equal, ?_⟩
      exact fun input found => Ordering.isLE_of_eq_lt (record input found)
    · refine List.forall_mem_cons.mpr ⟨Ordering.isLE_of_eq_eq equal, ?_⟩
      exact fun yield found => Ordering.isLE_of_eq_lt (above yield found)
    · exact Nat.le_trans (maximum.bounded new) (again_le_cons new new state.arrived)

omit [Std.TransOrd Item] in
/-- An item that is not greater than the current one only joins the inputs. -/
theorem RunningMaximum.pass (maximum : RunningMaximum state) {new : Item}
    (known : ¬ ∀ input ∈ state.arrived, compare input new = .lt) {passed : State Item}
    (arrived : passed.arrived = new :: state.arrived) (yielded : passed.yielded = state.yielded) :
    RunningMaximum passed := by
  have recorded : records (new :: state.arrived) = records state.arrived := if_neg known
  refine ⟨?_, ?_, ?_, ?_, ?_⟩
  · rw [yielded]
    exact maximum.nondecreasing
  · rw [yielded, arrived, recorded]
    exact maximum.once
  · rw [yielded]
    exact maximum.undelayed
  · rw [yielded]
    exact maximum.repeated
  · intro value
    rw [yielded, arrived]
    exact Nat.le_trans (maximum.bounded value) (again_le_cons value new state.arrived)

omit [Std.TransOrd Item] in
/-- What the current item keeps when another one that is not greater arrives. -/
theorem Current.pass {item kept : DelayedItem Item} (current : Current state item) {new : Item}
    (below : (compare new item.value).isLE = true) {passed : State Item}
    (arrived : passed.arrived = new :: state.arrived) (yielded : passed.yielded = state.yielded)
    (same : kept.value = item.value)
    (pending : repetitions item.value state.yielded + (if kept.delay.isSome then 1 else 0) ≤
      again item.value (new :: state.arrived)) : Current passed kept := by
  obtain ⟨⟨input, found, equal⟩, least⟩ := current.reigns
  refine ⟨?_, ⟨⟨input, ?_, ?_⟩, ?_⟩, ?_, ?_⟩
  · rw [arrived, same]
    exact List.mem_cons_of_mem _ current.arrived
  · rw [arrived]
    exact List.mem_cons_of_mem _ found
  · rw [same]
    exact equal
  · rw [arrived, same]
    exact List.forall_mem_cons.mpr ⟨below, least⟩
  · rw [yielded, same]
    exact current.above
  · rw [yielded, arrived, same]
    exact pending

theorem Invariant.requeue (invariant : Invariant state) (config : Config) {new : Item} (now : Nat)
    {item : DelayedItem Item} (kept : state.delayedItem = some item)
    (same : compare item.value new = .eq) : Invariant (state.requeue config new now item) := by
  have current := invariant.current item kept
  have back : compare new item.value = .eq := OrientedCmp.eq_symm same
  have known : ¬ ∀ input ∈ state.arrived, compare input new = .lt := by
    intro less
    have below := less item.value current.arrived
    rw [same] at below
    cases below
  have counted : again item.value (new :: state.arrived) = again item.value state.arrived + 1 := by
    rw [again, if_pos ⟨back, current.reigns⟩]
  have bounded := invariant.maximum.bounded item.value
  rw [State.requeue]
  cases backed : item.expBackoff config now with
  | error panic =>
    refine ⟨invariant.maximum.pass known rfl rfl, ?_, ?_⟩
    · intro kept' found
      dsimp only at found
      rw [kept] at found
      obtain rfl := Option.some.inj found
      refine current.pass (Ordering.isLE_of_eq_eq back) ?_ ?_ ?_ ?_
      · rfl
      · rfl
      · rfl
      · exact Nat.le_trans current.pending (again_le_cons _ _ _)
    · intro none
      dsimp only at none
      rw [kept] at none
      cases none
  | ok delayed =>
    refine ⟨invariant.maximum.pass known rfl rfl, ?_, fun none => nomatch none⟩
    intro kept' found
    obtain rfl := Option.some.inj found
    refine current.pass (Ordering.isLE_of_eq_eq back) ?_ ?_ ?_ ?_
    · rfl
    · rfl
    · exact DelayedItem.expBackoff_value backed
    · rw [counted]
      split <;> omega

/-- An item below the current one is dropped. -/
theorem Invariant.drop (invariant : Invariant state) {new : Item} {item : DelayedItem Item}
    (kept : state.delayedItem = some item) (greater : compare item.value new = .gt) :
    Invariant { state with arrived := new :: state.arrived } := by
  have current := invariant.current item kept
  have below : compare new item.value = .lt := OrientedCmp.lt_of_gt greater
  have known : ¬ ∀ input ∈ state.arrived, compare input new = .lt := by
    intro less
    have above := less item.value current.arrived
    rw [greater] at above
    cases above
  refine ⟨invariant.maximum.pass known rfl rfl, ?_, ?_⟩
  · intro kept' found
    dsimp only at found
    rw [kept] at found
    obtain rfl := Option.some.inj found
    refine current.pass (Ordering.isLE_of_eq_lt below) ?_ ?_ ?_ ?_
    · rfl
    · rfl
    · rfl
    · exact Nat.le_trans current.pending (again_le_cons _ _ _)
  · intro none
    dsimp only at none
    rw [kept] at none
    cases none

omit [Std.TransOrd Item] in
theorem State.receive_some {item : DelayedItem Item} (kept : state.delayedItem = some item)
    (config : Config) (new : Item) (now : Nat) :
    state.receive config new now = match compare item.value new with
      | .lt => state.take new
      | .eq => state.requeue config new now item
      | .gt => { state with arrived := new :: state.arrived } := by
  rw [State.receive, kept]

theorem Invariant.receive (invariant : Invariant state) (config : Config) (new : Item)
    (now : Nat) : Invariant (state.receive config new now) := by
  cases kept : state.delayedItem with
  | none =>
    obtain ⟨arrived, yielded⟩ := invariant.start kept
    rw [State.receive, kept]
    apply invariant.take
    · rw [arrived]
      exact List.forall_mem_nil _
    · rw [yielded]
      exact List.forall_mem_nil _
  | some item =>
    have current := invariant.current item kept
    rw [State.receive_some kept]
    cases order : compare item.value new with
    | lt =>
      apply invariant.take
      · exact fun input found => TransCmp.lt_of_isLE_of_lt (current.reigns.2 input found) order
      · exact fun yield found => TransCmp.lt_of_isLE_of_lt (current.above yield found) order
    | eq => exact invariant.requeue config now kept order
    | gt => exact invariant.drop kept order

/-- A timer that has elapsed yields the current item again. -/
theorem Invariant.pollDelay (invariant : Invariant state) (elapsed : Bool) :
    Invariant (state.pollDelay elapsed) := by
  rw [State.pollDelay]
  cases kept : state.delayedItem with
  | none => exact invariant
  | some item =>
    dsimp only
    split
    swap
    · exact invariant
    rename_i fired
    have maximum := invariant.maximum
    have current := invariant.current item kept
    have equal : compare item.value item.value = .eq := ReflCmp.compare_self
    have armed : item.delay.isSome = true := (Bool.and_eq_true_iff.mp fired).2
    have spare : repetitions item.value state.yielded + 1 ≤ again item.value state.arrived := by
      have pending := current.pending
      rwa [if_pos armed] at pending
    have counted : repetitions item.value
        (⟨item.value, true, state.arrived⟩ :: state.yielded) =
          repetitions item.value state.yielded + 1 := by
      rw [repetitions, if_pos ⟨rfl, equal⟩]
    refine ⟨⟨?_, maximum.once, ?_, ?_, ?_⟩, ?_, fun none => nomatch none⟩
    · exact List.pairwise_cons.mpr ⟨current.above, maximum.nondecreasing⟩
    · exact List.forall_mem_cons.mpr ⟨nofun, maximum.undelayed⟩
    · exact List.forall_mem_cons.mpr
        ⟨fun _ => ⟨current.arrived, current.reigns⟩, maximum.repeated⟩
    · intro value
      by_cases same : compare item.value value = .eq
      · rw [← repetitions_congr same, ← again_congr same, counted]
        exact spare
      · rw [repetitions, if_neg fun counts => same counts.2]
        exact maximum.bounded value
    · intro kept' found
      obtain rfl := Option.some.inj found
      refine ⟨current.arrived, current.reigns, ?_, ?_⟩
      · exact List.forall_mem_cons.mpr ⟨Ordering.isLE_of_eq_eq equal, current.above⟩
      · rw [DelayedItem.pause, counted]
        exact spare

theorem Invariant.step (invariant : Invariant state) {config : Config} {event : Event Item}
    {next : State Item} (taken : state.step config event = some next) : Invariant next := by
  cases event with
  | item new now =>
    rw [State.step, Option.ite_none_left_eq_some] at taken
    obtain rfl := Option.some.inj taken.2
    exact invariant.receive config new now
  | pending elapsed =>
    rw [State.step, Option.ite_none_left_eq_some] at taken
    obtain rfl := Option.some.inj taken.2
    exact invariant.pollDelay elapsed
  | finished =>
    rw [State.step, Option.ite_none_left_eq_some] at taken
    obtain rfl := Option.some.inj taken.2
    obtain ⟨nondecreasing, once, undelayed, repeated, bounded⟩ := invariant.maximum
    refine ⟨⟨nondecreasing, once, undelayed, repeated, bounded⟩, ?_, invariant.start⟩
    intro item kept
    obtain ⟨arrived, reigns, above, pending⟩ := invariant.current item kept
    exact ⟨arrived, reigns, above, pending⟩

omit [Std.TransOrd Item] in
theorem invariant_initial : Invariant (initialState : State Item) :=
  ⟨⟨List.Pairwise.nil, rfl, List.forall_mem_nil _, List.forall_mem_nil _, fun _ => Nat.le_refl 0⟩,
    (fun _ kept => nomatch kept), fun _ => ⟨rfl, rfl⟩⟩

theorem invariant_reachable {config : Config} (reached : Reachable (system config) always state) :
    Invariant state := by
  refine reached.invariant Invariant ?_ ?_
  · rintro _ rfl
    exact invariant_initial
  · intro before event after invariant _ taken
    exact invariant.step taken

/-- Without an overflow the attempts count how often the current item has come again. -/
structure Counted (state : State Item) : Prop where
  quiet : state.overflowed = false
  attempts : ∀ item, state.delayedItem = some item →
    item.attempt = again item.value state.arrived

omit [Std.TransOrd Item] in
theorem Counted.take (counted : Counted state) {new : Item}
    (record : ∀ input ∈ state.arrived, compare input new = .lt) : Counted (state.take new) := by
  refine ⟨counted.quiet, ?_⟩
  intro item kept
  obtain rfl := Option.some.inj kept
  exact (again_new record).symm

/-- The condition on what has arrived, for the item that is kept. -/
theorem fits_iff (invariant : Invariant state) {config : Config} {item : DelayedItem Item}
    (kept : state.delayedItem = some item) (new : Item) (now : Nat) :
    fits config state (.item new now) ↔ (compare item.value new = .eq →
      again item.value state.arrived < 32 ∧
        2 ^ again item.value state.arrived * config.delayDuration < 2 ^ 64 * 10 ^ 9 ∧
        now + 2 ^ again item.value state.arrived * config.delayDuration ≤ config.lastInstant) := by
  have current := invariant.current item kept
  constructor
  · intro fits same
    exact fits item.value current.arrived current.reigns same
  · intro fits value found reigns same
    have equal : compare item.value value = .eq := current.reigns.unique reigns
    rw [← again_congr equal]
    exact fits (TransCmp.eq_trans equal same)

theorem Counted.requeue (counted : Counted state) (invariant : Invariant state) {config : Config}
    {item : DelayedItem Item} (kept : state.delayedItem = some item) {new : Item} {now : Nat}
    (same : compare item.value new = .eq) :
    ((state.requeue config new now item).overflowed = false ↔ fits config state (.item new now)) ∧
      (fits config state (.item new now) → Counted (state.requeue config new now item)) := by
  have current := invariant.current item kept
  have attempts := counted.attempts item kept
  have overflowed : (state.requeue config new now item).overflowed =
      !(item.expBackoff { config with overflowChecks := true } now).isOk := by
    rw [State.requeue, counted.quiet, Bool.false_or]
    cases item.expBackoff config now <;> rfl
  have fine : (item.expBackoff { config with overflowChecks := true } now).isOk = true ↔
      fits config state (.item new now) := by
    rw [fits_iff invariant kept, ← attempts, ← DelayedItem.expBackoff_checked_iff]
    cases item.expBackoff { config with overflowChecks := true } now with
    | error panic => simp [Except.isOk, Except.toBool, same]
    | ok delayed => simp [Except.isOk, Except.toBool]
  have exact : (state.requeue config new now item).overflowed = false ↔
      fits config state (.item new now) := by
    rw [overflowed, Bool.not_eq_false', fine]
  refine ⟨exact, fun fits => ⟨exact.mpr fits, ?_⟩⟩
  rw [fits_iff invariant kept] at fits
  obtain ⟨small, inside, early⟩ := fits same
  rw [← attempts] at small inside early
  intro kept' found
  rw [State.requeue, DelayedItem.expBackoff_fits small inside early] at found ⊢
  obtain rfl := Option.some.inj found
  dsimp only
  rw [again, if_pos ⟨OrientedCmp.eq_symm same, current.reigns⟩, attempts]

theorem Counted.receive (counted : Counted state) (invariant : Invariant state) {config : Config}
    {new : Item} {now : Nat} :
    ((state.receive config new now).overflowed = false ↔ fits config state (.item new now)) ∧
      (fits config state (.item new now) → Counted (state.receive config new now)) := by
  cases kept : state.delayedItem with
  | none =>
    obtain ⟨arrived, -⟩ := invariant.start kept
    have nothing : fits config state (.item new now) := by
      intro value found
      rw [arrived] at found
      cases found
    rw [State.receive, kept]
    refine ⟨iff_of_true counted.quiet nothing, fun _ => counted.take ?_⟩
    rw [arrived]
    exact List.forall_mem_nil _
  | some item =>
    have current := invariant.current item kept
    rw [State.receive_some kept]
    cases order : compare item.value new with
    | lt =>
      have apart : fits config state (.item new now) := by
        rw [fits_iff invariant kept, order]
        exact nofun
      refine ⟨iff_of_true counted.quiet apart, fun _ => counted.take ?_⟩
      exact fun input found => TransCmp.lt_of_isLE_of_lt (current.reigns.2 input found) order
    | eq => exact counted.requeue invariant kept order
    | gt =>
      have apart : fits config state (.item new now) := by
        rw [fits_iff invariant kept, order]
        exact nofun
      refine ⟨iff_of_true counted.quiet apart, fun _ => ⟨counted.quiet, ?_⟩⟩
      intro kept' found
      dsimp only at found ⊢
      have below : ¬ (compare new kept'.value = .eq ∧ Reigns state.arrived kept'.value) := by
        rintro ⟨same, -⟩
        rw [kept] at found
        obtain rfl := Option.some.inj found
        rw [OrientedCmp.eq_symm same] at order
        cases order
      rw [again, if_neg below]
      exact counted.attempts kept' found

/-- An operation of the back-off overflows exactly where the condition fails. -/
theorem Counted.step (counted : Counted state) (invariant : Invariant state) {config : Config}
    {event : Event Item} {next : State Item} (taken : state.step config event = some next) :
    (next.overflowed = false ↔ fits config state event) ∧
      (fits config state event → Counted next) := by
  cases event with
  | item new now =>
    rw [State.step, Option.ite_none_left_eq_some] at taken
    obtain rfl := Option.some.inj taken.2
    exact counted.receive invariant
  | pending elapsed =>
    rw [State.step, Option.ite_none_left_eq_some] at taken
    obtain rfl := Option.some.inj taken.2
    have kept : Counted (state.pollDelay elapsed) := by
      rw [State.pollDelay]
      cases found : state.delayedItem with
      | none => exact counted
      | some item =>
        dsimp only
        split
        · refine ⟨counted.quiet, ?_⟩
          intro kept' same
          obtain rfl := Option.some.inj same
          exact counted.attempts item found
        · exact counted
    exact ⟨iff_of_true kept.quiet trivial, fun _ => kept⟩
  | finished =>
    rw [State.step, Option.ite_none_left_eq_some] at taken
    obtain rfl := Option.some.inj taken.2
    have kept : Counted { state with ended := true } := ⟨counted.quiet, counted.attempts⟩
    exact ⟨iff_of_true kept.quiet trivial, fun _ => kept⟩

theorem counted_reachable {config : Config}
    (reached : Reachable (system config) (fits config) state) : Counted state := by
  induction reached with
  | start initial =>
    obtain rfl := initial
    exact ⟨rfl, fun _ kept => nomatch kept⟩
  | next before allows taken ih =>
    exact (ih.step (invariant_reachable (before.mono fun _ _ _ => trivial)) taken).2 allows

end steps

/-- The running maximum is yielded in every run; the back-off overflows when an item has come
again too often. -/
theorem yields_running_maximum {Item : Type} [Ord Item] [Std.TransOrd Item] (config : Config) :
    (∀ state : State Item, Reachable (system config) always state → RunningMaximum state) ∧
    (∀ state : State Item, Reachable (system config) (fits config) state →
      state.overflowed = false) ∧
    ∀ (state next : State Item) event, Reachable (system config) (fits config) state →
      state.step config event = some next → (next.overflowed = false ↔ fits config state event) := by
  refine ⟨?_, ?_, ?_⟩
  · intro state reached
    exact (invariant_reachable reached).maximum
  · intro state reached
    exact (counted_reachable reached).quiet
  · intro state next event reached taken
    have invariant := invariant_reachable (reached.mono fun _ _ _ => trivial)
    exact ((counted_reachable reached).step invariant taken).1

/-- The delay of the miner, on a platform with 64 bits of seconds. -/
def minerConfig : Config where
  delayDuration := 3 * 10 ^ 9
  overflowChecks := true
  lastInstant := (2 ^ 63 - 1) * 10 ^ 9

def submission : SubmissionParameters where
  chain := "pocx"
  blockCount := 1
  nonceSubmission :=
    { blockHash := "00", blockHeight := 10, generationSignature := "00", baseTarget := 5,
      accountId := "00", seed := "00", nonce := 3, rawQuality := 7, compression := 1 }

/-- A submission that comes twice is yielded twice. -/
theorem submission_repeated :
    ∃ state, Transition.run (system minerConfig) initialState
        [.item submission 0, .item submission 0, .pending true] = some state ∧
      RunningMaximum state ∧ state.overflowed = false := by
  obtain ⟨maximum, quiet, exact⟩ := @yields_running_maximum SubmissionParameters _ _ minerConfig
  have first : fits minerConfig initialState (.item submission 0) := nofun
  have once : Reachable (system minerConfig) (fits minerConfig)
      (initialState.receive minerConfig submission 0) := .next (.start rfl) first rfl
  have second : fits minerConfig (initialState.receive minerConfig submission 0)
      (.item submission 0) := by
    rw [← exact _ _ _ once rfl]
    decide +kernel
  have twice := once.next second rfl
  have third : fits minerConfig ((initialState.receive minerConfig submission 0).receive minerConfig
      submission 0) (.pending true) := trivial
  have elapsed := twice.next third rfl
  exact ⟨_, rfl, maximum _ (elapsed.mono fun _ _ _ => trivial), quiet _ elapsed⟩

/-- The thirty-third repetition overflows. -/
theorem repetitions_overflow :
    ¬ ∀ state : State SubmissionParameters, Reachable (system minerConfig) always state →
      state.overflowed = false := by
  intro quiet
  have ran : (Transition.run (system minerConfig) initialState
      (List.replicate 34 (.item submission 0))).map State.overflowed = some true := by
    decide +kernel
  obtain ⟨state, complete, overflowed⟩ := Option.map_eq_some_iff.mp ran
  have reached := Reachable.run _ (.start rfl) complete
  rw [quiet state reached] at overflowed
  cases overflowed

end Pocx.PrioRetry
