set_option autoImplicit false

namespace Transition

variable {σ α : Type}

/-- A system moves by labelled steps; a label that is not enabled gives no state. -/
structure System (σ α : Type) where
  initial : σ → Prop
  step : σ → α → Option σ

/-- The states of the runs whose every step is allowed in the state it leaves. -/
inductive Reachable (system : System σ α) (allowed : σ → α → Prop) : σ → Prop
  | start {state : σ} (initial : system.initial state) : Reachable system allowed state
  | next {before after : σ} {label : α} (reached : Reachable system allowed before)
      (allows : allowed before label) (taken : system.step before label = some after) :
      Reachable system allowed after

/-- Every step is allowed. -/
def always : σ → α → Prop := fun _ _ => True

theorem Reachable.mono {system : System σ α} {strict loose : σ → α → Prop}
    (weaker : ∀ state label, strict state label → loose state label) {state : σ}
    (reached : Reachable system strict state) : Reachable system loose state := by
  induction reached with
  | start initial => exact .start initial
  | next _ allows taken ih => exact .next ih (weaker _ _ allows) taken

/-- What holds initially and survives every allowed step holds of every run. -/
theorem Reachable.invariant {system : System σ α} {allowed : σ → α → Prop}
    (property : σ → Prop) (initially : ∀ state, system.initial state → property state)
    (preserved : ∀ before label after, property before → allowed before label →
      system.step before label = some after → property after)
    {state : σ} (reached : Reachable system allowed state) : property state := by
  induction reached with
  | start initial => exact initially _ initial
  | next _ allows taken ih => exact preserved _ _ _ ih allows taken

/-- Where an invariant of the restricted runs admits every step, no run is lost. -/
theorem Reachable.restrict {system : System σ α} {strict : σ → α → Prop} (property : σ → Prop)
    (holds : ∀ state, Reachable system strict state → property state)
    (admits : ∀ state label, property state → strict state label) {state : σ}
    (reached : Reachable system always state) : Reachable system strict state := by
  induction reached with
  | start initial => exact .start initial
  | next _ _ taken ih => exact .next ih (admits _ _ (holds _ ih)) taken

/-- Execute the labels from left to right. -/
def run (system : System σ α) : σ → List α → Option σ
  | state, [] => some state
  | state, label :: rest => (system.step state label).bind fun after => run system after rest

theorem run_cons {system : System σ α} {state final : σ} {label : α} {rest : List α}
    (complete : run system state (label :: rest) = some final) :
    ∃ after, system.step state label = some after ∧ run system after rest = some final :=
  Option.bind_eq_some_iff.mp complete

theorem run_append (system : System σ α) (state : σ) (first second : List α) :
    run system state (first ++ second) =
      (run system state first).bind fun after => run system after second := by
  induction first generalizing state with
  | nil => rfl
  | cons label rest ih =>
    simp only [List.cons_append, run, ih, Option.bind_assoc]

/-- Every state an execution ends in is reachable. -/
theorem Reachable.run {system : System σ α} {state final : σ} (labels : List α)
    (reached : Reachable system always state)
    (complete : Transition.run system state labels = some final) :
    Reachable system always final := by
  induction labels generalizing state with
  | nil =>
    cases complete
    exact reached
  | cons label rest ih =>
    obtain ⟨after, taken, remaining⟩ := run_cons complete
    exact ih (.next reached trivial taken) remaining

/-- Execute the labels from left to right as long as each is allowed. -/
def runAllowed (system : System σ α) (allowed : σ → α → Bool) : σ → List α → Option σ
  | state, [] => some state
  | state, label :: rest =>
    if allowed state label then
      (system.step state label).bind fun after => runAllowed system allowed after rest
    else none

theorem Reachable.runAllowed {system : System σ α} {allowed : σ → α → Bool} {state final : σ}
    (labels : List α) (reached : Reachable system (fun state label => allowed state label) state)
    (complete : Transition.runAllowed system allowed state labels = some final) :
    Reachable system (fun state label => allowed state label) final := by
  induction labels generalizing state with
  | nil =>
    cases complete
    exact reached
  | cons label rest ih =>
    simp only [Transition.runAllowed, Option.ite_none_right_eq_some] at complete
    obtain ⟨after, taken, remaining⟩ := Option.bind_eq_some_iff.mp complete.2
    exact ih (.next reached complete.1 taken) remaining

/-- An execution of labels that are allowed wherever they are taken. -/
theorem Reachable.admitted {system : System σ α} {allowed : σ → α → Prop} {state final : σ}
    (labels : List α) (admits : ∀ label ∈ labels, ∀ state, allowed state label)
    (reached : Reachable system allowed state)
    (complete : Transition.run system state labels = some final) :
    Reachable system allowed final := by
  induction labels generalizing state with
  | nil =>
    cases complete
    exact reached
  | cons label rest ih =>
    obtain ⟨after, taken, remaining⟩ := run_cons complete
    exact ih (fun later member => admits later (List.mem_cons_of_mem _ member))
      (.next reached (admits label List.mem_cons_self state) taken) remaining

/-- A property that the steps preserve holds wherever an execution ends. -/
theorem run_invariant {system : System σ α} (property : σ → Prop)
    (preserved : ∀ before label after, property before →
      system.step before label = some after → property after)
    {state final : σ} (labels : List α) (holds : property state)
    (complete : run system state labels = some final) : property final := by
  induction labels generalizing state with
  | nil =>
    cases complete
    exact holds
  | cons label rest ih =>
    obtain ⟨after, taken, remaining⟩ := run_cons complete
    exact ih (preserved _ _ _ holds taken) remaining

/-- Where every step from a state of an invariant decreases a measure, no execution
has more steps than the measure it starts with. -/
theorem run_bounded {system : System σ α} (property : σ → Prop) (measure : σ → Nat)
    (preserved : ∀ before label after, property before →
      system.step before label = some after → property after)
    (decreases : ∀ before label after, property before →
      system.step before label = some after → measure after < measure before)
    {state final : σ} (labels : List α) (holds : property state)
    (complete : run system state labels = some final) : labels.length ≤ measure state := by
  induction labels generalizing state with
  | nil => exact Nat.zero_le _
  | cons label rest ih =>
    obtain ⟨after, taken, remaining⟩ := run_cons complete
    have shorter := ih (preserved _ _ _ holds taken) remaining
    have smaller := decreases _ _ _ holds taken
    simp only [List.length_cons]
    omega

/-- Where moreover every state outside the goal has an enabled step, some execution
ends in the goal. -/
theorem run_reaches {system : System σ α} (property goal : σ → Prop) (measure : σ → Nat)
    (preserved : ∀ before label after, property before →
      system.step before label = some after → property after)
    (decreases : ∀ before label after, property before →
      system.step before label = some after → measure after < measure before)
    (progress : ∀ state, property state → ¬ goal state →
      ∃ label after, system.step state label = some after)
    (state : σ) (holds : property state) :
    ∃ labels final, run system state labels = some final ∧ goal final := by
  by_cases reached : goal state
  · exact ⟨[], state, rfl, reached⟩
  · obtain ⟨label, after, taken⟩ := progress state holds reached
    have smaller := decreases _ _ _ holds taken
    obtain ⟨labels, final, complete, arrived⟩ :=
      run_reaches property goal measure preserved decreases progress after
        (preserved _ _ _ holds taken)
    refine ⟨label :: labels, final, ?_, arrived⟩
    simp only [run, taken, Option.bind_some, complete]
termination_by measure state

end Transition
