import Mathlib.Algebra.Ring.Nat

set_option autoImplicit false

namespace Panicking

/-- Why a computation stops. -/
inductive Panic
  | divisionByZero
  | badSlice
  | overflow
  | capacityOverflow
  | failedAssertion
deriving DecidableEq

/-- Division of unsigned integers. -/
def divide (a b : Nat) : Except Panic Nat :=
  if b = 0 then .error .divisionByZero else .ok (a / b)

theorem divide_ok {b : Nat} (nonzero : b ≠ 0) (a : Nat) : divide a b = .ok (a / b) := if_neg nonzero

theorem ok_bind {ε α β : Type} (value : α) (next : α → Except ε β) :
    (Except.ok value >>= next) = next value := rfl

theorem bind_eq_ok {ε α β : Type} {first : Except ε α} {next : α → Except ε β} {result : β} :
    (first >>= next) = .ok result ↔ ∃ value, first = .ok value ∧ next value = .ok result := by
  cases first with
  | error failure => exact iff_of_false nofun fun ⟨_, failed, _⟩ => nomatch failed
  | ok value =>
    constructor
    · exact fun done => ⟨value, rfl, done⟩
    · rintro ⟨_, same, done⟩
      obtain rfl := Except.ok.inj same
      exact done

theorem guarded_eq_ok {ε α : Type} {condition : Prop} [Decidable condition] {failure : ε}
    {value result : α} :
    (if condition then .ok value else .error failure) = Except.ok result ↔
      condition ∧ result = value := by
  by_cases holds : condition
  · rw [if_pos holds, and_iff_right holds, Except.ok.injEq]
    exact eq_comm
  · rw [if_neg holds]
    exact iff_of_false nofun fun both => holds both.1

/-- The result of an unsigned operation on so many bits: where it does not fit it panics or is
wrapped around. -/
def fit (bits : Nat) (overflowChecks : Bool) (exact : Nat) : Except Panic Nat :=
  if exact < 2 ^ bits then .ok exact
  else if overflowChecks then .error .overflow
  else .ok (exact % 2 ^ bits)

theorem fit_checked {bits exact result : Nat} :
    fit bits true exact = .ok result ↔ exact < 2 ^ bits ∧ result = exact := by
  rw [fit, if_pos rfl]
  exact guarded_eq_ok

theorem fit_ok {bits exact : Nat} (small : exact < 2 ^ bits) (overflowChecks : Bool) :
    fit bits overflowChecks exact = .ok exact := if_pos small

theorem fit_eq_ok {bits exact result : Nat} (small : exact < 2 ^ bits) (overflowChecks : Bool) :
    fit bits overflowChecks exact = .ok result ↔ result = exact := by
  rw [fit_ok small, Except.ok.injEq]
  exact eq_comm

/-- The difference of two unsigned integers of so many bits. -/
def subtract (bits : Nat) (overflowChecks : Bool) (a b : Nat) : Except Panic Nat :=
  if b ≤ a then .ok (a - b)
  else if overflowChecks then .error .overflow
  else .ok (a + 2 ^ bits - b)

theorem subtract_ok {a b : Nat} (le : b ≤ a) (bits : Nat) (overflowChecks : Bool) :
    subtract bits overflowChecks a b = .ok (a - b) := if_pos le

/-- A power of two as a shift of one. The amount is masked where overflow is not checked. -/
def shiftOne (bits : Nat) (overflowChecks : Bool) (amount : Nat) : Except Panic Nat :=
  if amount < bits then .ok (2 ^ amount)
  else if overflowChecks then .error .overflow
  else .ok (2 ^ (amount % bits))

theorem shiftOne_ok {bits amount : Nat} (small : amount < bits) (overflowChecks : Bool) :
    shiftOne bits overflowChecks amount = .ok (2 ^ amount) := if_pos small

theorem shiftOne_checked {bits amount result : Nat} :
    shiftOne bits true amount = .ok result ↔ amount < bits ∧ result = 2 ^ amount := by
  rw [shiftOne, if_pos rfl]
  exact guarded_eq_ok

/-- Room for so many elements; an allocation takes at most `isize::MAX` bytes. -/
def withCapacity (elementSize capacity : Nat) : Except Panic Nat :=
  if elementSize * capacity < 2 ^ 63 then .ok capacity else .error .capacityOverflow

/-- The capacity of a vector with room for `needed` elements; it at least doubles. -/
def grown (capacity needed : Nat) : Nat :=
  if needed ≤ capacity then capacity else max (max (2 * capacity) needed) 4

theorem le_grown (capacity needed : Nat) : capacity ≤ grown capacity needed := by
  rw [grown]
  split <;> omega

def reserve (elementSize capacity needed : Nat) : Except Panic Nat :=
  if needed ≤ capacity then .ok capacity
  else withCapacity elementSize (grown capacity needed)

theorem reserve_ok_iff {elementSize capacity needed result : Nat}
    (held : elementSize * capacity < 2 ^ 63) :
    reserve elementSize capacity needed = .ok result ↔
      elementSize * grown capacity needed < 2 ^ 63 ∧ result = grown capacity needed := by
  rw [reserve]
  by_cases room : needed ≤ capacity
  · rw [if_pos room, grown, if_pos room, and_iff_right held, Except.ok.injEq]
    exact eq_comm
  · rw [if_neg room]
    exact guarded_eq_ok

theorem mapM_ok {ε α β : Type} {f : α → Except ε β} {g : α → β} {items : List α}
    (each : ∀ item ∈ items, f item = .ok (g item)) : items.mapM f = .ok (items.map g) := by
  induction items with
  | nil => rfl
  | cons item rest ih =>
    have later := ih fun item listed => each item (List.mem_cons_of_mem _ listed)
    rw [List.mapM_cons, each item List.mem_cons_self, later]
    rfl

theorem forM_eq_ok {ε α : Type} {f : α → Except ε Unit} {items : List α} :
    items.forM f = .ok () ↔ ∀ item ∈ items, f item = .ok () := by
  induction items with
  | nil => exact iff_of_true rfl (List.forall_mem_nil _)
  | cons item rest ih =>
    rw [List.forM_eq_forM, List.forM_cons, List.forall_mem_cons, ← ih]
    constructor
    · intro done
      obtain ⟨value, first, later⟩ := bind_eq_ok.mp done
      exact ⟨first, later⟩
    · rintro ⟨first, later⟩
      exact bind_eq_ok.mpr ⟨(), first, later⟩

/-- A loop stops at its first failure. -/
theorem forM_stops {ε α : Type} {f : α → Except ε Unit} {front back : List α} {item : α}
    {failure : ε} (passes : ∀ earlier ∈ front, f earlier = .ok ())
    (fails : f item = .error failure) : (front ++ item :: back).forM f = .error failure := by
  induction front with
  | nil =>
    rw [List.nil_append, List.forM_eq_forM, List.forM_cons, fails]
    rfl
  | cons earlier rest ih =>
    rw [List.forall_mem_cons] at passes
    rw [List.cons_append, List.forM_eq_forM, List.forM_cons, passes.1]
    exact ih passes.2

theorem ok_of_mapM {ε α β : Type} {f : α → Except ε β} {items : List α} {results : List β}
    (done : items.mapM f = .ok results) : ∀ item ∈ items, ∃ result, f item = .ok result := by
  induction items generalizing results with
  | nil => exact fun _ listed => nomatch listed
  | cons item rest ih =>
    rw [List.mapM_cons, bind_eq_ok] at done
    obtain ⟨result, first, done⟩ := done
    obtain ⟨later, others, -⟩ := bind_eq_ok.mp done
    intro other listed
    rcases List.mem_cons.mp listed with rfl | behind
    · exact ⟨result, first⟩
    · exact ih others other behind

/-- The characters that take the first `n` bytes of a text in UTF-8, if any do. -/
def takeBytes : List Char → Nat → Option (List Char)
  | _, 0 => some []
  | [], _ + 1 => none
  | c :: rest, n + 1 =>
    if c.utf8Size ≤ n + 1 then (takeBytes rest (n + 1 - c.utf8Size)).map (c :: ·) else none

/-- `&text[..stop]` -/
def sliceTo (text : String) (stop : Nat) : Except Panic String :=
  match takeBytes text.toList stop with
  | some front => .ok (String.ofList front)
  | none => .error .badSlice

/-- A text can be sliced where some of its first characters end. -/
def IsBoundary (text : String) (stop : Nat) : Prop :=
  ∃ front, front <+: text.toList ∧ (front.map Char.utf8Size).sum = stop

theorem takeBytes_eq_some (chars : List Char) (stop : Nat) (front : List Char) :
    takeBytes chars stop = some front ↔
      front <+: chars ∧ (front.map Char.utf8Size).sum = stop := by
  induction chars, stop using takeBytes.induct generalizing front with
  | case1 chars =>
    cases front with
    | nil => simp [takeBytes]
    | cons c rest =>
      have positive := c.utf8Size_pos
      simp only [takeBytes, Option.some.injEq, reduceCtorEq, List.map_cons, List.sum_cons, false_iff]
      omega
  | case2 n =>
    cases front with
    | nil => simp [takeBytes]
    | cons c rest => simp [takeBytes]
  | case3 c rest n fits ih =>
    cases front with
    | nil => simp [takeBytes]
    | cons d front =>
      rw [takeBytes, if_pos fits, Option.map_eq_some_iff]
      simp only [List.cons.injEq, List.cons_prefix_cons, List.map_cons, List.sum_cons, ih]
      constructor
      · rintro ⟨front, ⟨extends_, size⟩, rfl, rfl⟩
        exact ⟨⟨rfl, extends_⟩, by omega⟩
      · rintro ⟨⟨rfl, extends_⟩, size⟩
        exact ⟨front, ⟨extends_, by omega⟩, rfl, rfl⟩
  | case4 c rest n large =>
    cases front with
    | nil => simp [takeBytes, large]
    | cons d front =>
      rw [takeBytes, if_neg large]
      simp only [reduceCtorEq, List.cons_prefix_cons, List.map_cons, List.sum_cons, false_iff]
      rintro ⟨⟨rfl, -⟩, size⟩
      omega

theorem sliceTo_ok_iff (text : String) (stop : Nat) :
    (∃ front, sliceTo text stop = .ok front) ↔ IsBoundary text stop := by
  rw [sliceTo, IsBoundary]
  cases found : takeBytes text.toList stop with
  | none =>
    simp only [reduceCtorEq, exists_false, false_iff]
    rintro ⟨front, reached⟩
    rw [← takeBytes_eq_some, found] at reached
    cases reached
  | some front =>
    simp only [Except.ok.injEq, exists_eq', true_iff]
    exact ⟨front, (takeBytes_eq_some _ _ _).mp found⟩

end Panicking
