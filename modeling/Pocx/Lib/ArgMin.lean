set_option autoImplicit false

namespace ArgMin

variable {α : Type} [LE α] [LT α] [Std.LawfulOrderLT α] [Std.IsLinearOrder α] [DecidableLT α]

/-- Look at `count` indexed values in order. A smaller one replaces the best. -/
def search (value : Nat → α) (start count : Nat) (best : α × Nat) : α × Nat :=
  (List.range count).foldl
    (fun best i => if value (start + i) < best.1 then (value (start + i), start + i) else best)
    best

/-- The minimum of `count` values, at its first index. -/
structure Least (value : Nat → α) (count : Nat) (best : α × Nat) : Prop where
  inside : best.2 < count
  attained : value best.2 = best.1
  least : ∀ i < count, best.1 ≤ value i
  first : ∀ i < best.2, best.1 < value i

omit [LE α] [Std.LawfulOrderLT α] [Std.IsLinearOrder α] in
theorem search_zero (value : Nat → α) (start : Nat) (best : α × Nat) :
    search value start 0 best = best := rfl

omit [LE α] [Std.LawfulOrderLT α] [Std.IsLinearOrder α] in
theorem search_succ (value : Nat → α) (start count : Nat) (best : α × Nat) :
    search value start (count + 1) best =
      let before := search value start count best
      if value (start + count) < before.1 then (value (start + count), start + count)
      else before := by
  rw [search, List.range_succ, List.foldl_append]
  rfl

omit [LE α] [Std.LawfulOrderLT α] [Std.IsLinearOrder α] in
theorem search_add (value : Nat → α) (start first second : Nat) (best : α × Nat) :
    search value start (first + second) best =
      search value (start + first) second (search value start first best) := by
  induction second with
  | zero => rfl
  | succ second ih => rw [← Nat.add_assoc, search_succ, search_succ, ih, Nat.add_assoc]

/-- What the search ends with is no larger than anything it has looked at. -/
theorem search_le (value : Nat → α) (start count : Nat) (best : α × Nat) :
    (search value start count best).1 ≤ best.1 ∧
      ∀ i < count, (search value start count best).1 ≤ value (start + i) := by
  induction count with
  | zero => exact ⟨Std.le_refl _, nofun⟩
  | succ count ih =>
    obtain ⟨below, least⟩ := ih
    rw [search_succ]
    refine ⟨by grind, ?_⟩
    intro i inside
    have earlier := least i
    by_cases last : i = count
    · grind
    · grind

/-- The best stays where no value is smaller. -/
theorem search_stays (value : Nat → α) (start count : Nat) (best : α × Nat) :
    search value start count best = best ↔ ∀ i < count, best.1 ≤ value (start + i) := by
  constructor
  · intro stays i inside
    have least := (search_le value start count best).2 i inside
    rw [stays] at least
    exact least
  · intro above
    induction count with
    | zero => rfl
    | succ count ih =>
      have before := ih fun i inside => above i (Nat.lt_succ_of_lt inside)
      have last := above count (Nat.lt_succ_self _)
      rw [search_succ, before]
      grind

/-- Over no value, the best is still the bound it started with. -/
theorem search_bound (value : Nat → α) (count : Nat) (top : α) :
    (search value 0 count (top, 0) = (top, 0) ∧ ∀ i < count, top ≤ value i) ∨
      Least value count (search value 0 count (top, 0)) := by
  induction count with
  | zero => exact Or.inl ⟨rfl, nofun⟩
  | succ count ih =>
    simp only [search_succ, Nat.zero_add]
    rcases ih with ⟨unchanged, above⟩ | found
    · rw [unchanged]
      split
      · rename_i smaller
        refine Or.inr ⟨Nat.lt_succ_self _, rfl, ?_, ?_⟩
        · intro i inside
          have earlier := above i
          grind
        · intro i before
          have earlier := above i before
          grind
      · refine Or.inl ⟨rfl, ?_⟩
        intro i inside
        have earlier := above i
        grind
    · obtain ⟨inside, attained, least, first⟩ := found
      split
      · refine Or.inr ⟨Nat.lt_succ_self _, rfl, ?_, ?_⟩
        · intro i inside'
          have earlier := least i
          grind
        · intro i before
          have earlier := least i before
          grind
      · refine Or.inr ⟨Nat.lt_succ_of_lt inside, attained, ?_, first⟩
        intro i inside'
        have earlier := least i
        grind

/-- From a bound of all values the search finds the first minimum. -/
theorem search_least (value : Nat → α) (count : Nat) (top : α) (positive : 0 < count)
    (bounded : ∀ i < count, value i ≤ top) :
    Least value count (search value 0 count (top, 0)) := by
  rcases search_bound value count top with ⟨unchanged, above⟩ | found
  · rw [unchanged]
    refine ⟨positive, ?_, above, nofun⟩
    exact Std.le_antisymm (bounded 0 positive) (above 0 positive)
  · exact found

omit [DecidableLT α] in
theorem Least.unique {value : Nat → α} {count : Nat} {best best' : α × Nat}
    (least : Least value count best) (least' : Least value count best') : best = best' := by
  obtain ⟨inside, attained, least, first⟩ := least
  obtain ⟨inside', attained', least', first'⟩ := least'
  have value_le := least best'.2 inside'
  have value_ge := least' best.2 inside
  have before := first best'.2
  have behind := first' best.2
  apply Prod.ext
  · grind
  · grind

end ArgMin
