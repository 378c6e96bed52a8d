set_option autoImplicit false

namespace RoundRobin

/-- The first active slot behind `current`, which is its own last candidate. -/
def next (count : Nat) (active : Nat → Bool) (current : Nat) : Option Nat :=
  ((List.range count).map fun i => (current + (i + 1)) % count).find? active

variable {count : Nat} {active : Nat → Bool} {current : Nat}

theorem next_some {found : Nat} (search : next count active current = some found) :
    found < count ∧ active found = true := by
  refine ⟨?_, List.find?_some search⟩
  obtain ⟨i, listed, rfl⟩ := List.mem_map.mp (List.mem_of_find?_eq_some search)
  exact Nat.mod_lt _ (Nat.zero_lt_of_lt (List.mem_range.mp listed))

/-- Every slot is a candidate. -/
theorem candidate {slot : Nat} (inside : current < count) (slotLt : slot < count) :
    ∃ i, i < count ∧ (current + (i + 1)) % count = slot := by
  by_cases behind : slot ≤ current
  · refine ⟨count - 1 - (current - slot), by omega, ?_⟩
    rw [Nat.mod_eq_sub_mod (by omega), Nat.mod_eq_of_lt (by omega)]
    omega
  · exact ⟨slot - current - 1, by omega, by rw [Nat.mod_eq_of_lt (by omega)]; omega⟩

theorem next_none (inside : current < count) (missing : next count active current = none)
    {slot : Nat} (slotLt : slot < count) : active slot = false := by
  rw [next, List.find?_eq_none] at missing
  obtain ⟨i, small, rfl⟩ := candidate inside slotLt
  have idle := missing _ (List.mem_map.mpr ⟨i, List.mem_range.mpr small, rfl⟩)
  exact Bool.eq_false_iff.mpr idle

end RoundRobin
