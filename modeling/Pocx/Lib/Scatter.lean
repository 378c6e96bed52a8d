import Mathlib.Logic.Function.Basic

set_option autoImplicit false

namespace Scatter

variable {κ ν ι : Type} [DecidableEq κ]

/-- Each cell that passes the guard updates its own address, in the order of the list. -/
def run (inside : ι → Bool) (address : ι → κ) (put : ι → ν → ν) (memory : κ → ν) (cells : List ι) :
    κ → ν :=
  cells.foldl
    (fun memory cell =>
      if inside cell then
        Function.update memory (address cell) (put cell (memory (address cell)))
      else memory)
    memory

variable (inside : ι → Bool) (address : ι → κ) (put : ι → ν → ν)

theorem run_cons (memory : κ → ν) (cell : ι) (cells : List ι) :
    run inside address put memory (cell :: cells) =
      run inside address put
        (if inside cell then
          Function.update memory (address cell) (put cell (memory (address cell)))
        else memory) cells := rfl

theorem run_outside (memory : κ → ν) (cells : List ι) (place : κ)
    (apart : ∀ cell ∈ cells, address cell ≠ place) :
    run inside address put memory cells place = memory place := by
  induction cells generalizing memory with
  | nil => rfl
  | cons cell cells ih =>
    rw [run_cons, ih _ (fun later member => apart later (List.mem_cons_of_mem _ member))]
    split
    · exact Function.update_of_ne (Ne.symm (apart cell List.mem_cons_self)) _ _
    · rfl

/-- Where no two cells share an address, each cell finds the old value there, whatever
the order. -/
theorem run_inside (memory : κ → ν) (cells : List ι) (distinct : (cells.map address).Nodup)
    (cell : ι) (listed : cell ∈ cells) (guarded : inside cell = true) :
    run inside address put memory cells (address cell) = put cell (memory (address cell)) := by
  induction cells generalizing memory with
  | nil => cases listed
  | cons first cells ih =>
    rw [List.map_cons, List.nodup_cons] at distinct
    obtain ⟨fresh, distinct⟩ := distinct
    have apart : ∀ later ∈ cells, address later ≠ address first := by
      intro later member same
      exact fresh (same ▸ List.mem_map_of_mem member)
    rcases List.mem_cons.mp listed with rfl | later
    · rw [run_cons, run_outside inside address put _ cells _ apart, if_pos guarded,
        Function.update_self]
    · rw [run_cons, ih _ distinct later]
      split
      · rw [Function.update_of_ne (apart cell later)]
      · rfl

/-- What a cell that the guard skips would put does not matter. -/
theorem run_congr (put' : ι → ν → ν) (memory : κ → ν) (cells : List ι)
    (same : ∀ cell ∈ cells, inside cell = true → put cell = put' cell) :
    run inside address put memory cells = run inside address put' memory cells := by
  induction cells generalizing memory with
  | nil => rfl
  | cons cell cells ih =>
    rw [run_cons, run_cons, ih _ (fun later member => same later (List.mem_cons_of_mem _ member))]
    split
    · rename_i guarded
      rw [same cell List.mem_cons_self guarded]
    · rfl

/-- The cells that the guard skips may be left out. -/
theorem run_filter (memory : κ → ν) (cells : List ι) :
    run inside address put memory cells = run inside address put memory (cells.filter inside) := by
  induction cells generalizing memory with
  | nil => rfl
  | cons cell cells ih =>
    rw [run_cons, ih]
    by_cases guarded : inside cell = true
    · rw [List.filter_cons_of_pos guarded, run_cons]
    · rw [List.filter_cons_of_neg guarded, if_neg guarded]

/-- Each cell that passes the guard writes a value that it reads off the whole memory. -/
def sweep (inside : ι → Bool) (address : ι → κ) (value : ι → (κ → ν) → ν) (memory : κ → ν)
    (cells : List ι) : κ → ν :=
  cells.foldl
    (fun memory cell =>
      if inside cell then Function.update memory (address cell) (value cell memory) else memory)
    memory

section sweep

variable (value : ι → (κ → ν) → ν)

theorem sweep_cons (memory : κ → ν) (cell : ι) (cells : List ι) :
    sweep inside address value memory (cell :: cells) =
      sweep inside address value
        (if inside cell then Function.update memory (address cell) (value cell memory)
        else memory) cells := rfl

theorem sweep_outside (memory : κ → ν) (cells : List ι) (place : κ)
    (apart : ∀ cell ∈ cells, address cell ≠ place) :
    sweep inside address value memory cells place = memory place := by
  induction cells generalizing memory with
  | nil => rfl
  | cons cell cells ih =>
    rw [sweep_cons, ih _ (fun later member => apart later (List.mem_cons_of_mem _ member))]
    split
    · exact Function.update_of_ne (Ne.symm (apart cell List.mem_cons_self)) _ _
    · rfl

/-- Where no cell writes what another one reads, each cell reads the old memory, whatever
the order. -/
theorem sweep_inside (memory : κ → ν) (cells : List ι) (distinct : (cells.map address).Nodup)
    (separate : ∀ cell ∈ cells, ∀ other ∈ cells, address other ≠ address cell →
      ∀ (before : κ → ν) (new : ν),
        value cell (Function.update before (address other) new) = value cell before)
    (cell : ι) (listed : cell ∈ cells) (guarded : inside cell = true) :
    sweep inside address value memory cells (address cell) = value cell memory := by
  induction cells generalizing memory with
  | nil => cases listed
  | cons first cells ih =>
    rw [List.map_cons, List.nodup_cons] at distinct
    obtain ⟨fresh, distinct⟩ := distinct
    have apart : ∀ later ∈ cells, address later ≠ address first := by
      intro later member same
      exact fresh (same ▸ List.mem_map_of_mem member)
    rcases List.mem_cons.mp listed with rfl | later
    · rw [sweep_cons, sweep_outside inside address value _ cells _ apart, if_pos guarded,
        Function.update_self]
    · have tail := ih (if inside first then
          Function.update memory (address first) (value first memory) else memory) distinct
        (fun cell member other member' => separate cell (List.mem_cons_of_mem _ member) other
          (List.mem_cons_of_mem _ member')) later
      rw [sweep_cons, tail]
      split
      · exact separate cell listed first List.mem_cons_self (Ne.symm (apart cell later)) _ _
      · rfl

end sweep

end Scatter
