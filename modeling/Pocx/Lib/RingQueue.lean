set_option autoImplicit false

namespace RingQueue

variable {α : Type}

/-- A first-in first-out queue kept in a circular array. `head` is the next cell
to be written and the `available` cells before it hold the unconsumed items. -/
structure Queue (α : Type) where
  cells : Nat → α
  head : Nat
  available : Nat

/-- The position reached from `start` by going `steps` cells round the array. -/
def wrap (size start steps : Nat) : Nat := (start + steps) % size

theorem wrap_before (size start steps : Nat) (inside : start + steps < size) :
    wrap size start steps = start + steps :=
  Nat.mod_eq_of_lt inside

theorem wrap_after (size start steps : Nat) (past : size ≤ start + steps)
    (once : start + steps < 2 * size) : wrap size start steps = start + steps - size := by
  rw [wrap, Nat.mod_eq_sub_mod past, Nat.mod_eq_of_lt (by omega)]

theorem wrap_lt (size start steps : Nat) (positive : 0 < size) : wrap size start steps < size :=
  Nat.mod_lt _ positive

/-- Fewer than `size` steps from one start never meet. -/
theorem wrap_injective (size start i j : Nat) (within : start < size) (hi : i < size)
    (hj : j < size) (same : wrap size start i = wrap size start j) : i = j := by
  by_cases leftWraps : size ≤ start + i <;> by_cases rightWraps : size ≤ start + j
  · rw [wrap_after _ _ _ leftWraps (by omega), wrap_after _ _ _ rightWraps (by omega)] at same
    omega
  · rw [wrap_after _ _ _ leftWraps (by omega), wrap_before _ _ _ (by omega)] at same
    omega
  · rw [wrap_before _ _ _ (by omega), wrap_after _ _ _ rightWraps (by omega)] at same
    omega
  · rw [wrap_before _ _ _ (by omega), wrap_before _ _ _ (by omega)] at same
    omega

/-- The `index`-th of `available` cells that end before `head`. -/
def position (size head available index : Nat) : Nat :=
  wrap size ((head + size - available) % size) index

/-- The three ways in which the unconsumed cells can lie about the end of the array. -/
theorem position_eq (size head available index : Nat) (headLt : head < size)
    (availableLe : available ≤ size) (inside : index < size) :
    (head + index < available →
      position size head available index = head + size + index - available) ∧
    (available ≤ head + index → head + index < available + size →
      position size head available index = head + index - available) ∧
    (available + size ≤ head + index →
      position size head available index = head + index - available - size) := by
  have base : (available ≤ head → (head + size - available) % size = head - available) ∧
      (head < available → (head + size - available) % size = head + size - available) := by
    constructor
    · intro behind
      rw [Nat.mod_eq_sub_mod (by omega), Nat.mod_eq_of_lt (by omega)]
      omega
    · intro beyond
      exact Nat.mod_eq_of_lt (by omega)
  have startLt : (head + size - available) % size < size := Nat.mod_lt _ (by omega)
  unfold position
  by_cases before : (head + size - available) % size + index < size
  · rw [wrap_before _ _ _ before]
    omega
  · rw [wrap_after _ _ _ (by omega) (by omega)]
    omega

/-- The cell of the `index`-th unconsumed item, oldest first. -/
def slot (size : Nat) (queue : Queue α) (index : Nat) : Nat :=
  position size queue.head queue.available index

def item (size : Nat) (queue : Queue α) (index : Nat) : α :=
  queue.cells (slot size queue index)

/-- The head is a cell and the unconsumed items fit. -/
structure Fits (size : Nat) (queue : Queue α) : Prop where
  head_lt : queue.head < size
  available_le : queue.available ≤ size

/-- The cell after the last unconsumed item is the head. -/
theorem slot_after (size : Nat) (queue : Queue α) (fits : Fits size queue) (offset : Nat)
    (room : queue.available + offset < size) :
    slot size queue (queue.available + offset) = wrap size queue.head offset := by
  have headLt := fits.head_lt
  have spec := position_eq size queue.head queue.available (queue.available + offset)
    headLt fits.available_le room
  unfold slot
  by_cases before : queue.head + offset < size
  · rw [wrap_before _ _ _ before]
    omega
  · rw [wrap_after _ _ _ (by omega) (by omega)]
    omega

/-- A batch that fits writes no cell of an unconsumed item. -/
theorem batch_apart (size : Nat) (queue : Queue α) (fits : Fits size queue) (width : Nat)
    (room : queue.available + width ≤ size) (offset index : Nat) (inBatch : offset < width)
    (unconsumed : index < queue.available) :
    wrap size queue.head offset ≠ slot size queue index := by
  rw [← slot_after size queue fits offset (by omega)]
  intro same
  have equal := wrap_injective size ((queue.head + size - queue.available) % size)
    (queue.available + offset) index (Nat.mod_lt _ (by omega)) (by omega) (by omega) same
  omega

/-- Write `count` values from `head` on. The work item of a cell is its distance
from the head. -/
def write (size head count : Nat) (value : Nat → α) (cells : Nat → α) : Nat → α := fun cell =>
  if cell < size ∧ (cell + size - head) % size < count then
    value ((cell + size - head) % size)
  else cells cell

theorem distance_wrap (size head offset : Nat) (within : head < size) (inside : offset < size) :
    (wrap size head offset + size - head) % size = offset := by
  by_cases before : head + offset < size
  · rw [wrap_before _ _ _ before, Nat.mod_eq_sub_mod (by omega), Nat.mod_eq_of_lt (by omega)]
    omega
  · rw [wrap_after _ _ _ (by omega) (by omega), Nat.mod_eq_of_lt (by omega)]
    omega

theorem write_inside (size head count : Nat) (value cells : Nat → α) (offset : Nat)
    (within : head < size) (room : count ≤ size) (inside : offset < count) :
    write size head count value cells (wrap size head offset) = value offset := by
  have distance := distance_wrap size head offset within (by omega)
  have cellLt := wrap_lt size head offset (by omega)
  simp only [write, distance, cellLt, inside, and_self, ↓reduceIte]

theorem write_outside (size head count : Nat) (value cells : Nat → α) (cell : Nat)
    (within : head < size)
    (outside : ∀ offset, offset < count → offset < size → wrap size head offset ≠ cell) :
    write size head count value cells cell = cells cell := by
  unfold write
  split
  · rename_i written
    obtain ⟨cellLt, near⟩ := written
    have distanceLt : (cell + size - head) % size < size := Nat.mod_lt _ (by omega)
    have back : wrap size head ((cell + size - head) % size) = cell := by
      by_cases behind : head ≤ cell
      · rw [Nat.mod_eq_sub_mod (show size ≤ cell + size - head by omega),
          Nat.mod_eq_of_lt (show cell + size - head - size < size by omega),
          wrap_before _ _ _ (by omega)]
        omega
      · rw [Nat.mod_eq_of_lt (show cell + size - head < size by omega),
          wrap_after _ _ _ (by omega) (by omega)]
        omega
    exact absurd back (outside _ near distanceLt)
  · rfl

/-- Reserve `width` cells at the head and write the first `count` of them. The
cells after the first `count` keep whatever they held. -/
def push (size width count : Nat) (value : Nat → α) (queue : Queue α) : Queue α where
  cells := write size queue.head count value queue.cells
  head := wrap size queue.head width
  available := queue.available + width

/-- Forget the `count` oldest items. -/
def pop (count : Nat) (queue : Queue α) : Queue α :=
  { queue with available := queue.available - count }

/-- Forget every item and start again at the first cell. -/
def clear (queue : Queue α) : Queue α :=
  { queue with head := 0, available := 0 }

@[simp] theorem pop_cells (count : Nat) (queue : Queue α) :
    (pop count queue).cells = queue.cells := rfl

@[simp] theorem pop_head (count : Nat) (queue : Queue α) :
    (pop count queue).head = queue.head := rfl

@[simp] theorem pop_available (count : Nat) (queue : Queue α) :
    (pop count queue).available = queue.available - count := rfl

theorem push_fits (size width count : Nat) (value : Nat → α) (queue : Queue α)
    (fits : Fits size queue) (room : queue.available + width ≤ size) :
    Fits size (push size width count value queue) :=
  ⟨wrap_lt _ _ _ (by have := fits.head_lt; omega), room⟩

theorem pop_fits (size count : Nat) (queue : Queue α) (fits : Fits size queue) :
    Fits size (pop count queue) := by
  refine ⟨?_, ?_⟩
  · rw [pop_head]
    exact fits.head_lt
  · rw [pop_available]
    exact Nat.le_trans (Nat.sub_le _ _) fits.available_le

/-- A push does not move the items that were there. -/
theorem slot_push (size width count : Nat) (value : Nat → α) (queue : Queue α)
    (fits : Fits size queue) (room : queue.available + width ≤ size) (index : Nat)
    (inside : index < size) :
    slot size (push size width count value queue) index = slot size queue index := by
  have headLt := fits.head_lt
  have old := position_eq size queue.head queue.available index headLt fits.available_le inside
  have new := position_eq size (wrap size queue.head width) (queue.available + width) index
    (wrap_lt _ _ _ (by omega)) room inside
  change position size (wrap size queue.head width) (queue.available + width) index =
    position size queue.head queue.available index
  by_cases before : queue.head + width < size
  · rw [wrap_before _ _ _ before] at new ⊢
    omega
  · rw [wrap_after _ _ _ (by omega) (by omega)] at new ⊢
    omega

theorem item_push_old (size width count : Nat) (value : Nat → α) (queue : Queue α)
    (fits : Fits size queue) (room : queue.available + width ≤ size) (short : count ≤ width)
    (index : Nat) (unconsumed : index < queue.available) :
    item size (push size width count value queue) index = item size queue index := by
  have availableLe := fits.available_le
  rw [item, slot_push size width count value queue fits room index (by omega)]
  apply write_outside _ _ _ _ _ _ fits.head_lt
  intro offset inBatch _
  exact batch_apart size queue fits width room offset index (by omega) unconsumed

theorem item_push_new (size width count : Nat) (value : Nat → α) (queue : Queue α)
    (fits : Fits size queue) (room : queue.available + width ≤ size) (short : count ≤ width)
    (offset : Nat) (written : offset < count) :
    item size (push size width count value queue) (queue.available + offset) = value offset := by
  rw [item, slot_push size width count value queue fits room _ (by omega),
    slot_after size queue fits offset (by omega)]
  exact write_inside _ _ _ _ _ _ fits.head_lt (by omega) written

theorem slot_pop (size count : Nat) (queue : Queue α) (fits : Fits size queue)
    (enough : count ≤ queue.available) (index : Nat) (inside : count + index < size) :
    slot size (pop count queue) index = slot size queue (count + index) := by
  have availableLe := fits.available_le
  have old := position_eq size queue.head queue.available (count + index)
    fits.head_lt availableLe inside
  have new := position_eq size queue.head (queue.available - count) index
    fits.head_lt (by omega) (by omega)
  rw [slot, slot, pop_head, pop_available]
  omega

theorem item_pop (size count : Nat) (queue : Queue α) (fits : Fits size queue)
    (enough : count ≤ queue.available) (index : Nat) (inside : count + index < size) :
    item size (pop count queue) index = item size queue (count + index) := by
  rw [item, slot_pop size count queue fits enough index inside, pop_cells]
  rfl

end RingQueue
