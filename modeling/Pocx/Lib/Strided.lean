set_option autoImplicit false

namespace Strided

/-- The address of an offset within a block, where a table of rows holds `columns`
blocks in each row. -/
def cell (columns block row column offset : Nat) : Nat :=
  (row * columns + column) * block + offset

theorem index_lt (rows columns row column : Nat) (rowLt : row < rows)
    (columnLt : column < columns) : row * columns + column < rows * columns := by
  have whole : (row + 1) * columns ≤ rows * columns := Nat.mul_le_mul_right _ rowLt
  rw [Nat.add_mul, Nat.one_mul] at whole
  omega

theorem index_injective (columns row column row' column' : Nat) (columnLt : column < columns)
    (columnLt' : column' < columns)
    (same : row * columns + column = row' * columns + column') :
    row = row' ∧ column = column' := by
  have rows : row = row' := by
    have first : (row * columns + column) / columns = row := by
      rw [Nat.add_comm, Nat.add_mul_div_right _ _ (by omega), Nat.div_eq_of_lt columnLt,
        Nat.zero_add]
    have second : (row' * columns + column') / columns = row' := by
      rw [Nat.add_comm, Nat.add_mul_div_right _ _ (by omega), Nat.div_eq_of_lt columnLt',
        Nat.zero_add]
    rw [← first, same, second]
  subst rows
  exact ⟨rfl, by omega⟩

theorem cell_lt (rows columns block row column offset : Nat) (rowLt : row < rows)
    (columnLt : column < columns) (offsetLt : offset < block) :
    cell columns block row column offset < rows * columns * block :=
  index_lt (rows * columns) block _ offset (index_lt rows columns row column rowLt columnLt)
    offsetLt

theorem cell_injective (columns block row column offset row' column' offset' : Nat)
    (columnLt : column < columns) (columnLt' : column' < columns) (offsetLt : offset < block)
    (offsetLt' : offset' < block)
    (same : cell columns block row column offset = cell columns block row' column' offset') :
    row = row' ∧ column = column' ∧ offset = offset' := by
  obtain ⟨index, offsets⟩ := index_injective block _ offset _ offset' offsetLt offsetLt' same
  obtain ⟨rows, columnsEq⟩ := index_injective columns _ _ _ _ columnLt columnLt' index
  exact ⟨rows, columnsEq, offsets⟩

/-- A run of blocks of one row meets just the cells of these blocks. -/
theorem cell_in_span (columns block row start count row' column' offset' : Nat)
    (fits : start + count ≤ columns) (columnLt : column' < columns) (offsetLt : offset' < block) :
    (cell columns block row start 0 ≤ cell columns block row' column' offset' ∧
      cell columns block row' column' offset' < cell columns block row start 0 + count * block) ↔
    row = row' ∧ start ≤ column' ∧ column' < start + count := by
  have span : cell columns block row start 0 + count * block =
      (row * columns + start + count) * block := by
    rw [cell, Nat.add_zero, Nat.add_mul (row * columns + start)]
  have lower : cell columns block row start 0 ≤ cell columns block row' column' offset' ↔
      row * columns + start ≤ row' * columns + column' := by
    rw [cell, Nat.add_zero, cell]
    constructor
    · intro below
      by_cases before : row' * columns + column' < row * columns + start
      · have whole : (row' * columns + column' + 1) * block ≤ (row * columns + start) * block :=
          Nat.mul_le_mul_right _ before
        rw [Nat.add_mul _ 1, Nat.one_mul] at whole
        omega
      · omega
    · intro index
      exact Nat.le_trans (Nat.mul_le_mul_right _ index) (Nat.le_add_right _ _)
  have upper : cell columns block row' column' offset' <
        cell columns block row start 0 + count * block ↔
      row' * columns + column' < row * columns + start + count := by
    rw [span, cell]
    constructor
    · intro above
      exact Nat.lt_of_mul_lt_mul_right (Nat.lt_of_le_of_lt (Nat.le_add_right _ _) above)
    · intro index
      have whole : (row' * columns + column' + 1) * block ≤
          (row * columns + start + count) * block := Nat.mul_le_mul_right _ index
      rw [Nat.add_mul _ 1, Nat.one_mul] at whole
      omega
  rw [lower, upper]
  constructor
  · rintro ⟨from_, to_⟩
    have rowEq : row = row' := by
      by_cases before : row' < row
      · have whole : (row' + 1) * columns ≤ row * columns := Nat.mul_le_mul_right _ before
        rw [Nat.add_mul, Nat.one_mul] at whole
        omega
      · by_cases after : row < row'
        · have whole : (row + 1) * columns ≤ row' * columns := Nat.mul_le_mul_right _ after
          rw [Nat.add_mul, Nat.one_mul] at whole
          omega
        · omega
    subst rowEq
    exact ⟨rfl, by omega, by omega⟩
  · rintro ⟨rfl, from_, to_⟩
    exact ⟨by omega, by omega⟩

end Strided
