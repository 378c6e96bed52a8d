import Mathlib.Algebra.BigOperators.Intervals

set_option autoImplicit false

namespace RangeSum

variable {M : Type} [AddCommMonoid M]

theorem sum_range_pairs (term : Nat → M) (count : Nat) :
    ∑ i ∈ Finset.range (2 * count), term i =
      ∑ j ∈ Finset.range count, (term (2 * j) + term (2 * j + 1)) := by
  induction count with
  | zero => rfl
  | succ count ih =>
    rw [Nat.mul_succ, Finset.sum_range_succ, Finset.sum_range_succ, Finset.sum_range_succ, ih,
      add_assoc]

/-- A sum over blocks of equal size. -/
theorem sum_range_blocks (term : Nat → M) (count size : Nat) :
    ∑ i ∈ Finset.range (count * size), term i =
      ∑ j ∈ Finset.range count, ∑ i ∈ Finset.range size, term (j * size + i) := by
  induction count with
  | zero => rw [Nat.zero_mul, Finset.range_zero, Finset.sum_empty, Finset.sum_empty]
  | succ count ih => rw [Nat.succ_mul, Finset.sum_range_add, ih, Finset.sum_range_succ]

/-- A sum with one of its values replaced. -/
theorem sum_range_update {α : Type} (value : α → M) (entries : Nat → α) {count index : Nat}
    (listed : index < count) (entry : α) :
    ∑ i ∈ Finset.range count, value (Function.update entries index entry i) +
        value (entries index) =
      ∑ i ∈ Finset.range count, value (entries i) + value entry := by
  have member : index ∈ Finset.range count := Finset.mem_range.mpr listed
  have others : ∑ i ∈ (Finset.range count).erase index,
      value (Function.update entries index entry i) =
        ∑ i ∈ (Finset.range count).erase index, value (entries i) := by
    apply Finset.sum_congr rfl
    intro i apart
    rw [Function.update_of_ne (Finset.ne_of_mem_erase apart)]
  rw [← Finset.add_sum_erase _ _ member, ← Finset.add_sum_erase _ _ member, others,
    Function.update_self, add_right_comm, add_comm (value entry), add_right_comm,
    add_right_comm]

end RangeSum
