set_option autoImplicit false

namespace PairMerge

variable {ν : Type} (op : ν → ν → ν) (block chunk : Nat)

/-- Merge the chunks at one offset of two blocks into a third block. -/
def mergeChunk (target first second : Nat) (memory : Nat → ν) (offset : Nat) : Nat → ν :=
  fun i =>
    if target + offset ≤ i ∧ i < target + offset + chunk then
      op (memory (first + (i - target))) (memory (second + (i - target)))
    else memory i

/-- Merge blocks `2 * pair` and `2 * pair + 1` into block `pair`, chunk by chunk. -/
def mergePair (memory : Nat → ν) (pair : Nat) : Nat → ν :=
  (List.range (block / chunk)).foldl
    (fun memory k =>
      mergeChunk op chunk (pair * block) (pair * 2 * block) ((pair * 2 + 1) * block) memory
        (k * chunk))
    memory

/-- Halve the blocks in place. -/
def mergePairs (pairs : Nat) (memory : Nat → ν) : Nat → ν :=
  (List.range pairs).foldl (mergePair op block chunk) memory

/-- No chunk reads what an earlier chunk of its pair has overwritten: both blocks start
at or behind twice the address of the merged one. -/
theorem mergeChunks_at (target first second count : Nat) (memory : Nat → ν)
    (firstEq : first = target + target) (secondEq : second = first + block)
    (inside : count * chunk ≤ block) (i : Nat) :
    (List.range count).foldl
        (fun memory k => mergeChunk op chunk target first second memory (k * chunk)) memory i =
      if target ≤ i ∧ i < target + count * chunk then
        op (memory (first + (i - target))) (memory (second + (i - target)))
      else memory i := by
  induction count generalizing i with
  | zero =>
    rw [Nat.zero_mul, if_neg (by omega)]
    rfl
  | succ count ih =>
    rw [Nat.succ_mul] at inside ⊢
    have before := ih (by omega)
    rw [List.range_succ, List.foldl_append]
    simp only [List.foldl_cons, List.foldl_nil, mergeChunk]
    by_cases here : target + count * chunk ≤ i ∧ i < target + count * chunk + chunk
    · rw [if_pos here, if_pos (by omega), before, before, if_neg (by omega), if_neg (by omega)]
    · rw [if_neg here, before]
      by_cases earlier : target ≤ i ∧ i < target + count * chunk
      · rw [if_pos earlier, if_pos (by omega)]
      · rw [if_neg earlier, if_neg (by omega)]

theorem mergePair_at (divides : chunk ∣ block) (memory : Nat → ν) (pair i : Nat) :
    mergePair op block chunk memory pair i =
      if pair * block ≤ i ∧ i < pair * block + block then
        op (memory (pair * 2 * block + (i - pair * block)))
          (memory ((pair * 2 + 1) * block + (i - pair * block)))
      else memory i := by
  have whole := Nat.div_mul_cancel divides
  have first : pair * 2 * block = pair * block + pair * block := by
    rw [Nat.mul_right_comm, Nat.mul_two]
  have second : (pair * 2 + 1) * block = pair * 2 * block + block := by
    rw [Nat.add_mul, Nat.one_mul]
  have merged := mergeChunks_at op block chunk (pair * block) (pair * 2 * block)
    ((pair * 2 + 1) * block) (block / chunk) memory first second (Nat.le_of_eq whole) i
  rw [whole] at merged
  exact merged

/-- The blocks behind the merged ones are as before. -/
theorem mergePairs_behind (divides : chunk ∣ block) (pairs : Nat) (memory : Nat → ν) (i : Nat)
    (behind : pairs * block ≤ i) : mergePairs op block chunk pairs memory i = memory i := by
  induction pairs with
  | zero => rfl
  | succ pairs ih =>
    rw [Nat.succ_mul] at behind
    rw [mergePairs, List.range_succ, List.foldl_append]
    simp only [List.foldl_cons, List.foldl_nil]
    rw [mergePair_at op block chunk divides, if_neg (by omega)]
    exact ih (by omega)

/-- Each merged block is made of two blocks as they were at the start: a pair lies
behind all blocks merged before it. -/
theorem mergePairs_at (divides : chunk ∣ block) (pairs : Nat) (memory : Nat → ν)
    (pair offset : Nat) (pairLt : pair < pairs) (offsetLt : offset < block) :
    mergePairs op block chunk pairs memory (pair * block + offset) =
      op (memory (pair * 2 * block + offset)) (memory ((pair * 2 + 1) * block + offset)) := by
  induction pairs with
  | zero => omega
  | succ pairs ih =>
    rw [mergePairs, List.range_succ, List.foldl_append]
    simp only [List.foldl_cons, List.foldl_nil]
    rw [mergePair_at op block chunk divides]
    rcases Nat.lt_or_eq_of_le (Nat.le_of_lt_succ pairLt) with earlier | last
    · have apart : (pair + 1) * block ≤ pairs * block := Nat.mul_le_mul_right _ earlier
      rw [Nat.succ_mul] at apart
      rw [if_neg (by omega)]
      exact ih earlier
    · subst last
      have doubled : pair * block ≤ pair * 2 * block :=
        Nat.mul_le_mul_right _ (Nat.le_mul_of_pos_right _ Nat.two_pos)
      have second : (pair * 2 + 1) * block = pair * 2 * block + block := by
        rw [Nat.add_mul, Nat.one_mul]
      rw [if_pos (by omega), Nat.add_sub_cancel_left]
      congr 1
      · exact mergePairs_behind op block chunk divides pair memory _ (by omega)
      · exact mergePairs_behind op block chunk divides pair memory _ (by omega)

end PairMerge
