import Pocx.Hashlib.Scoop
import Pocx.Lib.RangeSum

set_option autoImplicit false

namespace Pocx.Hashlib

open PlotFile (numScoops)

variable {Payload Seed : Type} (raw : Payload → Seed → Nat → Nat → Scoop)
  (addressPayload : Payload) (seed : Seed) (scoop : Nat)

/-- The scoop of a nonce at a level, as a sum of uncompressed scoops. -/
def levelScoop (nonce compression : Nat) : Scoop :=
  ∑ i ∈ Finset.range (2 ^ compression),
    generateTerm raw addressPayload seed scoop nonce compression i

theorem generateScoop_level {generateNonces : GenerateNonces Payload Seed}
    (single : PlacesSingle generateNonces raw) (scoopLt : scoop < numScoops)
    (nonce compression : Nat) :
    generateScoop generateNonces addressPayload seed scoop nonce compression =
      .ok (levelScoop raw addressPayload seed scoop nonce compression) :=
  generateScoop_eq_sum addressPayload seed nonce compression single scoopLt

/-- Two uncompressed scoops that meet at every level above 0: one of a nonce in a straight
warp, and one of a nonce in the mirrored warp behind it. -/
def pairTerm (warp nonce pairs pair : Nat) : Scoop :=
  let first := (warp * pairs + pair) * (2 * numScoops)
  raw addressPayload seed (first + nonce) scoop +
    raw addressPayload seed (first + (numScoops + scoop)) nonce

theorem levelScoop_pairs (warp nonce compression : Nat) (compressed : 1 ≤ compression)
    (nonceLt : nonce < numScoops) :
    levelScoop raw addressPayload seed scoop (warp * numScoops + nonce) compression =
      ∑ pair ∈ Finset.range (2 ^ (compression - 1)),
        pairTerm raw addressPayload seed scoop warp nonce (2 ^ (compression - 1)) pair := by
  have double : 2 ^ compression = 2 * 2 ^ (compression - 1) := by
    rw [← Nat.pow_succ', Nat.succ_eq_add_one, Nat.sub_add_cancel compressed]
  generalize 2 ^ (compression - 1) = pairs at double
  have warpOf : (warp * numScoops + nonce) / numScoops = warp := by
    rw [Nat.add_comm, Nat.add_mul_div_right _ _ (by decide), Nat.div_eq_of_lt nonceLt, Nat.zero_add]
  have nonceOf : (warp * numScoops + nonce) % numScoops = nonce := by
    rw [Nat.add_comm, Nat.add_mul_mod_self_right, Nat.mod_eq_of_lt nonceLt]
  rw [levelScoop, double, RangeSum.sum_range_pairs]
  apply Finset.sum_congr rfl
  intro pair _
  have even : 2 * pair % 2 = 0 := Nat.mul_mod_right 2 pair
  have odd : ¬ (2 * pair + 1) % 2 = 0 := by omega
  have straight : (2 * pairs * warp + 2 * pair) * numScoops =
      (warp * pairs + pair) * (2 * numScoops) := by
    rw [Nat.mul_assoc, ← Nat.mul_add, Nat.mul_comm pairs, Nat.mul_comm 2, Nat.mul_assoc]
  have mirrored : (2 * pairs * warp + (2 * pair + 1)) * numScoops + scoop =
      (warp * pairs + pair) * (2 * numScoops) + (numScoops + scoop) := by
    rw [← Nat.add_assoc (2 * pairs * warp), Nat.add_mul _ 1, straight, Nat.one_mul, Nat.add_assoc]
  simp only [generateTerm, double, warpOf, nonceOf, if_pos even, if_neg odd, straight, mirrored,
    pairTerm]

/-- Above level 0 a term keeps its parity, so nothing is transposed anew. -/
theorem generateTerm_regroup (warp nonce level steps j i : Nat) (positive : 1 ≤ level)
    (nonceLt : nonce < numScoops) :
    generateTerm raw addressPayload seed scoop (warp * numScoops + nonce) (level + steps)
        (j * 2 ^ level + i) =
      generateTerm raw addressPayload seed scoop
        ((2 ^ steps * warp + j) * numScoops + nonce) level i := by
  have even : 2 ^ level = 2 * 2 ^ (level - 1) := by
    rw [← Nat.pow_succ', Nat.succ_eq_add_one, Nat.sub_add_cancel positive]
  have parity : (j * 2 ^ level + i) % 2 = i % 2 := by
    rw [even, Nat.mul_left_comm, Nat.mul_add_mod]
  have warps (warp : Nat) : (warp * numScoops + nonce) / numScoops = warp := by
    rw [Nat.mul_comm, Nat.mul_add_div (by decide), Nat.div_eq_of_lt nonceLt, Nat.add_zero]
  have nonces (warp : Nat) : (warp * numScoops + nonce) % numScoops = nonce := by
    rw [Nat.mul_comm, Nat.mul_add_mod, Nat.mod_eq_of_lt nonceLt]
  have first : 2 ^ (level + steps) * warp + (j * 2 ^ level + i) =
      2 ^ level * (2 ^ steps * warp + j) + i := by
    rw [Nat.pow_add, Nat.mul_add, Nat.mul_assoc, Nat.mul_comm j, Nat.add_assoc]
  simp only [generateTerm, parity, warps, nonces, first]

/-- A scoop `steps` levels up is the sum of the scoops of `2 ^ steps` consecutive warps. -/
theorem levelScoop_regroup (warp nonce level steps : Nat) (positive : 1 ≤ level)
    (nonceLt : nonce < numScoops) :
    levelScoop raw addressPayload seed scoop (warp * numScoops + nonce) (level + steps) =
      ∑ j ∈ Finset.range (2 ^ steps),
        levelScoop raw addressPayload seed scoop
          ((2 ^ steps * warp + j) * numScoops + nonce) level := by
  rw [levelScoop, Nat.pow_add, Nat.mul_comm, RangeSum.sum_range_blocks]
  apply Finset.sum_congr rfl
  intro j _
  apply Finset.sum_congr rfl
  intro i _
  exact generateTerm_regroup raw addressPayload seed scoop warp nonce level steps j i positive
    nonceLt

end Pocx.Hashlib
