import Mathlib.Data.Nat.Basic

set_option autoImplicit false

namespace Bisection

/-- Halve the interval until it is a point; the middle is rounded up. -/
def bisect (holds : Nat → Bool) (lo hi : Nat) : Nat :=
  if lo < hi then
    let mid := (lo + hi + 1) >>> 1
    if holds mid then bisect holds mid hi else bisect holds lo (mid - 1)
  else lo
termination_by hi - lo
decreasing_by
  · omega
  · omega

/-- It stops where the predicate turns. -/
theorem bisect_spec (holds : Nat → Bool) (lo hi : Nat) (ordered : lo ≤ hi)
    (low : holds lo = true) (high : holds (hi + 1) = false) :
    holds (bisect holds lo hi) = true ∧ holds (bisect holds lo hi + 1) = false := by
  induction lo, hi using bisect.induct holds with
  | case1 lo hi smaller mid inside ih =>
    have bounds : lo < mid ∧ mid ≤ hi := by
      simp only [mid]
      omega
    rw [bisect, if_pos smaller]
    simp only [mid] at inside ih bounds
    simp only [if_pos inside]
    exact ih bounds.2 inside high
  | case2 lo hi smaller mid outside ih =>
    have bounds : lo < mid ∧ mid ≤ hi := by
      simp only [mid]
      omega
    rw [bisect, if_pos smaller]
    simp only [mid] at outside ih bounds
    simp only [if_neg outside]
    apply ih
    · omega
    · exact low
    · rw [Nat.sub_add_cancel (by omega)]
      exact Bool.eq_false_iff.mpr outside
  | case3 lo hi point =>
    obtain rfl : lo = hi := by omega
    rw [bisect, if_neg point]
    exact ⟨low, high⟩

end Bisection
