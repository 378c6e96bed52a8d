import Mathlib.Tactic.Ring
import Mathlib.Tactic.Linarith
import Pocx.Lib.Bisection
import Pocx.Lib.Panicking

set_option autoImplicit false

namespace Pocx.TimeBending

open Bisection (bisect bisect_spec)
open Panicking (Panic divide divide_ok)

/-- The first loop of `int_cuberoot_u256`. -/
def bracket (x hi : Nat) (positive : 0 < hi) : Nat :=
  if hi * hi * hi < x then bracket x (hi <<< 1) (by omega) else hi
termination_by x - hi
decreasing_by
  have square : hi ≤ hi * hi := Nat.le_mul_of_pos_left hi positive
  have cube : hi * hi ≤ hi * hi * hi := Nat.le_mul_of_pos_right _ positive
  omega

/-- `int_cuberoot_u256` -/
def intCuberootU256 (x : Nat) : Nat :=
  let hi := bracket x 1 (by decide)
  bisect (fun mid => decide (mid * mid * mid ≤ x)) (hi >>> 1) hi

/-- Gamma(4/3) in Q42 fixed point. -/
def gammaFp : Nat := 3927365422841

/-- `calculate_qscale_uint` -/
def calculateQscaleUint (blockTime : UInt64) : Except Panic Nat :=
  let q := 42
  let t := blockTime.toNat
  let blockScaled := t <<< (3 * q)
  let tCbrt := intCuberootU256 blockScaled
  let numerator := t <<< (2 * q)
  let denominator := (tCbrt * gammaFp) >>> q
  divide (numerator + denominator >>> 1) denominator

/-- The value of which `calculate_time_bended_deadline` extracts the low digit. -/
def roundedDeadline (rawQuality baseTarget blockTime : UInt64) : Except Panic Nat := do
  let p := 21
  let q := 42
  let scaleQ ← calculateQscaleUint blockTime
  let shift3p := 1 <<< (3 * p)
  let v ← divide (rawQuality.toNat * shift3p) baseTarget.toNat
  let r := intCuberootU256 v
  let numer := scaleQ * r
  let denom := 1 <<< (p + q)
  divide (numer + denom >>> 1) denom

/-- `calculate_time_bended_deadline` -/
def calculateTimeBendedDeadline (rawQuality baseTarget blockTime : UInt64) :
    Except Panic UInt64 :=
  if rawQuality = 0 then .ok 0
  else (roundedDeadline rawQuality baseTarget blockTime).map UInt64.ofNat

theorem bracket_spec (x hi : Nat) (positive : 0 < hi) :
    x ≤ bracket x hi positive * bracket x hi positive * bracket x hi positive ∧
      (bracket x hi positive = hi ∨
        (bracket x hi positive >>> 1) * (bracket x hi positive >>> 1) *
          (bracket x hi positive >>> 1) < x) := by
  induction hi, positive using bracket.induct x with
  | case1 hi positive below ih =>
    rw [bracket, if_pos below]
    obtain ⟨above, stopped⟩ := ih
    refine ⟨above, .inr ?_⟩
    rcases stopped with stopped | stopped
    · rw [stopped]
      have half : hi <<< 1 >>> 1 = hi := by omega
      rw [half]
      exact below
    · exact stopped
  | case2 hi positive above =>
    rw [bracket, if_neg above]
    exact ⟨Nat.not_lt.mp above, .inl rfl⟩

theorem cube_lt {a b : Nat} (less : a < b) : a * a * a < b * b * b := by
  have positive : 0 < b := Nat.zero_lt_of_lt less
  calc a * a * a ≤ b * b * a := Nat.mul_le_mul_right _ (Nat.mul_le_mul less.le less.le)
    _ < b * b * b := Nat.mul_lt_mul_of_pos_left less (Nat.mul_pos positive positive)

/-- It is the integer part of the cube root. -/
theorem intCuberootU256_spec (x : Nat) :
    intCuberootU256 x ^ 3 ≤ x ∧ x < (intCuberootU256 x + 1) ^ 3 := by
  obtain ⟨above, stopped⟩ := bracket_spec x 1 (by decide)
  rw [intCuberootU256]
  generalize bracket x 1 _ = hi at above stopped ⊢
  have low : decide ((hi >>> 1) * (hi >>> 1) * (hi >>> 1) ≤ x) = true := by
    rcases stopped with rfl | below
    · exact decide_eq_true (Nat.zero_le x)
    · exact decide_eq_true (Nat.le_of_lt below)
  have high : decide ((hi + 1) * (hi + 1) * (hi + 1) ≤ x) = false := by
    apply decide_eq_false
    have next := cube_lt (Nat.lt_add_one hi)
    omega
  obtain ⟨below, turned⟩ := bisect_spec (fun mid => decide (mid * mid * mid ≤ x)) (hi >>> 1) hi
    (by omega) low high
  rw [decide_eq_true_iff] at below
  rw [decide_eq_false_iff_not] at turned
  rw [pow_succ, pow_two, pow_succ, pow_two]
  exact ⟨below, Nat.not_le.mp turned⟩

theorem lt_of_cube_lt {a b : Nat} (less : a ^ 3 < b ^ 3) : a < b :=
  lt_of_pow_lt_pow_left₀ 3 (Nat.zero_le b) less

theorem intCuberootU256_mono {x y : Nat} (le : x ≤ y) : intCuberootU256 x ≤ intCuberootU256 y := by
  have below := (intCuberootU256_spec x).1
  have above := (intCuberootU256_spec y).2
  exact Nat.le_of_lt_succ (lt_of_cube_lt (Nat.lt_of_le_of_lt (Nat.le_trans below le) above))

theorem intCuberootU256_zero : intCuberootU256 0 = 0 := by
  have below := (intCuberootU256_spec 0).1
  exact pow_eq_zero_iff (by decide) |>.mp (Nat.le_zero.mp below)

section scale

variable {t c : Nat} (positive : 1 ≤ t)
include positive

/-- The root of the scaled block time is at least that of one second. -/
theorem le_cuberoot (above : t * 2 ^ 126 < (c + 1) ^ 3) : 2 ^ 42 ≤ c := by
  have one : (2 ^ 42) ^ 3 < (c + 1) ^ 3 := by
    calc (2 ^ 42) ^ 3 = 1 * 2 ^ 126 := by norm_num
      _ ≤ t * 2 ^ 126 := Nat.mul_le_mul_right _ positive
      _ < (c + 1) ^ 3 := above
  exact Nat.le_of_lt_succ (lt_of_cube_lt one)

omit positive in
/-- The rounding of the scale factor, for a factor `g + 1` in its denominator. -/
theorem scale_times {d s g : Nat} (above : t * 2 ^ 126 < (c + 1) ^ 3)
    (rounded : c * g ≤ d * 2 ^ 42) (upper : d * 2 ^ 42 ≤ c * (g + 1))
    (scale : s * d ≤ t * 2 ^ 84 + d / 2) (large : 1 ≤ c) : s * g ≤ c ^ 2 + 3 * c + 5 + g := by
  have halved : t * 2 ^ 126 + d / 2 * 2 ^ 42 ≤ (c + 1) ^ 3 + d * 2 ^ 42 :=
    Nat.add_le_add above.le (Nat.mul_le_mul_right _ (Nat.div_le_self d 2))
  have times : s * g * c ≤ (c ^ 2 + 3 * c + 5 + g) * c := by
    calc s * g * c = s * (c * g) := by ring
      _ ≤ s * (d * 2 ^ 42) := Nat.mul_le_mul_left s rounded
      _ = s * d * 2 ^ 42 := (Nat.mul_assoc _ _ _).symm
      _ ≤ (t * 2 ^ 84 + d / 2) * 2 ^ 42 := Nat.mul_le_mul_right _ scale
      _ = t * 2 ^ 126 + d / 2 * 2 ^ 42 := by ring
      _ ≤ (c + 1) ^ 3 + d * 2 ^ 42 := halved
      _ ≤ (c + 1) ^ 3 + c * (g + 1) := Nat.add_le_add_left upper _
      _ = (c ^ 2 + 3 * c + 4 + g) * c + 1 := by ring
      _ ≤ (c ^ 2 + 3 * c + 4 + g) * c + c := Nat.add_le_add_left large _
      _ = (c ^ 2 + 3 * c + 5 + g) * c := by ring
  exact Nat.le_of_mul_le_mul_right times large

/-- The scale factor stays near the square of the root over Gamma(4/3). -/
theorem scale_le {d s : Nat} (below : c ^ 3 ≤ t * 2 ^ 126) (above : t * 2 ^ 126 < (c + 1) ^ 3)
    (small : t < 2 ^ 63) (denominator : d = c * gammaFp / 2 ^ 42)
    (scale : s * d ≤ t * 2 ^ 84 + d / 2) : s * 3927365422840 ≤ 2 ^ 126 + 2 ^ 66 := by
  have large := le_cuberoot positive above
  have cLt : c < 2 ^ 63 := by
    apply lt_of_cube_lt
    calc c ^ 3 ≤ t * 2 ^ 126 := below
      _ < 2 ^ 63 * 2 ^ 126 := Nat.mul_lt_mul_of_pos_right small (Nat.two_pow_pos 126)
      _ = (2 ^ 63) ^ 3 := by norm_num
  rw [gammaFp] at denominator
  have rounded : c * 3927365422840 ≤ d * 2 ^ 42 := by omega
  have upper : d * 2 ^ 42 ≤ c * 3927365422841 := by
    rw [denominator]
    exact Nat.div_mul_le_self _ _
  have near := scale_times above rounded upper scale (by omega)
  have square : c ^ 2 ≤ 2 ^ 126 := by
    calc c ^ 2 ≤ (2 ^ 63) ^ 2 := Nat.pow_le_pow_left cLt.le 2
      _ = 2 ^ 126 := by norm_num
  calc s * 3927365422840 ≤ c ^ 2 + 3 * c + 5 + 3927365422840 := near
    _ ≤ 2 ^ 126 + 3 * 2 ^ 63 + 5 + 3927365422840 := by
      gcongr
    _ ≤ 2 ^ 126 + 2 ^ 66 := by norm_num

end scale

/-- The scale factor of a block time exists and is bounded. -/
theorem calculateQscaleUint_ok (blockTime : UInt64) (positive : 1 ≤ blockTime.toNat) :
    ∃ scaleQ, calculateQscaleUint blockTime = .ok scaleQ ∧
      (blockTime.toNat < 2 ^ 63 → scaleQ * 3927365422840 ≤ 2 ^ 126 + 2 ^ 66) := by
  obtain ⟨below, above⟩ := intCuberootU256_spec (blockTime.toNat * 2 ^ 126)
  have root : intCuberootU256 (blockTime.toNat <<< (3 * 42)) =
      intCuberootU256 (blockTime.toNat * 2 ^ 126) := by
    rw [Nat.shiftLeft_eq]
  have large := le_cuberoot positive above
  simp only [calculateQscaleUint]
  rw [root]
  generalize intCuberootU256 (blockTime.toNat * 2 ^ 126) = tCbrt at below above large
  have denominator : (tCbrt * gammaFp) >>> 42 = tCbrt * gammaFp / 2 ^ 42 :=
    Nat.shiftRight_eq_div_pow _ _
  have nonzero : (tCbrt * gammaFp) >>> 42 ≠ 0 := by
    rw [denominator]
    apply Nat.ne_of_gt
    apply Nat.div_pos _ (Nat.two_pow_pos 42)
    exact Nat.le_trans large (Nat.le_mul_of_pos_right _ (by decide))
  refine ⟨_, divide_ok nonzero _, ?_⟩
  intro small
  apply scale_le positive below above small denominator
  rw [Nat.shiftLeft_eq, Nat.shiftRight_eq_div_pow _ 1]
  exact Nat.div_mul_le_self _ _

/-- Without a block time the scale factor is a division by zero. -/
theorem calculateQscaleUint_zero : calculateQscaleUint 0 = .error .divisionByZero := by
  have scaled : (0 : UInt64).toNat <<< (3 * 42) = 0 := by decide
  simp only [calculateQscaleUint, scaled, intCuberootU256_zero]
  rfl

/-- Nothing is divided by zero, and the rounded value has one digit. -/
theorem roundedDeadline_ok (rawQuality baseTarget blockTime : UInt64)
    (target : 1 ≤ baseTarget.toNat) (positive : 1 ≤ blockTime.toNat) :
    ∃ scaleQ, calculateQscaleUint blockTime = .ok scaleQ ∧
      roundedDeadline rawQuality baseTarget blockTime =
        .ok ((scaleQ * intCuberootU256 (rawQuality.toNat * 2 ^ 63 / baseTarget.toNat) + 2 ^ 62) /
          2 ^ 63) := by
  obtain ⟨scaleQ, scaled, -⟩ := calculateQscaleUint_ok blockTime positive
  refine ⟨scaleQ, scaled, ?_⟩
  have nonzero : baseTarget.toNat ≠ 0 := by omega
  have shift : 1 <<< (3 * 21) = 2 ^ 63 := by decide
  have half : (2 ^ 63) >>> 1 = 2 ^ 62 := by decide
  simp only [roundedDeadline, scaled, shift, half, divide_ok nonzero,
    divide_ok (Nat.two_pow_pos 63).ne']
  rfl

/-- The deadline of a quality exists unless something is divided by zero. -/
theorem calculateTimeBendedDeadline_ok_iff (rawQuality baseTarget blockTime : UInt64) :
    (∃ deadline, calculateTimeBendedDeadline rawQuality baseTarget blockTime = .ok deadline) ↔
      rawQuality = 0 ∨ baseTarget ≠ 0 ∧ blockTime ≠ 0 := by
  by_cases zero : rawQuality = 0
  · rw [calculateTimeBendedDeadline, if_pos zero]
    exact ⟨fun _ => .inl zero, fun _ => ⟨0, rfl⟩⟩
  rw [calculateTimeBendedDeadline, if_neg zero, or_iff_right zero]
  by_cases timed : blockTime = 0
  · rw [timed, roundedDeadline, calculateQscaleUint_zero]
    simp [bind, Except.bind, Except.map]
  have positive : 1 ≤ blockTime.toNat := by
    rw [Nat.one_le_iff_ne_zero, ← UInt64.toNat_zero]
    exact fun same => timed (UInt64.toNat_inj.mp same)
  by_cases targeted : baseTarget = 0
  · obtain ⟨scaleQ, scaled, -⟩ := calculateQscaleUint_ok blockTime positive
    rw [targeted, roundedDeadline, scaled]
    simp [bind, Except.bind, Except.map, divide]
  have target : 1 ≤ baseTarget.toNat := by
    rw [Nat.one_le_iff_ne_zero, ← UInt64.toNat_zero]
    exact fun same => targeted (UInt64.toNat_inj.mp same)
  obtain ⟨scaleQ, -, rounded⟩ := roundedDeadline_ok rawQuality baseTarget blockTime target positive
  rw [rounded]
  exact ⟨fun _ => ⟨targeted, timed⟩, fun _ => ⟨_, rfl⟩⟩

/-- The digit that is extracted is the whole value. -/
theorem rounded_lt {scaleQ : Nat} (scaled : scaleQ * 3927365422840 ≤ 2 ^ 126 + 2 ^ 66)
    (rawQuality baseTarget : UInt64) :
    (scaleQ * intCuberootU256 (rawQuality.toNat * 2 ^ 63 / baseTarget.toNat) + 2 ^ 62) / 2 ^ 63 <
      2 ^ 64 := by
  have below := (intCuberootU256_spec (rawQuality.toNat * 2 ^ 63 / baseTarget.toNat)).1
  generalize intCuberootU256 (rawQuality.toNat * 2 ^ 63 / baseTarget.toNat) = r at below ⊢
  have root : r < 5541191377757 := by
    apply lt_of_cube_lt
    calc r ^ 3 ≤ rawQuality.toNat * 2 ^ 63 / baseTarget.toNat := below
      _ ≤ rawQuality.toNat * 2 ^ 63 := Nat.div_le_self _ _
      _ < 2 ^ 64 * 2 ^ 63 := Nat.mul_lt_mul_of_pos_right rawQuality.toNat_lt (Nat.two_pow_pos 63)
      _ ≤ 5541191377757 ^ 3 := by norm_num
  have product : scaleQ * r * 3927365422840 ≤ (2 ^ 126 + 2 ^ 66) * 5541191377757 := by
    calc scaleQ * r * 3927365422840 = scaleQ * 3927365422840 * r := Nat.mul_right_comm _ _ _
      _ ≤ (2 ^ 126 + 2 ^ 66) * 5541191377757 := Nat.mul_le_mul scaled root.le
  generalize scaleQ * r = numer at product ⊢
  have room : numer + 2 ^ 62 < 2 ^ 64 * 2 ^ 63 := by
    by_contra large
    have least : (2 ^ 64 * 2 ^ 63 - 2 ^ 62) * 3927365422840 ≤ numer * 3927365422840 :=
      Nat.mul_le_mul_right _ (by omega)
    have apart : (2 ^ 126 + 2 ^ 66) * 5541191377757 < (2 ^ 64 * 2 ^ 63 - 2 ^ 62) * 3927365422840 := by
      norm_num
    exact absurd (Nat.le_trans least product) (Nat.not_le.mpr apart)
  exact Nat.div_lt_of_lt_mul (by rw [Nat.mul_comm]; exact room)

/-- The deadline in closed form. -/
theorem calculateTimeBendedDeadline_ok (blockTime : UInt64) (positive : 1 ≤ blockTime.toNat)
    (small : blockTime.toNat < 2 ^ 63) :
    ∃ scaleQ, ∀ rawQuality baseTarget : UInt64, 1 ≤ baseTarget.toNat →
      ∃ deadline, calculateTimeBendedDeadline rawQuality baseTarget blockTime = .ok deadline ∧
        roundedDeadline rawQuality baseTarget blockTime = .ok deadline.toNat ∧
        deadline.toNat =
          (scaleQ * intCuberootU256 (rawQuality.toNat * 2 ^ 63 / baseTarget.toNat) + 2 ^ 62) /
            2 ^ 63 := by
  obtain ⟨scaleQ, scaled, bounded⟩ := calculateQscaleUint_ok blockTime positive
  refine ⟨scaleQ, ?_⟩
  intro rawQuality baseTarget target
  obtain ⟨scaleQ', scaled', rounded⟩ := roundedDeadline_ok rawQuality baseTarget blockTime target
    positive
  obtain rfl : scaleQ = scaleQ' := Except.ok.inj (scaled.symm.trans scaled')
  have fits := rounded_lt (bounded small) rawQuality baseTarget
  have digit : (UInt64.ofNat
      ((scaleQ * intCuberootU256 (rawQuality.toNat * 2 ^ 63 / baseTarget.toNat) + 2 ^ 62) /
        2 ^ 63)).toNat = _ := UInt64.toNat_ofNat_of_lt' fits
  by_cases zero : rawQuality = 0
  · have none : intCuberootU256 (rawQuality.toNat * 2 ^ 63 / baseTarget.toNat) = 0 := by
      rw [zero, UInt64.toNat_zero, Nat.zero_mul, Nat.zero_div, intCuberootU256_zero]
    have least : (scaleQ * 0 + 2 ^ 62) / 2 ^ 63 = 0 := by
      rw [Nat.mul_zero]
      decide
    rw [none, least] at rounded
    rw [none, least]
    refine ⟨0, ?_, rounded, rfl⟩
    rw [calculateTimeBendedDeadline, if_pos zero]
  · refine ⟨_, ?_, ?_, digit⟩
    · rw [calculateTimeBendedDeadline, if_neg zero, rounded]
      rfl
    · rw [digit]
      exact rounded

/-- The deadline grows with the quality and shrinks with the base target. -/
theorem deadline_exact_and_monotone :
    (∀ x, intCuberootU256 x ^ 3 ≤ x ∧ x < (intCuberootU256 x + 1) ^ 3) ∧
      ∀ blockTime : UInt64, 1 ≤ blockTime.toNat → blockTime.toNat < 2 ^ 63 →
        ∃ deadline : UInt64 → UInt64 → UInt64,
          (∀ rawQuality baseTarget, 1 ≤ baseTarget.toNat →
            calculateTimeBendedDeadline rawQuality baseTarget blockTime =
                .ok (deadline rawQuality baseTarget) ∧
              roundedDeadline rawQuality baseTarget blockTime =
                .ok (deadline rawQuality baseTarget).toNat) ∧
          (∀ rawQuality rawQuality' baseTarget, 1 ≤ baseTarget.toNat → rawQuality ≤ rawQuality' →
            deadline rawQuality baseTarget ≤ deadline rawQuality' baseTarget) ∧
          ∀ rawQuality baseTarget baseTarget', 1 ≤ baseTarget.toNat → baseTarget ≤ baseTarget' →
            deadline rawQuality baseTarget' ≤ deadline rawQuality baseTarget := by
  refine ⟨intCuberootU256_spec, ?_⟩
  intro blockTime positive small
  obtain ⟨scaleQ, deadlines⟩ := calculateTimeBendedDeadline_ok blockTime positive small
  have value (rawQuality baseTarget : UInt64) : ∃ deadline : UInt64, 1 ≤ baseTarget.toNat →
      calculateTimeBendedDeadline rawQuality baseTarget blockTime = .ok deadline ∧
        roundedDeadline rawQuality baseTarget blockTime = .ok deadline.toNat ∧
        deadline.toNat =
          (scaleQ * intCuberootU256 (rawQuality.toNat * 2 ^ 63 / baseTarget.toNat) + 2 ^ 62) /
            2 ^ 63 := by
    by_cases target : 1 ≤ baseTarget.toNat
    · obtain ⟨deadline, done⟩ := deadlines rawQuality baseTarget target
      exact ⟨deadline, fun _ => done⟩
    · exact ⟨0, fun positive => absurd positive target⟩
  choose deadline valued using value
  refine ⟨deadline, ?_, ?_, ?_⟩
  · intro rawQuality baseTarget target
    obtain ⟨done, rounded, -⟩ := valued rawQuality baseTarget target
    exact ⟨done, rounded⟩
  · intro rawQuality rawQuality' baseTarget target le
    rw [UInt64.le_iff_toNat_le] at le ⊢
    rw [(valued _ _ target).2.2, (valued _ _ target).2.2]
    apply Nat.div_le_div_right
    apply Nat.add_le_add_right
    apply Nat.mul_le_mul_left
    apply intCuberootU256_mono
    apply Nat.div_le_div_right
    exact Nat.mul_le_mul_right _ le
  · intro rawQuality baseTarget baseTarget' target le
    rw [UInt64.le_iff_toNat_le] at le ⊢
    rw [(valued _ _ target).2.2, (valued _ _ (Nat.le_trans target le)).2.2]
    apply Nat.div_le_div_right
    apply Nat.add_le_add_right
    apply Nat.mul_le_mul_left
    apply intCuberootU256_mono
    exact Nat.div_le_div_left le target

/-- A block time of two minutes. -/
theorem two_minutes_monotone :
    ∃ deadline : UInt64 → UInt64 → UInt64,
      calculateTimeBendedDeadline 1000 5 120 = .ok (deadline 1000 5) ∧
        calculateTimeBendedDeadline 2000 5 120 = .ok (deadline 2000 5) ∧
        deadline 1000 5 ≤ deadline 2000 5 ∧ deadline 1000 7 ≤ deadline 1000 5 := by
  obtain ⟨deadline, done, growing, shrinking⟩ :=
    deadline_exact_and_monotone.2 120 (by decide) (by decide)
  exact ⟨deadline, (done 1000 5 (by decide)).1, (done 2000 5 (by decide)).1,
    growing 1000 2000 5 (by decide) (by decide), shrinking 1000 5 7 (by decide) (by decide)⟩

end Pocx.TimeBending
