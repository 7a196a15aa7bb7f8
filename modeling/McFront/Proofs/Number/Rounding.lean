import Mathlib.Algebra.Order.Field.Power
import Mathlib.Data.Rat.Cast.Order
import Mathlib.Tactic.FieldSimp
import Mathlib.Tactic.GCongr
import Mathlib.Tactic.Linarith
import Mathlib.Tactic.NormNum
import Mathlib.Tactic.Positivity
import Mathlib.Tactic.Ring
import McFront.Number.Decimal

set_option autoImplicit false

namespace McFront.Binary64

variable {numerator denominator : Nat} {power : Int}

theorem scaled_positive {base : Nat} (large : 0 < base) (numerator : Nat)
    (positive : 0 < denominator) (power : Int) :
    0 < (scaled base numerator denominator power).2 := by
  cases power with
  | ofNat up => exact Nat.mul_pos positive (Nat.pow_pos large)
  | negSucc down => exact positive

theorem scaled_quotient {base : Nat} (large : 0 < base) (numerator denominator : Nat)
    (power : Int) :
    ((scaled base numerator denominator power).1 : ℚ) /
        (scaled base numerator denominator power).2 =
      numerator / denominator / (base : ℚ) ^ power := by
  have nonzero : (base : ℚ) ≠ 0 := by exact_mod_cast large.ne'
  cases power with
  | ofNat up =>
      change ((numerator : ℚ) / ((denominator * base ^ up : Nat) : ℚ)) = _
      rw [Int.ofNat_eq_natCast, zpow_natCast, Nat.cast_mul, Nat.cast_pow, div_div]
  | negSucc down =>
      change (((numerator * base ^ (down + 1) : Nat) : ℚ) / denominator) = _
      rw [zpow_negSucc, div_inv_eq_mul, Nat.cast_mul, Nat.cast_pow]
      ring

theorem scaled_at_least {base : Nat} (large : 0 < base) (numerator : Nat)
    (positive : 0 < denominator) (power : Int) (count : Nat) :
    count * (scaled base numerator denominator power).2 ≤
        (scaled base numerator denominator power).1 ↔
      count * (base : ℚ) ^ power ≤ numerator / denominator := by
  have quotient := scaled_quotient large numerator denominator power
  have bottom := scaled_positive large numerator positive power
  generalize scaled base numerator denominator power = fraction at quotient bottom ⊢
  have unit : (0 : ℚ) < (base : ℚ) ^ power := zpow_pos (by exact_mod_cast large) power
  rw [← le_div_iff₀ unit, ← quotient, le_div_iff₀ (by exact_mod_cast bottom)]
  exact_mod_cast Iff.rfl

theorem log_bounds {number : Nat} (positive : 0 < number) :
    (2 : ℚ) ^ (Nat.log2 number : Int) ≤ number ∧
      (number : ℚ) < 2 ^ ((Nat.log2 number : Int) + 1) := by
  constructor
  · rw [zpow_natCast]
    exact_mod_cast Nat.log2_self_le positive.ne'
  · have less := @Nat.lt_log2_self number
    have cast : (2 : ℚ) ^ ((Nat.log2 number : Int) + 1) = ((2 ^ (Nat.log2 number + 1) : Nat) : ℚ) := by
      push_cast
      rw [← zpow_natCast]
      norm_cast
    rw [cast]
    exact_mod_cast less

theorem magnitude_bounds (filled : 0 < numerator) (positive : 0 < denominator) :
    (2 : ℚ) ^ magnitude numerator denominator ≤ numerator / denominator ∧
      (numerator : ℚ) / denominator < 2 ^ (magnitude numerator denominator + 1) := by
  obtain ⟨low, high⟩ := log_bounds filled
  obtain ⟨lowToo, highToo⟩ := log_bounds positive
  have two : (2 : ℚ) ≠ 0 := by norm_num
  have below : (0 : ℚ) < denominator := by exact_mod_cast positive
  generalize isGuess : (Nat.log2 numerator : Int) - Nat.log2 denominator = guess
  have upper : (numerator : ℚ) / denominator < 2 ^ (guess + 1) := by
    rw [div_lt_iff₀ below, ← isGuess]
    calc (numerator : ℚ) < 2 ^ ((Nat.log2 numerator : Int) + 1) := high
      _ = 2 ^ ((Nat.log2 numerator : Int) - Nat.log2 denominator + 1) *
            2 ^ (Nat.log2 denominator : Int) := by
          rw [← zpow_add₀ two]
          congr 1
          ring
      _ ≤ _ := by gcongr
  have lower : (2 : ℚ) ^ (guess - 1) ≤ numerator / denominator := by
    rw [le_div_iff₀ below, ← isGuess]
    calc (2 : ℚ) ^ ((Nat.log2 numerator : Int) - Nat.log2 denominator - 1) * denominator
        ≤ 2 ^ ((Nat.log2 numerator : Int) - Nat.log2 denominator - 1) *
            2 ^ ((Nat.log2 denominator : Int) + 1) := by gcongr
      _ = 2 ^ (Nat.log2 numerator : Int) := by
          rw [← zpow_add₀ two]
          congr 1
          ring
      _ ≤ numerator := low
  have reached := scaled_at_least (by decide : 0 < 2) numerator positive guess 1
  rw [Nat.one_mul, Nat.cast_one, one_mul] at reached
  rw [magnitude, isGuess]
  by_cases within : (scaled 2 numerator denominator guess).2 ≤ (scaled 2 numerator denominator guess).1
  · simp only [if_pos within]
    exact ⟨reached.mp within, upper⟩
  · simp only [if_neg within, sub_add_cancel]
    exact ⟨lower, not_le.mp (mt reached.mpr within)⟩

theorem round_bounds {top bottom bound : Nat} (positive : 0 < bottom) :
    (bound * bottom ≤ top → bound ≤ roundQuotient top bottom) ∧
      (top < bound * bottom → roundQuotient top bottom ≤ bound) := by
  have below : bound * bottom ≤ top → bound ≤ top / bottom :=
    (Nat.le_div_iff_mul_le positive).mpr
  have above : top < bound * bottom → top / bottom < bound :=
    (Nat.div_lt_iff_lt_mul positive).mpr
  have parity : top / bottom % 2 < 2 := Nat.mod_lt _ (by decide)
  have near : roundQuotient top bottom = top / bottom ∨
      roundQuotient top bottom = top / bottom + 1 := by
    unfold roundQuotient
    simp only []
    split_ifs <;> omega
  constructor
  · intro reached
    have least := below reached
    omega
  · intro beyond
    have most := above beyond
    omega

theorem zero_normal (negative : Bool) : (zero negative).Normal := by
  simp [zero, Normal, precision, leastExponent, greatestExponent]

theorem of_quotient_normal (negative : Bool) (numerator : Nat) (positive : 0 < denominator) :
    (ofQuotient negative numerator denominator).Normal := by
  by_cases none : numerator = 0
  · rw [ofQuotient, if_pos none]
    exact zero_normal negative
  · obtain ⟨low, high⟩ := magnitude_bounds (Nat.pos_of_ne_zero none) positive
    rw [ofQuotient, if_neg none]
    generalize magnitude numerator denominator = size at low high
    generalize isExponent : max (size - 52) leastExponent = exponent
    have least : leastExponent ≤ exponent := isExponent ▸ le_max_right _ _
    have unit : (0 : ℚ) < 2 ^ exponent := zpow_pos (by norm_num) exponent
    have bottom := scaled_positive (by decide : 0 < 2) numerator positive exponent
    have reached := scaled_at_least (by decide : 0 < 2) numerator positive exponent
    push_cast at reached
    -- The quotient has at most 53 binary digits before the point once it is scaled.
    have most : roundQuotient (scaled 2 numerator denominator exponent).1
        (scaled 2 numerator denominator exponent).2 ≤ 2 ^ 53 := by
      refine (round_bounds bottom).2 (not_le.mp (mt (reached (2 ^ 53)).mp (not_le.mpr ?_)))
      have above : size + 1 ≤ 53 + exponent := by omega
      calc (numerator : ℚ) / denominator < 2 ^ (size + 1) := high
        _ ≤ 2 ^ (53 + exponent) := zpow_le_zpow_right₀ (by norm_num) above
        _ = _ := by
          rw [zpow_add₀ (by norm_num)]
          norm_num
    have full : exponent ≠ leastExponent → 2 ^ 52 ≤ roundQuotient
        (scaled 2 numerator denominator exponent).1
        (scaled 2 numerator denominator exponent).2 := by
      intro greater
      refine (round_bounds bottom).1 ((reached (2 ^ 52)).mpr ?_)
      have same : size = 52 + exponent := by omega
      calc ((2 ^ 52 : Nat) : ℚ) * 2 ^ exponent = 2 ^ (52 + exponent) := by
            rw [zpow_add₀ (by norm_num)]
            norm_num
        _ ≤ _ := same ▸ low
    simp only []
    generalize roundQuotient _ _ = significand at most full ⊢
    by_cases carried : significand = Nat.pow 2 precision
    · rw [if_pos carried]
      by_cases great : greatestExponent < exponent + 1
      · rw [if_pos great]
        trivial
      · rw [if_neg great]
        have fits : Nat.pow 2 (precision - 1) < Nat.pow 2 precision := by decide
        exact ⟨fits, by omega, by omega, .inl (Nat.le_refl _)⟩
    · rw [if_neg carried]
      by_cases great : greatestExponent < exponent
      · rw [if_pos great]
        trivial
      · rw [if_neg great]
        refine ⟨lt_of_le_of_ne most carried, least, by omega, ?_⟩
        by_cases subnormal : exponent = leastExponent
        · exact .inr subnormal
        · exact .inl (full subnormal)

theorem of_decimal_normal (negative : Bool) (digits : Nat) (power : Int) :
    (ofDecimal negative digits power).Normal := by
  unfold ofDecimal
  split_ifs with nothing great small
  · exact zero_normal negative
  · trivial
  · exact zero_normal negative
  · exact of_quotient_normal negative _ (scaled_positive (by decide) _ Nat.one_pos _)

end McFront.Binary64
