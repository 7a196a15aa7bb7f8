import McFront.Number.Shortest
import McFront.Proofs.Number.Rounding

set_option autoImplicit false

namespace McFront.Shortest

open Binary64 (leastExponent precision)

namespace Interval

variable {within : Interval} {digits : Nat} {power : Int}

def lowest (within : Interval) : ℚ := within.low / within.denominator

def value (within : Interval) : ℚ := within.middle / within.denominator

def highest (within : Interval) : ℚ := within.high / within.denominator

def Spans (within : Interval) (point : ℚ) : Prop :=
  if within.closed then within.lowest ≤ point ∧ point ≤ within.highest
  else within.lowest < point ∧ point < within.highest

theorem Spans.bounds {point : ℚ} (spans : within.Spans point) :
    within.lowest ≤ point ∧ point ≤ within.highest := by
  unfold Spans at spans
  split_ifs at spans
  · exact spans
  · exact ⟨spans.1.le, spans.2.le⟩

theorem spans_of_between {point : ℚ} (above : within.lowest < point)
    (below : point < within.highest) : within.Spans point := by
  unfold Spans
  split_ifs
  · exact ⟨above.le, below.le⟩
  · exact ⟨above, below⟩

theorem holds_iff (positive : 0 < within.denominator) :
    within.holds digits power = true ↔ within.Spans (digits * 10 ^ power) := by
  have quotient := Binary64.scaled_quotient (by decide : 0 < 10) digits 1 (-power)
  have bottom := Binary64.scaled_positive (by decide : 0 < 10) digits Nat.one_pos (-power)
  rw [Nat.cast_one, div_one, zpow_neg, div_inv_eq_mul] at quotient
  push_cast at quotient
  have den : (0 : ℚ) < within.denominator := by exact_mod_cast positive
  unfold holds Spans lowest highest
  rw [← quotient]
  generalize Binary64.scaled 10 digits 1 (-power) = fraction at bottom ⊢
  have under : (0 : ℚ) < fraction.2 := by exact_mod_cast bottom
  split_ifs
  · rw [div_le_div_iff₀ den under, div_le_div_iff₀ under den, decide_eq_true_iff]
    exact_mod_cast Iff.rfl
  · rw [div_lt_div_iff₀ den under, div_lt_div_iff₀ under den, decide_eq_true_iff]
    exact_mod_cast Iff.rfl

theorem digit_count_le {number count : Nat} (positive : 0 < count) :
    Binary64.digitCount number ≤ count ↔ number < 10 ^ count :=
  Nat.length_toDigits_le_iff (by decide) positive

-- The decade is a lower bound. That it is the greatest one is not needed here.
theorem decade_le (positive : 0 < within.denominator) (filled : 0 < within.middle) :
    (10 : ℚ) ^ within.decade ≤ within.value := by
  have den : (0 : ℚ) < within.denominator := by exact_mod_cast positive
  unfold decade value
  by_cases large : within.denominator ≤ within.middle
  · rw [if_pos large, le_div_iff₀ den]
    have some : 0 < within.middle / within.denominator := Nat.div_pos large positive
    generalize isCount : Binary64.digitCount (within.middle / within.denominator) = count
    have counted : 10 ^ (count - 1) ≤ within.middle / within.denominator := by
      by_cases single : count - 1 = 0
      · rw [single]
        exact some
      · have least : ¬ Binary64.digitCount (within.middle / within.denominator) ≤ count - 1 := by
          omega
        exact not_lt.mp (mt (digit_count_le (Nat.pos_of_ne_zero single)).mpr least)
    have nonzero : 0 < count := isCount ▸ Nat.length_toDigits_pos
    have shape : (count : Int) - 1 = ((count - 1 : Nat) : Int) := by omega
    rw [shape, zpow_natCast]
    exact_mod_cast (Nat.le_div_iff_mul_le positive).mp counted
  · rw [if_neg large, zpow_neg, zpow_natCast, le_div_iff₀ den]
    generalize isCount :
      Binary64.digitCount ((within.denominator - 1) / within.middle) = count
    have nonzero : 0 < count := isCount ▸ Nat.length_toDigits_pos
    have counted := (digit_count_le nonzero).mp isCount.le
    have most := (Nat.div_lt_iff_lt_mul filled).mp counted
    rw [inv_mul_le_iff₀ (by positivity)]
    have enough : within.denominator ≤ 10 ^ count * within.middle := by omega
    exact_mod_cast enough

theorem neighbour_found (positive : 0 < within.denominator)
    (above : within.lowest < within.value) (below : within.value < within.highest)
    (fine : (10 : ℚ) ^ power < within.highest - within.lowest) :
    within.neighbour? power ≠ none := by
  have unit : (0 : ℚ) < 10 ^ power := zpow_pos (by norm_num) power
  have quotient := Binary64.scaled_quotient (by decide : 0 < 10) within.middle
    within.denominator power
  have bottom := Binary64.scaled_positive (by decide : 0 < 10) within.middle positive power
  push_cast at quotient
  unfold neighbour?
  simp only []
  generalize Binary64.scaled 10 within.middle within.denominator power = fraction at quotient bottom ⊢
  generalize isBelow : fraction.1 / fraction.2 = near
  have under : (0 : ℚ) < fraction.2 := by exact_mod_cast bottom
  have least : near * (10 : ℚ) ^ power ≤ within.value := by
    rw [value, ← le_div_iff₀ unit, ← quotient, le_div_iff₀ under]
    exact_mod_cast isBelow ▸ Nat.div_mul_le_self fraction.1 fraction.2
  have most : within.value < ((near + 1 : Nat) : ℚ) * 10 ^ power := by
    rw [value, ← div_lt_iff₀ unit, ← quotient, div_lt_iff₀ under]
    have next : fraction.1 / fraction.2 < near + 1 := isBelow ▸ Nat.lt_succ_self _
    exact_mod_cast (Nat.div_lt_iff_lt_mul bottom).mp next
  have either : within.holds near power = true ∨ within.holds (near + 1) power = true := by
    by_cases inside : within.lowest < near * 10 ^ power
    · exact .inl ((holds_iff positive).mpr (spans_of_between inside (least.trans_lt below)))
    · right
      have outside := not_lt.mp inside
      refine (holds_iff positive).mpr (spans_of_between (above.trans most) ?_)
      push_cast
      linarith
  split <;> simp_all

theorem neighbour_holds {found : Nat} (isNeighbour : within.neighbour? power = some found) :
    within.holds found power = true := by
  unfold neighbour? at isNeighbour
  simp only [] at isNeighbour
  split at isNeighbour <;> cases isNeighbour
  · split_ifs <;> assumption
  · assumption
  · assumption

end Interval

variable {significand other : Nat} {exponent greater : Int}

def quarter (exponent : Int) : ℚ := 2 ^ (exponent - 2)

theorem quarter_positive (exponent : Int) : 0 < quarter exponent := zpow_pos (by norm_num) _

def quartersBelow (significand : Nat) (exponent : Int) : Nat :=
  if significand = Nat.pow 2 (precision - 1) ∧ leastExponent < exponent then 1 else 2

theorem interval_positive (significand : Nat) (exponent : Int) :
    0 < (interval significand exponent).denominator := by
  unfold interval
  cases exponent - 2 with
  | ofNat up => exact Nat.one_pos
  | negSucc down => exact Nat.two_pow_pos _

theorem interval_closed (significand : Nat) (exponent : Int) :
    (interval significand exponent).closed = decide (significand % 2 = 0) := by
  unfold interval
  cases exponent - 2 <;> rfl

theorem interval_ends (positive : 0 < significand) (exponent : Int) :
    (interval significand exponent).lowest =
        (4 * significand - quartersBelow significand exponent) * quarter exponent ∧
      (interval significand exponent).value = 4 * significand * quarter exponent ∧
      (interval significand exponent).highest = (4 * significand + 2) * quarter exponent := by
  have few : quartersBelow significand exponent ≤ 4 * significand := by
    unfold quartersBelow
    split_ifs <;> omega
  have lower : (4 * significand - quartersBelow significand exponent : ℚ) =
      ((4 * significand - quartersBelow significand exponent : Nat) : ℚ) := by
    push_cast [few]
    rfl
  rw [lower]
  unfold Interval.lowest Interval.value Interval.highest interval quarter
  unfold quartersBelow
  cases exponent - 2 with
  | ofNat up =>
      rw [Int.ofNat_eq_natCast, zpow_natCast]
      refine ⟨?_, ?_, ?_⟩ <;> simp [Nat.cast_mul]
  | negSucc down =>
      rw [zpow_negSucc]
      refine ⟨?_, ?_, ?_⟩ <;> simp [div_eq_mul_inv]

theorem quarters_below_cases (significand : Nat) (exponent : Int) :
    quartersBelow significand exponent = 2 ∨
      quartersBelow significand exponent = 1 ∧ significand = 2 ^ 52 := by
  unfold quartersBelow
  split_ifs with power
  · exact .inr ⟨rfl, power.1⟩
  · exact .inl rfl

theorem Interval.decade_fine (positive : 0 < significand) (small : significand < 2 ^ 53) :
    (10 : ℚ) ^ ((interval significand exponent).decade - 16) <
      (interval significand exponent).highest - (interval significand exponent).lowest := by
  obtain ⟨lower, middle, upper⟩ := interval_ends positive exponent
  have some : (0 : ℚ) < significand := by exact_mod_cast positive
  have unit := quarter_positive exponent
  have filled : 0 < (interval significand exponent).middle := by
    unfold interval
    cases exponent - 2 with
    | ofNat up => exact Nat.mul_pos (by omega) (Nat.two_pow_pos _)
    | negSucc down => exact Nat.mul_pos (by decide) positive
  have decade := decade_le (interval_positive significand exponent) filled
  rw [zpow_sub₀ (by norm_num), upper, lower]
  rw [middle] at decade
  have width : (significand : ℚ) * 4 <
      10 ^ 16 * (2 + quartersBelow significand exponent) := by
    rcases quarters_below_cases significand exponent with two | ⟨one, power⟩
    · rw [two]
      have bound : (significand : ℚ) < 2 ^ 53 := by exact_mod_cast small
      push_cast
      linarith
    · rw [one, power]
      norm_num
  rw [div_lt_iff₀ (by norm_num)]
  calc (10 : ℚ) ^ (interval significand exponent).decade
      ≤ 4 * significand * quarter exponent := decade
    _ = significand * 4 * quarter exponent := by ring
    _ < 10 ^ 16 * (2 + quartersBelow significand exponent) * quarter exponent :=
        mul_lt_mul_of_pos_right width unit
    _ = _ := by
      norm_num
      ring

theorem decimal_spans (positive : 0 < significand) (small : significand < 2 ^ 53)
    (exponent : Int) :
    (interval significand exponent).Spans
      ((decimal significand exponent).1 * 10 ^ (decimal significand exponent).2) := by
  have sound := interval_positive significand exponent
  obtain ⟨lower, middle, upper⟩ := interval_ends positive exponent
  have unit := quarter_positive exponent
  have few : 0 < quartersBelow significand exponent := by
    unfold quartersBelow
    split_ifs <;> decide
  have above : (interval significand exponent).lowest < (interval significand exponent).value := by
    rw [lower, middle]
    have less : (0 : ℚ) < quartersBelow significand exponent := by exact_mod_cast few
    exact mul_lt_mul_of_pos_right (by linarith) unit
  have below : (interval significand exponent).value < (interval significand exponent).highest := by
    rw [middle, upper]
    exact mul_lt_mul_of_pos_right (by linarith) unit
  unfold decimal
  simp only []
  cases found : (List.range 17).findSome? fun (more : Nat) =>
      ((interval significand exponent).neighbour?
        ((interval significand exponent).decade - (more : Int))).map
          (·, (interval significand exponent).decade - (more : Int)) with
  | none =>
      have last := List.findSome?_eq_none_iff.mp found 16 (by decide)
      have finest := Interval.neighbour_found sound above below
        (Interval.decade_fine positive small)
      exact absurd (Option.map_eq_none_iff.mp last) finest
  | some pair =>
      obtain ⟨more, _, picked⟩ := List.exists_of_findSome?_eq_some found
      obtain ⟨digits, isNeighbour, rfl⟩ := Option.map_eq_some_iff.mp picked
      exact (Interval.holds_iff sound).mp (Interval.neighbour_holds isNeighbour)

variable {negative negativeToo : Bool} {point : ℚ}

theorem spans_odd (odd : significand % 2 = 1)
    (spans : (interval significand exponent).Spans point) :
    (interval significand exponent).lowest < point ∧
      point < (interval significand exponent).highest := by
  have opened : (interval significand exponent).closed = false := by
    rw [interval_closed, odd]
    rfl
  unfold Interval.Spans at spans
  rwa [opened, if_neg Bool.false_ne_true] at spans

-- Intervals follow each other, and one of two that touch is that of an odd significand.
theorem interval_next (positive : 0 < significand) (less : significand < other) :
    (interval significand exponent).highest ≤ (interval other exponent).lowest ∧
      ((interval significand exponent).highest = (interval other exponent).lowest →
        significand % 2 = 1 ∨ other % 2 = 1) := by
  obtain ⟨_, _, upper⟩ := interval_ends positive exponent
  obtain ⟨lower, _, _⟩ := interval_ends (positive.trans less) exponent
  have unit := quarter_positive exponent
  have step : ((significand + 1 : Nat) : ℚ) ≤ other := by exact_mod_cast less
  have few : (quartersBelow other exponent : ℚ) ≤ 2 := by
    rcases quarters_below_cases other exponent with two | ⟨one, _⟩
    · rw [two]
      norm_num
    · rw [one]
      norm_num
  push_cast at step
  rw [upper, lower]
  refine ⟨mul_le_mul_of_nonneg_right (by linarith) unit.le, ?_⟩
  intro touch
  have same := mul_right_cancel₀ unit.ne' touch
  have next : (other : ℚ) = ((significand + 1 : Nat) : ℚ) := by
    push_cast
    linarith
  have isNext : other = significand + 1 := by exact_mod_cast next
  omega

theorem interval_later (positive : 0 < significand) (small : significand < 2 ^ 53)
    (large : 2 ^ 52 ≤ other) (least : leastExponent ≤ exponent) (later : exponent < greater) :
    (interval significand exponent).highest ≤ (interval other greater).lowest ∧
      ((interval significand exponent).highest = (interval other greater).lowest →
        significand % 2 = 1) := by
  obtain ⟨_, _, upper⟩ := interval_ends positive exponent
  have positiveToo : 0 < other := by omega
  obtain ⟨lower, _, _⟩ := interval_ends positiveToo greater
  have unit := quarter_positive exponent
  have double : 2 * quarter exponent ≤ quarter greater := by
    have shape : 2 * quarter exponent = 2 ^ (exponent - 2 + 1) := by
      rw [quarter, zpow_add₀ (by norm_num), zpow_one, mul_comm]
    rw [shape]
    exact zpow_le_zpow_right₀ (by norm_num) (by omega)
  have most : (significand : ℚ) ≤ 2 ^ 53 - 1 := by
    have bound : significand + 1 ≤ 2 ^ 53 := small
    have cast : ((significand + 1 : Nat) : ℚ) ≤ 2 ^ 53 := by exact_mod_cast bound
    push_cast at cast
    linarith
  have fewest : (2 : ℚ) ^ 54 - 1 ≤ 4 * other - quartersBelow other greater := by
    have whole : 2 ^ 54 + quartersBelow other greater ≤ 4 * other + 1 := by
      unfold quartersBelow
      by_cases power : other = Nat.pow 2 (precision - 1)
      · rw [if_pos ⟨power, by omega⟩, power]
        decide
      · have more : 2 ^ 52 ≠ other := Ne.symm power
        rw [if_neg fun both => power both.1]
        omega
    have cast : ((2 ^ 54 + quartersBelow other greater : Nat) : ℚ) ≤ ((4 * other + 1 : Nat) : ℚ) := by
      exact_mod_cast whole
    push_cast at cast
    linarith
  have far : ((2 : ℚ) ^ 55 - 2) * quarter exponent ≤ (interval other greater).lowest := by
    rw [lower]
    calc ((2 : ℚ) ^ 55 - 2) * quarter exponent = (2 ^ 54 - 1) * (2 * quarter exponent) := by ring
      _ ≤ (2 ^ 54 - 1) * quarter greater := by gcongr
      _ ≤ _ := mul_le_mul_of_nonneg_right fewest (quarter_positive greater).le
  have near : (interval significand exponent).highest ≤ (2 ^ 55 - 2) * quarter exponent := by
    rw [upper]
    exact mul_le_mul_of_nonneg_right (by linarith) unit.le
  refine ⟨near.trans far, ?_⟩
  intro touch
  have exact : (4 * significand + 2) * quarter exponent = ((2 : ℚ) ^ 55 - 2) * quarter exponent :=
    le_antisymm (upper ▸ near) (upper ▸ touch ▸ far)
  have same := mul_right_cancel₀ unit.ne' exact
  have last : ((significand + 1 : Nat) : ℚ) = 2 ^ 53 := by
    push_cast
    linarith
  have isLast : significand + 1 = 2 ^ 53 := by exact_mod_cast last
  omega

theorem spans_apart (touching : (interval significand exponent).highest ≤ (interval other greater).lowest ∧
      ((interval significand exponent).highest = (interval other greater).lowest →
        significand % 2 = 1 ∨ other % 2 = 1))
    (first : (interval significand exponent).Spans point) :
    ¬ (interval other greater).Spans point := by
  intro second
  have same : (interval significand exponent).highest = (interval other greater).lowest :=
    le_antisymm touching.1 (second.bounds.1.trans first.bounds.2)
  rcases touching.2 same with odd | odd
  · exact absurd (same ▸ (spans_odd odd first).2) (not_lt.mpr second.bounds.1)
  · exact absurd (same ▸ (spans_odd odd second).1) (not_lt.mpr first.bounds.2)

theorem spans_unique (positive : 0 < significand) (positiveToo : 0 < other)
    (normal : (Binary64.finite negative significand exponent).Normal)
    (normalToo : (Binary64.finite negativeToo other greater).Normal)
    (first : (interval significand exponent).Spans point)
    (second : (interval other greater).Spans point) : significand = other ∧ exponent = greater := by
  obtain ⟨small, least, _, full⟩ := normal
  obtain ⟨smallToo, leastToo, _, fullToo⟩ := normalToo
  rcases lt_trichotomy exponent greater with less | same | more
  · have large := fullToo.resolve_right (by omega)
    have later := interval_later positive small large least less
    exact absurd second (spans_apart ⟨later.1, fun touch => .inl (later.2 touch)⟩ first)
  · subst same
    rcases lt_trichotomy significand other with less | same | more
    · exact absurd second (spans_apart (interval_next positive less) first)
    · exact ⟨same, rfl⟩
    · exact absurd first (spans_apart (interval_next positiveToo more) second)
  · have large := full.resolve_right (by omega)
    have later := interval_later positiveToo smallToo large leastToo more
    exact absurd first (spans_apart ⟨later.1, fun touch => .inl (later.2 touch)⟩ second)

end McFront.Shortest
