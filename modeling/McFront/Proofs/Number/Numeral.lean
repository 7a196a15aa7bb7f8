import McFront.Number.Decimal
import McFront.Proofs.Text.Run
import McFront.Proofs.Number.Shortest

set_option autoImplicit false

namespace McFront

theorem nat_text_injective {m n : Nat} (same : Nat.repr m = Nat.repr n) : m = n := by
  rw [Nat.repr_eq_ofList_toDigits, Nat.repr_eq_ofList_toDigits, String.ofList_inj] at same
  rw [← Nat.ofDigitChars_ten_toDigits (n := m), same, Nat.ofDigitChars_ten_toDigits]

theorem int_text_unsigned (m n : Nat) : toString (Int.ofNat m) ≠ toString (Int.negSucc n) := by
  intro same
  have sign : '-' ∈ (Nat.repr m).toList := by
    have shape : Nat.repr m = "-" ++ Nat.repr (n + 1) := same
    simp [shape]
  rw [Nat.repr_eq_ofList_toDigits, String.toList_ofList] at sign
  cases Nat.isDigit_of_mem_toDigits (by decide) (by decide) sign

theorem int_text_injective {a b : Int} (same : toString a = toString b) : a = b := by
  cases a with
  | ofNat m =>
      cases b with
      | ofNat n => exact congrArg Int.ofNat (nat_text_injective same)
      | negSucc n => exact absurd same (int_text_unsigned m n)
  | negSucc m =>
      cases b with
      | ofNat n => exact absurd same.symm (int_text_unsigned n m)
      | negSucc n =>
          have digits : Nat.repr (m + 1) = Nat.repr (n + 1) := (String.append_right_inj "-").mp same
          exact congrArg Int.negSucc (Nat.succ.inj (nat_text_injective digits))

namespace Binary64

variable {digits fraction whole : List Char} {power places : Int} {text : List Char}

theorem digits_value_eq (digits : List Char) :
    digitsValue digits = Nat.ofDigitChars 10 digits 0 := by
  unfold digitsValue Nat.ofDigitChars
  congr 1
  funext total c
  rw [Nat.mul_comm]

theorem digits_value_zeros (digits : List Char) (count : Nat) :
    digitsValue (digits ++ List.replicate count '0') = digitsValue digits * 10 ^ count := by
  rw [digits_value_eq, digits_value_eq, Nat.ofDigitChars_append, Nat.ofDigitChars_replicate_zero]
  ring

theorem zeros_digits_value (digits : List Char) (count : Nat) :
    digitsValue (List.replicate count '0' ++ digits) = digitsValue digits := by
  rw [digits_value_eq, digits_value_eq, Nat.ofDigitChars_append, Nat.ofDigitChars_replicate_zero]
  simp

def numeral (whole fraction : List Char) (power : Int) : List Char :=
  whole ++ ((if fraction = [] then [] else '.' :: fraction) ++
    (if power = 0 then [] else 'e' :: (toString power).toList))

def AllDigits (text : List Char) : Prop := ∀ c ∈ text, c.isDigit = true

def Denotes (text : List Char) (point : ℚ) : Prop :=
  ∃ whole fraction power, text = numeral whole fraction power ∧ whole ≠ [] ∧ AllDigits whole ∧
    AllDigits fraction ∧ point = digitsValue (whole ++ fraction) * 10 ^ (power - fraction.length)

theorem all_digits_zeros (count : Nat) : AllDigits (List.replicate count '0') := by
  intro c member
  rw [List.eq_of_mem_replicate member]
  rfl

theorem AllDigits.append {others : List Char} (all : AllDigits digits) (more : AllDigits others) :
    AllDigits (digits ++ others) := List.forall_mem_append.mpr ⟨all, more⟩

theorem power_part_head (power : Int) :
    ∀ c ∈ (if power = 0 then [] else 'e' :: (toString power).toList).head?, c = 'e' := by
  intro c head
  split_ifs at head
  · cases head
  · exact (Option.some.inj head).symm

theorem numeral_unique {others digitsToo : List Char} {powerToo : Int} (all : AllDigits whole)
    (allToo : AllDigits others) (after : AllDigits fraction) (afterToo : AllDigits digitsToo)
    (same : numeral whole fraction power = numeral others digitsToo powerToo) :
    whole = others ∧ fraction = digitsToo ∧ power = powerToo := by
  have point : ∀ {run : List Char} {power : Int},
      ∀ c ∈ ((if run = [] then [] else '.' :: run) ++
        (if power = 0 then [] else 'e' :: (toString power).toList)).head?, c.isDigit = false := by
    intro run power c head
    by_cases bare : run = []
    · rw [if_pos bare, List.nil_append] at head
      rw [power_part_head power c head]
      rfl
    · rw [if_neg bare] at head
      cases head
      rfl
  have mark : ∀ {power : Int}, ∀ c ∈ (if power = 0 then [] else
      'e' :: (toString power).toList).head?, c.isDigit = false := by
    intro power c head
    rw [power_part_head power c head]
    rfl
  have exponents : ∀ {a b : Int}, (if a = 0 then [] else 'e' :: (toString a).toList) =
      (if b = 0 then [] else 'e' :: (toString b).toList) → a = b := by
    intro a b alike
    split_ifs at alike with zero zeroToo zeroToo
    · rw [zero, zeroToo]
    · have texts := List.tail_eq_of_cons_eq alike
      exact int_text_injective (String.toList_inj.mp texts)
  obtain ⟨sameWhole, others⟩ := run_unique all allToo point point same
  refine ⟨sameWhole, ?_⟩
  by_cases bare : fraction = [] <;> by_cases bareToo : digitsToo = []
  · rw [if_pos bare, if_pos bareToo] at others
    exact ⟨bare.trans bareToo.symm, exponents others⟩
  · rw [if_pos bare, if_neg bareToo, List.nil_append] at others
    have head := power_part_head power '.' (others ▸ rfl)
    exact absurd head (by decide)
  · rw [if_neg bare, if_pos bareToo, List.nil_append] at others
    have head := power_part_head powerToo '.' (others ▸ rfl)
    exact absurd head (by decide)
  · rw [if_neg bare, if_neg bareToo] at others
    obtain ⟨sameFraction, tails⟩ := run_unique after afterToo mark mark
      (List.tail_eq_of_cons_eq others)
    exact ⟨sameFraction, exponents tails⟩

theorem Denotes.unique {point pointToo : ℚ} (first : Denotes text point)
    (second : Denotes text pointToo) : point = pointToo := by
  obtain ⟨whole, fraction, power, isText, _, all, after, rfl⟩ := first
  obtain ⟨others, digits, powerToo, isTextToo, _, allToo, afterToo, rfl⟩ := second
  obtain ⟨rfl, rfl, rfl⟩ := numeral_unique all allToo after afterToo (isText.symm.trans isTextToo)
  rfl

theorem Denotes.head_digit {point : ℚ} (denotes : Denotes text point) :
    ∃ c rest, text = c :: rest ∧ c.isDigit = true := by
  obtain ⟨whole, fraction, power, rfl, filled, all, _, _⟩ := denotes
  obtain ⟨c, rest, rfl⟩ := List.exists_cons_of_ne_nil filled
  exact ⟨c, _, rfl, all c List.mem_cons_self⟩

theorem positional_denotes (all : AllDigits digits) (filled : digits ≠ []) (places : Int) :
    Denotes (positional digits places)
      (digitsValue digits * 10 ^ (places - digits.length)) := by
  have zero : AllDigits ['0'] := all_digits_zeros 1
  unfold positional
  split
  · rename_i gap
    refine ⟨['0'], List.replicate (gap + 1) '0' ++ digits, 0, by simp [numeral], by simp, zero,
      (all_digits_zeros _).append all, ?_⟩
    have value := zeros_digits_value digits (gap + 2)
    rw [List.replicate_succ] at value
    rw [List.singleton_append, ← List.cons_append, value, List.length_append, List.length_replicate]
    congr 2
    omega
  · refine ⟨['0'], digits, 0, by simp [numeral, filled], by simp, zero, all, ?_⟩
    have value := zeros_digits_value digits 1
    rw [List.replicate_one] at value
    rw [value]
    rfl
  · rename_i before unfilled
    by_cases short : digits.length ≤ before
    · rw [if_pos short]
      refine ⟨digits ++ List.replicate (before - digits.length) '0', ['0'], 0,
        by simp [numeral], by simp [filled], all.append (all_digits_zeros _), zero, ?_⟩
      have value := digits_value_zeros digits (before - digits.length + 1)
      rw [List.append_assoc, ← List.replicate_succ', value]
      push_cast
      rw [mul_assoc, ← zpow_natCast, ← zpow_add₀ (by norm_num)]
      congr 2
      push_cast
      simp
      omega
    · rw [if_neg short]
      have some : digits.drop before ≠ [] := by
        simp only [ne_eq, List.drop_eq_nil_iff]
        exact short
      have present : digits.take before ≠ [] := by
        intro none
        exact (List.take_eq_nil_iff.mp none).elim unfilled filled
      refine ⟨digits.take before, digits.drop before, 0, by simp [numeral, some], present,
        fun c member => all c (List.mem_of_mem_take member),
        fun c member => all c (List.mem_of_mem_drop member), ?_⟩
      rw [List.take_append_drop, List.length_drop, Int.ofNat_eq_natCast]
      congr 2
      omega

theorem scientific_denotes (all : AllDigits digits) (filled : digits ≠ []) {places : Int}
    (large : places ≠ 1) :
    Denotes (scientific digits places) (digitsValue digits * 10 ^ (places - digits.length)) := by
  obtain ⟨first, others, rfl⟩ := List.exists_cons_of_ne_nil filled
  refine ⟨[first], others, places - 1, ?_, by simp, ?_, ?_, ?_⟩
  · have nonzero : places - 1 ≠ 0 := by omega
    cases others with
    | nil => simp [scientific, numeral, nonzero]
    | cons c others => simp [scientific, numeral, nonzero]
  · exact fun c member => all c (List.mem_singleton.mp member ▸ List.mem_cons_self)
  · exact fun c member => all c (List.mem_cons_of_mem _ member)
  · rw [List.singleton_append, List.length_cons]
    congr 2
    push_cast
    omega

theorem written_denotes (all : AllDigits digits) (filled : digits ≠ []) (places : Int) :
    Denotes (written digits places) (digitsValue digits * 10 ^ (places - digits.length)) := by
  unfold written
  by_cases plain : -4 < places ∧ places ≤ 16
  · rw [if_pos plain]
    exact positional_denotes all filled places
  · rw [if_neg plain]
    exact scientific_denotes all filled (by omega)

theorem without_trailing_zeros_spec (digits : List Char) :
    ∃ count, digits = withoutTrailingZeros digits ++ List.replicate count '0' := by
  refine ⟨(digits.reverse.takeWhile (· == '0')).length, ?_⟩
  have zeros : digits.reverse.takeWhile (· == '0') =
      List.replicate (digits.reverse.takeWhile (· == '0')).length '0' := by
    refine List.eq_replicate_of_mem fun c member => ?_
    exact eq_of_beq (List.all_eq_true.mp List.all_takeWhile c member)
  unfold withoutTrailingZeros
  rw [← List.reverse_replicate, ← zeros, ← List.reverse_append, List.takeWhile_append_dropWhile,
    List.reverse_reverse]

theorem shortened_denotes {number : Nat} (positive : 0 < number) (power : Int) :
    Denotes (written (withoutTrailingZeros (Nat.toDigits 10 number))
      (power + (Nat.toDigits 10 number).length)) (number * 10 ^ power) := by
  obtain ⟨count, split⟩ := without_trailing_zeros_spec (Nat.toDigits 10 number)
  generalize withoutTrailingZeros (Nat.toDigits 10 number) = digits at split ⊢
  have value : number = digitsValue digits * 10 ^ count := by
    rw [← digits_value_zeros, ← split, digits_value_eq, Nat.ofDigitChars_ten_toDigits]
  have all : AllDigits digits := by
    intro c member
    exact Nat.isDigit_of_mem_toDigits (by decide) (by decide)
      (split ▸ List.mem_append_left _ member)
  have filled : digits ≠ [] := by
    rintro rfl
    have nothing : number = 0 := value.trans (Nat.zero_mul _)
    omega
  have denotes := written_denotes all filled (power + (Nat.toDigits 10 number).length)
  have point : (digitsValue digits : ℚ) *
      10 ^ (power + (Nat.toDigits 10 number).length - digits.length) = number * 10 ^ power := by
    rw [split, value, List.length_append, List.length_replicate]
    push_cast
    rw [mul_assoc, ← zpow_natCast, ← zpow_add₀ (by norm_num)]
    congr 2
    omega
  rwa [point] at denotes

variable {negative negativeToo : Bool} {significand other : Nat} {exponent greater : Int}

theorem spans_positive {point : ℚ} (positive : 0 < significand)
    (spans : (Shortest.interval significand exponent).Spans point) : 0 < point := by
  refine lt_of_lt_of_le ?_ spans.bounds.1
  rw [(Shortest.interval_ends positive exponent).1]
  have some : (1 : ℚ) ≤ significand := by exact_mod_cast positive
  have few : (Shortest.quartersBelow significand exponent : ℚ) ≤ 2 := by
    rcases Shortest.quarters_below_cases significand exponent with two | ⟨one, _⟩
    · rw [two]
      norm_num
    · rw [one]
      norm_num
  exact mul_pos (by linarith) (Shortest.quarter_positive exponent)

theorem magnitude_text_denotes (small : significand < 2 ^ 53) (exponent : Int) :
    ∃ point, Denotes (magnitudeText significand exponent) point ∧
      (significand = 0 ∧ point = 0 ∨
        0 < significand ∧ (Shortest.interval significand exponent).Spans point) := by
  unfold magnitudeText
  by_cases none : significand = 0
  · rw [if_pos none]
    refine ⟨0, ⟨['0'], ['0'], 0, rfl, by simp, all_digits_zeros 1, all_digits_zeros 1, ?_⟩,
      .inl ⟨none, rfl⟩⟩
    have value : digitsValue ['0', '0'] = 0 := rfl
    rw [List.singleton_append, value]
    simp
  · rw [if_neg none]
    have positive := Nat.pos_of_ne_zero none
    have spans := Shortest.decimal_spans positive small exponent
    generalize Shortest.decimal significand exponent = decimal at spans ⊢
    have some : 0 < decimal.1 := by
      by_contra nothing
      have zero : decimal.1 = 0 := by omega
      have above := spans_positive positive spans
      simp [zero] at above
    exact ⟨_, shortened_denotes some decimal.2, .inr ⟨positive, spans⟩⟩

theorem magnitude_text_unique
    (normal : (finite negative significand exponent).Normal)
    (normalToo : (finite negativeToo other greater).Normal)
    (same : magnitudeText significand exponent = magnitudeText other greater) :
    significand = other ∧ exponent = greater := by
  obtain ⟨point, denotes, is⟩ := magnitude_text_denotes normal.1 exponent
  obtain ⟨pointToo, denotesToo, isToo⟩ := magnitude_text_denotes normalToo.1 greater
  obtain rfl := denotes.unique (same ▸ denotesToo)
  rcases is with ⟨none, zero⟩ | ⟨positive, spans⟩ <;>
    rcases isToo with ⟨noneToo, zeroToo⟩ | ⟨positiveToo, spansToo⟩
  · have least := normal.2.2.2.resolve_left (by rw [none]; decide)
    have leastToo := normalToo.2.2.2.resolve_left (by rw [noneToo]; decide)
    exact ⟨none.trans noneToo.symm, least.trans leastToo.symm⟩
  · exact absurd zero (spans_positive positiveToo spansToo).ne'
  · exact absurd zeroToo (spans_positive positive spans).ne'
  · exact Shortest.spans_unique positive positiveToo normal normalToo spans spansToo

theorem finite_text (negative : Bool) (significand : Nat) (exponent : Int) :
    (finite negative significand exponent).text.toList =
      (if negative then ['-'] else []) ++ magnitudeText significand exponent := by
  rw [text, String.toList_append, String.toList_ofList]
  cases negative <;> rfl

theorem finite_text_special {special : Binary64} (small : significand < 2 ^ 53)
    (isSpecial : ∀ negative significand exponent, special ≠ finite negative significand exponent) :
    (finite negative significand exponent).text ≠ special.text := by
  intro same
  have texts := congrArg String.toList same
  obtain ⟨point, denotes, _⟩ := magnitude_text_denotes small exponent
  obtain ⟨c, rest, shape, digit⟩ := denotes.head_digit
  rw [finite_text, shape] at texts
  cases special with
  | nan =>
      cases negative <;> cases texts
      cases digit
  | infinite negativeToo =>
      cases negative <;> cases negativeToo <;> cases texts <;> cases digit
  | finite negativeToo other greater => exact isSpecial negativeToo other greater rfl

theorem finite_text_unique (normal : (finite negative significand exponent).Normal)
    (normalToo : (finite negativeToo other greater).Normal)
    (same : (finite negative significand exponent).text =
      (finite negativeToo other greater).text) :
    finite negative significand exponent = finite negativeToo other greater := by
  have texts := congrArg String.toList same
  obtain ⟨_, denotes, _⟩ := magnitude_text_denotes normal.1 exponent
  obtain ⟨c, rest, shape, digit⟩ := denotes.head_digit
  obtain ⟨_, denotesToo, _⟩ := magnitude_text_denotes normalToo.1 greater
  obtain ⟨d, others, shapeToo, digitToo⟩ := denotesToo.head_digit
  rw [finite_text, finite_text] at texts
  have signs : negative = negativeToo := by
    rw [shape, shapeToo] at texts
    cases negative <;> cases negativeToo
    · rfl
    · cases texts
      cases digit
    · cases texts
      cases digitToo
    · rfl
  subst signs
  obtain ⟨rfl, rfl⟩ := magnitude_text_unique normal normalToo (List.append_cancel_left texts)
  rfl

theorem text_injective {a b : Binary64} (normal : a.Normal) (normalToo : b.Normal)
    (same : a.text = b.text) : a = b := by
  cases a with
  | finite negative significand exponent =>
      cases b with
      | finite negativeToo other greater => exact finite_text_unique normal normalToo same
      | nan | infinite => exact absurd same (finite_text_special normal.1 nofun)
  | nan =>
      cases b with
      | finite negativeToo other greater =>
          exact absurd same.symm (finite_text_special normalToo.1 nofun)
      | nan => rfl
      | infinite negative => cases negative <;> exact absurd same (by decide)
  | infinite negative =>
      cases b with
      | finite negativeToo other greater =>
          exact absurd same.symm (finite_text_special normalToo.1 nofun)
      | nan => cases negative <;> exact absurd same (by decide)
      | infinite negativeToo =>
          cases negative <;> cases negativeToo <;> first | rfl | exact absurd same (by decide)

theorem AllDigits.plain (all : AllDigits digits) : Plain digits := by
  intro c member
  have digit := all c member
  constructor <;> rintro rfl <;> cases digit

theorem nat_text_plain (number : Nat) : Plain (Nat.repr number).toList := by
  rw [Nat.repr_eq_ofList_toDigits, String.toList_ofList]
  have all : AllDigits (Nat.toDigits 10 number) := fun c member =>
    Nat.isDigit_of_mem_toDigits (by decide) (by decide) member
  exact all.plain

theorem int_text_plain (number : Int) : Plain (toString number).toList := by
  cases number with
  | ofNat count => exact nat_text_plain count
  | negSucc count =>
      have shape : toString (Int.negSucc count) = "-" ++ Nat.repr (count + 1) := rfl
      rw [shape, String.toList_append]
      exact (nat_text_plain _).cons (by decide) (by decide)

theorem Denotes.plain {point : ℚ} (denotes : Denotes text point) : Plain text := by
  obtain ⟨whole, fraction, power, rfl, _, all, after, _⟩ := denotes
  unfold numeral
  refine all.plain.append (.append ?_ ?_)
  · split_ifs
    · nofun
    · exact after.plain.cons (by decide) (by decide)
  · split_ifs
    · nofun
    · exact (int_text_plain power).cons (by decide) (by decide)

theorem text_plain {a : Binary64} (normal : a.Normal) : Plain a.text.toList := by
  cases a with
  | nan => decide
  | infinite negative => cases negative <;> decide
  | finite negative significand exponent =>
      obtain ⟨_, denotes, _⟩ := magnitude_text_denotes normal.1 exponent
      rw [finite_text]
      cases negative with
      | false => exact denotes.plain
      | true => exact denotes.plain.cons (by decide) (by decide)

end Binary64
end McFront
