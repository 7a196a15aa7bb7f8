import Mathlib.Data.List.Forall2
import Mathlib.Data.Nat.Digits.Defs
import McFront.Proofs.Lexing.Printing

set_option autoImplicit false

namespace McFront

namespace Radix

def Figure (radix : Radix) (c : Char) (value : Nat) : Prop :=
  value < radix.base ∧ (c = Nat.digitChar value ∨ c = (Nat.digitChar value).toUpper)

instance (radix : Radix) (c : Char) (value : Nat) : Decidable (radix.Figure c value) :=
  inferInstanceAs (Decidable (_ ∧ _))

def announcements : Radix → List String
  | binary => ["0b", "0B"]
  | decimal => [""]
  | hexadecimal => ["0x", "0X"]

-- Digits end here. A bare literal is not followed by a point, nor a bare zero by a radix letter.
structure Ends (radix : Radix) (digits more : List Char) : Prop where
  figure : ∀ c ∈ more.head?, ∀ value, ¬ radix.Figure c value
  point : radix = .decimal → '.' ∉ more.head?
  letter : radix = .decimal → digits = ['0'] → ∀ c ∈ more.head?, c ∉ ['b', 'B', 'x', 'X']

variable {radix : Radix} {c : Char} {value : Nat} {digits more : List Char} {values : List Nat}

theorem digit_value_ascii (known : digitValue c = some value) : c.toNat < 128 := by
  unfold digitValue at known
  split at known
  · rename_i inside
    exact Nat.lt_of_le_of_lt inside.2 (by decide)
  · split at known
    · rename_i inside
      exact Nat.lt_of_le_of_lt inside.2 (by decide)
    · split at known
      · rename_i inside
        exact Nat.lt_of_le_of_lt inside.2 (by decide)
      · cases known

theorem ascii_figures : ∀ code < 128, ∀ value ∈ digitValue (Char.ofNat code),
    Char.ofNat code = Nat.digitChar value ∨
      Char.ofNat code = (Nat.digitChar value).toUpper := by
  decide +kernel

theorem digit_value_upper : ∀ value < 16,
    digitValue (Nat.digitChar value).toUpper = some value := by
  decide

theorem figure_iff : radix.Figure c value ↔ value < radix.base ∧ digitValue c = some value := by
  refine and_congr_right fun small => ⟨?_, fun known => ?_⟩
  · have within : value < 16 := Nat.lt_of_lt_of_le small radix.base_bounds.2
    rintro (rfl | rfl)
    · exact digit_value_char value within
    · exact digit_value_upper value within
  · have shape := ascii_figures c.toNat (digit_value_ascii known) value
    rw [Char.ofNat_toNat] at shape
    exact shape known

theorem is_digit_iff : radix.isDigit c ↔ ∃ value, radix.Figure c value := by
  simp only [figure_iff, isDigit]
  cases known : digitValue c with
  | none => simp
  | some value => simp [and_comm]

theorem figures_digits (figures : List.Forall₂ radix.Figure digits values) :
    ∀ c ∈ digits, radix.isDigit c := by
  induction figures with
  | nil => exact List.forall_mem_nil _
  | cons first others ih => exact List.forall_mem_cons.mpr ⟨is_digit_iff.mpr ⟨_, first⟩, ih⟩

theorem value_figures (figures : List.Forall₂ radix.Figure digits values) :
    radix.value digits = Nat.ofDigits radix.base values.reverse := by
  have folded : ∀ total, digits.foldl
      (fun total c => total * radix.base + (digitValue c).getD 0) total =
        values.foldl (fun total value => value + radix.base * total) total := by
    induction figures with
    | nil => exact fun total => rfl
    | cons first others ih =>
        intro total
        rw [List.foldl_cons, List.foldl_cons, (figure_iff.mp first).2, ih, Option.getD_some,
          Nat.add_comm, Nat.mul_comm]
  rw [value, folded, Nat.ofDigits_eq_foldr, List.foldr_reverse]
  rfl

theorem value_zeros (radix : Radix) (zeros : Nat) (digits : List Char) :
    radix.value (List.replicate zeros '0' ++ digits) = radix.value digits := by
  induction zeros with
  | zero => rfl
  | succ zeros ih =>
      rw [List.replicate_succ, List.cons_append, value, List.foldl_cons, Nat.zero_mul, Nat.zero_add]
      exact ih

theorem letter_free (free : c ∉ ['b', 'B', 'x', 'X']) : ofLetter? c = none := by
  simp only [List.mem_cons, List.not_mem_nil, or_false, not_or] at free
  simp [ofLetter?, free]

theorem announced_leads {lead : String} (announced : lead ∈ radix.announcements) :
    Token.Leads radix lead.toList := by
  cases radix <;> simp only [announcements, List.mem_cons, List.not_mem_nil, or_false] at announced
  · rcases announced with rfl | rfl <;> exact .letter rfl
  · subst announced
    exact .nothing
  · rcases announced with rfl | rfl <;> exact .letter rfl

theorem Ends.stops {lead : List Char} (ends : radix.Ends digits more)
    (leads : Token.Leads radix lead) :
    ∀ c ∈ more.head?, radix.isDigit c = false ∧ (radix = .decimal → c ≠ '.') ∧
      (lead ++ digits = ['0'] → ofLetter? c = none) := by
  intro c next
  refine ⟨?_, ?_, ?_⟩
  · rw [Bool.eq_false_iff, ne_eq, is_digit_iff]
    rintro ⟨value, figure⟩
    exact ends.figure c next value figure
  · rintro bare rfl
    exact ends.point bare next
  · intro zero
    cases leads with
    | letter announced => simp at zero
    | nothing => exact letter_free (ends.letter rfl zero c next)

end Radix

theorem Lexer.next_integer {lexer : Lexer} {radix : Radix}
    {passed text lead digits more : List Char} (sound : lexer.failure = none)
    (left : Lexeme.gap false lexer.cursor.rest = (passed, text))
    (found : Lexeme.head text = .integer radix lead digits more) :
    let start := lexer.location.past passed
    let cursor : Cursor := ⟨more, start.past (lead ++ digits)⟩
    let error := (Complaint.integerOutOfRange (radix.lead ++ String.ofList digits)).raise start
    lexer.next =
      if radix.value digits ≤ Lexeme.greatestInteger then
        (.ok ⟨.integer radix (radix.value digits), start⟩, { lexer with cursor })
      else (.error error, { lexer with cursor, failure := some error }) := by
  intro start cursor error
  by_cases small : radix.value digits ≤ Lexeme.greatestInteger
  · simp only [next, sound, Cursor.next, left, found, Lexeme.integer_eq, if_pos small]
    rfl
  · simp only [next, sound, Cursor.next, left, found, Lexeme.integer_eq, if_neg small]
    rfl

theorem integer_scanned {lexer : Lexer} {radix : Radix} {lead : String}
    {passed digits more : List Char} {values : List Nat} (zeros : Nat)
    (sound : lexer.failure = none) (announced : lead ∈ radix.announcements)
    (figures : List.Forall₂ radix.Figure digits values)
    (filled : List.replicate zeros '0' ++ digits ≠ [])
    (ends : radix.Ends (List.replicate zeros '0' ++ digits) more)
    (left : Lexeme.gap false lexer.cursor.rest =
      (passed, lead.toList ++ (List.replicate zeros '0' ++ digits) ++ more)) :
    let written := List.replicate zeros '0' ++ digits
    let value := Nat.ofDigits radix.base values.reverse
    let start := lexer.location.past passed
    let cursor : Cursor := ⟨more, start.past (lead.toList ++ written)⟩
    let error := (Complaint.integerOutOfRange (radix.lead ++ String.ofList written)).raise start
    lexer.next =
      (if value ≤ 2147483647 then (.ok ⟨.integer radix value, start⟩, { lexer with cursor })
      else (.error error, { lexer with cursor, failure := some error })) ∧
    error.kind = .lexical ∧ error.location = start := by
  have all : ∀ c ∈ List.replicate zeros '0' ++ digits, radix.isDigit c := by
    refine List.forall_mem_append.mpr ⟨fun c zero => ?_, Radix.figures_digits figures⟩
    rw [List.eq_of_mem_replicate zero]
    cases radix <;> rfl
  have leads := Radix.announced_leads announced
  have found := Lexeme.head_integer leads filled all (ends.stops leads)
  have drawn := Lexer.next_integer sound left found
  rw [Radix.value_zeros, Radix.value_figures figures] at drawn
  exact ⟨drawn, rfl, rfl⟩

theorem small_and_great_scanned :
    (Lexer.ofText " # hex\n0X00fF;" .empty).next.1 = .ok ⟨.integer .hexadecimal 255, ⟨2, 1⟩⟩ ∧
      (Lexer.ofText "2147483648" .empty).next.1 =
        .error ((Complaint.integerOutOfRange "2147483648").raise ⟨1, 1⟩) := by
  have left : Lexeme.gap false (Lexer.ofText " # hex\n0X00fF;" .empty).cursor.rest =
      (" # hex\n".toList, "0X".toList ++ (List.replicate 2 '0' ++ ['f', 'F']) ++ [';']) := by
    decide +kernel
  have isFigures : List.Forall₂ Radix.hexadecimal.Figure ['f', 'F'] [15, 15] := by decide
  have ends : Radix.hexadecimal.Ends (List.replicate 2 '0' ++ ['f', 'F']) [';'] := by
    refine ⟨?_, by simp, by simp⟩
    rintro c ⟨⟩ value figure
    cases (Radix.figure_iff.mp figure).2
  have leftToo : Lexeme.gap false (Lexer.ofText "2147483648" .empty).cursor.rest =
      ([], "".toList ++ (List.replicate 0 '0' ++ "2147483648".toList) ++ []) := by
    decide +kernel
  have isFiguresToo :
      List.Forall₂ Radix.decimal.Figure "2147483648".toList [2, 1, 4, 7, 4, 8, 3, 6, 4, 8] := by
    decide
  have endsToo : Radix.decimal.Ends (List.replicate 0 '0' ++ "2147483648".toList) [] :=
    ⟨by simp, by simp, by simp⟩
  have scanned := integer_scanned 2 rfl (by decide) isFigures (by decide) ends left
  have scannedToo := integer_scanned 0 rfl (by decide) isFiguresToo (by decide) endsToo leftToo
  exact ⟨congrArg Prod.fst scanned.1, congrArg Prod.fst scannedToo.1⟩

end McFront
