import McFront.Proofs.Lexing.Scanning

set_option autoImplicit false

namespace McFront

namespace Lexeme

open Token

-- A character that a token with this spelling cannot go on with.
structure Stops (kind : Token.Kind) (spelling : List Char) (c : Char) : Prop where
  word : isWord spelling → isWordPart c = false
  symbol : ∀ b, spelling = [b] → symbolKind? [b, c] = none
  integer : ∀ radix value, kind = .integer radix value → radix.isDigit c = false ∧
    (radix = .decimal → c ≠ '.') ∧ (spelling = ['0'] → Radix.ofLetter? c = none)
  float : ∀ value, kind = .float value → c.isDigit = false

variable {c d : Char} {run spelling rest : List Char} {kind : Token.Kind}

theorem symbol_stopped (symbolic : Symbolic spelling kind) (stops : Stops kind spelling c)
    (more : List Char) : head (spelling ++ c :: more) = token kind spelling (c :: more) := by
  have known := (symbol_kind_iff spelling kind).mpr symbolic
  obtain ⟨b, tail, rfl, start, short⟩ := symbolic_shape symbolic
  rw [List.cons_append, head_symbol start]
  cases tail with
  | nil => simp only [List.nil_append, symbol, stops.symbol b rfl, known]
  | cons d others =>
      cases others with
      | nil => simp only [List.cons_append, List.nil_append, symbol, known]
      | cons e others => simp at short

theorem word_stopped (isWord : Token.isWord spelling) (stops : isWordPart c = false)
    (more : List Char) :
    head (spelling ++ c :: more) =
      token (wordKind (String.ofList spelling)) spelling (c :: more) := by
  cases spelling with
  | nil => cases isWord
  | cons b tail =>
      simp only [Token.isWord, Bool.and_eq_true, List.all_eq_true] at isWord
      rw [List.cons_append, head_word isWord.1, word, take_run isWord.2 stops,
        drop_run isWord.2 stops]

theorem decimal_bare (all : ∀ c ∈ run, c.isDigit)
    (stop : ∀ c ∈ rest.head?, c.isDigit = false) (point : '.' ∉ rest.head?) :
    decimal (run ++ rest) = integer .decimal [] run rest := by
  unfold decimal
  rw [run_taken all stop, run_dropped all stop]
  split
  · exact absurd rfl point
  · rfl

theorem radix_integer_bare {radix : Radix} (lead : List Char) (filled : run ≠ [])
    (all : ∀ c ∈ run, radix.isDigit c) (stop : ∀ c ∈ rest.head?, radix.isDigit c = false) :
    radixInteger radix lead (run ++ rest) = integer radix lead run rest := by
  rw [radixInteger, run_taken all stop, run_dropped all stop, List.isEmpty_eq_false_iff.mpr filled]
  rfl

theorem head_integer {radix : Radix} {lead : List Char} (leads : Leads radix lead)
    (filled : run ≠ []) (all : ∀ c ∈ run, radix.isDigit c)
    (stops : ∀ c ∈ rest.head?, radix.isDigit c = false ∧ (radix = .decimal → c ≠ '.') ∧
      (lead ++ run = ['0'] → Radix.ofLetter? c = none)) :
    head (lead ++ run ++ rest) = integer radix lead run rest := by
  have stop := fun c next => (stops c next).1
  cases leads with
  | letter announced =>
      simp only [List.cons_append, List.nil_append]
      rw [head_number (by decide), number]
      simp only [announced]
      exact radix_integer_bare _ filled all stop
  | nothing =>
      simp only [Radix.decimal_digit] at all stop
      rw [List.nil_append, head_run filled all,
        number_bare filled all fun zero c next => (stops c next).2.2 zero]
      exact decimal_bare all stop fun point => (stops '.' point).2.1 rfl rfl

theorem head_stopped (spelled : Spelling spelling kind) (stops : Stops kind spelling c)
    (more : List Char) : head (spelling ++ c :: more) = token kind spelling (c :: more) := by
  cases spelled with
  | symbol symbolic => exact symbol_stopped symbolic stops more
  | reserved word =>
      have isWord := reserved_word word
      rw [word_stopped isWord (stops.word isWord) more, String.ofList_toList, wordKind,
        Keyword.of_word_word]
  | identifier isWord free =>
      rw [word_stopped isWord (stops.word isWord) more, String.ofList_toList, wordKind,
        (Keyword.of_word_none _).mpr free]
  | integer leads filled all small =>
      rw [head_integer leads filled all (by simpa using stops.integer _ _ rfl), integer_eq,
        if_pos small]
  | float filled all allAfter =>
      have notDigit := stops.float _ rfl
      rw [List.append_assoc, List.cons_append, head_run filled all, number_run filled all rfl,
        decimal_float all, take_run allAfter notDigit, drop_run allAfter notDigit]
  | character inside =>
      simp only [List.cons_append, List.append_assoc, List.nil_append]
      rw [head, if_pos rfl, character_written inside]
      rfl
  | text inside =>
      simp only [List.cons_append, List.append_assoc, List.nil_append]
      rw [head, if_neg (by decide), if_pos rfl, string_written inside]
      rfl

-- Where a spelling is read, no lexeme covers the character behind it, too.
theorem not_covered (found : head (spelling ++ c :: rest) = token kind spelling (c :: rest)) :
    ¬ (head (spelling ++ [c] ++ rest)).Covers (spelling ++ [c]) := by
  rw [List.append_assoc, List.singleton_append, found]
  simp [Covers]

theorem integer_stops {radix : Radix} {lead digits : List Char} (leads : Leads radix lead)
    (filled : digits ≠ []) (all : ∀ c ∈ digits, radix.isDigit c)
    (found : head (lead ++ digits ++ c :: rest) = token kind (lead ++ digits) (c :: rest)) :
    radix.isDigit c = false ∧ (radix = .decimal → c ≠ '.') ∧
      (lead ++ digits = ['0'] → Radix.ofLetter? c = none) := by
  have beyond := not_covered found
  have longer (digit : radix.isDigit c) : ∀ d ∈ digits ++ [c], radix.isDigit d := by
    simpa [or_imp, forall_and, digit] using all
  cases leads with
  | nothing =>
      simp only [Radix.decimal_digit] at all longer ⊢
      rw [List.nil_append] at beyond found ⊢
      refine ⟨?_, ?_, ?_⟩
      · rw [Bool.eq_false_iff]
        intro digit
        exact beyond (digits_cover (by simp) (longer digit) rest)
      · rintro - rfl
        exact beyond (head_covers (.float filled all (List.forall_mem_nil _)) rest)
      · rintro rfl
        cases announced : Radix.ofLetter? c with
        | none => rfl
        | some radix =>
            have covered := @radix_integer_covers [] radix ['0', c] (List.forall_mem_nil _) rest
            refine absurd ?_ beyond
            simp only [List.cons_append, List.nil_append, head_number (c := '0') rfl, number,
              announced]
            exact covered
  | @letter _ letter announced =>
      refine ⟨?_, ?_, by simp⟩
      · rw [Bool.eq_false_iff]
        intro digit
        have covered := @radix_integer_covers _ _ ['0', letter] (longer digit) rest
        refine beyond ?_
        simp only [List.cons_append, List.nil_append, List.append_assoc,
          head_number (c := '0') rfl, number, announced] at covered ⊢
        exact covered
      · rintro rfl
        simp only [Radix.ofLetter?] at announced
        split at announced
        · cases announced
        · split at announced <;> cases announced

theorem head_stops (found : head (spelling ++ c :: rest) = token kind spelling (c :: rest)) :
    Stops kind spelling c := by
  have beyond := not_covered found
  have spelled := head_spelling found
  refine ⟨?_, ?_, ?_, ?_⟩
  · intro isWord
    rw [Bool.eq_false_iff]
    intro part
    refine beyond (words_cover ?_ rest)
    cases spelling with
    | nil => cases isWord
    | cons b tail => simpa [Token.isWord, part] using isWord
  · rintro b rfl
    cases known : symbolKind? [b, c] with
    | none => rfl
    | some other =>
        exact absurd (symbol_covers ((symbol_kind_iff _ other).mp known) rest) beyond
  · intro radix value same
    cases spelled with
    | integer leads filled all small =>
        cases same
        exact integer_stops leads filled all found
    | symbol symbolic => cases symbolic <;> cases same
    | reserved word => cases word <;> cases same
    | identifier | float | character | text => cases same
  · intro value same
    cases spelled with
    | float filled all allAfter =>
        cases same
        rw [Bool.eq_false_iff]
        intro digit
        rw [List.append_assoc, List.cons_append] at beyond
        refine beyond (head_covers (.float filled all ?_) rest)
        simpa [or_imp, forall_and, digit] using allAfter
    | symbol symbolic => cases symbolic <;> cases same
    | reserved word => cases word <;> cases same
    | identifier | integer | character | text => cases same

end Lexeme
end McFront
