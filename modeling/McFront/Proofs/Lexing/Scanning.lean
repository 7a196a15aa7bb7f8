import McFront.Proofs.Lexing.Vocabulary
import McFront.Proofs.Text.Run

set_option autoImplicit false

namespace McFront

namespace Lexeme

open Token

variable {c d : Char} {run more text spelling rest : List Char} {kind : Token.Kind}

section Run

variable {part : Char → Bool}

theorem take_run (all : ∀ c ∈ run, part c) (stops : part d = false) (more : List Char) :
    (run ++ d :: more).takeWhile part = run := run_taken all (by simpa using stops)

theorem drop_run (all : ∀ c ∈ run, part c) (stops : part d = false) (more : List Char) :
    (run ++ d :: more).dropWhile part = d :: more := run_dropped all (by simpa using stops)

end Run

def isSymbolStart (c : Char) : Bool :=
  !(c = '\'' || c = '"' || c.isDigit || isWordStart c || isBlank c || c = '#')

theorem word_start_not_digit (start : isWordStart c) : ¬ c.isDigit := by
  intro digit
  have below : c.toNat ≤ 57 := (Char.isDigit_iff_toNat.mp digit).2
  rw [isWordStart, Bool.or_eq_true] at start
  rcases start with alpha | underscore
  · rcases (Bool.or_eq_true _ _).mp alpha with upper | lower
    · have above : 65 ≤ c.toNat := (of_decide_eq_true upper).1
      omega
    · have above : 97 ≤ c.toNat := of_decide_eq_true ((Bool.and_eq_true _ _).mp lower).1
      omega
  · rw [of_decide_eq_true underscore] at digit
    cases digit

theorem head_word (start : isWordStart c) (rest : List Char) : head (c :: rest) = word c rest := by
  have quote : c ≠ '\'' := by
    rintro rfl
    cases start
  have double : c ≠ '"' := by
    rintro rfl
    cases start
  rw [head, if_neg quote, if_neg double, if_neg (word_start_not_digit start), if_pos start]

theorem head_number (digit : c.isDigit) (rest : List Char) :
    head (c :: rest) = number (c :: rest) := by
  have quote : c ≠ '\'' := by
    rintro rfl
    cases digit
  have double : c ≠ '"' := by
    rintro rfl
    cases digit
  rw [head, if_neg quote, if_neg double, if_pos digit]

theorem head_symbol (start : isSymbolStart c) (rest : List Char) :
    head (c :: rest) = symbol c rest := by
  simp only [isSymbolStart, Bool.not_eq_true', Bool.or_eq_false_iff, decide_eq_false_iff_not]
    at start
  obtain ⟨⟨⟨⟨⟨quote, double⟩, digit⟩, wordStart⟩, _⟩, _⟩ := start
  rw [head, if_neg quote, if_neg double, if_neg (by simp [digit]), if_neg (by simp [wordStart])]

theorem symbolic_shape (symbolic : Symbolic spelling kind) :
    ∃ c tail, spelling = c :: tail ∧ isSymbolStart c ∧ tail.length ≤ 1 := by
  cases symbolic with
  | operator operator => cases operator <;> exact ⟨_, _, rfl, by decide, by decide⟩
  | punctuation mark => cases mark <;> exact ⟨_, _, rfl, by decide, by decide⟩

theorem reserved_word (word : Keyword) : Token.isWord word.word.toList := by
  cases word <;> decide

theorem head_run (filled : run ≠ []) (all : ∀ c ∈ run, c.isDigit) (more : List Char) :
    head (run ++ more) = number (run ++ more) := by
  cases run with
  | nil => exact absurd rfl filled
  | cons c tail => exact head_number (all c (by simp)) _

theorem digit_announces_nothing (digit : c.isDigit) : Radix.ofLetter? c = none := by
  have notBinary : ¬ (c = 'b' ∨ c = 'B') := by rintro (rfl | rfl) <;> cases digit
  have notHexadecimal : ¬ (c = 'x' ∨ c = 'X') := by rintro (rfl | rfl) <;> cases digit
  rw [Radix.ofLetter?, if_neg notBinary, if_neg notHexadecimal]

theorem number_unannounced (unannounced : Radix.ofLetter? d = none) (rest : List Char) :
    number (c :: d :: rest) = decimal (c :: d :: rest) := by
  unfold number
  split
  · rename_i letter others same
    cases same
    rw [unannounced]
  · rfl

theorem number_bare (filled : run ≠ []) (all : ∀ c ∈ run, c.isDigit)
    (free : run = ['0'] → ∀ c ∈ rest.head?, Radix.ofLetter? c = none) :
    number (run ++ rest) = decimal (run ++ rest) := by
  cases run with
  | nil => exact absurd rfl filled
  | cons c tail =>
      cases tail with
      | cons e others =>
          have digit : e.isDigit := all e (by simp)
          exact number_unannounced (digit_announces_nothing digit) _
      | nil =>
          unfold number
          split
          · rename_i letter others same
            cases same
            rw [free rfl letter rfl]
          · rfl

theorem number_run (filled : run ≠ []) (all : ∀ c ∈ run, c.isDigit)
    (unannounced : Radix.ofLetter? d = none) (more : List Char) :
    number (run ++ d :: more) = decimal (run ++ d :: more) :=
  number_bare filled all fun _ => by simpa using unannounced

theorem character_written {written : List Char} {value : Char}
    (inside : Written '\'' written value) (more : List Char) :
    character (written ++ '\'' :: more) =
      token (.character value) ('\'' :: written ++ ['\'']) more := by
  cases inside with
  | plain notQuote notEscape notFeed =>
      exact character_read notFeed notQuote (character_body_plain notEscape ('\'' :: more))
  | @escaped letter _ listed =>
      have known := (Escape.unescape_iff letter value).mpr listed
      exact character_read (by decide) (by decide)
        (character_body_iff.mpr (.inr ⟨letter, rfl, rfl, known⟩))

theorem body_of_written {content : List Char} (inside : WrittenAll '"' spelling content)
    (more : List Char) :
    body (spelling ++ '"' :: more) = .closed content (spelling ++ ['"']) more := by
  induction inside with
  | nil =>
      rw [List.nil_append, body.eq_def]
      rfl
  | cons first others ih =>
      cases first with
      | plain notQuote notEscape notFeed =>
          rw [List.append_assoc, List.singleton_append, body_plain notFeed notQuote notEscape, ih]
          rfl
      | escaped listed =>
          have known := (Escape.unescape_iff _ _).mpr listed
          rw [List.append_assoc, List.cons_append, List.singleton_append, body_escaped known, ih]
          rfl

theorem string_written {content : List Char} (inside : WrittenAll '"' spelling content)
    (more : List Char) :
    string (spelling ++ '"' :: more) =
      token (.text (String.ofList content)) ('"' :: spelling ++ ['"']) more := by
  rw [string, body_of_written inside more]
  rfl

def Covers (start : List Char) : Lexeme → Prop
  | .token _ spelling _ => start.length ≤ spelling.length
  | _ => True

theorem covers_first (c : Char) (rest : List Char) : (head (c :: rest)).Covers [c] := by
  have start := head_start (c :: rest)
  cases found : head (c :: rest) with
  | absent => trivial
  | fault complaint lead read rest => trivial
  | token kind spelling rest =>
      rw [found] at start
      exact List.length_pos_iff.mpr start.2.1

theorem word_covers (all : ∀ d ∈ run, isWordPart d) (more : List Char) :
    (word c (run ++ more)).Covers (c :: run) := by
  rw [word, List.takeWhile_append_of_pos all]
  simp [Covers]

theorem integer_covers {radix : Radix} {lead digits : List Char} (rest : List Char)
    (longer : run.length ≤ digits.length) :
    (integer radix lead digits rest).Covers (lead ++ run) := by
  rw [integer_eq]
  by_cases small : radix.value digits ≤ greatestInteger
  · simpa only [small, if_true, Covers, List.length_append, Nat.add_le_add_iff_left] using longer
  · simp only [small, if_false, Covers]

theorem radix_integer_covers {radix : Radix} {lead : List Char} (all : ∀ c ∈ run, radix.isDigit c)
    (more : List Char) : (radixInteger radix lead (run ++ more)).Covers (lead ++ run) := by
  rw [radixInteger, List.takeWhile_append_of_pos all]
  by_cases bare : (run ++ more.takeWhile radix.isDigit).isEmpty
  · simp only [bare, if_true, Covers]
  · simp only [bare]
    exact integer_covers _ (by simp)

theorem decimal_covers (all : ∀ c ∈ run, c.isDigit) (more : List Char) :
    (decimal (run ++ more)).Covers run := by
  unfold decimal
  rw [List.takeWhile_append_of_pos all]
  split
  · simp [Covers]
  · exact integer_covers _ (by simp)

theorem decimal_float {whole : List Char} (all : ∀ c ∈ whole, c.isDigit) (text : List Char) :
    decimal (whole ++ '.' :: text) =
      token (.float (.ofFraction whole (text.takeWhile Char.isDigit)))
        (whole ++ '.' :: text.takeWhile Char.isDigit) (text.dropWhile Char.isDigit) := by
  unfold decimal
  rw [take_run all rfl, drop_run all rfl]
  rfl

theorem symbol_covers (symbolic : Symbolic spelling kind) (more : List Char) :
    (head (spelling ++ more)).Covers spelling := by
  have known := (symbol_kind_iff spelling kind).mpr symbolic
  obtain ⟨c, tail, rfl, start, short⟩ := symbolic_shape symbolic
  cases tail with
  | nil => exact covers_first c more
  | cons d others =>
      cases others with
      | nil =>
          simp only [List.cons_append, List.nil_append, head_symbol start, symbol, known]
          exact Nat.le_refl _
      | cons e others => simp at short

theorem words_cover (isWord : Token.isWord spelling) (more : List Char) :
    (head (spelling ++ more)).Covers spelling := by
  cases spelling with
  | nil => cases isWord
  | cons c tail =>
      simp only [Token.isWord, Bool.and_eq_true, List.all_eq_true] at isWord
      rw [List.cons_append, head_word isWord.1]
      exact word_covers isWord.2 more

theorem digits_cover (filled : run ≠ []) (all : ∀ c ∈ run, c.isDigit) (more : List Char) :
    (head (run ++ more)).Covers run := by
  rw [head_run filled all]
  cases run with
  | nil => exact absurd rfl filled
  | cons c tail =>
      have digit : c.isDigit := all c (by simp)
      cases tail with
      | nil =>
          have first := covers_first c more
          rwa [head_number digit] at first
      | cons d others =>
          have unannounced := digit_announces_nothing (all d (by simp))
          have covered := decimal_covers all more
          rwa [List.cons_append, List.cons_append, ← number_unannounced unannounced] at covered

theorem head_covers (spelled : Spelling spelling kind) (more : List Char) :
    (head (spelling ++ more)).Covers spelling := by
  cases spelled with
  | symbol symbolic => exact symbol_covers symbolic more
  | reserved word => exact words_cover (reserved_word word) more
  | identifier isWord free => exact words_cover isWord more
  | integer leads filled all small =>
      cases leads with
      | nothing =>
          simp only [Radix.decimal_digit] at all
          exact digits_cover filled all more
      | letter announced =>
          simp only [List.cons_append, List.nil_append]
          rw [head_number (by decide), number]
          simp only [announced]
          exact radix_integer_covers all more
  | float filled all allAfter =>
      rw [List.append_assoc, List.cons_append, head_run filled all, number_run filled all rfl,
        decimal_float all, List.takeWhile_append_of_pos allAfter]
      simp [Covers]
  | character inside =>
      simp only [List.cons_append, List.append_assoc, List.nil_append]
      rw [head, if_pos rfl, character_written inside]
      exact Nat.le_refl _
  | text inside =>
      simp only [List.cons_append, List.append_assoc, List.nil_append]
      rw [head, if_neg (by decide), if_pos rfl, string_written inside]
      exact Nat.le_refl _

theorem head_longest {start : List Char} {other : Token.Kind}
    (found : head text = token kind spelling rest) (spelled : Spelling start other)
    (isStart : start <+: text) : start.length ≤ spelling.length := by
  obtain ⟨more, rfl⟩ := isStart
  have covered := head_covers spelled more
  rwa [found] at covered

end Lexeme
end McFront
