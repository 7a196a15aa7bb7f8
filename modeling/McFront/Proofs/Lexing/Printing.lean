import McFront.Proofs.Lexing.Stopping

set_option autoImplicit false

namespace McFront

theorem Radix.digit_value_char : ∀ digit < 16, digitValue (Nat.digitChar digit) = some digit := by
  decide

theorem Radix.value_digits (radix : Radix) (number : Nat) :
    radix.value (radix.digits number) = number := by
  have bounds := radix.base_bounds
  induction number using Nat.strongRecOn with
  | ind number ih =>
      by_cases small : number < radix.base
      · have known := digit_value_char number (by omega)
        rw [digits, Nat.toDigits_of_lt_base small]
        simp [value, known]
      · have shorter : number / radix.base < number := Nat.div_lt_self (by omega) bounds.1
        have last : number % radix.base < radix.base := Nat.mod_lt _ (by omega)
        have known := digit_value_char (number % radix.base) (by omega)
        rw [digits, Nat.toDigits_of_base_le bounds.1 (by omega), value_append, known]
        have before := ih (number / radix.base) shorter
        rw [digits] at before
        rw [before, Option.getD_some, Nat.mul_comm]
        exact Nat.div_add_mod number radix.base

theorem Radix.digits_digits (radix : Radix) (number : Nat) :
    ∀ c ∈ radix.digits number, radix.isDigit c := by
  have bounds := radix.base_bounds
  have digit : ∀ number < radix.base, radix.isDigit (Nat.digitChar number) := by
    intro number small
    rw [isDigit, digit_value_char number (by omega)]
    exact decide_eq_true small
  induction number using Nat.strongRecOn with
  | ind number ih =>
      by_cases small : number < radix.base
      · rw [digits, Nat.toDigits_of_lt_base small]
        simpa using digit number small
      · have shorter : number / radix.base < number := Nat.div_lt_self (by omega) bounds.1
        have last : number % radix.base < radix.base := Nat.mod_lt _ (by omega)
        rw [digits, Nat.toDigits_of_base_le bounds.1 (by omega), List.forall_mem_append]
        exact ⟨ih _ shorter, by simpa using digit _ last⟩

theorem Radix.leads_lead (radix : Radix) : Token.Leads radix radix.lead.toList := by
  cases radix with
  | binary => exact (.letter rfl : Token.Leads .binary ['0', 'b'])
  | decimal => exact .nothing
  | hexadecimal => exact (.letter rfl : Token.Leads .hexadecimal ['0', 'x'])

theorem Escape.shown_written (quote : Char) (quoted : (escape quote).isSome) (c : Char) :
    Token.Written quote (shown c) c := by
  unfold shown
  cases known : escape c with
  | none =>
      refine .plain ?_ ?_ ?_
      · rintro rfl
        rw [known] at quoted
        cases quoted
      · rintro rfl
        cases known
      · rintro rfl
        cases known
  | some written =>
      simp only [escape, Option.map_eq_some_iff] at known
      obtain ⟨entry, found, rfl⟩ := known
      have same : entry.2 = c := by simpa using List.find?_some found
      rw [← same]
      exact .escaped (List.mem_of_find?_eq_some found)

theorem Escape.shown_all_written (quote : Char) (quoted : (escape quote).isSome)
    (content : List Char) : Token.WrittenAll quote (content.flatMap shown) content := by
  induction content with
  | nil => exact .nil
  | cons c content ih =>
      rw [List.flatMap_cons]
      exact .cons (shown_written quote quoted c) ih

structure Identifier where
  name : String
  isWord : Token.isWord name.toList
  free : name ∉ Keyword.all.map Keyword.word

structure Blanks where
  run : List Char
  filled : run ≠ []
  blank : run.all Lexeme.isBlank

inductive Printable where
  | word (word : Keyword)
  | operator (operator : Operator)
  | punctuation (mark : Punctuation)
  | identifier (identifier : Identifier)
  | integer (radix : Radix) (value : Nat) (small : value ≤ Lexeme.greatestInteger)
  | character (value : Char)
  | text (content : String)

namespace Printable

def kind : Printable → Token.Kind
  | word reserved => .ofKeyword reserved
  | operator meant => .operator meant
  | punctuation mark => .punctuation mark
  | identifier known => .identifier known.name
  | integer radix value _ => .integer radix value
  | character value => .character value
  | text content => .text content

def spelling : Printable → String
  | word reserved => reserved.word
  | operator meant => meant.spelling
  | punctuation mark => mark.spelling
  | identifier known => known.name
  | integer radix value _ => radix.lead ++ String.ofList (radix.digits value)
  | character value => "'" ++ Escape.shownText [value] ++ "'"
  | text content => "\"" ++ Escape.shownText content.toList ++ "\""

theorem spelled (item : Printable) : Token.Spelling item.spelling.toList item.kind := by
  cases item with
  | word reserved => exact .reserved reserved
  | operator meant => exact .symbol (.operator meant)
  | punctuation mark => exact .symbol (.punctuation mark)
  | identifier known => exact .identifier known.isWord known.free
  | integer radix value small =>
      have same := radix.value_digits value
      have filled : radix.digits value ≠ [] := Nat.toDigits_ne_nil
      have spelled := Token.Spelling.integer radix.leads_lead filled (radix.digits_digits value)
        (by rwa [same])
      rw [same] at spelled
      simpa only [spelling, kind, String.toList_append, String.toList_ofList] using spelled
  | character value =>
      have inside := Escape.shown_written '\'' rfl value
      have spelled := Token.Spelling.character inside
      simpa [spelling, kind, Escape.shownText] using spelled
  | text content =>
      have inside := Escape.shown_all_written '"' rfl content.toList
      have spelled := Token.Spelling.text inside
      simpa [spelling, kind, Escape.shownText] using spelled

def printed : List (Printable × Blanks) → String
  | [] => ""
  | (item, blanks) :: items => item.spelling ++ String.ofList blanks.run ++ printed items

end Printable

namespace Lexeme

open Token

variable {b c : Char} {run text spelling : List Char} {kind : Token.Kind}

theorem of_blank (property : Char → Prop)
    (all : property ' ' ∧ property '\t' ∧ property '\r' ∧ property '\n') (blank : isBlank b) :
    property b := by
  obtain ⟨space, tab, carriage, feed⟩ := all
  simp only [isBlank, Bool.or_eq_true, decide_eq_true_eq] at blank
  rcases blank with ((rfl | rfl) | rfl) | rfl <;> assumption

theorem blank_stops (blank : isBlank b) : Stops kind spelling b where
  word _ := of_blank (isWordPart · = false) (by decide) blank
  symbol c _ := symbol_kind_blank c blank
  integer radix _ _ :=
    ⟨of_blank (radix.isDigit · = false) (by cases radix <;> decide) blank,
      fun _ => of_blank (· ≠ '.') (by decide) blank,
      fun _ => of_blank (Radix.ofLetter? · = none) (by decide) blank⟩
  float _ _ := of_blank (·.isDigit = false) (by decide) blank

theorem head_reads (spelled : Spelling spelling kind) (blank : isBlank b) (more : List Char) :
    head (spelling ++ b :: more) = token kind spelling (b :: more) :=
  head_stopped spelled (blank_stops blank) more

theorem gap_blanks (all : ∀ c ∈ run, isBlank c) (text : List Char) :
    gap false (run ++ text) = (run ++ (gap false text).1, (gap false text).2) := by
  induction run with
  | nil => rfl
  | cons c run ih =>
      rw [List.forall_mem_cons] at all
      rw [List.cons_append, gap, if_pos all.1, Bool.false_and, ih all.2]
      rfl

theorem opens_of (property : Char → Bool)
    (blanks : (property ' ' || property '\t' || property '\r' || property '\n') = false)
    (sign : property '#' = false) (holds : property c) : ¬ isBlank c ∧ c ≠ '#' := by
  simp only [Bool.or_eq_false_iff, and_assoc] at blanks
  constructor
  · intro blank
    have lacks := of_blank (property · = false) blanks blank
    rw [holds] at lacks
    cases lacks
  · rintro rfl
    rw [holds] at sign
    cases sign

theorem word_opens (isWord : Token.isWord spelling) :
    ∃ c tail, spelling = c :: tail ∧ ¬ isBlank c ∧ c ≠ '#' := by
  cases spelling with
  | nil => cases isWord
  | cons c tail =>
      simp only [Token.isWord, Bool.and_eq_true] at isWord
      exact ⟨c, tail, rfl, opens_of isWordStart rfl rfl isWord.1⟩

theorem digits_open (filled : run ≠ []) (all : ∀ c ∈ run, c.isDigit) (more : List Char) :
    ∃ c tail, run ++ more = c :: tail ∧ ¬ isBlank c ∧ c ≠ '#' := by
  cases run with
  | nil => exact absurd rfl filled
  | cons c tail => exact ⟨c, tail ++ more, rfl, opens_of Char.isDigit rfl rfl (all c (by simp))⟩

theorem spelling_opens (spelled : Spelling spelling kind) :
    ∃ c tail, spelling = c :: tail ∧ ¬ isBlank c ∧ c ≠ '#' := by
  cases spelled with
  | symbol symbolic =>
      obtain ⟨c, tail, rfl, start, _⟩ := symbolic_shape symbolic
      exact ⟨c, tail, rfl, opens_of isSymbolStart rfl rfl start⟩
  | reserved word => exact word_opens (reserved_word word)
  | identifier isWord free => exact word_opens isWord
  | integer leads filled all small =>
      cases leads with
      | nothing =>
          simp only [Radix.decimal_digit] at all
          simpa using digits_open filled all []
      | letter announced => exact ⟨'0', _, rfl, by decide, by decide⟩
  | float filled all allAfter => exact digits_open filled all _
  | character inside => exact ⟨'\'', _, rfl, by decide, by decide⟩
  | text inside => exact ⟨'"', _, rfl, by decide, by decide⟩

theorem gap_spelling (spelled : Spelling spelling kind) (more : List Char) :
    gap false (spelling ++ more) = ([], spelling ++ more) := by
  obtain ⟨c, tail, rfl, notBlank, notComment⟩ := spelling_opens spelled
  rw [List.cons_append, gap, if_neg notBlank, if_neg (by simpa using notComment)]

end Lexeme

theorem Token.Spelling.proper {spelling : List Char} {kind : Kind}
    (spelled : Spelling spelling kind) : kind ≠ .endOfInput := by
  have start := Lexeme.head_start (spelling ++ [' '])
  rw [Lexeme.head_reads spelled rfl] at start
  exact start.2.2

namespace Cursor

variable {cursor : Cursor} {run : List Char}

theorem next_blanks (all : ∀ c ∈ run, Lexeme.isBlank c) (left : cursor.rest = run) :
    cursor.next =
      (.ok ⟨.endOfInput, cursor.location.past run⟩, ⟨[], cursor.location.past run⟩) := by
  have passed := Lexeme.gap_blanks all []
  rw [List.append_nil] at passed
  simp [next, left, passed, Lexeme.gap, Lexeme.head]

theorem next_spelling {b : Char} {spelling more : List Char} {kind : Token.Kind}
    (spelled : Token.Spelling spelling kind) (blank : Lexeme.isBlank b)
    (all : ∀ c ∈ run, Lexeme.isBlank c) (left : cursor.rest = run ++ (spelling ++ b :: more)) :
    ∃ after, cursor.next = (.ok ⟨kind, cursor.location.past run⟩, after) ∧
      after.rest = b :: more := by
  have passed := Lexeme.gap_blanks all (spelling ++ b :: more)
  simp only [Lexeme.gap_spelling spelled, List.append_nil] at passed
  refine ⟨⟨b :: more, (cursor.location.past run).past spelling⟩, ?_, rfl⟩
  simp only [next, left, passed, Lexeme.head_reads spelled blank]

theorem next_stopped {c : Char} {spelling more : List Char} {kind : Token.Kind}
    (spelled : Token.Spelling spelling kind) (stops : Lexeme.Stops kind spelling c)
    (left : cursor.rest = spelling ++ c :: more) :
    ∃ after, cursor.next = (.ok ⟨kind, cursor.location⟩, after) ∧ after.rest = c :: more := by
  refine ⟨⟨c :: more, cursor.location.past spelling⟩, ?_, rfl⟩
  simp only [next, left, Lexeme.gap_spelling spelled, Lexeme.head_stopped spelled stops,
    Location.past_nil]

theorem outlook_printed (items : List (Printable × Blanks)) (cursor : Cursor) (run : List Char)
    (all : ∀ c ∈ run, Lexeme.isBlank c)
    (left : cursor.rest = run ++ (Printable.printed items).toList) :
    cursor.outlook.tokens.map Token.kind = items.map (·.1.kind) ∧
      ∃ finish, cursor.outlook.last = .ok finish := by
  induction items generalizing cursor run with
  | nil =>
      rw [outlook_end (next_blanks all (by simpa [Printable.printed] using left)) rfl]
      exact ⟨rfl, _, rfl⟩
  | cons entry items ih =>
      obtain ⟨item, blanks⟩ := entry
      obtain ⟨b, others, opened⟩ := List.exists_cons_of_ne_nil blanks.filled
      have allAfter := List.all_eq_true.mp blanks.blank
      have blank : Lexeme.isBlank b := allAfter b (by simp [opened])
      have split : cursor.rest =
          run ++ (item.spelling.toList ++ b :: (others ++ (Printable.printed items).toList)) := by
        simpa [Printable.printed, opened] using left
      obtain ⟨after, drawn, others⟩ := next_spelling item.spelled blank all split
      obtain ⟨kinds, finish, ended⟩ := ih after blanks.run allAfter (by rw [others, opened]; rfl)
      rw [outlook_token drawn (by simp [Token.isEnd, item.spelled.proper])]
      exact ⟨by rw [Outlook.after, List.map_cons, List.map_cons, kinds], finish, ended⟩

end Cursor

example : Printable.printed
    [(.word .whileWord, ⟨[' '], by decide, by decide⟩),
      (.identifier ⟨"whiles", by decide, by decide⟩, ⟨['\t', '\n'], by decide, by decide⟩),
      (.integer .hexadecimal 31 (by decide), ⟨[' '], by decide, by decide⟩),
      (.text "a\n\"", ⟨['\n'], by decide, by decide⟩)] =
    "while whiles\t\n0x1f \"a\\n\\\"\"\n" := by decide

end McFront
