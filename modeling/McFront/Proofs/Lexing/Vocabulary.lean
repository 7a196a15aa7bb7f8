import McFront.Proofs.Lexing.Continuation

set_option autoImplicit false

namespace McFront

namespace Token

inductive Symbolic : List Char → Kind → Prop
  | operator (operator : Operator) : Symbolic operator.spelling.toList (.operator operator)
  | punctuation (mark : Punctuation) : Symbolic mark.spelling.toList (.punctuation mark)

def isWord : List Char → Bool
  | [] => false
  | c :: rest => Lexeme.isWordStart c && rest.all Lexeme.isWordPart

inductive Leads : Radix → List Char → Prop
  | nothing : Leads .decimal []
  | letter {radix : Radix} {letter : Char} (announced : Radix.ofLetter? letter = some radix) :
      Leads radix ['0', letter]

inductive Written (quote : Char) : List Char → Char → Prop
  | plain {c : Char} (notQuote : c ≠ quote) (notEscape : c ≠ '\\') (notFeed : c ≠ '\n') :
      Written quote [c] c
  | escaped {letter value : Char} (listed : (letter, value) ∈ Escape.table) :
      Written quote ['\\', letter] value

inductive WrittenAll (quote : Char) : List Char → List Char → Prop
  | nil : WrittenAll quote [] []
  | cons {written spelling content : List Char} {value : Char}
      (first : Written quote written value) (others : WrittenAll quote spelling content) :
      WrittenAll quote (written ++ spelling) (value :: content)

inductive Spelling : List Char → Kind → Prop
  | symbol {spelling : List Char} {kind : Kind} (symbolic : Symbolic spelling kind) :
      Spelling spelling kind
  | reserved (word : Keyword) : Spelling word.word.toList (.ofKeyword word)
  | identifier {name : String} (word : isWord name.toList)
      (free : name ∉ Keyword.all.map Keyword.word) : Spelling name.toList (.identifier name)
  | integer {radix : Radix} {lead digits : List Char} (leads : Leads radix lead)
      (filled : digits ≠ []) (all : ∀ c ∈ digits, radix.isDigit c)
      (small : radix.value digits ≤ Lexeme.greatestInteger) :
      Spelling (lead ++ digits) (.integer radix (radix.value digits))
  | float {whole fraction : List Char} (filled : whole ≠ []) (all : ∀ c ∈ whole, c.isDigit)
      (allAfter : ∀ c ∈ fraction, c.isDigit) :
      Spelling (whole ++ '.' :: fraction) (.float (.ofFraction whole fraction))
  | character {written : List Char} {value : Char} (inside : Written '\'' written value) :
      Spelling ('\'' :: written ++ ['\'']) (.character value)
  | text {spelling content : List Char} (inside : WrittenAll '"' spelling content) :
      Spelling ('"' :: spelling ++ ['"']) (.text (String.ofList content))

end Token

theorem Operator.mem_all (operator : Operator) : operator ∈ all := by
  cases operator <;> decide

theorem Punctuation.mem_all (mark : Punctuation) : mark ∈ all := by
  cases mark <;> decide

theorem Keyword.mem_all (word : Keyword) : word ∈ all := by
  cases word <;> decide

theorem Scalar.mem_all (named : Scalar) : named ∈ all := by
  cases named <;> decide

theorem Keyword.of_word_word (word : Keyword) : ofWord? word.word = some word := by
  cases word <;> rfl

theorem Keyword.of_word_none (name : String) : ofWord? name = none ↔ name ∉ all.map word := by
  simp [ofWord?, List.find?_eq_none]

theorem Escape.unescape_iff (letter value : Char) :
    unescape letter = some value ↔ (letter, value) ∈ table := by
  constructor
  · intro known
    simp only [unescape, Option.map_eq_some_iff] at known
    obtain ⟨entry, found, rfl⟩ := known
    have same : entry.1 = letter := by simpa using List.find?_some found
    rw [← same]
    exact List.mem_of_find?_eq_some found
  · have all : ∀ entry ∈ table, unescape entry.1 = some entry.2 := by decide
    exact all (letter, value)

theorem Token.written_unique {quote a b : Char} {written other rest others : List Char}
    (first : Written quote written a) (second : Written quote other b)
    (same : written ++ rest = other ++ others) : a = b ∧ rest = others := by
  cases first with
  | plain notQuote notEscape notFeed =>
      cases second with
      | plain => exact List.cons.inj same
      | escaped listed => exact absurd (List.head_eq_of_cons_eq same) notEscape
  | @escaped letter _ listed =>
      cases second with
      | plain notQuote notEscape notFeed =>
          exact absurd (List.head_eq_of_cons_eq same).symm notEscape
      | @escaped other _ listedToo =>
          obtain ⟨_, tails⟩ := List.cons.inj same
          obtain ⟨rfl, left⟩ := List.cons.inj tails
          rw [← Escape.unescape_iff] at listed listedToo
          exact ⟨Option.some.inj (listed.symm.trans listedToo), left⟩

theorem Token.Written.filled {quote value : Char} {written : List Char}
    (inside : Written quote written value) : written ≠ [] := by
  cases inside <;> exact List.cons_ne_nil _ _

theorem Token.written_one_line {quote value : Char} {written : List Char}
    (inside : Written quote written value) : '\n' ∉ written := by
  cases inside with
  | plain notQuote notEscape notFeed => simpa using Ne.symm notFeed
  | @escaped letter _ listed =>
      have letters : ∀ entry ∈ Escape.table, '\n' ∉ ['\\', entry.1] := by decide
      exact letters _ listed

theorem Radix.decimal_digit (c : Char) : decimal.isDigit c = c.isDigit := by
  have digit : c.isDigit = true ↔ '0' ≤ c ∧ c ≤ '9' := by
    simp [Char.isDigit, Char.le_def]
  by_cases inside : '0' ≤ c ∧ c ≤ '9'
  · have small : c.toNat - '0'.toNat < 10 := by
      have upper : c.toNat ≤ '9'.toNat := inside.2
      have nine : '9'.toNat = 57 := rfl
      have zero : '0'.toNat = 48 := rfl
      omega
    rw [digit.mpr inside, isDigit, digitValue, if_pos inside]
    exact decide_eq_true small
  · rw [Bool.eq_false_iff.mpr (mt digit.mp inside), isDigit, digitValue, if_neg inside]
    split
    · -- Digits that are letters count from ten.
      rename_i value known
      have large : 10 ≤ value := by
        split at known
        · cases known
          omega
        · split at known <;> cases known
          omega
      exact decide_eq_false (Nat.not_lt.mpr large)
    · rfl

namespace Lexeme

open Token

variable {c : Char} {text spelling rest : List Char} {kind : Token.Kind}

theorem symbol_kind_iff (spelling : List Char) (kind : Token.Kind) :
    symbolKind? spelling = some kind ↔ Symbolic spelling kind := by
  constructor
  · intro found
    rw [symbolKind?, List.lookup_eq_some_iff] at found
    obtain ⟨before, after, listed, _⟩ := found
    have member : (spelling, kind) ∈ symbols := by simp [listed]
    simp only [symbols, List.mem_append, List.mem_map, Prod.mk.injEq] at member
    rcases member with ⟨operator, _, rfl, rfl⟩ | ⟨mark, _, rfl, rfl⟩
    · exact .operator operator
    · exact .punctuation mark
  · intro symbolic
    cases symbolic with
    | operator operator => cases operator <;> decide
    | punctuation mark => cases mark <;> decide

theorem word_spelling (start : isWordStart c) (found : word c text = token kind spelling rest) :
    Spelling spelling kind := by
  cases found
  generalize named : c :: text.takeWhile isWordPart = spelling
  have isWord : Token.isWord spelling := by
    simp [← named, Token.isWord, start, List.all_takeWhile]
  rw [← String.toList_ofList (l := spelling)] at isWord
  unfold wordKind
  split
  · rename_i word reserved
    have same : word.word = String.ofList spelling := by simpa using List.find?_some reserved
    have spelled := Spelling.reserved word
    rwa [same, String.toList_ofList] at spelled
  · rename_i free
    have spelled := Spelling.identifier isWord ((Keyword.of_word_none _).mp free)
    rwa [String.toList_ofList] at spelled

theorem integer_spelling {radix : Radix} {lead digits : List Char} (leads : Leads radix lead)
    (filled : digits ≠ []) (all : ∀ c ∈ digits, radix.isDigit c)
    (found : integer radix lead digits text = token kind spelling rest) :
    Spelling spelling kind := by
  rw [integer_eq] at found
  by_cases small : radix.value digits ≤ greatestInteger
  · simp only [small, if_true] at found
    cases found
    exact .integer leads filled all small
  · simp [small] at found

theorem decimal_spelling (digit : c.isDigit)
    (found : decimal (c :: text) = token kind spelling rest) : Spelling spelling kind := by
  have filled : (c :: text).takeWhile Char.isDigit ≠ [] := by simp [List.takeWhile, digit]
  have all : ∀ d ∈ (c :: text).takeWhile Char.isDigit, d.isDigit :=
    List.all_eq_true.mp List.all_takeWhile
  unfold decimal at found
  split at found
  · cases found
    exact .float filled all (List.all_eq_true.mp List.all_takeWhile)
  · refine integer_spelling .nothing filled ?_ found
    simpa only [Radix.decimal_digit] using all

theorem number_spelling (digit : c.isDigit)
    (found : number (c :: text) = token kind spelling rest) : Spelling spelling kind := by
  rcases number_cases (c :: text) with ⟨letter, radix, others, _, announced, read⟩ | read
  · rw [read, radixInteger] at found
    by_cases bare : (others.takeWhile radix.isDigit).isEmpty
    · simp [bare] at found
    · simp only [bare] at found
      exact integer_spelling (.letter announced) (by simpa using bare)
        (List.all_eq_true.mp List.all_takeWhile) found
  · rw [read] at found
    exact decimal_spelling digit found

theorem character_body_written {written : List Char} {value : Char} (notFeed : c ≠ '\n')
    (notQuote : c ≠ '\'') (read : characterBody (c :: text) = .ok (written, value, rest)) :
    Written '\'' written value := by
  rcases character_body_iff.mp read with ⟨same, rfl, plain⟩ | ⟨letter, same, rfl, known⟩
  · cases same
    exact .plain notQuote plain notFeed
  · exact .escaped ((Escape.unescape_iff letter value).mp known)

theorem character_spelling (found : character text = token kind spelling rest) :
    Spelling spelling kind := by
  obtain ⟨c, others, written, value, rfl, notFeed, notQuote, read, rfl, rfl⟩ :=
    character_token found
  exact .character (character_body_written notFeed notQuote read)

theorem body_written {content : List Char} (found : body text = .closed content spelling rest) :
    ∃ short, spelling = short ++ ['"'] ∧ WrittenAll '"' short content := by
  fun_induction body text generalizing content spelling with
  | case1 | case2 | case4 | case6 => cases found
  | case3 after notFeed =>
      cases found
      exact ⟨[], rfl, .nil⟩
  | case5 letter after value known notFeed notQuote ih =>
      obtain ⟨inner, short, closed, rfl, rfl⟩ := body_after_closed found
      obtain ⟨short, rfl, inside⟩ := ih closed
      have listed := (Escape.unescape_iff letter value).mp known
      exact ⟨_, (List.append_assoc _ _ _).symm, .cons (.escaped listed) inside⟩
  | case7 c after notFeed notQuote notEscape ih =>
      obtain ⟨inner, short, closed, rfl, rfl⟩ := body_after_closed found
      obtain ⟨short, rfl, inside⟩ := ih closed
      exact ⟨_, (List.append_assoc _ _ _).symm, .cons (.plain notQuote notEscape notFeed) inside⟩

theorem string_spelling (found : string text = token kind spelling rest) :
    Spelling spelling kind := by
  unfold string at found
  split at found <;> cases found
  rename_i closed
  obtain ⟨short, rfl, inside⟩ := body_written closed
  exact .text inside

theorem symbol_spelling (found : symbol c text = token kind spelling rest) :
    Spelling spelling kind := by
  have known : symbolKind? spelling = some kind := by
    cases one : symbolKind? [c] with
    | none =>
        cases text with
        | nil => simp [symbol, one] at found
        | cons d more =>
            cases two : symbolKind? [c, d] <;> simp only [symbol, one, two] at found <;> cases found
            exact two
    | some single =>
        cases text with
        | nil =>
            simp only [symbol, one] at found
            cases found
            exact one
        | cons d more =>
            cases two : symbolKind? [c, d] <;> simp only [symbol, one, two] at found <;> cases found
            · exact one
            · exact two
  exact .symbol ((symbol_kind_iff spelling kind).mp known)

theorem head_spelling (found : head text = token kind spelling rest) : Spelling spelling kind :=
  head_cases (fun _ lexeme => lexeme = token kind spelling rest → Spelling spelling kind) nofun
    (fun _ => character_spelling) (fun _ => string_spelling)
    (fun _ _ digit => number_spelling digit) (fun _ _ start => word_spelling start)
    (fun _ _ => symbol_spelling) text found

end Lexeme
end McFront
