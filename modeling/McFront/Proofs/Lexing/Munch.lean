import McFront.Proofs.Lexing.Scanning

set_option autoImplicit false

namespace McFront

namespace Token

-- Blanks and comments. A comment ends before a line feed or with the text.
inductive Gap : List Char → List Char → Prop
  | nothing {rest : List Char} : Gap [] rest
  | blank {c : Char} {passed rest : List Char} (blank : Lexeme.isBlank c)
      (others : Gap passed rest) : Gap (c :: passed) rest
  | comment {inside passed rest : List Char} (oneLine : '\n' ∉ inside)
      (ends : ∀ c ∈ (passed ++ rest).head?, c = '\n') (others : Gap passed rest) :
      Gap ('#' :: inside ++ passed) rest

def Kind.IsSymbol : Kind → Prop
  | .operator _ | .punctuation _ => True
  | _ => False

def symbolSpellings : List String :=
  Operator.all.map Operator.spelling ++ Punctuation.all.map Punctuation.spelling

structure LongestSymbol (spelling text : List Char) : Prop where
  listed : String.ofList spelling ∈ symbolSpellings
  longest : ∀ symbol ∈ symbolSpellings, symbol.toList <+: text →
    symbol.toList.length ≤ spelling.length

structure Munch (spelling rest : List Char) (kind : Kind) : Prop where
  filled : spelling ≠ []
  spelled : Spelling spelling kind
  longest : ∀ start other, Spelling start other → start <+: spelling ++ rest →
    start.length ≤ spelling.length
  symbol : kind.IsSymbol → LongestSymbol spelling (spelling ++ rest) ∨
    ∃ word : Keyword, word.operator?.isSome ∧ spelling = word.word.toList
  word : isWord spelling → ((∃ name, kind = .identifier name) ↔
    String.ofList spelling ∉ Keyword.all.map Keyword.word)

inductive Munched : List Char → List Kind → Prop
  | done {gap : List Char} (between : Gap gap []) : Munched gap [.endOfInput]
  | token {gap spelling rest : List Char} {kind : Kind} {kinds : List Kind}
      (between : Gap gap (spelling ++ rest)) (munch : Munch spelling rest kind)
      (others : Munched rest kinds) : Munched (gap ++ spelling ++ rest) (kind :: kinds)

end Token

namespace Lexeme

open Token

variable {text spelling rest : List Char} {kind : Token.Kind}

theorem gap_between (text : List Char) :
    Gap (gap false text).1 (gap false text).2 ∧
      ∃ inside passed, (gap true text).1 = inside ++ passed ∧ '\n' ∉ inside ∧
        (∀ c ∈ (passed ++ (gap true text).2).head?, c = '\n') ∧ Gap passed (gap true text).2 := by
  -- Shown at once: a gap may open a comment, and what follows the comment is a gap again.
  induction text with
  | nil => exact ⟨.nothing, [], [], rfl, nofun, nofun, .nothing⟩
  | cons c text ih =>
      obtain ⟨outside, inside, passed, split, oneLine, ends, others⟩ := ih
      rw [gap, gap]
      by_cases blank : isBlank c
      · rw [if_pos blank, if_pos blank]
        refine ⟨.blank blank outside, ?_⟩
        by_cases feed : c = '\n'
        · subst feed
          exact ⟨[], _, rfl, nofun, fun d first => by simpa using first.symm, .blank blank outside⟩
        · simp only [Bool.true_and, bne_iff_ne.mpr feed]
          exact ⟨c :: inside, passed, by rw [split, List.cons_append],
            by simpa [Ne.symm feed] using oneLine, ends, others⟩
      · have notFeed : c ≠ '\n' := by
          rintro rfl
          exact blank rfl
        simp only [if_neg blank, Bool.true_or, Bool.false_or, if_true, decide_eq_true_eq]
        have oneLineAfter : '\n' ∉ c :: inside := by simp [oneLine, Ne.symm notFeed]
        have splitAfter : c :: (gap true text).1 = c :: inside ++ passed := by
          rw [split, List.cons_append]
        refine ⟨?_, c :: inside, passed, splitAfter, oneLineAfter, ends, others⟩
        by_cases comment : c = '#'
        · rw [if_pos comment, split, comment, ← List.cons_append]
          exact .comment oneLine ends others
        · rw [if_neg comment]
          exact .nothing

theorem word_kind_names (name : String) :
    (∃ other, wordKind name = .identifier other) ↔ name ∉ Keyword.all.map Keyword.word := by
  rw [← Keyword.of_word_none, wordKind]
  cases Keyword.ofWord? name with
  | none => simp
  | some word =>
      have notName : ∀ other, Kind.ofKeyword word ≠ .identifier other := by cases word <;> nofun
      simp [notName]

theorem word_read (isWord : Token.isWord spelling)
    (found : head (spelling ++ rest) = token kind spelling rest) :
    kind = wordKind (String.ofList spelling) := by
  cases spelling with
  | nil => cases isWord
  | cons c tail =>
      simp only [Token.isWord, Bool.and_eq_true] at isWord
      rw [List.cons_append, head_word isWord.1, word, token.injEq] at found
      obtain ⟨named, same, _⟩ := found
      rw [← named, same]

theorem listed_symbolic {symbol : String} (listed : symbol ∈ symbolSpellings) :
    ∃ kind, Symbolic symbol.toList kind := by
  rcases List.mem_append.mp listed with member | member
  · obtain ⟨operator, _, rfl⟩ := List.mem_map.mp member
    exact ⟨_, .operator operator⟩
  · obtain ⟨mark, _, rfl⟩ := List.mem_map.mp member
    exact ⟨_, .punctuation mark⟩

theorem symbolic_listed (symbolic : Symbolic spelling kind) :
    String.ofList spelling ∈ symbolSpellings := by
  rw [symbolSpellings, List.mem_append, List.mem_map, List.mem_map]
  cases symbolic with
  | operator operator => exact .inl ⟨operator, operator.mem_all, String.ofList_toList.symm⟩
  | punctuation mark => exact .inr ⟨mark, mark.mem_all, String.ofList_toList.symm⟩

theorem symbol_or_word (spelled : Spelling spelling kind) (isSymbol : kind.IsSymbol) :
    Symbolic spelling kind ∨
      ∃ word : Keyword, word.operator?.isSome ∧ spelling = word.word.toList := by
  cases spelled with
  | symbol symbolic => exact .inl symbolic
  | reserved word =>
      refine .inr ⟨word, ?_, rfl⟩
      cases word <;> first | rfl | cases isSymbol
  | identifier | integer | float | character | text => cases isSymbol

theorem head_munch (found : head text = token kind spelling rest) : Munch spelling rest kind := by
  have start := head_start text
  rw [found] at start
  obtain ⟨rfl, filled, _⟩ := start
  have spelled := head_spelling found
  have longest : ∀ start other, Spelling start other → start <+: spelling ++ rest →
      start.length ≤ spelling.length := fun _ _ other isStart => head_longest found other isStart
  refine ⟨filled, spelled, longest, fun isSymbol => ?_, fun isWord => ?_⟩
  · rcases symbol_or_word spelled isSymbol with symbolic | word
    · refine .inl ⟨symbolic_listed symbolic, fun symbol listed isStart => ?_⟩
      obtain ⟨other, symbolic⟩ := listed_symbolic listed
      exact longest _ other (.symbol symbolic) isStart
    · exact .inr word
  · rw [word_read isWord found, word_kind_names]

end Lexeme

namespace Cursor

theorem outlook_munched {cursor : Cursor} {finish : Token}
    (ended : cursor.outlook.last = .ok finish) :
    Token.Munched cursor.rest (cursor.outlook.tokens.map Token.kind ++ [finish.kind]) := by
  induction cursor using outlook.induct with
  | case1 cursor token after drawn proper ih =>
      rw [outlook_token drawn proper] at ended ⊢
      have others := ih ended
      obtain ⟨spelling, found⟩ := next_found drawn proper
      have split := Lexeme.gap_split false cursor.rest
      have between := (Lexeme.gap_between cursor.rest).1
      have start := Lexeme.head_start (Lexeme.gap false cursor.rest).2
      rw [found] at start
      rw [← start.1] at split between
      have munched := Token.Munched.token between (Lexeme.head_munch found) others
      rwa [List.append_assoc, split] at munched
  | case2 cursor token after drawn isEnd =>
      have isEnd : token.isEnd = true := by simpa using isEnd
      have split := Lexeme.gap_split false cursor.rest
      have between := (Lexeme.gap_between cursor.rest).1
      rw [next_nothing drawn isEnd, List.append_nil] at split
      rw [next_nothing drawn isEnd, split] at between
      rw [outlook_end drawn isEnd] at ended ⊢
      cases ended
      rw [(Token.is_end_iff finish).mp isEnd]
      exact .done between
  | case3 cursor error after drawn =>
      rw [outlook_error drawn] at ended
      cases ended

end Cursor

theorem lex_munches (text : String) (interner : Interner) (tokens : List Token)
    (accepted : (lex text interner).1 = .ok tokens) :
    Token.Munched text.toList (tokens.map Token.kind) := by
  obtain ⟨finish, ended, rfl⟩ := lex_accepts_iff.mp accepted
  rw [List.map_append]
  exact Cursor.outlook_munched ended

theorem compared_word_munches :
    ∃ tokens, (lex "iff<=0b1 # if\n" .empty).1 = .ok tokens ∧
      tokens.map Token.kind =
        [.identifier "iff", .operator .atMost, .integer .binary 1, .endOfInput] ∧
      Token.Munched "iff<=0b1 # if\n".toList (tokens.map Token.kind) := by
  obtain ⟨tokens, accepted, kinds⟩ := exists_of_measured (show
    (lex "iff<=0b1 # if\n" .empty).1.toOption.map (·.map Token.kind) =
      some [.identifier "iff", .operator .atMost, .integer .binary 1, .endOfInput]
    by decide +kernel)
  exact ⟨tokens, accepted, kinds, lex_munches _ .empty tokens accepted⟩

end McFront
