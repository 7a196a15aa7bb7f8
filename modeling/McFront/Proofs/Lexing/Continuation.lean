import McFront.Proofs.Lexing.Drawing

set_option autoImplicit false

namespace McFront

theorem Location.past_line (place : Location) (passed : List Char) :
    (place.past passed).line = place.line + passed.count '\n' := by
  induction passed generalizing place with
  | nil => rfl
  | cons c rest ih =>
      rw [past_cons, ih, List.count_cons]
      by_cases feed : c = '\n'
      · simp [after, feed]
        omega
      · simp [after, feed]

theorem Location.NotAfter.line {a b : Location} (notAfter : a.NotAfter b) : a.line ≤ b.line := by
  rcases notAfter with rfl | before
  · exact Nat.le_refl _
  · simp only [Before] at before
    omega

def drawnLine : Checked Token → Nat
  | .ok token => token.location.line
  | .error error => error.location.line

def Outlook.lines (outlook : Outlook) : List Nat :=
  outlook.tokens.map (·.location.line) ++ [drawnLine outlook.last]

namespace Lexeme

variable {text spelling rest : List Char} {kind : Token.Kind}

section Run

variable {part : Char → Bool}

theorem take_while_feed (stops : part '\n' = false) (text more : List Char) :
    (text ++ '\n' :: more).takeWhile part = text.takeWhile part := by
  induction text with
  | nil => simp [stops]
  | cons c text ih => rw [List.cons_append, List.takeWhile_cons, List.takeWhile_cons, ih]

theorem drop_while_feed (stops : part '\n' = false) (text more : List Char) :
    (text ++ '\n' :: more).dropWhile part = text.dropWhile part ++ '\n' :: more := by
  induction text with
  | nil => simp [stops]
  | cons c text ih =>
      rw [List.cons_append, List.dropWhile_cons, List.dropWhile_cons, ih]
      split <;> rfl

end Run

theorem word_feed {c : Char} (found : word c text = token kind spelling rest) (more : List Char) :
    word c (text ++ '\n' :: more) = token kind spelling (rest ++ '\n' :: more) := by
  unfold word at found ⊢
  rw [take_while_feed rfl, drop_while_feed rfl]
  cases found
  rfl

theorem integer_longer {radix : Radix} {lead digits : List Char}
    (found : integer radix lead digits text = token kind spelling rest) (more : List Char) :
    integer radix lead digits (text ++ more) = token kind spelling (rest ++ more) := by
  rw [integer_eq] at found ⊢
  by_cases small : radix.value digits ≤ greatestInteger
  · simp only [small, if_true] at found ⊢
    cases found
    rfl
  · simp [small] at found

theorem radix_integer_feed {radix : Radix} {lead : List Char}
    (found : radixInteger radix lead text = token kind spelling rest) (more : List Char) :
    radixInteger radix lead (text ++ '\n' :: more) =
      token kind spelling (rest ++ '\n' :: more) := by
  have stops : radix.isDigit '\n' = false := by cases radix <;> rfl
  rw [radixInteger] at found ⊢
  rw [take_while_feed stops, drop_while_feed stops]
  by_cases bare : (text.takeWhile radix.isDigit).isEmpty
  · simp [bare] at found
  · simp only [bare] at found ⊢
    exact integer_longer found _

theorem decimal_feed (found : decimal text = token kind spelling rest) (more : List Char) :
    decimal (text ++ '\n' :: more) = token kind spelling (rest ++ '\n' :: more) := by
  have stops : Char.isDigit '\n' = false := rfl
  unfold decimal at found ⊢
  rw [take_while_feed stops, drop_while_feed stops]
  cases left : text.dropWhile Char.isDigit with
  | nil =>
      rw [left] at found
      exact integer_longer found _
  | cons c others =>
      rw [left] at found
      by_cases point : c = '.'
      · subst point
        simp only [List.cons_append, take_while_feed stops, drop_while_feed stops] at found ⊢
        cases found
        rfl
      · rw [List.cons_append]
        split
        · rename_i same
          cases same
          exact absurd rfl point
        · split at found
          · rename_i same
            cases same
            exact absurd rfl point
          · exact integer_longer found _

theorem number_feed (found : number text = token kind spelling rest) (more : List Char) :
    number (text ++ '\n' :: more) = token kind spelling (rest ++ '\n' :: more) := by
  unfold number at found
  split at found
  · rename_i letter others
    simp only [List.cons_append, number]
    cases announced : Radix.ofLetter? letter with
    | some radix =>
        rw [announced] at found
        exact radix_integer_feed found more
    | none =>
        rw [announced] at found
        exact decimal_feed found more
  · rename_i unannounced
    unfold number
    split
    · rename_i letter others same
      -- Only a zero at the end of the text can have got a letter, and the letter is the line feed.
      cases text with
      | nil => cases same
      | cons c text =>
          cases text with
          | nil =>
              cases same
              exact decimal_feed found more
          | cons d text =>
              cases same
              exact absurd rfl (unannounced letter text)
    · exact decimal_feed found more

theorem character_body_longer {written : List Char} {value : Char}
    (read : characterBody text = .ok (written, value, rest)) (more : List Char) :
    characterBody (text ++ more) = .ok (written, value, rest ++ more) := by
  rw [character_body_iff] at read ⊢
  rcases read with ⟨rfl, read⟩ | ⟨letter, rfl, read⟩
  · exact .inl ⟨rfl, read⟩
  · exact .inr ⟨letter, rfl, read⟩

theorem character_longer (found : character text = token kind spelling rest) (more : List Char) :
    character (text ++ more) = token kind spelling (rest ++ more) := by
  obtain ⟨c, others, written, value, rfl, notFeed, notQuote, read, rfl, rfl⟩ :=
    character_token found
  exact character_read notFeed notQuote (character_body_longer read more)

theorem body_after_closed {written content : List Char} {value : Char} {found : Body}
    (closed : found.after written value = .closed content spelling rest) :
    ∃ inner short, found = .closed inner short rest ∧ content = value :: inner ∧
      spelling = written ++ short := by
  cases found <;> cases closed
  exact ⟨_, _, rfl, rfl, rfl⟩

theorem body_longer {content : List Char} (found : body text = .closed content spelling rest)
    (more : List Char) : body (text ++ more) = .closed content spelling (rest ++ more) := by
  fun_induction body text generalizing content spelling with
  | case1 | case2 | case4 | case6 => cases found
  | case3 after notFeed =>
      cases found
      rw [List.cons_append, body.eq_def]
      simp only [notFeed, if_false, if_true]
  | case5 letter after value known notFeed notQuote ih =>
      obtain ⟨inner, short, closed, rfl, rfl⟩ := body_after_closed found
      rw [List.cons_append, List.cons_append, body_escaped known, ih closed]
      rfl
  | case7 c after notFeed notQuote notEscape ih =>
      obtain ⟨inner, short, closed, rfl, rfl⟩ := body_after_closed found
      rw [List.cons_append, body_plain notFeed notQuote notEscape, ih closed]
      rfl

theorem string_longer (found : string text = token kind spelling rest) (more : List Char) :
    string (text ++ more) = token kind spelling (rest ++ more) := by
  unfold string at found
  split at found <;> cases found
  rename_i closed
  rw [string, body_longer closed more]

theorem symbol_kind_free (part : Char → Bool) (free : ∀ entry ∈ symbols, entry.1.any part = false)
    (inside : spelling.any part) : symbolKind? spelling = none := by
  rw [symbolKind?, List.lookup_eq_none_iff]
  intro entry member
  rw [bne_iff_ne]
  intro same
  rw [same, free entry member] at inside
  cases inside

theorem symbol_kind_blank (c : Char) {d : Char} (blank : isBlank d) :
    symbolKind? [c, d] = none :=
  symbol_kind_free isBlank (by decide) (by simp [blank])

theorem symbol_feed {c : Char} (found : symbol c text = token kind spelling rest)
    (more : List Char) :
    symbol c (text ++ '\n' :: more) = token kind spelling (rest ++ '\n' :: more) := by
  cases text with
  | nil =>
      simp only [symbol] at found
      cases single : symbolKind? [c] with
      | none => simp [single] at found
      | some kind =>
          rw [single] at found
          cases found
          simp only [List.nil_append, symbol, symbol_kind_blank c (d := '\n') rfl, single]
  | cons d text =>
      simp only [symbol] at found
      cases double : symbolKind? [c, d] with
      | some kind =>
          rw [double] at found
          cases found
          simp only [List.cons_append, symbol, double]
      | none =>
          cases single : symbolKind? [c] with
          | none => simp [single, double] at found
          | some kind =>
              rw [single, double] at found
              cases found
              simp only [List.cons_append, symbol, double, single]

theorem head_feed (found : head text = token kind spelling rest) (more : List Char) :
    head (text ++ '\n' :: more) = token kind spelling (rest ++ '\n' :: more) := by
  cases text with
  | nil => cases found
  | cons c text =>
      rw [List.cons_append]
      rw [head] at found ⊢
      by_cases quote : c = '\''
      · rw [if_pos quote] at found ⊢
        exact character_longer found _
      · rw [if_neg quote] at found ⊢
        by_cases double : c = '"'
        · rw [if_pos double] at found ⊢
          exact string_longer found _
        · rw [if_neg double] at found ⊢
          by_cases digit : c.isDigit
          · rw [if_pos digit] at found ⊢
            exact number_feed found more
          · rw [if_neg digit] at found ⊢
            by_cases start : isWordStart c
            · rw [if_pos start] at found ⊢
              exact word_feed found more
            · rw [if_neg start] at found ⊢
              exact symbol_feed found more

-- A gap that ends before the text does is not longer in a longer text. One that does not goes on
-- past the line feed, which ends its last comment.
theorem gap_longer {inComment : Bool} {c : Char} (stops : (gap inComment text).2 = c :: rest)
    (more : List Char) :
    gap inComment (text ++ more) = ((gap inComment text).1, c :: rest ++ more) := by
  induction text generalizing inComment with
  | nil => cases stops
  | cons d text ih =>
      rw [List.cons_append]
      rw [gap] at stops ⊢
      by_cases blank : isBlank d
      · simp only [if_pos blank] at stops ⊢
        rw [ih stops, gap, if_pos blank]
      · by_cases comment : (inComment || d = '#') = true
        · simp only [if_neg blank, if_pos comment] at stops ⊢
          rw [ih stops, gap, if_neg blank, if_pos comment]
        · simp only [if_neg blank, if_neg comment] at stops ⊢
          cases stops
          rw [gap, if_neg blank, if_neg comment]
          rfl

theorem gap_feed {inComment : Bool} (all : (gap inComment text).2 = []) (more : List Char) :
    gap inComment (text ++ '\n' :: more) =
      (text ++ '\n' :: (gap false more).1, (gap false more).2) := by
  induction text generalizing inComment with
  | nil => simp [gap, isBlank]
  | cons d text ih =>
      rw [List.cons_append]
      rw [gap] at all ⊢
      by_cases blank : isBlank d
      · simp only [if_pos blank] at all ⊢
        rw [ih all]
        rfl
      · by_cases comment : (inComment || d = '#') = true
        · simp only [if_neg blank, if_pos comment] at all ⊢
          rw [ih all]
          rfl
        · simp only [if_neg blank, if_neg comment] at all
          cases all

end Lexeme

namespace Cursor

variable {cursor after : Cursor} {token : Token}

def longer (cursor : Cursor) (more : List Char) : Cursor :=
  ⟨cursor.rest ++ '\n' :: more, cursor.location⟩

def lineAfter (cursor : Cursor) (more : List Char) : Cursor :=
  ⟨more, cursor.location.past (cursor.rest ++ ['\n'])⟩

theorem next_longer (drawn : cursor.next = (.ok token, after)) (proper : token.isEnd = false)
    (more : List Char) : (cursor.longer more).next = (.ok token, after.longer more) := by
  cases step_of_next drawn with
  | finish left => cases proper
  | @token passed spelling rest kind left found filled =>
      obtain ⟨c, others, ahead⟩ := List.exists_cons_of_ne_nil
        (List.append_ne_nil_of_left_ne_nil filled rest)
      have gone : (Lexeme.gap false cursor.rest).2 = c :: others := by rw [left, ahead]
      rw [ahead] at found
      have same := Lexeme.head_feed found more
      simp only [next, longer, Lexeme.gap_longer gone, same, left]

theorem next_line (drawn : cursor.next = (.ok token, after)) (ended : token.isEnd = true)
    (more : List Char) : (cursor.longer more).next = (cursor.lineAfter more).next := by
  have all := next_nothing drawn ended
  have place (passed : List Char) : cursor.location.past (cursor.rest ++ '\n' :: passed) =
      (cursor.location.past (cursor.rest ++ ['\n'])).past passed := by
    rw [← Location.past_append, List.append_assoc, List.singleton_append]
  simp only [next, longer, lineAfter, Lexeme.gap_feed all]
  rw [place]

theorem outlook_longer {finish : Token} (cursor : Cursor) (more : List Char)
    (ended : cursor.outlook.last = .ok finish) :
    (cursor.longer more).outlook =
      ⟨cursor.outlook.tokens ++ (cursor.lineAfter more).outlook.tokens,
        (cursor.lineAfter more).outlook.last⟩ := by
  induction cursor using outlook.induct with
  | case1 cursor token after drawn proper ih =>
      obtain ⟨passed, spelling, split, _, place, placeAfter⟩ :=
        next_token cursor after token drawn proper
      have same : after.lineAfter more = cursor.lineAfter more := by
        simp only [lineAfter, placeAfter, place, split, Location.past_append]
      rw [outlook_token drawn proper] at ended ⊢
      rw [outlook_token (next_longer drawn proper more) proper, ih ended, same]
      rfl
  | case2 cursor token after drawn isEnd =>
      rw [outlook_end drawn (by simpa using isEnd)]
      rw [outlook.eq_def, next_line drawn (by simpa using isEnd), ← outlook.eq_def]
      rfl
  | case3 cursor error after drawn =>
      rw [outlook_error drawn] at ended
      cases ended

theorem outlook_of_lines {first : String} {finish : Token} (second : String)
    (ended : (ofText first).outlook.last = .ok finish) :
    (ofText (first ++ "\n" ++ second)).outlook =
      ⟨(ofText first).outlook.tokens ++ ((ofText first).lineAfter second.toList).outlook.tokens,
        ((ofText first).lineAfter second.toList).outlook.last⟩ := by
  rw [← (ofText first).outlook_longer second.toList ended]
  congr 1
  simp [ofText, longer]

theorem outlook_lines (cursor : Cursor) :
    (cursor.location.line :: cursor.outlook.lines).Pairwise (· ≤ ·) := by
  induction cursor using outlook.induct with
  | case1 cursor token after drawn proper ih =>
      obtain ⟨passed, spelling, _, _, place, placeAfter⟩ :=
        next_token cursor after token drawn proper
      have first : cursor.location.line ≤ token.location.line := (next_ok drawn).line
      have second : token.location.line ≤ after.location.line := by
        rw [placeAfter]
        exact (Location.not_after_past _ spelling).line
      rw [outlook_token drawn proper]
      show (cursor.location.line :: token.location.line :: after.outlook.lines).Pairwise (· ≤ ·)
      rw [List.pairwise_cons] at ih ⊢
      rw [List.pairwise_cons, List.forall_mem_cons]
      have later : ∀ line ∈ after.outlook.lines, token.location.line ≤ line :=
        fun line member => Nat.le_trans second (ih.1 line member)
      exact ⟨⟨first, fun line member => Nat.le_trans first (later line member)⟩, later, ih.2⟩
  | case2 cursor token after drawn ended =>
      rw [outlook_end drawn (by simpa using ended)]
      simpa [Outlook.lines, drawnLine] using (next_ok drawn).line
  | case3 cursor error after drawn =>
      rw [outlook_error drawn]
      simpa [Outlook.lines, drawnLine] using (next_error drawn).line

end Cursor
end McFront
