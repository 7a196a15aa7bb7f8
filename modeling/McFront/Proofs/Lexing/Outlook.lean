import McFront.Proofs.Lexing.Extent

set_option autoImplicit false

namespace McFront

namespace Location

theorem before_trans (a b c : Location) (first : Before a b) (second : Before b c) : Before a c := by
  simp only [Before] at *
  omega

theorem before_irrefl (place : Location) : ¬ Before place place := by
  simp only [Before]
  omega

theorem before_after (place : Location) (c : Char) : Before place (place.after c) := by
  by_cases feed : c = '\n' <;> simp [Before, after, feed]

def NotAfter (a b : Location) : Prop := a = b ∨ Before a b

theorem before_not_after (a b c : Location) (first : Before a b) (second : NotAfter b c) :
    Before a c := by
  rcases second with rfl | second
  · exact first
  · exact before_trans a b c first second

theorem not_after_trans (a b c : Location) (first : NotAfter a b) (second : NotAfter b c) :
    NotAfter a c := by
  rcases first with rfl | first
  · exact second
  · exact .inr (before_not_after a b c first second)

theorem not_after_past (place : Location) (passed : List Char) :
    NotAfter place (place.past passed) := by
  induction passed generalizing place with
  | nil => exact .inl rfl
  | cons c rest ih =>
      exact .inr (before_not_after place _ _ (before_after place c) (ih (place.after c)))

theorem before_past (place : Location) (passed : List Char) (filled : passed ≠ []) :
    Before place (place.past passed) := by
  cases passed with
  | nil => exact absurd rfl filled
  | cons c rest =>
      exact before_not_after place _ _ (before_after place c) (not_after_past (place.after c) rest)

end Location

theorem Token.is_end_iff (token : Token) : token.isEnd = true ↔ token.kind = .endOfInput := by
  simp [Token.isEnd]

namespace Cursor

-- What is drawn at a cursor: the end behind a gap, or a token or an error behind it. An error is
-- where the lead of a fault ends.
inductive Step (cursor : Cursor) : Checked Token → Cursor → Prop where
  | finish {passed : List Char} (left : Lexeme.gap false cursor.rest = (passed, [])) :
      Step cursor (.ok ⟨.endOfInput, cursor.location.past passed⟩)
        ⟨[], cursor.location.past passed⟩
  | token {passed spelling rest : List Char} {kind : Token.Kind}
      (left : Lexeme.gap false cursor.rest = (passed, spelling ++ rest))
      (found : Lexeme.head (spelling ++ rest) = .token kind spelling rest)
      (filled : spelling ≠ []) (proper : kind ≠ .endOfInput) :
      Step cursor (.ok ⟨kind, cursor.location.past passed⟩)
        ⟨rest, (cursor.location.past passed).past spelling⟩
  | fault {passed lead more rest : List Char} {complaint : Complaint}
      (left : Lexeme.gap false cursor.rest = (passed, lead ++ more ++ rest))
      (found : Lexeme.head (lead ++ more ++ rest) = .fault complaint lead (lead ++ more) rest) :
      Step cursor (.error (complaint.raise ((cursor.location.past passed).past lead)))
        ⟨rest, (cursor.location.past passed).past (lead ++ more)⟩

theorem step_next (cursor : Cursor) : cursor.Step cursor.next.1 cursor.next.2 := by
  cases left : Lexeme.gap false cursor.rest with
  | mk passed ahead =>
      have start := Lexeme.head_start ahead
      simp only [next, left]
      cases found : Lexeme.head ahead with
      | absent =>
          rw [found] at start
          obtain rfl : ahead = [] := start
          exact .finish left
      | token kind spelling rest =>
          rw [found] at start
          obtain ⟨rfl, filled, proper⟩ := start
          exact .token left found filled proper
      | fault complaint lead read rest =>
          rw [found] at start
          obtain ⟨rfl, more, rfl⟩ := start
          exact .fault left found

theorem step_of_next {cursor after : Cursor} {drawn : Checked Token}
    (ran : cursor.next = (drawn, after)) : cursor.Step drawn after := by
  have step := cursor.step_next
  rwa [ran] at step

theorem split_of_gap {cursor : Cursor} {passed ahead : List Char}
    (left : Lexeme.gap false cursor.rest = (passed, ahead)) : cursor.rest = passed ++ ahead := by
  have split := Lexeme.gap_split false cursor.rest
  rw [left] at split
  exact split.symm

theorem next_token (cursor after : Cursor) (token : Token)
    (drawn : cursor.next = (.ok token, after)) (proper : token.isEnd = false) :
    ∃ passed spelling, cursor.rest = passed ++ spelling ++ after.rest ∧ spelling ≠ [] ∧
      token.location = cursor.location.past passed ∧
      after.location = token.location.past spelling := by
  cases step_of_next drawn with
  | finish left => cases proper
  | token left found filled =>
      refine ⟨_, _, ?_, filled, rfl, rfl⟩
      rw [split_of_gap left, List.append_assoc]

theorem next_end (cursor after : Cursor) (token : Token)
    (drawn : cursor.next = (.ok token, after)) (ended : token.isEnd = true) :
    after.next = (.ok token, after) := by
  cases step_of_next drawn with
  | finish left => simp [next, Lexeme.gap, Lexeme.head, Location.past_nil]
  | token left found filled proper => exact absurd ((Token.is_end_iff _).mp ended) proper

theorem next_found {cursor after : Cursor} {token : Token}
    (drawn : cursor.next = (.ok token, after)) (proper : token.isEnd = false) :
    ∃ spelling,
      Lexeme.head (Lexeme.gap false cursor.rest).2 = .token token.kind spelling after.rest := by
  cases step_of_next drawn with
  | finish left => cases proper
  | token left found => exact ⟨_, by rw [left, found]⟩

theorem next_nothing {cursor after : Cursor} {token : Token}
    (drawn : cursor.next = (.ok token, after)) (ended : token.isEnd = true) :
    (Lexeme.gap false cursor.rest).2 = [] := by
  cases step_of_next drawn with
  | finish left => rw [left]
  | token left found filled proper => exact absurd ((Token.is_end_iff _).mp ended) proper

theorem next_shorter (cursor after : Cursor) (token : Token)
    (drawn : cursor.next = (.ok token, after)) (proper : token.isEnd = false) :
    after.rest.length < cursor.rest.length := by
  obtain ⟨passed, spelling, split, filled, _⟩ := next_token cursor after token drawn proper
  have positive := List.length_pos_iff.mpr filled
  rw [split, List.length_append, List.length_append]
  omega

end Cursor

structure Outlook where
  tokens : List Token
  last : Checked Token

def Outlook.after (token : Token) (rest : Outlook) : Outlook := ⟨token :: rest.tokens, rest.last⟩

def Cursor.outlook (cursor : Cursor) : Outlook :=
  match _drawn : cursor.next with
  | (.ok token, after) =>
      if _proper : token.isEnd = false then .after token after.outlook else ⟨[], .ok token⟩
  | (.error error, _) => ⟨[], .error error⟩
termination_by cursor.rest.length
decreasing_by exact cursor.next_shorter after token _drawn _proper

namespace Cursor

variable {cursor next : Cursor} {token : Token} {error : CompileError}

theorem outlook_token (drawn : cursor.next = (.ok token, next)) (proper : token.isEnd = false) :
    cursor.outlook = .after token next.outlook := by
  rw [outlook.eq_def]
  split <;> rename_i found <;> rw [drawn] at found <;> cases found
  exact dif_pos proper

theorem outlook_end (drawn : cursor.next = (.ok token, next)) (ended : token.isEnd = true) :
    cursor.outlook = ⟨[], .ok token⟩ := by
  rw [outlook.eq_def]
  split <;> rename_i found <;> rw [drawn] at found <;> cases found
  exact dif_neg (by simp [ended])

theorem outlook_error (drawn : cursor.next = (.error error, next)) :
    cursor.outlook = ⟨[], .error error⟩ := by
  rw [outlook.eq_def]
  split <;> rename_i found <;> rw [drawn] at found <;> cases found
  rfl

theorem outlook_proper (cursor : Cursor) : ∀ token ∈ cursor.outlook.tokens, token.isEnd = false := by
  induction cursor using outlook.induct with
  | case1 cursor token after drawn proper ih =>
      rw [outlook_token drawn proper]
      intro other member
      rcases List.mem_cons.mp member with rfl | member
      · exact proper
      · exact ih other member
  | case2 cursor token after drawn ended =>
      rw [outlook_end drawn (by simpa using ended)]
      nofun
  | case3 cursor error after drawn =>
      rw [outlook_error drawn]
      nofun

theorem outlook_last (cursor : Cursor) (token : Token) (ended : cursor.outlook.last = .ok token) :
    token.isEnd = true := by
  induction cursor using outlook.induct with
  | case1 cursor first after drawn proper ih =>
      rw [outlook_token drawn proper] at ended
      exact ih ended
  | case2 cursor first after drawn isEnd =>
      rw [outlook_end drawn (by simpa using isEnd)] at ended
      cases ended
      simpa using isEnd
  | case3 cursor error after drawn =>
      rw [outlook_error drawn] at ended
      cases ended

theorem outlook_finish {cursor : Cursor} {token : Token} (ended : cursor.outlook.last = .ok token) :
    token.kind = .endOfInput :=
  (Token.is_end_iff token).mp (cursor.outlook_last token ended)

theorem outlook_length (cursor : Cursor) : cursor.outlook.tokens.length ≤ cursor.rest.length := by
  induction cursor using outlook.induct with
  | case1 cursor token after drawn proper ih =>
      have shorter := next_shorter cursor after token drawn proper
      rw [outlook_token drawn proper, Outlook.after, List.length_cons]
      omega
  | case2 cursor token after drawn ended =>
      rw [outlook_end drawn (by simpa using ended)]
      exact Nat.zero_le _
  | case3 cursor error after drawn =>
      rw [outlook_error drawn]
      exact Nat.zero_le _

theorem outlook_ordered (cursor : Cursor) :
    (∀ token ∈ cursor.outlook.tokens, cursor.location.NotAfter token.location) ∧
      (cursor.outlook.tokens.map Token.location).Pairwise Location.Before := by
  induction cursor using outlook.induct with
  | case1 cursor token after drawn proper ih =>
      obtain ⟨passed, spelling, _, filled, place, placeAfter⟩ :=
        next_token cursor after token drawn proper
      have start : cursor.location.NotAfter token.location := by
        rw [place]
        exact Location.not_after_past _ passed
      have later : ∀ other ∈ after.outlook.tokens, token.location.Before other.location := by
        intro other member
        refine Location.before_not_after _ _ _ ?_ (ih.1 other member)
        rw [placeAfter]
        exact Location.before_past _ spelling filled
      rw [outlook_token drawn proper]
      refine ⟨?_, ?_⟩
      · intro other member
        rcases List.mem_cons.mp member with rfl | member
        · exact start
        · exact Location.not_after_trans _ _ _ start (.inr (later other member))
      · rw [Outlook.after, List.map_cons, List.pairwise_cons]
        refine ⟨?_, ih.2⟩
        intro place member
        obtain ⟨other, inside, rfl⟩ := List.mem_map.mp member
        exact later other inside
  | case2 cursor token after drawn ended =>
      rw [outlook_end drawn (by simpa using ended)]
      exact ⟨nofun, .nil⟩
  | case3 cursor error after drawn =>
      rw [outlook_error drawn]
      exact ⟨nofun, .nil⟩

end Cursor

namespace Lexer

variable {lexer after : Lexer} {token : Token} {error : CompileError}

def outlook (lexer : Lexer) : Outlook :=
  match lexer.failure with
  | some error => ⟨[], .error error⟩
  | none => lexer.cursor.outlook

inductive Step (lexer : Lexer) : Checked Token → Lexer → Prop where
  | again {error : CompileError} (failed : lexer.failure = some error) :
      Step lexer (.error error) lexer
  | token {token : Token} {cursor : Cursor} (sound : lexer.failure = none)
      (drawn : lexer.cursor.next = (.ok token, cursor)) :
      Step lexer (.ok token)
        { lexer with cursor, interner := lexer.interner.insertAll token.kind.symbol?.toList }
  | error {error : CompileError} {cursor : Cursor} (sound : lexer.failure = none)
      (drawn : lexer.cursor.next = (.error error, cursor)) :
      Step lexer (.error error) { lexer with cursor, failure := some error }

theorem step_next (lexer : Lexer) : lexer.Step lexer.next.1 lexer.next.2 := by
  obtain ⟨cursor, interner, failure, finished⟩ := lexer
  cases failure with
  | some error => exact .again rfl
  | none =>
      simp only [next]
      cases drawn : cursor.next with
      | mk result after =>
          cases result with
          | ok token => exact .token rfl drawn
          | error error => exact .error rfl drawn

theorem step_of_next {drawn : Checked Token} (ran : lexer.next = (drawn, after)) :
    lexer.Step drawn after := by
  have step := lexer.step_next
  rwa [ran] at step

theorem next_ok (drawn : lexer.next = (.ok token, after)) :
    lexer.failure = none ∧ after.failure = none ∧
      lexer.cursor.next = (.ok token, after.cursor) := by
  cases step_of_next drawn with
  | token sound step => exact ⟨sound, sound, step⟩

theorem outlook_token (drawn : lexer.next = (.ok token, after)) (proper : token.isEnd = false) :
    lexer.outlook = .after token after.outlook := by
  obtain ⟨sound, soundAfter, step⟩ := next_ok drawn
  simp only [outlook, sound, soundAfter]
  exact Cursor.outlook_token step proper

theorem outlook_end (drawn : lexer.next = (.ok token, after)) (ended : token.isEnd = true) :
    lexer.outlook = ⟨[], .ok token⟩ ∧ after.outlook = ⟨[], .ok token⟩ := by
  obtain ⟨sound, soundAfter, step⟩ := next_ok drawn
  have again := Cursor.next_end lexer.cursor after.cursor token step ended
  simp only [outlook, sound, soundAfter]
  exact ⟨Cursor.outlook_end step ended, Cursor.outlook_end again ended⟩

theorem outlook_error (drawn : lexer.next = (.error error, after)) :
    lexer.outlook = ⟨[], .error error⟩ ∧ after.outlook = ⟨[], .error error⟩ := by
  cases step_of_next drawn with
  | again failed => simp only [outlook, failed, and_self]
  | error sound step =>
      simp only [outlook, sound, and_true]
      exact Cursor.outlook_error step

theorem outlook_length (lexer : Lexer) :
    lexer.outlook.tokens.length ≤ lexer.cursor.rest.length := by
  unfold outlook
  split
  · exact Nat.zero_le _
  · exact Cursor.outlook_length lexer.cursor

theorem drain_outlook (budget : Nat) (lexer : Lexer)
    (enough : lexer.outlook.tokens.length < budget) :
    (drain budget lexer).1 = lexer.outlook.last.map (lexer.outlook.tokens ++ [·]) := by
  induction budget generalizing lexer with
  | zero => omega
  | succ budget ih =>
      cases drawn : lexer.next with
      | mk result after =>
          cases result with
          | error error =>
              simp only [drain, drawn, (outlook_error drawn).1]
              rfl
          | ok token =>
              cases ended : token.isEnd with
              | true =>
                  simp only [drain, drawn, ended, if_true, (outlook_end drawn ended).1]
                  rfl
              | false =>
                  rw [outlook_token drawn ended, Outlook.after, List.length_cons] at enough
                  simp only [drain, drawn, ended, Bool.false_eq_true, if_false,
                    outlook_token drawn ended, Outlook.after]
                  rw [ih after (by omega)]
                  cases after.outlook.last <;> rfl

end Lexer

theorem exists_of_measured {ε α β : Type} {result : Except ε α} {measure : α → β} {b : β}
    (found : result.toOption.map measure = some b) : ∃ a, result = .ok a ∧ measure a = b := by
  cases result with
  | ok a => exact ⟨a, rfl, Option.some.inj found⟩
  | error error => cases found

theorem lex_outlook (text : String) (interner : Interner) :
    (lex text interner).1 =
      (Cursor.ofText text).outlook.last.map ((Cursor.ofText text).outlook.tokens ++ [·]) := by
  have enough := (Lexer.ofText text interner).outlook_length
  exact Lexer.drain_outlook _ (Lexer.ofText text interner) (Nat.lt_succ_of_le enough)

section Results

variable {text : String} {interner : Interner}

theorem lex_accepts_iff {tokens : List Token} : (lex text interner).1 = .ok tokens ↔
    ∃ finish, (Cursor.ofText text).outlook.last = .ok finish ∧
      tokens = (Cursor.ofText text).outlook.tokens ++ [finish] := by
  rw [lex_outlook]
  cases (Cursor.ofText text).outlook.last with
  | error error => simp [Except.map]
  | ok finish => simp [Except.map, eq_comm]

theorem lex_rejects_iff {error : CompileError} : (lex text interner).1 = .error error ↔
    (Cursor.ofText text).outlook.last = .error error := by
  rw [lex_outlook]
  cases (Cursor.ofText text).outlook.last <;> simp [Except.map]

end Results

end McFront
