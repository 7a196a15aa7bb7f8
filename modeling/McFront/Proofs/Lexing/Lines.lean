import McFront.Proofs.Lexing.Continuation

set_option autoImplicit false

namespace McFront

namespace Location

def down (lines : Nat) (place : Location) : Location := ⟨place.line + lines, place.column⟩

theorem down_after (lines : Nat) (place : Location) (c : Char) :
    (place.down lines).after c = (place.after c).down lines := by
  by_cases feed : c = '\n'
  · simp only [after, if_pos feed, down, Nat.add_right_comm]
  · simp only [after, if_neg feed, down]

theorem down_past (lines : Nat) (place : Location) (passed : List Char) :
    (place.down lines).past passed = (place.past passed).down lines := by
  induction passed generalizing place with
  | nil => rfl
  | cons c passed ih => rw [past_cons, past_cons, down_after, ih]

theorem past_feed (passed : List Char) :
    first.past (passed ++ ['\n']) = first.down (1 + passed.count '\n') := by
  have column : (first.past (passed ++ ['\n'])).column = 1 := by rw [past_append]; rfl
  have line : (first.past (passed ++ ['\n'])).line = 1 + (1 + passed.count '\n') := by
    rw [past_line, List.count_append, List.count_singleton_self, Nat.add_comm 1 (passed.count '\n')]
    rfl
  calc
    first.past (passed ++ ['\n'])
        = ⟨(first.past (passed ++ ['\n'])).line, (first.past (passed ++ ['\n'])).column⟩ := rfl
    _ = first.down (1 + passed.count '\n') := by rw [line, column]; rfl

end Location

def Token.down (lines : Nat) (token : Token) : Token :=
  { token with location := token.location.down lines }

def CompileError.down (lines : Nat) (error : CompileError) : CompileError :=
  { error with location := error.location.down lines }

namespace Checked

def down {α : Type} (lines : Nat) (lower : α → α) : Checked α → Checked α
  | .ok found => .ok (lower found)
  | .error error => .error (error.down lines)

end Checked

namespace Cursor

def down (lines : Nat) (cursor : Cursor) : Cursor := ⟨cursor.rest, cursor.location.down lines⟩

theorem next_down (lines : Nat) (cursor : Cursor) :
    (cursor.down lines).next =
      (Checked.down lines (Token.down lines) cursor.next.1, cursor.next.2.down lines) := by
  simp only [next, down, Location.down_past]
  cases Lexeme.head (Lexeme.gap false cursor.rest).2 with
  | absent => rfl
  | token kind spelling rest => rfl
  | fault complaint lead read rest => rfl

theorem outlook_down (lines : Nat) (cursor : Cursor) :
    (cursor.down lines).outlook =
      ⟨cursor.outlook.tokens.map (Token.down lines),
        Checked.down lines (Token.down lines) cursor.outlook.last⟩ := by
  have lowered := cursor.next_down lines
  induction cursor using outlook.induct with
  | case1 cursor token after drawn proper ih =>
      rw [drawn] at lowered
      rw [outlook_token lowered proper, ih (after.next_down lines), outlook_token drawn proper]
      rfl
  | case2 cursor token after drawn ended =>
      have ended : token.isEnd = true := by simpa using ended
      rw [drawn] at lowered
      rw [outlook_end lowered ended, outlook_end drawn ended]
      rfl
  | case3 cursor error after drawn =>
      rw [drawn] at lowered
      rw [outlook_error lowered, outlook_error drawn]
      rfl

theorem line_after_down (first second : String) :
    (ofText first).lineAfter second.toList =
      (ofText second).down (1 + first.toList.count '\n') := by
  simp only [lineAfter, ofText, down, Location.past_feed]

end Cursor

theorem lex_lines (first second : String) (names others further : Interner) (tokens : List Token)
    (accepted : (lex first names).1 = .ok tokens) :
    ∃ front finish, tokens = front ++ [finish] ∧ finish.kind = .endOfInput ∧
      (∀ token ∈ front, token.kind ≠ .endOfInput) ∧
      (lex (first ++ "\n" ++ second) others).1 =
        (Checked.down (1 + first.toList.count '\n')
          (List.map (Token.down (1 + first.toList.count '\n'))) (lex second further).1).map
          (front ++ ·) := by
  obtain ⟨finish, ended, rfl⟩ := lex_accepts_iff.mp accepted
  refine ⟨_, finish, rfl, Cursor.outlook_finish ended, ?_, ?_⟩
  · intro token member isEnd
    have proper := Cursor.outlook_proper _ token member
    rw [(Token.is_end_iff token).mpr isEnd] at proper
    cases proper
  · rw [lex_outlook, lex_outlook, Cursor.outlook_of_lines second ended, Cursor.line_after_down,
      Cursor.outlook_down]
    cases (Cursor.ofText second).outlook.last with
    | error error => rfl
    | ok last => simp [Checked.down, Except.map]

theorem comment_then_lines :
    ∃ tokens front finish, (lex "a # b" .empty).1 = .ok tokens ∧ tokens = front ++ [finish] ∧
      (lex "a # b\n'c'" .empty).1 =
        (Checked.down 1 (List.map (Token.down 1)) (lex "'c'" .empty).1).map (front ++ ·) ∧
      ∃ error, (lex "\n$" .empty).1 = .error error ∧ error.location = ⟨2, 1⟩ ∧
        (lex "a # b\n\n$" .empty).1 = .error (error.down 1) := by
  obtain ⟨tokens, accepted, _⟩ := exists_of_measured (show
    (lex "a # b" .empty).1.toOption.map List.length = some 2 by decide +kernel)
  obtain ⟨front, finish, split, _, _, accepts⟩ :=
    lex_lines "a # b" "'c'" .empty .empty .empty tokens accepted
  obtain ⟨_, _, _, _, _, rejects⟩ :=
    lex_lines "a # b" "\n$" .empty .empty .empty tokens accepted
  have faulty : (lex "\n$" .empty).1 =
      .error ((Complaint.unexpectedCharacter '$').raise ⟨2, 1⟩) := by rfl
  have joined : "a # b" ++ "\n" ++ "'c'" = "a # b\n'c'" := rfl
  have spaced : "a # b" ++ "\n" ++ "\n$" = "a # b\n\n$" := rfl
  have lines : 1 + "a # b".toList.count '\n' = 1 := rfl
  rw [joined, lines] at accepts
  rw [spaced, lines, faulty] at rejects
  exact ⟨tokens, front, finish, accepted, split, accepts, _, faulty, rfl, rejects⟩

end McFront
