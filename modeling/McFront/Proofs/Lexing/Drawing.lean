import McFront.Proofs.Lexing.Outlook

set_option autoImplicit false

namespace McFront

namespace Outlook

def head (outlook : Outlook) : Checked Token :=
  match outlook.tokens with
  | [] => outlook.last
  | token :: _ => .ok token

def tail (outlook : Outlook) : Outlook := ⟨outlook.tokens.tail, outlook.last⟩

end Outlook

theorem Interner.insert_all_append (table : Interner) (first second : List String) :
    table.insertAll (first ++ second) = (table.insertAll first).insertAll second := by
  simp only [insertAll, List.foldl_append]

namespace Cursor

theorem next_ok {cursor after : Cursor} {token : Token} (drawn : cursor.next = (.ok token, after)) :
    cursor.location.NotAfter token.location := by
  cases step_of_next drawn <;> exact Location.not_after_past _ _

theorem next_error {cursor after : Cursor} {error : CompileError}
    (drawn : cursor.next = (.error error, after)) : cursor.location.NotAfter error.location := by
  cases step_of_next drawn
  exact Location.not_after_trans _ _ _ (Location.not_after_past _ _) (Location.not_after_past _ _)

theorem outlook_failure (cursor : Cursor) (error : CompileError)
    (failed : cursor.outlook.last = .error error) :
    cursor.location.NotAfter error.location ∧
      ∀ token ∈ cursor.outlook.tokens, token.location.Before error.location := by
  induction cursor using outlook.induct with
  | case1 cursor token after drawn proper ih =>
      obtain ⟨passed, spelling, _, filled, place, placeAfter⟩ :=
        next_token cursor after token drawn proper
      rw [outlook_token drawn proper] at failed ⊢
      obtain ⟨behind, later⟩ := ih failed
      have start : cursor.location.NotAfter token.location := by
        rw [place]
        exact Location.not_after_past _ passed
      have here : token.location.Before error.location := by
        refine Location.before_not_after _ _ _ ?_ behind
        rw [placeAfter]
        exact Location.before_past _ spelling filled
      have further := Location.not_after_trans _ _ _ start (.inr here)
      exact ⟨further, List.forall_mem_cons.mpr ⟨here, later⟩⟩
  | case2 cursor token after drawn ended =>
      rw [outlook_end drawn (by simpa using ended)] at failed
      cases failed
  | case3 cursor other after drawn =>
      rw [outlook_error drawn] at failed ⊢
      cases failed
      exact ⟨next_error drawn, List.forall_mem_nil _⟩

end Cursor

namespace Lexer

variable {lexer after : Lexer} {token : Token} {error : CompileError}

theorem next_outlook (lexer : Lexer) :
    lexer.next.1 = lexer.outlook.head ∧ lexer.next.2.outlook = lexer.outlook.tail := by
  cases drawn : lexer.next with
  | mk result after =>
      cases result with
      | error error =>
          obtain ⟨before, behind⟩ := outlook_error drawn
          rw [before, behind]
          exact ⟨rfl, rfl⟩
      | ok token =>
          cases ended : token.isEnd with
          | true =>
              obtain ⟨before, behind⟩ := outlook_end drawn ended
              rw [before, behind]
              exact ⟨rfl, rfl⟩
          | false =>
              rw [outlook_token drawn ended]
              exact ⟨rfl, rfl⟩

def names (lexer : Lexer) : Interner :=
  lexer.interner.insertAll (lexer.outlook.tokens.filterMap fun token => token.kind.symbol?)

theorem next_interner (drawn : lexer.next = (.ok token, after)) :
    after.interner = lexer.interner.insertAll token.kind.symbol?.toList := by
  cases step_of_next drawn
  rfl

theorem failed_interner (drawn : lexer.next = (.error error, after)) :
    after.interner = lexer.interner := by
  cases step_of_next drawn <;> rfl

theorem names_of_done (done : lexer.outlook.tokens = []) : lexer.names = lexer.interner := by
  rw [names, done]
  rfl

theorem next_names (lexer : Lexer) : lexer.next.2.names = lexer.names := by
  cases drawn : lexer.next with
  | mk result after =>
      cases result with
      | error error =>
          obtain ⟨before, behind⟩ := outlook_error drawn
          rw [names_of_done (congrArg Outlook.tokens before),
            names_of_done (congrArg Outlook.tokens behind), failed_interner drawn]
      | ok token =>
          have grown := next_interner drawn
          cases ended : token.isEnd with
          | true =>
              obtain ⟨before, behind⟩ := outlook_end drawn ended
              rw [names_of_done (congrArg Outlook.tokens before),
                names_of_done (congrArg Outlook.tokens behind), grown,
                (Token.is_end_iff token).mp ended]
              rfl
          | false =>
              rw [names, names, grown, outlook_token drawn ended, ← Interner.insert_all_append]
              congr 1
              rw [Outlook.after, List.filterMap_cons]
              cases token.kind.symbol? <;> rfl

theorem drain_names (budget : Nat) (lexer : Lexer)
    (enough : lexer.outlook.tokens.length < budget) :
    (drain budget lexer).2.interner = lexer.names := by
  induction budget generalizing lexer with
  | zero => omega
  | succ budget ih =>
      have kept := next_names lexer
      cases drawn : lexer.next with
      | mk result after =>
          rw [drawn] at kept
          cases result with
          | error error =>
              simp only [drain, drawn]
              rw [← names_of_done (congrArg Outlook.tokens (outlook_error drawn).2)]
              exact kept
          | ok token =>
              cases ended : token.isEnd with
              | true =>
                  simp only [drain, drawn, ended, if_true]
                  rw [← names_of_done (congrArg Outlook.tokens (outlook_end drawn ended).2)]
                  exact kept
              | false =>
                  rw [outlook_token drawn ended, Outlook.after, List.length_cons] at enough
                  simp only [drain, drawn, ended, Bool.false_eq_true, if_false]
                  rw [ih after (by omega)]
                  exact kept

end Lexer

theorem lex_names (text : String) (interner : Interner) :
    (lex text interner).2 = (Lexer.ofText text interner).names :=
  Lexer.drain_names _ _ (Nat.lt_succ_of_le (Lexer.ofText text interner).outlook_length)

end McFront
