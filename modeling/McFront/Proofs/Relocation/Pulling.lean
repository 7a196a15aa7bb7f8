import McFront.Proofs.Lexing.Complaints
import McFront.Proofs.Lexing.Drawing
import McFront.Proofs.Relocation.CompileInStep

set_option autoImplicit false

namespace McFront

def Outlook.scanned (outlook : Outlook) : List Token :=
  outlook.tokens ++ outlook.last.toOption.toList

structure Lexer.Pulled (start lexer : Lexer) (pending : List Token) : Prop where
  tokens : lexer.outlook.tokens <:+ start.outlook.tokens
  last : lexer.outlook.last = start.outlook.last
  names : lexer.names = start.names
  ended : ∀ token ∈ pending, token.isEnd = true → lexer.outlook.tokens = []

namespace Lexer

variable {start lexer : Lexer} {pending : List Token} {token : Token}

theorem outlook_proper (lexer : Lexer) : ∀ token ∈ lexer.outlook.tokens, token.isEnd = false := by
  unfold outlook
  split
  · nofun
  · exact lexer.cursor.outlook_proper

theorem Pulled.refl (start : Lexer) : start.Pulled start [] :=
  ⟨List.suffix_rfl, rfl, rfl, nofun⟩

theorem Pulled.next (pulled : start.Pulled lexer pending) (drawn : lexer.next.1 = .ok token) :
    start.Pulled lexer.next.2 (pending ++ [token]) := by
  obtain ⟨head, tail⟩ := lexer.next_outlook
  rw [drawn] at head
  have shorter : lexer.next.2.outlook.tokens <:+ lexer.outlook.tokens := by
    rw [tail]
    exact List.tail_suffix _
  refine ⟨shorter.trans pulled.tokens, ?_, lexer.next_names.trans pulled.names, ?_⟩
  · rw [tail]
    exact pulled.last
  · have done : lexer.outlook.tokens = [] → lexer.next.2.outlook.tokens = [] := by
      intro none
      rw [none] at shorter
      exact List.suffix_nil.mp shorter
    intro other member ended
    rcases List.mem_append.mp member with member | member
    · exact done (pulled.ended other member ended)
    · obtain rfl := List.mem_singleton.mp member
      apply done
      have proper := lexer.outlook_proper
      unfold Outlook.head at head
      cases ahead : lexer.outlook.tokens with
      | nil => rfl
      | cons first others =>
          rw [ahead] at head proper
          cases head
          simp [ended] at proper

theorem Pulled.scanned (pulled : start.Pulled lexer pending) (drawn : lexer.next.1 = .ok token) :
    token ∈ start.outlook.scanned := by
  rw [lexer.next_outlook.1] at drawn
  unfold Outlook.head at drawn
  unfold Outlook.scanned
  split at drawn
  · rw [← pulled.last, drawn]
    simp [Except.toOption]
  · rename_i ahead
    cases drawn
    have member := pulled.tokens.mem (by rw [ahead]; exact List.mem_cons_self)
    exact List.mem_append_left _ member

theorem Pulled.failed {error : CompileError} (pulled : start.Pulled lexer pending)
    (drawn : lexer.next.1 = .error error) : start.outlook.last = .error error := by
  rw [lexer.next_outlook.1] at drawn
  unfold Outlook.head at drawn
  split at drawn
  · rw [← pulled.last, drawn]
  · cases drawn

end Lexer

-- A stream and itself. The places that are seen are those of scanned tokens.
def Pairing.itself (start : Lexer) : Pairing where
  places := .both fun a b => a = b ∧ ∃ token ∈ start.outlook.scanned, a = token.location
  failed := fun e e' => e = e' ∧ start.outlook.last = .error e
  streams := fun lexer pending lexer' pending' =>
    (lexer = lexer' ∧ pending = pending') ∧ start.Pulled lexer pending
  draws := by
    rintro lexer _ pending _ ⟨⟨rfl, rfl⟩, pulled⟩
    rw [← Prod.eta lexer.next]
    cases drawn : lexer.next.1 with
    | ok token =>
        have scanned := pulled.scanned drawn
        exact .token ⟨rfl, rfl, token, scanned, rfl⟩ ⟨⟨rfl, rfl⟩, pulled.next drawn⟩
    | error error => exact .error ⟨rfl, pulled.failed drawn⟩
  takes := by
    rintro lexer _ token _ pending _ ⟨⟨rfl, same⟩, pulled⟩
    cases same
    refine ⟨⟨rfl, rfl⟩, pulled.tokens, pulled.last, pulled.names, ?_⟩
    exact fun other member => pulled.ended other (List.mem_cons_of_mem _ member)

variable {text : String} {interner : Interner} {program : Declaration} {error : CompileError}

theorem compile_settles (text : String) (interner : Interner) :
    (Pairing.itself (Lexer.ofText text interner)).Settles (compile text interner).1
      (compile text interner).1 :=
  compile_in_step ⟨⟨rfl, rfl⟩, .refl _⟩ rfl

theorem compile_names (accepted : (compile text interner).1 = .ok program) :
    (compile text interner).2 = (lex text interner).2 := by
  rw [lex_names]
  have compiled := compiled text interner
  rw [accepted] at compiled
  generalize (compile text interner).2 = names at compiled
  cases compiled with
  | @read parser after _ _ made ran =>
      have ensured := program_ensures made (Parser.of_text_stands made).budget_enough
      have together := @program_in_step (Pairing.itself (Lexer.ofText text interner)).accord
        text text interner interner parser parser ⟨⟨rfl, rfl⟩, .refl _⟩ rfl
        (congrArg Prod.fst made) (congrArg Prod.fst made)
      rw [ran] at together
      cases together with
      | ok _ left =>
          obtain ⟨_, pulled⟩ := left.streams
          obtain ⟨_, analyzer, stands⟩ := ensures_result ensured ran
          obtain ⟨token, pending, current, shows, _⟩ := stands.shows
          cases shows with
          | finish _ ended _ =>
              have done := pulled.ended token (by simp [current]) ended
              rw [← pulled.names, Lexer.names_of_done done]

theorem compile_fails (rejected : (compile text interner).1 = .error (.error error)) :
    (error.kind = .lexical ∧ (Cursor.ofText text).outlook.last = .error error) ∨
      (error.kind ≠ .lexical ∧
        ∃ token ∈ (Cursor.ofText text).outlook.scanned, error.location = token.location) := by
  have settles := compile_settles text interner
  rw [rejected] at settles
  generalize rejection : (Except.error (Fault.error error) : Except Fault Declaration) = outcome
    at settles
  cases settles with
  | ok _ => cases rejection
  | failed fails =>
      cases rejection
      exact .inl ⟨Cursor.outlook_lexical _ _ fails.2, fails.2⟩
  | blamed blames =>
      cases rejection
      cases blames with
      | raise proper place => exact .inr ⟨proper, place.2⟩

theorem scanned_before {token : Token} (member : token ∈ (Cursor.ofText text).outlook.scanned)
    (failed : (lex text interner).1 = .error error) : token.location.Before error.location := by
  have last := lex_rejects_iff.mp failed
  have member : token ∈ (Cursor.ofText text).outlook.tokens := by
    simpa [Outlook.scanned, last, Except.toOption] using member
  exact ((Cursor.ofText text).outlook_failure error last).2 token member

theorem pulling_agrees_with_lexing (text : String) (interner : Interner) :
    (∀ program, (compile text interner).1 = .ok program →
      (∃ tokens, (lex text interner).1 = .ok tokens) ∧
        (compile text interner).2 = (lex text interner).2) ∧
    (∀ error, (compile text interner).1 = .error (.error error) → error.kind = .lexical →
      (lex text interner).1 = .error error) ∧
    (∀ error, (compile text interner).1 = .error (.error error) → error.kind ≠ .lexical →
      (∃ token ∈ (Cursor.ofText text).outlook.scanned, error.location = token.location) ∧
        ∀ failure, (lex text interner).1 = .error failure →
          error.location.Before failure.location) := by
  refine ⟨?_, ?_, ?_⟩
  · intro program accepted
    obtain ⟨token, isLast, _⟩ := compile_reads accepted
    exact ⟨⟨_, lex_accepts_iff.mpr ⟨token, isLast, rfl⟩⟩, compile_names accepted⟩
  · intro error rejected lexical
    rcases compile_fails rejected with ⟨_, failed⟩ | ⟨proper, _⟩
    · exact lex_rejects_iff.mpr failed
    · exact absurd lexical proper
  · intro error rejected proper
    rcases compile_fails rejected with ⟨lexical, _⟩ | ⟨_, token, member, place⟩
    · exact absurd lexical proper
    · refine ⟨⟨token, member, place⟩, ?_⟩
      intro failure failed
      rw [place]
      exact scanned_before member failed

-- A name that is missing wins over a character that is wrong behind it, but not over one that is
-- drawn with the token before.
theorem pulling_agrees_on_faulty_texts :
    (∃ program, (compile "var x: int;" .empty).1 = .ok program ∧
      (compile "var x: int;" .empty).2 = (lex "var x: int;" .empty).2) ∧
    (∃ error, (compile "var x $ int;" .empty).1 = .error (.error error) ∧ error.kind = .lexical ∧
      (lex "var x $ int;" .empty).1 = .error error) ∧
    (∃ error failure, (compile "var x int $;" .empty).1 = .error (.error error) ∧
      error.kind = .structural ∧ (lex "var x int $;" .empty).1 = .error failure ∧
        error.location.Before failure.location) := by
  refine ⟨?_, ?_, ?_⟩
  · obtain ⟨program, accepted, _⟩ := exists_of_measured
      (show (compile "var x: int;" .empty).1.toOption.map (fun _ => ()) = some () by
        decide +kernel)
    exact ⟨program, accepted, ((pulling_agrees_with_lexing _ _).1 program accepted).2⟩
  · obtain ⟨error, rejected, lexical⟩ := rejected_of_measured
      (show (rejection? (compile "var x $ int;" .empty).1).map CompileError.kind = some .lexical by
        decide +kernel)
    exact ⟨error, rejected, lexical, (pulling_agrees_with_lexing _ _).2.1 error rejected lexical⟩
  · obtain ⟨error, rejected, structural⟩ := rejected_of_measured
      (show (rejection? (compile "var x int $;" .empty).1).map CompileError.kind =
        some .structural by decide +kernel)
    have proper : error.kind ≠ .lexical := by
      rw [structural]
      nofun
    have agrees := (pulling_agrees_with_lexing _ _).2.2 error rejected proper
    cases scanned : (lex "var x int $;" .empty).1 with
    | ok tokens =>
        have faulty : (lex "var x int $;" .empty).1.toOption.isNone = true := by decide +kernel
        rw [scanned] at faulty
        cases faulty
    | error failure => exact ⟨error, failure, rejected, structural, rfl, agrees.2 failure scanned⟩

end McFront
