import McFront.Compile
import McFront.Proofs.Parsing.Budget
import McFront.Proofs.Parsing.DeclarationRun

set_option autoImplicit false

namespace McFront

open McFront.Parser

variable {text : String} {interner names : Interner} {parser : Parser} {program : Declaration}

def rejection? {α : Type} : Except Fault α → Option CompileError
  | .error (.error error) => some error
  | _ => none

theorem rejected_of_measured {α β : Type} {result : Except Fault α} {measure : CompileError → β}
    {b : β} (found : (rejection? result).map measure = some b) :
    ∃ error, result = .error (.error error) ∧ measure error = b := by
  unfold rejection? at found
  split at found
  · exact ⟨_, rfl, Option.some.inj found⟩
  · cases found

namespace Parser

inductive Made (text : String) (interner : Interner) : Checked Parser → Interner → Prop where
  | parser {token : Token} {lexer : Lexer}
      (drawn : (Lexer.ofText text interner).next = (.ok token, lexer)) :
      Made text interner (.ok ⟨lexer, [token], .initial, 0⟩) lexer.interner
  | error {error : CompileError} {lexer : Lexer}
      (drawn : (Lexer.ofText text interner).next = (.error error, lexer)) :
      Made text interner (.error error) lexer.interner

theorem made_of_text {result : Checked Parser}
    (made : Parser.ofText text interner = (result, names)) : Made text interner result names := by
  unfold ofText at made
  cases drawn : (Lexer.ofText text interner).next with
  | mk result lexer =>
      rw [drawn] at made
      cases result with
      | ok token =>
          cases made
          exact .parser drawn
      | error error =>
          cases made
          exact .error drawn

theorem of_text_stands (made : Parser.ofText text interner = (.ok parser, names)) :
    parser.Stands .initial 0 (Cursor.ofText text).outlook := by
  cases made_of_text made with
  | parser drawn => exact ⟨by simp, rfl, rfl, outlook_from_draw drawn []⟩

theorem of_text_rejects {error : CompileError}
    (made : Parser.ofText text interner = (.error error, names)) :
    (Cursor.ofText text).outlook.last = .error error := by
  cases made_of_text made with
  | error drawn => exact congrArg Outlook.last (Lexer.outlook_error drawn).1

theorem of_text_made {finish : Token} (interner : Interner)
    (lexes : (Cursor.ofText text).outlook.last = .ok finish) :
    ∃ parser names, Parser.ofText text interner = (.ok parser, names) := by
  cases made : Parser.ofText text interner with
  | mk result names =>
      cases result with
      | ok parser => exact ⟨parser, names, rfl⟩
      | error error => cases (of_text_rejects made).symm.trans lexes

theorem outlook_from_length (lexer : Lexer) (pending : List Token) :
    (outlookFrom lexer pending).tokens.length ≤ lexer.cursor.rest.length + pending.length := by
  induction pending with
  | nil => exact lexer.outlook_length
  | cons token pending ih =>
      unfold outlookFrom
      split
      · exact Nat.zero_le _
      · rw [Outlook.after, List.length_cons, List.length_cons]
        omega

theorem Stands.budget_enough {analyzer : Analyzer} {depth : Nat} {outlook : Outlook}
    (stands : parser.Stands analyzer depth outlook) :
    8 * (outlook.tokens.length + 1) ≤ parser.budget := by
  have within := outlook_from_length parser.lexer parser.pending
  rw [stands.outlook] at within
  unfold budget
  omega

end Parser

theorem program_ensures {budget : Nat}
    (made : Parser.ofText text interner = (.ok parser, names))
    (enough : 8 * ((Cursor.ofText text).outlook.tokens.length + 1) ≤ budget) :
    Ensures (Grammar.program budget) parser fun program after =>
      (∃ token, (Cursor.ofText text).outlook.last = .ok token ∧
        ProgramReading program (Cursor.ofText text).outlook.tokens) ∧
          ∃ analyzer, after.Stands analyzer 0 ⟨[], (Cursor.ofText text).outlook.last⟩ :=
  program_meets (by omega) (of_text_stands made)

inductive Compiled (text : String) (interner : Interner) :
    Except Fault Declaration → Interner → Prop where
  | unmade {error : CompileError} {names : Interner}
      (made : Parser.ofText text interner = (.error error, names)) :
      Compiled text interner (.error (.error error)) names
  | read {parser after : Parser} {names : Interner} {program : Declaration}
      (made : Parser.ofText text interner = (.ok parser, names))
      (ran : parser.program = .ok program after) :
      Compiled text interner (.ok program) after.lexer.interner
  | failed {parser after : Parser} {names : Interner} {error : CompileError}
      (made : Parser.ofText text interner = (.ok parser, names))
      (ran : parser.program = .error (.error error) after) :
      Compiled text interner (.error (.error error)) after.lexer.interner

theorem compiled (text : String) (interner : Interner) :
    Compiled text interner (compile text interner).1 (compile text interner).2 := by
  unfold compile
  cases made : Parser.ofText text interner with
  | mk result names =>
      cases result with
      | error error => exact .unmade made
      | ok parser =>
          have ensured := program_ensures made (of_text_stands made).budget_enough
          rcases ensures_total ensured with ⟨program, after, ran⟩ | ⟨error, after, ran⟩
          · have ended : parser.program = .ok program after := ran
            simp only [ended]
            exact .read made ended
          · have ended : parser.program = .error (.error error) after := ran
            simp only [ended]
            exact .failed made ended

theorem compile_ends (text : String) (interner : Interner) :
    (∃ program, (compile text interner).1 = .ok program) ∨
      ∃ error, (compile text interner).1 = .error (.error error) := by
  have compiled := compiled text interner
  generalize (compile text interner).1 = outcome, (compile text interner).2 = names at compiled
  cases compiled with
  | unmade | failed => exact .inr ⟨_, rfl⟩
  | read => exact .inl ⟨_, rfl⟩

theorem compile_reads (accepted : (compile text interner).1 = .ok program) :
    ∃ token, (Cursor.ofText text).outlook.last = .ok token ∧
      ProgramReading program (Cursor.ofText text).outlook.tokens := by
  have compiled := compiled text interner
  rw [accepted] at compiled
  generalize (compile text interner).2 = names at compiled
  cases compiled with
  | read made ran =>
      have ensured := program_ensures made (of_text_stands made).budget_enough
      exact (ensures_result ensured ran).1

theorem program_settles {budget : Nat}
    (made : Parser.ofText text interner = (.ok parser, names))
    (enough : 8 * ((Cursor.ofText text).outlook.tokens.length + 1) ≤ budget) :
    Grammar.program budget parser = parser.program := by
  have least := program_ensures made (Nat.le_refl _)
  have settles : ∀ greater, 8 * ((Cursor.ofText text).outlook.tokens.length + 1) ≤ greater →
      Grammar.program (8 * ((Cursor.ofText text).outlook.tokens.length + 1)) parser =
        Grammar.program greater parser := by
    intro greater atMost
    rcases program_extends atMost parser with ⟨after, failed⟩ | same
    · unfold Ensures at least
      simp only [failed] at least
    · exact same
  exact (settles budget enough).symm.trans (settles _ (of_text_stands made).budget_enough)

end McFront
