import McFront.Proofs.Parsing.CompileRun
import McFront.Proofs.Relocation.Sentences

set_option autoImplicit false

namespace McFront

variable {pair : Accord} {first second : String} {names others : Interner}

inductive Pairing.Settles (pair : Pairing) :
    Except Fault Declaration → Except Fault Declaration → Prop where
  | ok {program program' : Declaration} (alike : program.Alike pair.places program') :
      Settles pair (.ok program) (.ok program')
  | blamed {e e' : CompileError} (blames : pair.places.Blames e e') :
      Settles pair (.error (.error e)) (.error (.error e'))
  | failed {e e' : CompileError} (fails : pair.failed e e') :
      Settles pair (.error (.error e)) (.error (.error e'))

inductive Accord.Settles (pair : Accord) :
    Except Fault Declaration → Except Fault Declaration → Prop where
  | ok {program program' : Declaration} (alike : program.Matches pair.view program') :
      Settles pair (.ok program) (.ok program')
  | blamed {e e' : CompileError} (blames : pair.view.Blames e e') :
      Settles pair (.error (.error e)) (.error (.error e'))
  | failed {e e' : CompileError} (fails : pair.failed e e') :
      Settles pair (.error (.error e)) (.error (.error e'))

theorem of_text_together {parser parser' : Parser}
    (streams : pair.streams (Lexer.ofText first names) [] (Lexer.ofText second others) [])
    (made : (Parser.ofText first names).1 = .ok parser)
    (made' : (Parser.ofText second others).1 = .ok parser') : pair.Together parser parser' := by
  have draws := pair.draws streams
  obtain ⟨_, whole⟩ : ∃ left, Parser.ofText first names = (.ok parser, left) :=
    ⟨_, Prod.ext made rfl⟩
  obtain ⟨_, whole'⟩ : ∃ left, Parser.ofText second others = (.ok parser', left) :=
    ⟨_, Prod.ext made' rfl⟩
  cases Parser.made_of_text whole with
  | parser drawn =>
      cases Parser.made_of_text whole' with
      | parser drawn' =>
          rw [drawn, drawn'] at draws
          cases draws with
          | token alike behind => exact ⟨behind, .cons alike .nil, .initial, rfl⟩

theorem program_in_step {parser parser' : Parser}
    (streams : pair.streams (Lexer.ofText first names) [] (Lexer.ofText second others) [])
    (alike : (Cursor.ofText first).outlook.tokens.length =
      (Cursor.ofText second).outlook.tokens.length)
    (made : (Parser.ofText first names).1 = .ok parser)
    (made' : (Parser.ofText second others).1 = .ok parser') :
    pair.Ends pair.Together (Declaration.Matches pair.view) parser.program parser'.program := by
  rw [← program_settles (Prod.ext made rfl) (Nat.le_refl _),
    ← program_settles (Prod.ext made' rfl) (Nat.le_refl _), alike]
  exact program_keeps _ parser parser' (of_text_together streams made made')

theorem compile_in_accord
    (streams : pair.streams (Lexer.ofText first names) [] (Lexer.ofText second others) [])
    (alike : (Cursor.ofText first).outlook.tokens.length =
      (Cursor.ofText second).outlook.tokens.length) :
    pair.Settles (compile first names).1 (compile second others).1 := by
  have total := compile_ends first names
  have draws := pair.draws streams
  have settled := @program_in_step pair first second names others
  unfold compile at total ⊢
  unfold Parser.ofText at total settled ⊢
  cases drawn : (Lexer.ofText first names).next
  cases drawn' : (Lexer.ofText second others).next
  rw [drawn, drawn'] at draws settled
  rw [drawn] at total
  cases draws with
  | error fails => exact .failed fails
  | token same behind =>
      have ends := settled streams alike rfl rfl
      simp only at total ⊢
      generalize Parser.program _ = run at total ends ⊢
      generalize Parser.program _ = run' at ends ⊢
      cases ends with
      | ok alike _ => exact .ok alike
      | blamed blames => exact .blamed blames
      | failed fails => exact .failed fails
      | breach => simp at total

theorem compile_in_step {pair : Pairing}
    (streams : pair.streams (Lexer.ofText first names) [] (Lexer.ofText second others) [])
    (alike : (Cursor.ofText first).outlook.tokens.length =
      (Cursor.ofText second).outlook.tokens.length) :
    pair.Settles (compile first names).1 (compile second others).1 := by
  have settles : pair.accord.Settles _ _ := compile_in_accord streams alike
  generalize (compile first names).1 = outcome, (compile second others).1 = outcome' at settles ⊢
  cases settles with
  | @ok program program' alike =>
      have plain : (program.renamed id).Alike pair.places program' := alike.alike
      rw [program.renamed_id] at plain
      exact .ok plain
  | blamed blames =>
      cases blames with
      | raise proper same place =>
          rw [same.same_of_id] at proper ⊢
          exact .blamed (.raise proper place)
  | failed fails => exact .failed fails

end McFront
