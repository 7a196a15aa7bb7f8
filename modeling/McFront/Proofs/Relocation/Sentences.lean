import McFront.Proofs.Relocation.Phrases

set_option autoImplicit false

namespace McFront

open Parse

variable {pair : Accord}

abbrev Accord.KeepsStmt (pair : Accord) (phrase : Parse Stmt) : Prop :=
  pair.Keeps (Stmt.Matches pair.view) phrase phrase

abbrev Accord.KeepsDeclaration (pair : Accord) (phrase : Parse Declaration) : Prop :=
  pair.Keeps (Declaration.Matches pair.view) phrase phrase

theorem at_function_keeps : pair.Keeps Eq Grammar.atFunction Grammar.atFunction := by
  refine in_step_bind (sees_keeps _) ?_
  rintro seen _ rfl
  refine in_step_ite (in_step_bind (lookahead_keeps 2) fun _ _ third => ?_) (in_step_pure rfl)
  exact in_step_pure (decide_eq_decide.mpr (third.is (.punctuation .leftParen)))

theorem object_kind_keeps : pair.Keeps Eq Grammar.objectKind Grammar.objectKind := by
  refine in_step_bind peek_keeps fun token token' alike => ?_
  rcases alike.kinds with ⟨_, _, named, named'⟩ | ⟨_, same⟩
  · rw [named, named']
    exact unexpected_keeps _
  rw [same]
  split
  · exact in_step_pure rfl
  · exact in_step_pure rfl
  · refine in_step_bind (lookahead_keeps 2) fun _ _ third => ?_
    unfold Token.display
    simp only [third.is (.punctuation .colon), third.kind_renamed]
    exact in_step_ite (in_step_pure rfl) (reject_keeps nofun .expected third.location)
  · exact unexpected_keeps _

theorem some_expression_keeps (budget : Nat) :
    pair.Keeps (Option.Rel (Expr.Matches pair.view)) (some <$> Grammar.expression budget)
      (some <$> Grammar.expression budget) :=
  in_step_map (expressions_in_step budget).expression fun _ _ alike => .some alike

theorem object_keeps (budget : Nat) : pair.KeepsDeclaration (Grammar.object budget) := by
  refine in_step_bind object_kind_keeps ?_
  rintro kind _ rfl
  refine in_step_bind accept_keeps fun _ _ _ => in_step_bind expect_name_keeps ?_
  intro _ _ alike
  refine in_step_bind (expect_keeps _ _) fun _ _ _ => in_step_bind (type_keeps budget) ?_
  rintro type _ rfl
  refine in_step_bind (takes_keeps _) ?_
  rintro given _ rfl
  have built (initial initial' : Option Expr)
      (value : Option.Rel (Expr.Matches pair.view) initial initial') :=
    in_step_bind (expect_keeps (.punctuation .semicolon) "';' after a declaration") fun _ _ _ =>
      analyze_keeps (Analysis.object_keeps kind type alike value)
  refine in_step_ite ?_ ?_
  · exact in_step_bind (some_expression_keeps budget) built
  · exact in_step_bind (in_step_pure .none) built

theorem condition_keeps (budget : Nat) : pair.KeepsExpr (Grammar.condition budget) := by
  refine in_step_bind (expect_keeps _ _) fun _ _ _ => ?_
  refine in_step_bind (expressions_in_step budget).expression fun _ _ alike => ?_
  exact in_step_bind (expect_keeps _ _) fun _ _ _ => in_step_check alike.requireTruth

theorem jump_keeps {word : String} {jump : Analyzer → Location → Checked Stmt}
    (checks : ∀ {analyzer analyzer' : Analyzer} {place place' : Location},
      analyzer.Matches pair.view analyzer' → pair.view.places.own place place' →
        pair.view.Checks (Stmt.Matches pair.view) (jump analyzer place) (jump analyzer' place')) :
    pair.KeepsStmt (Grammar.jump word jump) := by
  refine in_step_bind accept_keeps fun _ _ token => in_step_bind (expect_keeps _ _) fun _ _ _ => ?_
  exact in_step_bind in_step_get fun _ _ state =>
    in_step_check (checks state.analyzer token.location)

theorem return_keeps (budget : Nat) : pair.KeepsStmt (Grammar.returnStatement budget) := by
  refine in_step_bind accept_keeps fun token token' alike => in_step_bind (sees_keeps _) ?_
  rintro closes _ rfl
  have built (value value' : Option Expr)
      (given : Option.Rel (Expr.Matches pair.view) value value') :=
    in_step_bind (expect_keeps (.punctuation .semicolon) "';' after 'return'") fun _ _ _ =>
      in_step_bind in_step_get fun _ _ state =>
        in_step_check (state.analyzer.returnValue given alike.location)
  refine in_step_ite ?_ ?_
  · exact in_step_bind (in_step_pure .none) built
  · exact in_step_bind (some_expression_keeps budget) built

theorem local_keeps (budget : Nat) : pair.KeepsStmt (Grammar.localDeclaration budget) := by
  refine in_step_bind at_function_keeps ?_
  rintro atFunction _ rfl
  refine in_step_ite ?_ ?_
  · exact in_step_bind peek_keeps fun _ _ token => reject_keeps nofun .same token.location
  · exact in_step_bind (object_keeps budget) fun _ _ alike => in_step_pure (.declare alike)

theorem in_loop_keeps {α β : Type} {related : α → β → Prop} {phrase : Parse α} {phrase' : Parse β}
    (keeps : pair.Keeps related phrase phrase') :
    pair.Keeps related (Grammar.inLoop phrase) (Grammar.inLoop phrase') := by
  refine in_step_bind (in_step_modify (change_together fun _ _ alike => alike.enterLoop)) ?_
  exact fun _ _ _ => releasing_keeps keeps (change_together fun _ _ alike => alike.leaveLoop)

structure StatementsKeep (pair : Accord) (budget : Nat) : Prop where
  statement : pair.KeepsStmt (Grammar.statement budget)
  block : pair.KeepsStmt (Grammar.block budget)
  statements : pair.Keeps (List.Forall₂ (Stmt.Matches pair.view)) (Grammar.statements budget)
    (Grammar.statements budget)

section Step

variable {budget : Nat} (lower : StatementsKeep pair budget)
include lower

theorem statement_keeps : pair.KeepsStmt (Grammar.statement (budget + 1)) := by
  rw [Accord.KeepsStmt, Grammar.statement]
  refine nested_keeps (in_step_bind peek_keeps fun token token' alike => ?_)
  have evaluated : pair.KeepsStmt do
      let expr ← Grammar.expression budget
      let _ ← expect (.punctuation .semicolon) "';' after an expression"
      return .evaluate expr := by
    refine in_step_bind (expressions_in_step budget).expression fun _ _ expr => ?_
    exact in_step_bind (expect_keeps _ _) fun _ _ _ => in_step_pure (.evaluate expr)
  rcases alike.kinds with ⟨_, _, named, named'⟩ | ⟨_, same⟩
  · rw [named, named']
    exact evaluated
  rw [same]
  split
  · exact lower.block
  · refine in_step_bind accept_keeps fun _ _ _ => ?_
    refine in_step_bind (condition_keeps budget) fun _ _ tested => ?_
    refine in_step_bind lower.statement fun _ _ first => in_step_bind (takes_keeps _) ?_
    rintro other _ rfl
    refine in_step_ite ?_ (in_step_pure (.when tested first))
    exact in_step_bind lower.statement fun _ _ second => in_step_pure (.ifElse tested first second)
  · refine in_step_bind accept_keeps fun _ _ _ => ?_
    refine in_step_bind (condition_keeps budget) fun _ _ tested => ?_
    exact in_step_bind (in_loop_keeps lower.statement) fun _ _ body =>
      in_step_pure (.whileLoop tested body)
  · exact jump_keeps fun alike own => alike.inLoop .breakLoop own
  · exact jump_keeps fun alike own => alike.inLoop .continueLoop own
  · exact return_keeps budget
  · exact local_keeps budget
  · exact local_keeps budget
  · exact local_keeps budget
  · exact evaluated

theorem block_keeps : pair.KeepsStmt (Grammar.block (budget + 1)) := by
  rw [Accord.KeepsStmt, Grammar.block]
  refine in_step_bind (expect_keeps _ _) fun _ _ _ => ?_
  refine in_step_bind (in_scope_keeps .block lower.statements) fun _ _ inner => ?_
  exact in_step_bind (expect_keeps _ _) fun _ _ _ => in_step_pure (.block (Stmt.Matches.all inner))

theorem statements_keep :
    pair.Keeps (List.Forall₂ (Stmt.Matches pair.view)) (Grammar.statements (budget + 1))
      (Grammar.statements (budget + 1)) := by
  rw [Grammar.statements]
  refine in_step_bind peek_keeps fun token token' alike => ?_
  simp only [alike.is (.punctuation .rightBrace), alike.isEnd]
  refine in_step_ite (in_step_pure .nil) (in_step_ite (unexpected_keeps _) ?_)
  refine in_step_bind lower.statement fun _ _ first => ?_
  exact in_step_bind lower.statements fun _ _ others => in_step_pure (.cons first others)

end Step

theorem statements_in_step (budget : Nat) : StatementsKeep pair budget := by
  induction budget with
  | zero => constructor <;> exact out_of_budget_keeps
  | succ budget lower =>
      exact {
        statement := statement_keeps lower
        block := block_keeps lower
        statements := statements_keep lower }

abbrev Accord.KeepsDeclarations (pair : Accord) (phrase : Parse (List Declaration)) : Prop :=
  pair.Keeps (List.Forall₂ (Declaration.Matches pair.view)) phrase phrase

theorem parameters_keep (budget : Nat) : pair.KeepsDeclarations (Grammar.parameters budget) := by
  induction budget with
  | zero => exact out_of_budget_keeps
  | succ budget ih =>
      rw [Accord.KeepsDeclarations, Grammar.parameters]
      refine in_step_bind expect_name_keeps ?_
      intro _ _ alike
      refine in_step_bind (expect_keeps _ _) fun _ _ _ => in_step_bind (type_keeps budget) ?_
      rintro type _ rfl
      refine in_step_bind (analyze_keeps (Analysis.parameter_keeps type alike)) ?_
      refine fun _ _ first => in_step_bind (takes_keeps _) ?_
      rintro more _ rfl
      refine in_step_ite ?_ (in_step_pure (.cons first .nil))
      exact in_step_bind ih fun _ _ others => in_step_pure (.cons first others)

theorem parameter_list_keeps (budget : Nat) :
    pair.KeepsDeclarations (Grammar.parameterList budget) := by
  refine in_step_bind (expect_keeps _ _) fun _ _ _ => in_step_bind (sees_keeps _) ?_
  rintro closes _ rfl
  refine in_step_ite ?_ ?_
  · exact in_step_bind (in_step_pure .nil) fun _ _ given =>
      in_step_bind (expect_keeps _ _) fun _ _ _ => in_step_pure given
  · exact in_step_bind (parameters_keep budget) fun _ _ given =>
      in_step_bind (expect_keeps _ _) fun _ _ _ => in_step_pure given

theorem function_body_keeps (budget : Nat) {function function' : Declaration}
    (alike : function.Matches pair.view function') :
    pair.Keeps (Declaration.Matches pair.view) (Grammar.functionBody budget function)
      (Grammar.functionBody budget function') := by
  refine in_step_bind (analyze_keeps (Analysis.begin_function_keeps alike)) fun _ _ _ => ?_
  refine in_step_bind (releasing_keeps (statements_in_step budget).block
    (change_together fun _ _ alike => alike.endFunction)) fun body body' inner => ?_
  rcases alike.define inner with ⟨_, _, defined, defined', same⟩ | ⟨_, _, broken, broken'⟩
  · rw [defined, defined']
    exact in_step_pure same
  · rw [broken, broken']
    exact in_step_breach

theorem function_keeps (budget : Nat) : pair.KeepsDeclaration (Grammar.function budget) := by
  refine in_step_bind (expect_keeps _ _) fun _ _ _ => in_step_bind expect_name_keeps ?_
  intro _ _ alike
  refine in_step_bind (in_scope_keeps .parameters (parameter_list_keeps budget)) ?_
  refine fun _ _ parameters => in_step_bind (expect_keeps _ _) fun _ _ _ => ?_
  refine in_step_bind (type_keeps budget) ?_
  rintro result _ rfl
  refine in_step_bind (analyze_keeps (Analysis.function_keeps result alike parameters)) ?_
  refine fun _ _ function => in_step_bind (takes_keeps _) ?_
  rintro ended _ rfl
  refine in_step_ite (in_step_pure function) (in_step_bind (sees_keeps _) ?_)
  rintro opens _ rfl
  exact in_step_ite (function_body_keeps budget function) (unexpected_keeps _)

theorem declaration_keeps (budget : Nat) : pair.KeepsDeclaration (Grammar.declaration budget) := by
  refine in_step_bind at_function_keeps ?_
  rintro atFunction _ rfl
  exact in_step_ite (function_keeps budget) (object_keeps budget)

theorem declarations_keep (budget : Nat) :
    pair.KeepsDeclarations (Grammar.declarations budget) := by
  induction budget with
  | zero => exact out_of_budget_keeps
  | succ budget ih =>
      rw [Accord.KeepsDeclarations, Grammar.declarations]
      refine in_step_bind peek_keeps fun token token' alike => ?_
      rw [alike.isEnd]
      refine in_step_ite (in_step_pure .nil) ?_
      refine in_step_bind (declaration_keeps budget) fun _ _ first => ?_
      exact in_step_bind ih fun _ _ others => in_step_pure (.cons first others)

theorem program_keeps (budget : Nat) : pair.KeepsDeclaration (Grammar.program budget) :=
  in_step_bind (in_scope_keeps .outermost (declarations_keep budget)) fun _ _ inner =>
    in_step_pure (.program inner)

end McFront
