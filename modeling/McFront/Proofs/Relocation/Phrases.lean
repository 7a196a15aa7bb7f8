import McFront.Grammar.Declarations
import McFront.Proofs.Relocation.Steps

set_option autoImplicit false

namespace McFront

open Parse

variable {pair : Accord}

theorem in_scope_keeps (kind : ScopeKind) {α β : Type} {related : α → β → Prop} {phrase : Parse α}
    {phrase' : Parse β} (keeps : pair.Keeps related phrase phrase') :
    pair.Keeps related (inScope kind phrase) (inScope kind phrase') := by
  refine releasing_keeps ?_ (change_together fun _ _ alike => alike.leaveScope)
  exact in_step_bind (analyze_keeps (Analysis.enter_keeps kind)) fun _ _ _ => keeps

namespace Token.Matches

variable {view : View} {token token' : Token}

theorem binaryOperation (alike : token.Matches view token') (least : Nat) :
    Grammar.binaryOperation? least token = Grammar.binaryOperation? least token' := by
  unfold Grammar.binaryOperation?
  rcases alike.kinds with ⟨_, _, named, named'⟩ | ⟨_, same⟩
  · rw [named, named']
  · rw [same]

theorem unaryOperation (alike : token.Matches view token') :
    Grammar.unaryOperation? token = Grammar.unaryOperation? token' := by
  unfold Grammar.unaryOperation?
  rcases alike.kinds with ⟨_, _, named, named'⟩ | ⟨_, same⟩
  · rw [named, named']
  · rw [same]

end Token.Matches

abbrev Accord.KeepsExpr (pair : Accord) (phrase : Parse Expr) : Prop :=
  pair.Keeps (Expr.Matches pair.view) phrase phrase

theorem type_keeps (budget : Nat) :
    pair.Keeps Eq (Grammar.type budget) (Grammar.type budget) := by
  induction budget with
  | zero => exact out_of_budget_keeps
  | succ budget ih =>
      rw [Grammar.type]
      refine nested_keeps (in_step_bind peek_keeps fun token token' alike => ?_)
      rcases alike.kinds with ⟨_, _, named, named'⟩ | ⟨_, same⟩
      · rw [named, named']
        exact unexpected_keeps _
      rw [same]
      split
      · exact in_step_bind accept_keeps fun _ _ _ => in_step_pure rfl
      · refine in_step_bind accept_keeps fun _ _ _ => in_step_bind ih fun _ _ same => ?_
        exact in_step_pure (congrArg Ty.pointer same)
      · refine in_step_bind accept_keeps fun _ _ _ => in_step_bind ih fun _ _ same => ?_
        exact in_step_bind (expect_keeps _ _) fun _ _ _ => in_step_pure same
      · exact unexpected_keeps _

structure ExpressionsKeep (pair : Accord) (budget : Nat) : Prop where
  expression : pair.KeepsExpr (Grammar.expression budget)
  binary (least : Nat) : pair.KeepsExpr (Grammar.binary budget least)
  operations (least : Nat) {left left' : Expr} (alike : left.Matches pair.view left') :
    pair.Keeps (Expr.Matches pair.view) (Grammar.operations budget least left)
      (Grammar.operations budget least left')
  cast : pair.KeepsExpr (Grammar.cast budget)
  casts {source source' : Expr} (alike : source.Matches pair.view source') :
    pair.Keeps (Expr.Matches pair.view) (Grammar.casts budget source) (Grammar.casts budget source')
  unary : pair.KeepsExpr (Grammar.unary budget)
  applications {head head' : Expr} (alike : head.Matches pair.view head') :
    pair.Keeps (Expr.Matches pair.view) (Grammar.applications budget head)
      (Grammar.applications budget head')
  arguments (close : Punctuation) (what : String) :
    pair.Keeps (List.Forall₂ (Expr.Matches pair.view)) (Grammar.arguments budget close what)
      (Grammar.arguments budget close what)
  expressions : pair.Keeps (List.Forall₂ (Expr.Matches pair.view)) (Grammar.expressions budget)
      (Grammar.expressions budget)
  primary : pair.KeepsExpr (Grammar.primary budget)

section Step

variable {budget : Nat} (lower : ExpressionsKeep pair budget)
include lower

theorem expression_keeps : pair.KeepsExpr (Grammar.expression (budget + 1)) := by
  rw [Accord.KeepsExpr, Grammar.expression]
  refine nested_keeps (in_step_bind (lower.binary _) fun _ _ left => ?_)
  refine in_step_bind peek_keeps fun token token' alike => ?_
  rcases alike.kinds with ⟨_, _, named, named'⟩ | ⟨_, same⟩
  · rw [named, named']
    exact in_step_pure left
  rw [same]
  split
  · refine in_step_bind accept_keeps fun _ _ _ => in_step_bind lower.expression fun _ _ first => ?_
    refine in_step_bind (expect_keeps _ _) fun _ _ _ => ?_
    refine in_step_bind lower.expression fun _ _ second => ?_
    exact in_step_check (Rule.conditional_checks left first second alike.location)
  · refine in_step_bind accept_keeps fun _ _ _ => in_step_bind lower.expression fun _ _ value => ?_
    exact in_step_check (Rule.assign_checks left value alike.location)
  · exact in_step_pure left

theorem binary_keeps (least : Nat) : pair.KeepsExpr (Grammar.binary (budget + 1) least) := by
  rw [Accord.KeepsExpr, Grammar.binary]
  exact keeping_depth_keeps (in_step_bind lower.cast fun _ _ left => lower.operations least left)

theorem operations_keep (least : Nat) {left left' : Expr} (alike : left.Matches pair.view left') :
    pair.Keeps (Expr.Matches pair.view) (Grammar.operations (budget + 1) least left)
      (Grammar.operations (budget + 1) least left') := by
  rw [Grammar.operations, Grammar.operations]
  refine in_step_bind peek_keeps fun token token' same => ?_
  rw [same.binaryOperation least]
  split
  · exact in_step_pure alike
  · refine in_step_bind deepen_keeps fun _ _ _ => in_step_bind accept_keeps fun _ _ taken => ?_
    refine in_step_bind (demand_keeps taken.operator) ?_
    rintro operator _ rfl
    refine in_step_bind (lower.binary _) fun _ _ right => ?_
    refine in_step_bind (in_step_check (Rule.binary_checks _ alike right taken.location)) ?_
    exact fun _ _ joined => lower.operations least joined

theorem cast_keeps : pair.KeepsExpr (Grammar.cast (budget + 1)) := by
  rw [Accord.KeepsExpr, Grammar.cast]
  exact keeping_depth_keeps (in_step_bind lower.unary fun _ _ source => lower.casts source)

theorem casts_keep {source source' : Expr} (alike : source.Matches pair.view source') :
    pair.Keeps (Expr.Matches pair.view) (Grammar.casts (budget + 1) source)
      (Grammar.casts (budget + 1) source') := by
  rw [Grammar.casts, Grammar.casts]
  refine in_step_bind peek_keeps fun token token' same => ?_
  simp only [same.is (.keyword .asWord)]
  refine in_step_ite ?_ (in_step_pure alike)
  refine in_step_bind deepen_keeps fun _ _ _ => in_step_bind accept_keeps fun _ _ _ => ?_
  refine in_step_bind (type_keeps budget) ?_
  rintro target _ rfl
  refine in_step_bind (in_step_check (Rule.cast_checks target alike same.location)) ?_
  exact fun _ _ cast => lower.casts cast

theorem unary_keeps : pair.KeepsExpr (Grammar.unary (budget + 1)) := by
  rw [Accord.KeepsExpr, Grammar.unary]
  refine in_step_bind peek_keeps fun token token' same => ?_
  rw [same.unaryOperation]
  split
  · refine in_step_bind accept_keeps fun _ _ _ => ?_
    refine in_step_bind (nested_keeps lower.unary) fun _ _ operand => ?_
    exact in_step_check (Rule.unary_checks _ operand same.location)
  · exact in_step_bind lower.primary fun _ _ head => lower.applications head

theorem applications_keep {head head' : Expr} (alike : head.Matches pair.view head') :
    pair.Keeps (Expr.Matches pair.view) (Grammar.applications (budget + 1) head)
      (Grammar.applications (budget + 1) head') := by
  rw [Grammar.applications, Grammar.applications]
  refine in_step_bind peek_keeps fun token token' same => ?_
  rcases same.kinds with ⟨_, _, named, named'⟩ | ⟨_, kind⟩
  · rw [named, named']
    exact in_step_pure alike
  rw [kind]
  split
  · refine in_step_bind accept_keeps fun _ _ _ => ?_
    refine in_step_bind (lower.arguments _ _) fun _ _ given => ?_
    refine in_step_bind (in_step_check (Rule.call_checks alike given same.location)) ?_
    exact fun _ _ call => lower.applications call
  · refine in_step_bind accept_keeps fun _ _ _ => ?_
    refine in_step_bind (lower.arguments _ _) fun _ _ given => ?_
    refine in_step_bind (in_step_check (Rule.index_checks alike given same.location)) ?_
    exact fun _ _ element => lower.applications element
  · exact in_step_pure alike

theorem arguments_keep (close : Punctuation) (what : String) :
    pair.Keeps (List.Forall₂ (Expr.Matches pair.view)) (Grammar.arguments (budget + 1) close what)
      (Grammar.arguments (budget + 1) close what) := by
  rw [Grammar.arguments]
  refine in_step_bind (sees_keeps _) ?_
  rintro closes _ rfl
  refine in_step_ite ?_ ?_
  · exact in_step_bind (in_step_pure .nil) fun _ _ given =>
      in_step_bind (expect_keeps _ _) fun _ _ _ => in_step_pure given
  · exact in_step_bind lower.expressions fun _ _ given =>
      in_step_bind (expect_keeps _ _) fun _ _ _ => in_step_pure given

theorem expressions_keep :
    pair.Keeps (List.Forall₂ (Expr.Matches pair.view)) (Grammar.expressions (budget + 1))
      (Grammar.expressions (budget + 1)) := by
  rw [Grammar.expressions]
  refine in_step_bind lower.expression fun _ _ first => in_step_bind (takes_keeps _) ?_
  rintro more _ rfl
  refine in_step_ite ?_ (in_step_pure (.cons first .nil))
  exact in_step_bind lower.expressions fun _ _ others => in_step_pure (.cons first others)

theorem primary_keeps : pair.KeepsExpr (Grammar.primary (budget + 1)) := by
  rw [Accord.KeepsExpr, Grammar.primary]
  refine in_step_bind peek_keeps fun token token' same => ?_
  rcases same.kinds with ⟨_, known, named, named'⟩ | ⟨proper, kind⟩
  · rw [named, named']
    refine in_step_bind accept_keeps fun _ _ _ => in_step_bind in_step_get fun _ _ state => ?_
    exact in_step_check (state.analyzer.name known same.location)
  rw [kind]
  split
  · refine in_step_bind accept_keeps fun _ _ _ => in_step_bind lower.expression fun _ _ inner => ?_
    exact in_step_bind (expect_keeps _ _) fun _ _ _ => in_step_pure inner
  · exact in_step_bind accept_keeps fun _ _ _ => in_step_pure (.bool same.location)
  · exact in_step_bind accept_keeps fun _ _ _ => in_step_pure (.int same.location)
  · exact in_step_bind accept_keeps fun _ _ _ => in_step_pure (.float same.location)
  · exact in_step_bind accept_keeps fun _ _ _ => in_step_pure (.char same.location)
  · exact absurd ‹_› (proper _)
  · exact unexpected_keeps _

end Step

theorem expressions_in_step (budget : Nat) : ExpressionsKeep pair budget := by
  induction budget with
  | zero => constructor <;> intros <;> exact out_of_budget_keeps
  | succ budget lower =>
      exact {
        expression := expression_keeps lower
        binary := binary_keeps lower
        operations := operations_keep lower
        cast := cast_keeps lower
        casts := casts_keep lower
        unary := unary_keeps lower
        applications := applications_keep lower
        arguments := arguments_keep lower
        expressions := expressions_keep lower
        primary := primary_keeps lower }

end McFront
