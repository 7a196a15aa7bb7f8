import McFront.Grammar.Declarations
import McFront.Proofs.Parsing.Ensures

set_option autoImplicit false

namespace McFront

variable {σ α β : Type}

def Extends (lesser greater : EStateM Fault σ α) : Prop :=
  ∀ start, (∃ after, lesser start = .error (.breach .outOfBudget) after) ∨
    lesser start = greater start

theorem extends_refl (program : EStateM Fault σ α) : Extends program program :=
  fun _ => .inr rfl

theorem extends_trans {least mid greatest : EStateM Fault σ α} (first : Extends least mid)
    (second : Extends mid greatest) : Extends least greatest := by
  intro start
  rcases first start with failed | same
  · exact .inl failed
  · rw [same]
    exact second start

theorem extends_bind {lesser greater : EStateM Fault σ α} {next further : α → EStateM Fault σ β}
    (first : Extends lesser greater) (second : ∀ a, Extends (next a) (further a)) :
    Extends (lesser >>= next) (greater >>= further) := by
  intro start
  show (∃ after, EStateM.bind lesser next start = _) ∨
    EStateM.bind lesser next start = EStateM.bind greater further start
  unfold EStateM.bind
  rcases first start with ⟨after, failed⟩ | same
  · exact .inl ⟨after, by rw [failed]⟩
  · rw [← same]
    cases ran : lesser start with
    | error fault after => exact .inr rfl
    | ok a after => exact second a after

theorem extends_after {first : EStateM Fault σ α} {next further : α → EStateM Fault σ β}
    (second : ∀ a, Extends (next a) (further a)) : Extends (first >>= next) (first >>= further) :=
  extends_bind (extends_refl first) second

theorem extends_map {lesser greater : EStateM Fault σ α} (f : α → β)
    (first : Extends lesser greater) : Extends (f <$> lesser) (f <$> greater) := by
  intro start
  show (∃ after, EStateM.map f lesser start = _) ∨
    EStateM.map f lesser start = EStateM.map f greater start
  unfold EStateM.map
  rcases first start with ⟨after, failed⟩ | same
  · exact .inl ⟨after, by rw [failed]⟩
  · rw [same]
    exact .inr rfl

theorem extends_ite {choice : Prop} [Decidable choice]
    {lesser greater other otherwise : EStateM Fault σ α} (first : Extends lesser greater)
    (second : Extends other otherwise) :
    Extends (if choice then lesser else other) (if choice then greater else otherwise) := by
  by_cases holds : choice
  · rwa [if_pos holds, if_pos holds]
  · rwa [if_neg holds, if_neg holds]

namespace Parse

theorem extends_out_of_budget (greater : Parse α) : Extends outOfBudget greater :=
  fun start => .inl ⟨start, rfl⟩

theorem extends_releasing {lesser greater : Parse α} (release : Parser → Parser)
    (extending : Extends lesser greater) :
    Extends (releasing lesser release) (releasing greater release) := by
  intro start
  unfold releasing
  rcases extending start with ⟨after, failed⟩ | same
  · exact .inl ⟨release after, by rw [failed]⟩
  · rw [same]
    exact .inr rfl

theorem extends_keeping_depth {lesser greater : Parse α} (extending : Extends lesser greater) :
    Extends (keepingDepth lesser) (keepingDepth greater) :=
  fun start => extends_releasing _ extending start

theorem extends_nested {lesser greater : Parse α} (extending : Extends lesser greater) :
    Extends (nested lesser) (nested greater) :=
  extends_after fun _ => extends_releasing _ extending

theorem extends_in_scope {lesser greater : Parse α} (kind : ScopeKind)
    (extending : Extends lesser greater) :
    Extends (inScope kind lesser) (inScope kind greater) :=
  extends_releasing _ (extends_after fun _ => extending)

end Parse

open Parse

theorem type_extends (budget : Nat) : Extends (Grammar.type budget) (Grammar.type (budget + 1)) := by
  induction budget with
  | zero => exact extends_out_of_budget _
  | succ budget ih =>
      rw [Grammar.type.eq_2 budget, Grammar.type.eq_2 (budget + 1)]
      refine extends_nested (extends_after fun token => ?_)
      generalize token.kind = kind
      split
      · exact extends_refl _
      · exact extends_after fun _ => extends_bind ih fun _ => extends_refl _
      · exact extends_after fun _ => extends_bind ih fun _ => extends_refl _
      · exact extends_refl _

structure ExpressionsExtend (budget : Nat) : Prop where
  expression : Extends (Grammar.expression budget) (Grammar.expression (budget + 1))
  binary (least : Nat) :
    Extends (Grammar.binary budget least) (Grammar.binary (budget + 1) least)
  operations (least : Nat) (left : Expr) :
    Extends (Grammar.operations budget least left) (Grammar.operations (budget + 1) least left)
  cast : Extends (Grammar.cast budget) (Grammar.cast (budget + 1))
  casts (source : Expr) :
    Extends (Grammar.casts budget source) (Grammar.casts (budget + 1) source)
  unary : Extends (Grammar.unary budget) (Grammar.unary (budget + 1))
  applications (head : Expr) :
    Extends (Grammar.applications budget head) (Grammar.applications (budget + 1) head)
  arguments (close : Punctuation) (what : String) :
    Extends (Grammar.arguments budget close what) (Grammar.arguments (budget + 1) close what)
  expressions : Extends (Grammar.expressions budget) (Grammar.expressions (budget + 1))
  primary : Extends (Grammar.primary budget) (Grammar.primary (budget + 1))

section Step

variable {budget : Nat} (lower : ExpressionsExtend budget)
include lower

theorem expression_extends :
    Extends (Grammar.expression (budget + 1)) (Grammar.expression (budget + 1 + 1)) := by
  rw [Grammar.expression.eq_2 budget, Grammar.expression.eq_2 (budget + 1)]
  refine extends_nested (extends_bind (lower.binary _) fun left => ?_)
  refine extends_after fun token => ?_
  generalize token.kind = kind
  split
  · refine extends_after fun _ => extends_bind lower.expression fun first => ?_
    exact extends_after fun _ => extends_bind lower.expression fun _ =>
      extends_refl _
  · exact extends_after fun _ => extends_bind lower.expression fun _ =>
      extends_refl _
  · exact extends_refl _

theorem binary_extends (least : Nat) :
    Extends (Grammar.binary (budget + 1) least) (Grammar.binary (budget + 1 + 1) least) := by
  rw [Grammar.binary.eq_2 least budget, Grammar.binary.eq_2 least (budget + 1)]
  exact extends_keeping_depth (extends_bind lower.cast fun left => lower.operations least left)

theorem operations_extend (least : Nat) (left : Expr) :
    Extends (Grammar.operations (budget + 1) least left)
      (Grammar.operations (budget + 1 + 1) least left) := by
  rw [Grammar.operations.eq_2 least left budget, Grammar.operations.eq_2 least left (budget + 1)]
  refine extends_after fun token => ?_
  cases Grammar.binaryOperation? least token with
  | none => exact extends_refl _
  | some operation =>
      refine extends_after fun _ => extends_after fun token => ?_
      refine extends_after fun operator => ?_
      refine extends_bind (lower.binary _) fun right => ?_
      exact extends_after fun joined => lower.operations least joined

theorem cast_extends : Extends (Grammar.cast (budget + 1)) (Grammar.cast (budget + 1 + 1)) := by
  rw [Grammar.cast.eq_2 budget, Grammar.cast.eq_2 (budget + 1)]
  exact extends_keeping_depth (extends_bind lower.unary fun source => lower.casts source)

theorem casts_extend (source : Expr) :
    Extends (Grammar.casts (budget + 1) source) (Grammar.casts (budget + 1 + 1) source) := by
  rw [Grammar.casts.eq_2 source budget, Grammar.casts.eq_2 source (budget + 1)]
  refine extends_after fun token => extends_ite ?_ (extends_refl _)
  refine extends_after fun _ => extends_after fun _ => ?_
  refine extends_bind (type_extends budget) fun target => ?_
  exact extends_after fun cast => lower.casts cast

theorem unary_extends : Extends (Grammar.unary (budget + 1)) (Grammar.unary (budget + 1 + 1)) := by
  rw [Grammar.unary.eq_2 budget, Grammar.unary.eq_2 (budget + 1)]
  refine extends_after fun token => ?_
  cases Grammar.unaryOperation? token with
  | some operation =>
      refine extends_after fun _ => ?_
      exact extends_bind (extends_nested lower.unary) fun _ => extends_refl _
  | none => exact extends_bind lower.primary fun head => lower.applications head

theorem applications_extend (head : Expr) :
    Extends (Grammar.applications (budget + 1) head)
      (Grammar.applications (budget + 1 + 1) head) := by
  rw [Grammar.applications.eq_2 head budget, Grammar.applications.eq_2 head (budget + 1)]
  refine extends_after fun token => ?_
  generalize token.kind = kind
  split
  · refine extends_after fun _ => extends_bind (lower.arguments _ _) fun given => ?_
    exact extends_after fun call => lower.applications call
  · refine extends_after fun _ => extends_bind (lower.arguments _ _) fun given => ?_
    exact extends_after fun element => lower.applications element
  · exact extends_refl _

theorem arguments_extend (close : Punctuation) (what : String) :
    Extends (Grammar.arguments (budget + 1) close what)
      (Grammar.arguments (budget + 1 + 1) close what) := by
  rw [Grammar.arguments.eq_2 close what budget, Grammar.arguments.eq_2 close what (budget + 1)]
  refine extends_after fun closes => extends_ite (extends_refl _) ?_
  exact extends_bind lower.expressions fun _ => extends_refl _

theorem expressions_extend :
    Extends (Grammar.expressions (budget + 1)) (Grammar.expressions (budget + 1 + 1)) := by
  rw [Grammar.expressions.eq_2 budget, Grammar.expressions.eq_2 (budget + 1)]
  refine extends_bind lower.expression fun first => extends_after fun more => ?_
  exact extends_ite (extends_bind lower.expressions fun _ => extends_refl _) (extends_refl _)

theorem primary_extends :
    Extends (Grammar.primary (budget + 1)) (Grammar.primary (budget + 1 + 1)) := by
  rw [Grammar.primary.eq_2 budget, Grammar.primary.eq_2 (budget + 1)]
  refine extends_after fun token => ?_
  cases token.kind with
  | punctuation mark =>
      cases mark with
      | leftParen =>
          refine extends_after fun _ => ?_
          exact extends_bind lower.expression fun _ => extends_refl _
      | _ => exact extends_refl _
  | _ => exact extends_refl _

end Step

theorem expressions_settle (budget : Nat) : ExpressionsExtend budget := by
  induction budget with
  | zero => constructor <;> intros <;> exact extends_out_of_budget _
  | succ budget lower =>
      exact {
        expression := expression_extends lower
        binary := binary_extends lower
        operations := operations_extend lower
        cast := cast_extends lower
        casts := casts_extend lower
        unary := unary_extends lower
        applications := applications_extend lower
        arguments := arguments_extend lower
        expressions := expressions_extend lower
        primary := primary_extends lower }

theorem object_extends (budget : Nat) :
    Extends (Grammar.object budget) (Grammar.object (budget + 1)) := by
  have expressions := expressions_settle budget
  refine extends_after fun kind => extends_after fun _ => ?_
  refine extends_after fun named => extends_after fun _ => ?_
  refine extends_bind (type_extends budget) fun type => extends_after fun given => ?_
  refine extends_ite ?_ (extends_refl _)
  exact extends_bind (extends_map some expressions.expression) fun _ => extends_refl _

theorem condition_extends (budget : Nat) :
    Extends (Grammar.condition budget) (Grammar.condition (budget + 1)) := by
  refine extends_after fun _ => ?_
  exact extends_bind (expressions_settle budget).expression fun _ => extends_refl _

theorem return_extends (budget : Nat) :
    Extends (Grammar.returnStatement budget) (Grammar.returnStatement (budget + 1)) := by
  have expressions := expressions_settle budget
  refine extends_after fun token => extends_after fun closes => ?_
  refine extends_ite (extends_refl _) ?_
  exact extends_bind (extends_map some expressions.expression) fun _ => extends_refl _

theorem local_extends (budget : Nat) :
    Extends (Grammar.localDeclaration budget) (Grammar.localDeclaration (budget + 1)) := by
  refine extends_after fun atFunction => extends_ite (extends_refl _) ?_
  exact extends_bind (object_extends budget) fun _ => extends_refl _

structure StatementsExtend (budget : Nat) : Prop where
  statement : Extends (Grammar.statement budget) (Grammar.statement (budget + 1))
  block : Extends (Grammar.block budget) (Grammar.block (budget + 1))
  statements : Extends (Grammar.statements budget) (Grammar.statements (budget + 1))

section Step

variable {budget : Nat} (lower : StatementsExtend budget)
include lower

theorem statement_extends :
    Extends (Grammar.statement (budget + 1)) (Grammar.statement (budget + 1 + 1)) := by
  rw [Grammar.statement.eq_2 budget, Grammar.statement.eq_2 (budget + 1)]
  refine extends_nested (extends_after fun token => ?_)
  have expression := (expressions_settle budget).expression
  generalize token.kind = kind
  split
  · exact lower.block
  · refine extends_after fun _ => ?_
    refine extends_bind (condition_extends budget) fun condition => ?_
    refine extends_bind lower.statement fun first => extends_after fun other => ?_
    exact extends_ite (extends_bind lower.statement fun _ => extends_refl _) (extends_refl _)
  · refine extends_after fun _ => ?_
    refine extends_bind (condition_extends budget) fun condition => ?_
    refine extends_bind (extends_after fun _ => ?_) fun _ => extends_refl _
    exact extends_releasing _ lower.statement
  · exact extends_refl _
  · exact extends_refl _
  · exact return_extends budget
  · exact local_extends budget
  · exact local_extends budget
  · exact local_extends budget
  · exact extends_bind expression fun _ => extends_refl _

theorem block_extends : Extends (Grammar.block (budget + 1)) (Grammar.block (budget + 1 + 1)) := by
  rw [Grammar.block.eq_2 budget, Grammar.block.eq_2 (budget + 1)]
  refine extends_after fun _ => ?_
  exact extends_bind (extends_in_scope _ lower.statements) fun _ => extends_refl _

theorem statements_extend :
    Extends (Grammar.statements (budget + 1)) (Grammar.statements (budget + 1 + 1)) := by
  rw [Grammar.statements.eq_2 budget, Grammar.statements.eq_2 (budget + 1)]
  refine extends_after fun token => extends_ite (extends_refl _) ?_
  refine extends_ite (extends_refl _) (extends_bind lower.statement fun first => ?_)
  exact extends_bind lower.statements fun _ => extends_refl _

end Step

theorem statements_settle (budget : Nat) : StatementsExtend budget := by
  induction budget with
  | zero => constructor <;> exact extends_out_of_budget _
  | succ budget lower =>
      exact {
        statement := statement_extends lower
        block := block_extends lower
        statements := statements_extend lower }

theorem parameters_extend (budget : Nat) :
    Extends (Grammar.parameters budget) (Grammar.parameters (budget + 1)) := by
  induction budget with
  | zero => exact extends_out_of_budget _
  | succ budget ih =>
      rw [Grammar.parameters.eq_2 budget, Grammar.parameters.eq_2 (budget + 1)]
      refine extends_after fun named => extends_after fun _ => ?_
      refine extends_bind (type_extends budget) fun type => extends_after fun _ => ?_
      refine extends_after fun more => extends_ite ?_ (extends_refl _)
      exact extends_bind ih fun _ => extends_refl _

theorem function_extends (budget : Nat) :
    Extends (Grammar.function budget) (Grammar.function (budget + 1)) := by
  have list : Extends (Grammar.parameterList budget) (Grammar.parameterList (budget + 1)) := by
    refine extends_after fun _ => extends_after fun closes => ?_
    refine extends_ite (extends_refl _) ?_
    exact extends_bind (parameters_extend budget) fun _ => extends_refl _
  have body (function : Declaration) : Extends (Grammar.functionBody budget function)
      (Grammar.functionBody (budget + 1) function) := by
    refine extends_after fun _ => ?_
    exact extends_bind (extends_releasing _ (statements_settle budget).block) fun _ =>
      extends_refl _
  refine extends_after fun _ => extends_after fun named => ?_
  refine extends_bind (extends_in_scope _ list) fun parameters => ?_
  refine extends_after fun _ => extends_bind (type_extends budget) fun result => ?_
  refine extends_after fun function => extends_after fun ended => ?_
  refine extends_ite (extends_refl _) (extends_after fun opens => ?_)
  exact extends_ite (body function) (extends_refl _)

theorem declarations_extend (budget : Nat) :
    Extends (Grammar.declarations budget) (Grammar.declarations (budget + 1)) := by
  induction budget with
  | zero => exact extends_out_of_budget _
  | succ budget ih =>
      have declaration : Extends (Grammar.declaration budget) (Grammar.declaration (budget + 1)) := by
        refine extends_after fun atFunction => ?_
        exact extends_ite (function_extends budget) (object_extends budget)
      rw [Grammar.declarations.eq_2 budget, Grammar.declarations.eq_2 (budget + 1)]
      refine extends_after fun token => extends_ite (extends_refl _) ?_
      exact extends_bind declaration fun first => extends_bind ih fun _ => extends_refl _

theorem program_extends {lesser greater : Nat} (atMost : lesser ≤ greater) :
    Extends (Grammar.program lesser) (Grammar.program greater) := by
  induction atMost with
  | refl => exact extends_refl _
  | @step budget atMost ih =>
      refine extends_trans ih ?_
      exact extends_bind (extends_in_scope _ (declarations_extend budget)) fun _ => extends_refl _

end McFront
