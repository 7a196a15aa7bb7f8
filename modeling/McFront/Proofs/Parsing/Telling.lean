import McFront.Proofs.Lexing.Complaints
import McFront.Proofs.Parsing.CompileRun
import McFront.Proofs.Parsing.Endings
import McFront.Proofs.Typing.Mismatches

set_option autoImplicit false

namespace McFront

theorem Complaint.Blames.tells {complaint : Complaint} {text : List Char}
    (blames : complaint.Blames text) : complaint.Tells := by
  cases complaint <;> trivial

def Lexer.Telling (lexer : Lexer) : Prop := ∀ error, lexer.failure = some error → error.Told

def Parser.Telling (parser : Parser) : Prop := parser.lexer.Telling

theorem Lexer.of_text_telling (text : String) (interner : Interner) :
    (Lexer.ofText text interner).Telling := by
  rintro error ⟨⟩

theorem Lexer.next_telling {lexer after : Lexer} {result : Checked Token}
    (telling : lexer.Telling) (drawn : lexer.next = (result, after)) :
    McFront.Telling result ∧ after.Telling := by
  cases step_of_next drawn with
  | again failed =>
      refine ⟨?_, telling⟩
      rintro _ ⟨⟩
      exact telling _ failed
  | @token token _ sound =>
      refine ⟨telling_ok token, ?_⟩
      intro error failed
      cases sound.symm.trans failed
  | error sound read =>
      obtain ⟨complaint, passed, rest, _, blames, rfl⟩ := Cursor.next_blames read
      refine ⟨telling_raise blames.tells, ?_⟩
      rintro _ ⟨⟩
      exact .raise blames.tells

namespace Parse

variable {α β : Type} {phrase : Parse α}

theorem peek_tells : Tells Parser.Telling peek := by
  intro start telling
  unfold Achieves peek
  cases start.pending with
  | nil => trivial
  | cons token pending => exact telling

theorem draw_tells : Tells Parser.Telling draw := by
  intro start telling
  unfold Achieves draw
  cases drawn : start.lexer.next with
  | mk result lexer =>
      obtain ⟨told, left⟩ := Lexer.next_telling telling drawn
      cases result with
      | ok token => exact left
      | error error => exact told error rfl

theorem draw_many_tells (count : Nat) : Tells Parser.Telling (drawMany count) := by
  induction count with
  | zero => exact tells_pure ()
  | succ count ih => exact tells_bind draw_tells fun _ => ih

theorem lookahead_tells (places : Nat) : Tells Parser.Telling (lookahead places) := by
  refine tells_bind tells_get fun parser => tells_bind (draw_many_tells _) fun _ => ?_
  refine tells_bind tells_get fun parser => ?_
  cases parser.pending[places]? with
  | some token => exact tells_pure token
  | none => exact tells_breach _

theorem accept_tells : Tells Parser.Telling accept := by
  intro start telling
  cases found : start.pending with
  | nil =>
      unfold Achieves
      rw [accept_none found]
      trivial
  | cons token pending =>
      cases pending with
      | cons next pending =>
          unfold Achieves
          rw [accept_more found]
          exact telling
      | nil =>
          have drawn : Tells Parser.Telling (draw >>= fun _ => pure token) :=
            tells_bind draw_tells fun _ => tells_pure token
          unfold Achieves
          rw [accept_last found]
          exact drawn { start with pending := [] } telling

theorem sees_tells (kind : Token.Kind) : Tells Parser.Telling (sees kind) :=
  tells_bind peek_tells fun _ => tells_pure _

theorem takes_tells (kind : Token.Kind) : Tells Parser.Telling (takes kind) := by
  refine tells_bind (sees_tells kind) fun seen => tells_ite ?_ (tells_pure false)
  exact tells_bind accept_tells fun _ => tells_pure true

theorem reject_tells {complaint : Complaint} {place : Location} (tells : complaint.Tells) :
    Tells Parser.Telling (reject complaint place : Parse α) := tells_check (telling_raise tells)

theorem unexpected_tells (what : String) : Tells Parser.Telling (unexpected what : Parse α) :=
  tells_bind peek_tells fun _ => reject_tells trivial

theorem expect_tells (kind : Token.Kind) (what : String) :
    Tells Parser.Telling (expect kind what) :=
  tells_bind (sees_tells kind) fun _ => tells_ite accept_tells (unexpected_tells what)

theorem demand_tells (value : Except Breach α) : Tells Parser.Telling (demand value) := by
  cases value with
  | ok a => exact tells_pure a
  | error broken => exact tells_breach broken

theorem expect_name_tells : Tells Parser.Telling expectName := by
  refine tells_bind peek_tells fun token => tells_ite ?_ (unexpected_tells _)
  refine tells_bind accept_tells fun token => ?_
  exact tells_bind (demand_tells _) fun name => tells_pure _

theorem analyze_tells {step : Analysis α} (tells : Tells Analyzer.Any step) :
    Tells Parser.Telling (analyze step) := by
  intro start telling
  have told := tells start.analyzer trivial
  unfold Achieves analyze at *
  cases ran : step start.analyzer with
  | ok a analyzer => exact telling
  | error fault analyzer =>
      rw [ran] at told
      cases fault <;> exact told

theorem releasing_tells {release : Parser → Parser}
    (keeps : ∀ parser, (release parser).lexer = parser.lexer)
    (tells : Tells Parser.Telling phrase) : Tells Parser.Telling (releasing phrase release) := by
  intro start telling
  refine achieves_releasing (achieves_weaken (tells start telling) fun _ after left => ?_)
  rw [Parser.Telling, keeps]
  exact left

theorem in_scope_tells (kind : ScopeKind) (tells : Tells Parser.Telling phrase) :
    Tells Parser.Telling (inScope kind phrase) :=
  releasing_tells (fun _ => rfl)
    (tells_bind (analyze_tells (Analysis.enter_tells kind)) fun _ => tells)

theorem in_loop_tells (tells : Tells Parser.Telling phrase) :
    Tells Parser.Telling (Grammar.inLoop phrase) := by
  have released : Tells Parser.Telling (releasing phrase (change Analyzer.leaveLoop)) :=
    releasing_tells (fun _ => rfl) tells
  exact fun start telling => released (change Analyzer.enterLoop start) telling

theorem deepen_tells : Tells Parser.Telling deepen := by
  intro start telling
  unfold Achieves
  rcases deepen_ran start with ran | ⟨fault, ran, barred⟩ <;> rw [ran]
  · exact telling
  · cases fault with
    | breach broken => trivial
    | error error =>
        obtain ⟨place, rfl⟩ := barred
        exact .raise trivial

theorem keeping_depth_tells (tells : Tells Parser.Telling phrase) :
    Tells Parser.Telling (keepingDepth phrase) := by
  intro start telling
  have released : Tells Parser.Telling
      (releasing phrase fun after => { after with depth := start.depth }) :=
    releasing_tells (fun _ => rfl) tells
  exact released start telling

theorem nested_tells (tells : Tells Parser.Telling phrase) :
    Tells Parser.Telling (nested phrase) :=
  tells_bind deepen_tells fun _ => releasing_tells (fun _ => rfl) tells

end Parse

open Parse

theorem type_tells (budget : Nat) : Tells Parser.Telling (Grammar.type budget) := by
  induction budget with
  | zero => exact tells_breach _
  | succ budget ih =>
      rw [Grammar.type.eq_2]
      refine nested_tells (tells_bind peek_tells fun token => ?_)
      generalize token.kind = kind
      split
      · exact tells_bind accept_tells fun _ => tells_pure _
      · refine tells_bind accept_tells fun _ => ?_
        exact tells_bind ih fun _ => tells_pure _
      · refine tells_bind accept_tells fun _ => tells_bind ih fun inner => ?_
        exact tells_bind (expect_tells _ _) fun _ => tells_pure _
      · exact unexpected_tells _

structure ExpressionsTell (budget : Nat) : Prop where
  expression : Tells Parser.Telling (Grammar.expression budget)
  binary (least : Nat) : Tells Parser.Telling (Grammar.binary budget least)
  operations (least : Nat) (left : Expr) :
    Tells Parser.Telling (Grammar.operations budget least left)
  cast : Tells Parser.Telling (Grammar.cast budget)
  casts (source : Expr) : Tells Parser.Telling (Grammar.casts budget source)
  unary : Tells Parser.Telling (Grammar.unary budget)
  applications (head : Expr) : Tells Parser.Telling (Grammar.applications budget head)
  arguments (close : Punctuation) (what : String) :
    Tells Parser.Telling (Grammar.arguments budget close what)
  expressions : Tells Parser.Telling (Grammar.expressions budget)
  primary : Tells Parser.Telling (Grammar.primary budget)

section Step

variable {budget : Nat} (lower : ExpressionsTell budget)
include lower

theorem expression_tells : Tells Parser.Telling (Grammar.expression (budget + 1)) := by
  rw [Grammar.expression.eq_2]
  refine nested_tells (tells_bind (lower.binary _) fun left => ?_)
  refine tells_bind peek_tells fun token => ?_
  generalize token.kind = kind
  split
  · refine tells_bind accept_tells fun _ => tells_bind lower.expression fun first => ?_
    refine tells_bind (expect_tells _ _) fun _ => tells_bind lower.expression fun second => ?_
    exact tells_check (Rule.conditional_telling _ _ _ _)
  · refine tells_bind accept_tells fun _ => tells_bind lower.expression fun value => ?_
    exact tells_check (Rule.assign_telling _ _ _)
  · exact tells_pure _

theorem operations_tell (least : Nat) (left : Expr) :
    Tells Parser.Telling (Grammar.operations (budget + 1) least left) := by
  rw [Grammar.operations.eq_2]
  refine tells_bind peek_tells fun token => ?_
  cases Grammar.binaryOperation? least token with
  | none => exact tells_pure _
  | some operation =>
      refine tells_bind deepen_tells fun _ => tells_bind accept_tells fun token => ?_
      refine tells_bind (demand_tells _) fun operator => tells_bind (lower.binary _) fun right => ?_
      refine tells_bind (tells_check (Rule.binary_telling _ _ _ _)) fun joined => ?_
      exact lower.operations least joined

theorem casts_tell (source : Expr) : Tells Parser.Telling (Grammar.casts (budget + 1) source) := by
  rw [Grammar.casts.eq_2]
  refine tells_bind peek_tells fun token => tells_ite ?_ (tells_pure _)
  refine tells_bind deepen_tells fun _ => tells_bind accept_tells fun _ => ?_
  refine tells_bind (type_tells budget) fun target => ?_
  exact tells_bind (tells_check (Rule.cast_telling _ _ _)) fun cast => lower.casts cast

theorem unary_tells : Tells Parser.Telling (Grammar.unary (budget + 1)) := by
  rw [Grammar.unary.eq_2]
  refine tells_bind peek_tells fun token => ?_
  cases Grammar.unaryOperation? token with
  | some operation =>
      refine tells_bind accept_tells fun _ => tells_bind (nested_tells lower.unary) fun _ => ?_
      exact tells_check (Rule.unary_telling _ _ _)
  | none => exact tells_bind lower.primary fun head => lower.applications head

theorem applications_tell (head : Expr) :
    Tells Parser.Telling (Grammar.applications (budget + 1) head) := by
  rw [Grammar.applications.eq_2]
  refine tells_bind peek_tells fun token => ?_
  generalize token.kind = kind
  split
  · refine tells_bind accept_tells fun _ => tells_bind (lower.arguments _ _) fun given => ?_
    exact tells_bind (tells_check (Rule.call_telling _ _ _)) fun call => lower.applications call
  · refine tells_bind accept_tells fun _ => tells_bind (lower.arguments _ _) fun given => ?_
    exact tells_bind (tells_check (Rule.index_telling _ _ _)) fun item => lower.applications item
  · exact tells_pure _

theorem arguments_tell (close : Punctuation) (what : String) :
    Tells Parser.Telling (Grammar.arguments (budget + 1) close what) := by
  rw [Grammar.arguments.eq_2]
  have finish (given : List Expr) : Tells Parser.Telling (do
      let _ ← expect (.punctuation close) what
      return given : Parse (List Expr)) :=
    tells_bind (expect_tells _ _) fun _ => tells_pure _
  refine tells_bind (sees_tells _) fun closes => tells_ite (finish []) ?_
  exact tells_bind lower.expressions fun given => finish given

theorem expressions_tell : Tells Parser.Telling (Grammar.expressions (budget + 1)) := by
  rw [Grammar.expressions.eq_2]
  refine tells_bind lower.expression fun first => ?_
  refine tells_bind (takes_tells _) fun more => tells_ite ?_ (tells_pure _)
  exact tells_bind lower.expressions fun _ => tells_pure _

theorem primary_tells : Tells Parser.Telling (Grammar.primary (budget + 1)) := by
  rw [Grammar.primary.eq_2]
  refine tells_bind peek_tells fun token => ?_
  split
  · refine tells_bind accept_tells fun _ => tells_bind lower.expression fun inner => ?_
    exact tells_bind (expect_tells _ _) fun _ => tells_pure _
  · exact tells_bind accept_tells fun _ => tells_pure _
  · exact tells_bind accept_tells fun _ => tells_pure _
  · exact tells_bind accept_tells fun _ => tells_pure _
  · exact tells_bind accept_tells fun _ => tells_pure _
  · refine tells_bind accept_tells fun _ => tells_bind tells_get fun parser => ?_
    exact tells_check (parser.analyzer.name_telling _ _)
  · exact unexpected_tells _

end Step

theorem expressions_told (budget : Nat) : ExpressionsTell budget := by
  induction budget with
  | zero => constructor <;> intros <;> exact tells_breach _
  | succ budget lower =>
      exact {
        expression := expression_tells lower
        binary := fun least => by
          rw [Grammar.binary.eq_2]
          exact keeping_depth_tells (tells_bind lower.cast fun left => lower.operations least left)
        operations := operations_tell lower
        cast := by
          rw [Grammar.cast.eq_2]
          exact keeping_depth_tells (tells_bind lower.unary fun source => lower.casts source)
        casts := casts_tell lower
        unary := unary_tells lower
        applications := applications_tell lower
        arguments := arguments_tell lower
        expressions := expressions_tell lower
        primary := primary_tells lower }

theorem at_function_tells : Tells Parser.Telling Grammar.atFunction := by
  refine tells_bind (sees_tells _) fun seen => tells_ite ?_ (tells_pure _)
  exact tells_bind (lookahead_tells 2) fun _ => tells_pure _

theorem object_kind_tells : Tells Parser.Telling Grammar.objectKind := by
  refine tells_bind peek_tells fun token => ?_
  generalize token.kind = kind
  split
  · exact tells_pure _
  · exact tells_pure _
  · refine tells_bind (lookahead_tells 2) fun third => ?_
    exact tells_ite (tells_pure _) (reject_tells trivial)
  · exact unexpected_tells _

theorem object_tells (budget : Nat) : Tells Parser.Telling (Grammar.object budget) := by
  refine tells_bind object_kind_tells fun kind => tells_bind accept_tells fun _ => ?_
  refine tells_bind expect_name_tells fun named => tells_bind (expect_tells _ _) fun _ => ?_
  refine tells_bind (type_tells budget) fun type => ?_
  have finish (initial : Option Expr) : Tells Parser.Telling (do
      let _ ← expect (.punctuation .semicolon) "';' after a declaration"
      analyze (Analysis.object kind named.1 type initial named.2)) :=
    tells_bind (expect_tells _ _) fun _ => analyze_tells (Analysis.object_tells _ _ _ _ _)
  refine tells_bind (takes_tells _) fun given => tells_ite ?_ (finish none)
  have initial := tells_map some (expressions_told budget).expression
  exact tells_bind initial fun initial => finish initial

theorem condition_tells (budget : Nat) : Tells Parser.Telling (Grammar.condition budget) := by
  refine tells_bind (expect_tells _ _) fun _ => ?_
  refine tells_bind (expressions_told budget).expression fun condition => ?_
  exact tells_bind (expect_tells _ _) fun _ => tells_check condition.require_truth_telling

theorem jump_tells {jump : Analyzer → Location → Checked Stmt} (word : String)
    (telling : ∀ analyzer place, Telling (jump analyzer place)) :
    Tells Parser.Telling (Grammar.jump word jump) := by
  refine tells_bind accept_tells fun token => tells_bind (expect_tells _ _) fun _ => ?_
  exact tells_bind tells_get fun parser => tells_check (telling _ _)

theorem return_tells (budget : Nat) : Tells Parser.Telling (Grammar.returnStatement budget) := by
  refine tells_bind accept_tells fun token => ?_
  have finish (value : Option Expr) : Tells Parser.Telling (do
      let _ ← expect (.punctuation .semicolon) "';' after 'return'"
      let parser ← get
      check (parser.analyzer.returnValue value token.location)) := by
    refine tells_bind (expect_tells _ _) fun _ => tells_bind tells_get fun parser => ?_
    exact tells_check (parser.analyzer.return_telling _ _)
  refine tells_bind (sees_tells _) fun closes => tells_ite (finish none) ?_
  have value := tells_map some (expressions_told budget).expression
  exact tells_bind value fun value => finish value

theorem local_tells (budget : Nat) : Tells Parser.Telling (Grammar.localDeclaration budget) := by
  refine tells_bind at_function_tells fun atFunction => tells_ite ?_ ?_
  · exact tells_bind peek_tells fun _ => reject_tells trivial
  · exact tells_bind (object_tells budget) fun _ => tells_pure _

structure StatementsTell (budget : Nat) : Prop where
  statement : Tells Parser.Telling (Grammar.statement budget)
  block : Tells Parser.Telling (Grammar.block budget)
  statements : Tells Parser.Telling (Grammar.statements budget)

section Step

variable {budget : Nat} (lower : StatementsTell budget)
include lower

theorem statement_tells : Tells Parser.Telling (Grammar.statement (budget + 1)) := by
  rw [Grammar.statement.eq_2]
  refine nested_tells (tells_bind peek_tells fun token => ?_)
  generalize token.kind = kind
  split
  · exact lower.block
  · refine tells_bind accept_tells fun _ => tells_bind (condition_tells budget) fun condition => ?_
    refine tells_bind lower.statement fun first => ?_
    refine tells_bind (takes_tells _) fun other => tells_ite ?_ (tells_pure _)
    exact tells_bind lower.statement fun _ => tells_pure _
  · refine tells_bind accept_tells fun _ => tells_bind (condition_tells budget) fun condition => ?_
    exact tells_bind (in_loop_tells lower.statement) fun _ => tells_pure _
  · exact jump_tells _ fun analyzer place => analyzer.in_loop_telling _ _ place
  · exact jump_tells _ fun analyzer place => analyzer.in_loop_telling _ _ place
  · exact return_tells budget
  · exact local_tells budget
  · exact local_tells budget
  · exact local_tells budget
  · refine tells_bind (expressions_told budget).expression fun expr => ?_
    exact tells_bind (expect_tells _ _) fun _ => tells_pure _

theorem block_tells : Tells Parser.Telling (Grammar.block (budget + 1)) := by
  rw [Grammar.block.eq_2]
  refine tells_bind (expect_tells _ _) fun _ => ?_
  refine tells_bind (in_scope_tells _ lower.statements) fun statements => ?_
  exact tells_bind (expect_tells _ _) fun _ => tells_pure _

theorem statements_tell : Tells Parser.Telling (Grammar.statements (budget + 1)) := by
  rw [Grammar.statements.eq_2]
  refine tells_bind peek_tells fun token => tells_ite (tells_pure _) ?_
  refine tells_ite (unexpected_tells _) ?_
  refine tells_bind lower.statement fun first => ?_
  exact tells_bind lower.statements fun _ => tells_pure _

end Step

theorem statements_told (budget : Nat) : StatementsTell budget := by
  induction budget with
  | zero => constructor <;> exact tells_breach _
  | succ budget lower =>
      exact {
        statement := statement_tells lower
        block := block_tells lower
        statements := statements_tell lower }

theorem parameters_tell (budget : Nat) : Tells Parser.Telling (Grammar.parameters budget) := by
  induction budget with
  | zero => exact tells_breach _
  | succ budget ih =>
      rw [Grammar.parameters.eq_2]
      refine tells_bind expect_name_tells fun named => tells_bind (expect_tells _ _) fun _ => ?_
      refine tells_bind (type_tells budget) fun type => ?_
      refine tells_bind (analyze_tells (Analysis.parameter_tells _ _ _)) fun first => ?_
      refine tells_bind (takes_tells _) fun more => tells_ite ?_ (tells_pure _)
      exact tells_bind ih fun _ => tells_pure _

theorem parameter_list_tells (budget : Nat) :
    Tells Parser.Telling (Grammar.parameterList budget) := by
  have finish (given : List Declaration) : Tells Parser.Telling (do
      let _ ← expect (.punctuation .rightParen) "')' after the parameter list"
      return given : Parse (List Declaration)) :=
    tells_bind (expect_tells _ _) fun _ => tells_pure _
  refine tells_bind (expect_tells _ _) fun _ => ?_
  refine tells_bind (sees_tells _) fun closes => tells_ite (finish []) ?_
  exact tells_bind (parameters_tell budget) fun given => finish given

theorem function_body_tells (budget : Nat) (function : Declaration) :
    Tells Parser.Telling (Grammar.functionBody budget function) := by
  have body : Tells Parser.Telling
      (releasing (Grammar.block budget) (change Analyzer.endFunction)) :=
    releasing_tells (fun _ => rfl) (statements_told budget).block
  refine tells_bind (analyze_tells (Analysis.begin_function_tells function)) fun _ => ?_
  exact tells_bind body fun _ => demand_tells _

theorem function_tells (budget : Nat) : Tells Parser.Telling (Grammar.function budget) := by
  refine tells_bind (expect_tells _ _) fun _ => tells_bind expect_name_tells fun named => ?_
  refine tells_bind (in_scope_tells _ (parameter_list_tells budget)) fun parameters => ?_
  refine tells_bind (expect_tells _ _) fun _ => tells_bind (type_tells budget) fun result => ?_
  refine tells_bind (analyze_tells (Analysis.function_tells _ _ _ _)) fun function => ?_
  refine tells_bind (takes_tells _) fun ended => tells_ite (tells_pure _) ?_
  refine tells_bind (sees_tells _) fun bodied => ?_
  exact tells_ite (function_body_tells budget function) (unexpected_tells _)

theorem declaration_tells (budget : Nat) : Tells Parser.Telling (Grammar.declaration budget) :=
  tells_bind at_function_tells fun _ => tells_ite (function_tells budget) (object_tells budget)

theorem declarations_tell (budget : Nat) :
    Tells Parser.Telling (Grammar.declarations budget) := by
  induction budget with
  | zero => exact tells_breach _
  | succ budget ih =>
      rw [Grammar.declarations.eq_2]
      refine tells_bind peek_tells fun token => tells_ite (tells_pure _) ?_
      exact tells_bind (declaration_tells budget) fun _ => tells_bind ih fun _ => tells_pure _

theorem program_tells (budget : Nat) : Tells Parser.Telling (Grammar.program budget) :=
  tells_bind (in_scope_tells _ (declarations_tell budget)) fun _ => tells_pure _

theorem compile_told {text : String} {interner : Interner} {error : CompileError}
    (failed : (compile text interner).1 = .error (.error error)) : error.Told := by
  have compiled := compiled text interner
  rw [failed] at compiled
  generalize (compile text interner).2 = names at compiled
  cases compiled with
  | unmade made =>
      cases Parser.made_of_text made with
      | error drawn =>
          exact (Lexer.next_telling (Lexer.of_text_telling text interner) drawn).1 error rfl
  | @failed parser _ _ _ made ran =>
      have telling : parser.Telling := by
        cases Parser.made_of_text made with
        | parser drawn => exact (Lexer.next_telling (Lexer.of_text_telling text interner) drawn).2
      have tells := program_tells parser.budget parser telling
      have ran : Grammar.program parser.budget parser = _ := ran
      simp only [Achieves, ran] at tells
      exact tells

theorem opposed_types_differ :
    Function.Injective Ty.text ∧
    (∀ (production : Production) (before after : Analyzer) (error : CompileError),
      production.run before = .error (.error error) after →
        ∀ wanted found, error.Opposes wanted found →
          wanted ≠ found ∧ DifferentTypes wanted found) ∧
    ∀ (text : String) (interner : Interner) (error : CompileError),
      (compile text interner).1 = .error (.error error) →
        ∀ wanted found, error.Opposes wanted found →
          wanted ≠ found ∧ DifferentTypes wanted found := by
  have differ (error : CompileError) (told : error.Told) (wanted found : String)
      (opposes : error.Opposes wanted found) : wanted ≠ found ∧ DifferentTypes wanted found :=
    ⟨(told.opposed opposes).texts_differ, told.opposed opposes⟩
  refine ⟨Ty.text_injective, ?_, ?_⟩
  · intro production before after error failed
    exact differ error (Production.run_told failed)
  · intro text interner error failed
    exact differ error (compile_told failed)

theorem pointer_opposed_to_function :
    let first : Expr := .name "p" ⟨.val, "p", .pointer (.function [] .int), ⟨1, 5⟩⟩
      (.pointer (.function [] .int)) ⟨3, 9⟩
    let second : Expr := .name "f" ⟨.func, "f", .function [] (.pointer .int), ⟨2, 5⟩⟩
      (.function [] (.pointer .int)) ⟨3, 13⟩
    let choice : Production := .conditional (.bool true .bool ⟨3, 2⟩) first second ⟨3, 7⟩
    (∃ error after, choice.run .initial = .error (.error error) after ∧
      error.Opposes "*() -> int" "() -> *int" ∧ "*() -> int" ≠ "() -> *int") ∧
    ∃ error, (compile "def f() -> *int; var p: int = f;" .empty).1 = .error (.error error) ∧
      error.Opposes "int" "() -> *int" ∧ DifferentTypes "int" "() -> *int" := by
  intro first second choice
  constructor
  · have rejected : choice.run .initial = .error (.error
        ((Complaint.noCommonType "*() -> int" "() -> *int").raise ⟨3, 13⟩)) .initial := by rfl
    exact ⟨_, _, rejected, .inr rfl,
      (opposed_types_differ.2.1 choice .initial _ _ rejected _ _ (.inr rfl)).1⟩
  · obtain ⟨error, rejected, message⟩ := rejected_of_measured (show
      (rejection? (compile "def f() -> *int; var p: int = f;" .empty).1).map CompileError.message =
        some (Complaint.typeMismatch "int" "() -> *int").message by decide +kernel)
    exact ⟨error, rejected, .inl message,
      (opposed_types_differ.2.2 _ .empty error rejected _ _ (.inl message)).2⟩

end McFront
