import McFront.Proofs.Parsing.CompileRun
import McFront.Proofs.Parsing.Endings

set_option autoImplicit false

namespace McFront

open Parse

theorem type_ends (budget : Nat) : Ends (Level Eq) (Grammar.type budget) := by
  induction budget with
  | zero => exact ends_breach _
  | succ budget ih =>
      rw [Grammar.type.eq_2]
      refine nested_ends (ends_bind peek_ends fun token => ?_)
      generalize token.kind = kind
      split
      · exact ends_bind accept_ends fun _ => ends_pure _
      · refine ends_bind accept_ends fun _ => ?_
        exact ends_bind ih fun _ => ends_pure _
      · refine ends_bind accept_ends fun _ => ends_bind ih fun inner => ?_
        exact ends_bind (expect_ends _ _) fun _ => ends_pure _
      · exact unexpected_ends _

-- How the phrases of expressions end with this budget. Chains of operators and of conversions
-- deepen as they go; the phrase that starts a chain comes back to its own depth.
structure ExpressionsEnd (budget : Nat) : Prop where
  expression : Ends (Level Eq) (Grammar.expression budget)
  binary (least : Nat) : Ends (Level Eq) (Grammar.binary budget least)
  operations (least : Nat) (left : Expr) :
    Ends SameAnalysis (Grammar.operations budget least left)
  cast : Ends (Level Eq) (Grammar.cast budget)
  casts (source : Expr) : Ends SameAnalysis (Grammar.casts budget source)
  unary : Ends (Level Eq) (Grammar.unary budget)
  applications (head : Expr) : Ends (Level Eq) (Grammar.applications budget head)
  arguments (close : Punctuation) (what : String) :
    Ends (Level Eq) (Grammar.arguments budget close what)
  expressions : Ends (Level Eq) (Grammar.expressions budget)
  primary : Ends (Level Eq) (Grammar.primary budget)

section Step

variable {budget : Nat} (lower : ExpressionsEnd budget)
include lower

theorem expression_ends : Ends (Level Eq) (Grammar.expression (budget + 1)) := by
  rw [Grammar.expression.eq_2]
  refine nested_ends (ends_bind (lower.binary _) fun left => ?_)
  refine ends_bind peek_ends fun token => ?_
  generalize token.kind = kind
  split
  · refine ends_bind accept_ends fun _ => ends_bind lower.expression fun first => ?_
    refine ends_bind (expect_ends _ _) fun _ => ?_
    exact ends_bind lower.expression fun _ => ends_check _
  · refine ends_bind accept_ends fun _ => ?_
    exact ends_bind lower.expression fun _ => ends_check _
  · exact ends_pure _

theorem binary_ends (least : Nat) : Ends (Level Eq) (Grammar.binary (budget + 1) least) := by
  rw [Grammar.binary.eq_2]
  exact keeping_depth_ends
    (ends_after lower.cast fun left => lower.operations least left)

theorem operations_end (least : Nat) (left : Expr) :
    Ends SameAnalysis (Grammar.operations (budget + 1) least left) := by
  rw [Grammar.operations.eq_2]
  refine ends_after peek_ends fun token => ?_
  cases Grammar.binaryOperation? least token with
  | none => exact ends_pure _
  | some operation =>
      refine ends_bind deepen_ends fun _ => ?_
      refine ends_after accept_ends fun token => ?_
      refine ends_after (demand_ends _) fun operator => ?_
      refine ends_after (lower.binary _) fun right => ?_
      exact ends_after (ends_check _) fun joined => lower.operations least joined

theorem cast_ends : Ends (Level Eq) (Grammar.cast (budget + 1)) := by
  rw [Grammar.cast.eq_2]
  exact keeping_depth_ends
    (ends_after lower.unary fun source => lower.casts source)

theorem casts_end (source : Expr) :
    Ends SameAnalysis (Grammar.casts (budget + 1) source) := by
  rw [Grammar.casts.eq_2]
  refine ends_after peek_ends fun token => ?_
  refine ends_ite ?_ (ends_pure _)
  refine ends_bind deepen_ends fun _ => ?_
  refine ends_after accept_ends fun _ => ?_
  refine ends_after (type_ends budget) fun target => ?_
  exact ends_after (ends_check _) fun cast => lower.casts cast

theorem unary_ends : Ends (Level Eq) (Grammar.unary (budget + 1)) := by
  rw [Grammar.unary.eq_2]
  refine ends_bind peek_ends fun token => ?_
  cases Grammar.unaryOperation? token with
  | some operation =>
      refine ends_bind accept_ends fun _ => ?_
      exact ends_bind (nested_ends lower.unary) fun _ => ends_check _
  | none => exact ends_bind lower.primary fun head => lower.applications head

theorem applications_end (head : Expr) :
    Ends (Level Eq) (Grammar.applications (budget + 1) head) := by
  rw [Grammar.applications.eq_2]
  refine ends_bind peek_ends fun token => ?_
  generalize token.kind = kind
  split
  · refine ends_bind accept_ends fun _ => ?_
    refine ends_bind (lower.arguments _ _) fun given => ?_
    exact ends_bind (ends_check _) fun call => lower.applications call
  · refine ends_bind accept_ends fun _ => ?_
    refine ends_bind (lower.arguments _ _) fun given => ?_
    exact ends_bind (ends_check _) fun element => lower.applications element
  · exact ends_pure _

theorem arguments_end (close : Punctuation) (what : String) :
    Ends (Level Eq) (Grammar.arguments (budget + 1) close what) := by
  rw [Grammar.arguments.eq_2]
  have finish (given : List Expr) : Ends (Level Eq) (do
      let _ ← expect (.punctuation close) what
      return given : Parse (List Expr)) :=
    ends_bind (expect_ends _ _) fun _ => ends_pure _
  refine ends_bind (sees_ends _) fun closes => ends_ite ?_ ?_
  · exact finish []
  · exact ends_bind lower.expressions fun given => finish given

theorem expressions_end : Ends (Level Eq) (Grammar.expressions (budget + 1)) := by
  rw [Grammar.expressions.eq_2]
  refine ends_bind lower.expression fun first => ?_
  refine ends_bind (takes_ends _) fun more => ends_ite ?_ (ends_pure _)
  exact ends_bind lower.expressions fun _ => ends_pure _

theorem primary_ends : Ends (Level Eq) (Grammar.primary (budget + 1)) := by
  rw [Grammar.primary.eq_2]
  refine ends_bind peek_ends fun token => ?_
  split
  · refine ends_bind accept_ends fun _ => ?_
    refine ends_bind lower.expression fun inner => ?_
    exact ends_bind (expect_ends _ _) fun _ => ends_pure _
  · exact ends_bind accept_ends fun _ => ends_pure _
  · exact ends_bind accept_ends fun _ => ends_pure _
  · exact ends_bind accept_ends fun _ => ends_pure _
  · exact ends_bind accept_ends fun _ => ends_pure _
  · refine ends_bind accept_ends fun _ => ?_
    exact ends_bind ends_get fun _ => ends_check _
  · exact unexpected_ends _

end Step

theorem expressions_release (budget : Nat) : ExpressionsEnd budget := by
  induction budget with
  | zero => constructor <;> intros <;> exact ends_breach _
  | succ budget lower =>
      exact {
        expression := expression_ends lower
        binary := binary_ends lower
        operations := operations_end lower
        cast := cast_ends lower
        casts := casts_end lower
        unary := unary_ends lower
        applications := applications_end lower
        arguments := arguments_end lower
        expressions := expressions_end lower
        primary := primary_ends lower }

theorem at_function_ends : Ends (Level Eq) Grammar.atFunction := by
  refine ends_bind (sees_ends _) fun seen => ends_ite ?_ (ends_pure _)
  exact ends_bind (lookahead_ends 2) fun _ => ends_pure _

theorem object_kind_ends : Ends (Level Eq) Grammar.objectKind := by
  refine ends_bind peek_ends fun token => ?_
  generalize token.kind = kind
  split
  · exact ends_pure _
  · exact ends_pure _
  · refine ends_bind (lookahead_ends 2) fun third => ?_
    exact ends_ite (ends_pure _) (reject_ends _ _)
  · exact unexpected_ends _

theorem object_ends (budget : Nat) : Ends (Level Gaining) (Grammar.object budget) := by
  refine ends_after object_kind_ends fun kind => ?_
  refine ends_after accept_ends fun _ => ?_
  refine ends_after expect_name_ends fun named => ?_
  refine ends_after (expect_ends _ _) fun _ => ?_
  refine ends_after (type_ends budget) fun type => ?_
  have finish (initial : Option Expr) : Ends (Level Gaining) (do
      let _ ← expect (.punctuation .semicolon) "';' after a declaration"
      analyze (Analysis.object kind named.1 type initial named.2)) :=
    ends_after (expect_ends _ _) fun _ => analyze_ends (Analysis.object_ends _ _ _ _ _)
  refine ends_after (takes_ends _) fun given => ends_ite ?_ (finish none)
  have initial := ends_map some (expressions_release budget).expression
  exact ends_after initial fun initial => finish initial

theorem condition_ends (budget : Nat) : Ends (Level Eq) (Grammar.condition budget) := by
  refine ends_bind (expect_ends _ _) fun _ => ?_
  refine ends_bind (expressions_release budget).expression fun _ => ?_
  exact ends_bind (expect_ends _ _) fun _ => ends_check _

theorem jump_ends (word : String) (jump : Analyzer → Location → Checked Stmt) :
    Ends (Level Eq) (Grammar.jump word jump) := by
  refine ends_bind accept_ends fun token => ?_
  refine ends_bind (expect_ends _ _) fun _ => ?_
  exact ends_bind ends_get fun _ => ends_check _

theorem return_ends (budget : Nat) : Ends (Level Eq) (Grammar.returnStatement budget) := by
  refine ends_bind accept_ends fun token => ?_
  have finish (value : Option Expr) : Ends (Level Eq) (do
      let _ ← expect (.punctuation .semicolon) "';' after 'return'"
      let parser ← get
      check (parser.analyzer.returnValue value token.location)) := by
    refine ends_bind (expect_ends _ _) fun _ => ?_
    exact ends_bind ends_get fun _ => ends_check _
  refine ends_bind (sees_ends _) fun closes => ends_ite (finish none) ?_
  have value := ends_map some (expressions_release budget).expression
  exact ends_bind value fun value => finish value

theorem local_ends (budget : Nat) :
    Ends (Level Gaining) (Grammar.localDeclaration budget) := by
  refine ends_after at_function_ends fun atFunction => ends_ite ?_ ?_
  · exact ends_after peek_ends fun _ => reject_ends _ _
  · exact ends_bind (object_ends budget) fun _ => ends_pure _

structure StatementsEnd (budget : Nat) : Prop where
  statement : Ends (Level Gaining) (Grammar.statement budget)
  block : Ends (Level Eq) (Grammar.block budget)
  statements : Ends (Level Gaining) (Grammar.statements budget)

section Step

variable {budget : Nat} (lower : StatementsEnd budget)
include lower

theorem statement_ends : Ends (Level Gaining) (Grammar.statement (budget + 1)) := by
  rw [Grammar.statement.eq_2]
  refine nested_ends (ends_after peek_ends fun token => ?_)
  generalize token.kind = kind
  split
  · exact lower.block.weaken Lasting.of_same
  · refine ends_after accept_ends fun _ => ?_
    refine ends_after (condition_ends budget) fun condition => ?_
    refine ends_bind lower.statement fun first => ?_
    refine ends_after (takes_ends _) fun other => ends_ite ?_ (ends_pure _)
    exact ends_bind lower.statement fun _ => ends_pure _
  · refine ends_after accept_ends fun _ => ?_
    refine ends_after (condition_ends budget) fun condition => ?_
    exact ends_bind (in_loop_ends lower.statement) fun _ => ends_pure _
  · exact (jump_ends _ _).weaken Lasting.of_same
  · exact (jump_ends _ _).weaken Lasting.of_same
  · exact (return_ends budget).weaken Lasting.of_same
  · exact local_ends budget
  · exact local_ends budget
  · exact local_ends budget
  · refine ends_after (expressions_release budget).expression fun expr => ?_
    exact ends_after (expect_ends _ _) fun _ => ends_pure _

theorem block_ends : Ends (Level Eq) (Grammar.block (budget + 1)) := by
  rw [Grammar.block.eq_2]
  refine ends_bind (expect_ends _ _) fun _ => ?_
  refine ends_bind (in_scope_ends lower.statements) fun statements => ?_
  exact ends_bind (expect_ends _ _) fun _ => ends_pure _

theorem statements_end : Ends (Level Gaining) (Grammar.statements (budget + 1)) := by
  rw [Grammar.statements.eq_2]
  refine ends_after peek_ends fun token => ends_ite (ends_pure _) ?_
  refine ends_ite ((unexpected_ends _).weaken Lasting.of_same) ?_
  refine ends_bind lower.statement fun first => ?_
  exact ends_bind lower.statements fun _ => ends_pure _

end Step

theorem statements_release (budget : Nat) : StatementsEnd budget := by
  induction budget with
  | zero => constructor <;> exact ends_breach _
  | succ budget lower =>
      exact {
        statement := statement_ends lower
        block := block_ends lower
        statements := statements_end lower }

theorem parameters_end (budget : Nat) : Ends (Level Gaining) (Grammar.parameters budget) := by
  induction budget with
  | zero => exact ends_breach _
  | succ budget ih =>
      rw [Grammar.parameters.eq_2]
      refine ends_after expect_name_ends fun named => ?_
      refine ends_after (expect_ends _ _) fun _ => ?_
      refine ends_after (type_ends budget) fun type => ?_
      refine ends_bind (analyze_ends (Analysis.parameter_ends _ _ _)) fun first => ?_
      refine ends_after (takes_ends _) fun more => ends_ite ?_ (ends_pure _)
      exact ends_bind ih fun _ => ends_pure _

theorem parameter_list_ends (budget : Nat) :
    Ends (Level Gaining) (Grammar.parameterList budget) := by
  have finish (given : List Declaration) : Ends (Level Gaining) (do
      let _ ← expect (.punctuation .rightParen) "')' after the parameter list"
      return given : Parse (List Declaration)) :=
    ends_after (expect_ends _ _) fun _ => ends_pure _
  refine ends_after (expect_ends _ _) fun _ => ?_
  refine ends_after (sees_ends _) fun closes => ends_ite (finish []) ?_
  exact ends_bind (parameters_end budget) fun given => finish given

theorem function_body_ends (budget : Nat) (function : Declaration) :
    Ends (Level GainingIdle) (Grammar.functionBody budget function) := by
  have body : Ends (Level GainingIdle) (do
      analyze (Analysis.beginFunction function)
      releasing (Grammar.block budget) (change Analyzer.endFunction)) := by
    intro start
    rw [ending_bind]
    simp only [analyze]
    cases ran : Analysis.beginFunction function start.analyzer with
    | ok _ begun =>
        obtain ⟨_, rfl⟩ := begin_function_ran ran
        have left := (statements_release budget).block
          { start with analyzer := { start.analyzer with function := some function, loops := 0 } }
        show Level GainingIdle start (ending (releasing (Grammar.block budget) _)
          { start with analyzer := { start.analyzer with function := some function, loops := 0 } })
        rw [ending_releasing]
        refine ⟨fun idle => ?_, left.depth⟩
        simp only [change, ← left.analysis]
        have same : start.analyzer.endFunction = start.analyzer := by
          unfold Analyzer.endFunction
          rw [← idle.function, ← idle.loops]
        show Gaining start.analyzer start.analyzer.endFunction
        rw [same]
        exact Chains.refl start.analyzer
    | error fault after =>
        rw [begin_function_failed ran]
        exact Chains.refl start
  have joined : Grammar.functionBody budget function = (do
      analyze (Analysis.beginFunction function)
      releasing (Grammar.block budget) (change Analyzer.endFunction)) >>= fun body =>
        demand (function.define body) := by
    rw [bind_assoc]
    rfl
  rw [joined]
  exact ends_bind body fun _ =>
    (demand_ends _).weaken Lasting.of_same

theorem function_ends (budget : Nat) :
    Ends (Level GainingIdle) (Grammar.function budget) := by
  refine ends_after (expect_ends _ _) fun _ => ?_
  refine ends_after expect_name_ends fun named => ?_
  refine ends_after (in_scope_ends (parameter_list_ends budget)) fun parameters => ?_
  refine ends_after (expect_ends _ _) fun _ => ?_
  refine ends_after (type_ends budget) fun result => ?_
  have declares := analyze_ends (Analysis.function_ends named.1 parameters result named.2)
  refine ends_bind (declares.weaken Level.gaining_idle) fun function => ?_
  refine ends_after (takes_ends _) fun ended => ?_
  refine ends_ite (ends_pure _) ?_
  refine ends_after (sees_ends _) fun bodied => ?_
  exact ends_ite (function_body_ends budget function)
    ((unexpected_ends _).weaken Lasting.of_same)

theorem declaration_ends (budget : Nat) :
    Ends (Level GainingIdle) (Grammar.declaration budget) :=
  ends_after at_function_ends fun _ =>
    ends_ite (function_ends budget) ((object_ends budget).weaken Level.gaining_idle)

theorem declarations_end (budget : Nat) :
    Ends (Level GainingIdle) (Grammar.declarations budget) := by
  induction budget with
  | zero => exact ends_breach _
  | succ budget ih =>
      rw [Grammar.declarations.eq_2]
      refine ends_after peek_ends fun token => ?_
      refine ends_ite (ends_pure _) ?_
      refine ends_bind (declaration_ends budget) fun first => ?_
      exact ends_bind ih fun _ => ends_pure _

theorem program_ends (budget : Nat) {start : Parser} (idle : start.analyzer.Idle) :
    Level Eq start (ending (Grammar.program budget) start) := by
  have scope : Level Eq start
      (ending (inScope .outermost (Grammar.declarations budget)) start) :=
    in_scope_ends_at fun inside filled =>
      have left := declarations_end budget inside
      have entered : (start.analyzer.entered .outermost).Idle := ⟨idle.function, idle.loops⟩
      ⟨left.analysis (filled.idle entered), left.depth⟩
  have whole : ending (Grammar.program budget) start =
      ending (inScope .outermost (Grammar.declarations budget)) start := ending_bind_pure _ _ start
  rwa [whole]

def Widened (before after : Parser) : Prop :=
  ∃ scope outer added, before.analyzer.scopes.scopes = scope :: outer ∧
    after.analyzer =
      { before.analyzer with scopes := ⟨⟨scope.kind, added ++ scope.entries⟩ :: outer⟩ } ∧
    (added.map Prod.fst).Nodup ∧ (∀ entry ∈ added, scope.get? entry.1 = none) ∧
    after.depth = before.depth

theorem GainsAll.widens {entities : List Entity} {before after : Analyzer}
    {scope : Scope Entity} {outer : List (Scope Entity)} (gains : GainsAll entities before after)
    (opened : before.scopes.scopes = scope :: outer) :
    ∃ added : List (String × Entity),
      after = { before with scopes := ⟨⟨scope.kind, added ++ scope.entries⟩ :: outer⟩ } ∧
        (added.map Prod.fst).Nodup ∧ ∀ entry ∈ added, scope.get? entry.1 = none := by
  induction gains generalizing scope with
  | @nil analyzer =>
      obtain ⟨⟨scopes⟩, function, loops⟩ := analyzer
      cases opened
      exact ⟨[], rfl, List.nodup_nil, nofun⟩
  | @cons entity others before mid after first rest ih =>
      cases first with
      | gain fresh =>
          cases opened
          obtain ⟨added, rfl, distinct, absent⟩ := ih rfl
          have apart : ∀ entry ∈ added, entry.1 ≠ entity.name ∧ scope.get? entry.1 = none := by
            intro entry member
            have missing := absent entry member
            simp only [Scope.get?, List.lookup_cons] at missing
            by_cases same : entry.1 = entity.name
            · simp [same] at missing
            · rw [beq_false_of_ne same] at missing
              exact ⟨same, missing⟩
          refine ⟨added ++ [(entity.name, entity)], by simp, ?_, ?_⟩
          · rw [List.map_append, List.map_singleton, List.nodup_append]
            refine ⟨distinct, List.pairwise_singleton _ _, ?_⟩
            intro name held other isOther same
            obtain ⟨entry, member, rfl⟩ := List.mem_map.mp held
            exact (apart entry member).1 (same.trans (List.mem_singleton.mp isOther))
          · intro entry member
            rcases List.mem_append.mp member with member | member
            · exact (apart entry member).2
            · cases List.mem_singleton.mp member
              exact fresh

theorem Level.widens {before after : Parser} (level : Level Gaining before after)
    (opened : before.analyzer.scopes.scopes ≠ []) : Widened before after := by
  obtain ⟨⟨entities, gains⟩, depth⟩ := level
  obtain ⟨scope, outer, split⟩ := List.exists_cons_of_ne_nil opened
  obtain ⟨added, isAfter, distinct, absent⟩ := gains.widens split
  exact ⟨scope, outer, added, split, isAfter, distinct, absent, depth⟩

-- A call that ends, with a result or with an error of the text, in such a state.
def Returns {α : Type} (holds : Parser → Prop) : EStateM.Result Fault Parser α → Prop
  | .ok _ after | .error (.error _) after => holds after
  | .error (.breach _) _ => False

theorem ensures_returns {α : Type} {phrase : Parse α} {start : Parser}
    {post : α → Parser → Prop} {holds : Parser → Prop} (ensured : Ensures phrase start post)
    (left : holds (ending phrase start)) : Returns holds (phrase start) := by
  unfold ending at left
  rcases ensures_total ensured with ⟨a, after, ran⟩ | ⟨error, after, ran⟩ <;> rw [ran] at left ⊢ <;>
    exact left

theorem own_stance {parser : Parser} (ready : parser.pending ≠ []) :
    ∃ input last, parser.Stands parser.analyzer parser.depth ⟨input, last⟩ ∧
      8 * (input.length + 1) ≤ parser.budget := by
  obtain ⟨⟨input, last⟩, outlook⟩ :
    ∃ outlook, Parser.outlookFrom parser.lexer parser.pending = outlook := ⟨_, rfl⟩
  have stands : parser.Stands parser.analyzer parser.depth ⟨input, last⟩ :=
    ⟨ready, rfl, rfl, outlook⟩
  exact ⟨input, last, stands, stands.budget_enough⟩

theorem expression_returns {parser : Parser} (ready : parser.pending ≠ []) :
    Returns (Level Eq parser) parser.expression := by
  obtain ⟨input, last, stands, enough⟩ := own_stance ready
  show Returns (Level Eq parser) (Grammar.expression parser.budget parser)
  have ensured := (expressions_run parser.budget).expression (by omega) parser last stands
  exact ensures_returns ensured ((expressions_release parser.budget).expression parser)

theorem phrases_release (parser : Parser) (ready : parser.pending ≠ [])
    (opened : parser.analyzer.scopes.scopes ≠ []) (inactive : parser.analyzer.function = none)
    (outside : parser.analyzer.loops = 0) :
    Returns (Level Eq parser) parser.program ∧ Returns (Widened parser) parser.declaration ∧
      Returns (Widened parser) parser.statement ∧ Returns (Level Eq parser) parser.expression ∧
        Returns (Level Eq parser) parser.type := by
  have idle : parser.analyzer.Idle := ⟨inactive, outside⟩
  have isOpen : parser.analyzer.Open := ⟨opened, by simp [inactive]⟩
  obtain ⟨input, last, stands, enough⟩ := own_stance ready
  have declared := declaration_ends parser.budget parser
  refine ⟨?_, ?_, ?_, expression_returns ready, ?_⟩
  · show Returns (Level Eq parser) (Grammar.program parser.budget parser)
    have ensured : Ensures (Grammar.program parser.budget) parser fun _ _ => True :=
      ensures_bind (outermost_meets idle (by omega) stands) fun _ _ _ => ensures_pure trivial
    exact ensures_returns ensured (program_ends parser.budget idle)
  · show Returns (Widened parser) (Grammar.declaration parser.budget parser)
    have ensured : Ensures (Grammar.declaration parser.budget) parser _ :=
      declaration_meets opened idle (by omega) parser last stands
    exact ensures_returns ensured
      (Level.widens ⟨declared.analysis idle, declared.depth⟩ opened)
  · show Returns (Widened parser) (Grammar.statement parser.budget parser)
    have ensured := (statements_run parser.budget).statement isOpen (by omega) parser last stands
    exact ensures_returns ensured
      (Level.widens ((statements_release parser.budget).statement parser) opened)
  · show Returns (Level Eq parser) (Grammar.type parser.budget parser)
    have ensured := type_meets parser.budget (by omega) parser last stands
    exact ensures_returns ensured (type_ends parser.budget parser)

def errorOf? {α : Type} : EStateM.Result Fault Parser α → Option CompileError
  | .error (.error error) _ => some error
  | _ => none

theorem errs_of_measured {α β : Type} {result : EStateM.Result Fault Parser α}
    {measure : CompileError → β} {b : β} (found : (errorOf? result).map measure = some b) :
    ∃ error after, result = .error (.error error) after ∧ measure error = b := by
  unfold errorOf? at found
  split at found
  · exact ⟨_, _, rfl, Option.some.inj found⟩
  · cases found

theorem failing_body_releases :
    ∃ parser inside after error,
      (Parser.ofText "def f(a: int) -> int { while (true) { var b: bool = a; } }" .empty).1 =
        .ok parser ∧
      parser.enterOutermost = .ok () inside ∧ inside.declaration = .error (.error error) after ∧
        error.kind = .typing ∧ Widened inside after ∧ after.analyzer.depth = 1 ∧
          after.analyzer.function = none ∧ after.analyzer.loops = 0 ∧ after.depth = 0 := by
  obtain ⟨parser, made, measured⟩ := exists_of_measured (show
    (Parser.ofText "def f(a: int) -> int { while (true) { var b: bool = a; } }" .empty).1.toOption.map
      (fun parser : Parser => (errorOf? (Parser.declaration
        { parser with analyzer := parser.analyzer.entered .outermost })).map CompileError.kind) =
      some (some .typing) by decide +kernel)
  obtain ⟨error, after, ran, typing⟩ := errs_of_measured measured
  have stands := Parser.of_text_stands (Prod.ext made rfl)
  have initial := stands.analyzer
  have released := (phrases_release { parser with analyzer := parser.analyzer.entered .outermost }
    stands.ready (List.cons_ne_nil _ _) (by rw [initial]; rfl) (by rw [initial]; rfl)).2.1
  rw [ran] at released
  have widened := released
  obtain ⟨scope, outer, added, split, isAfter, _, _, depth⟩ := released
  rw [initial] at split isAfter
  cases split
  refine ⟨parser, _, after, error, made, rfl, ran, typing, widened, ?_, ?_, ?_, ?_⟩
  · rw [isAfter]
    rfl
  · rw [isAfter]
    rfl
  · rw [isAfter]
    rfl
  · exact depth.trans stands.depth

end McFront
