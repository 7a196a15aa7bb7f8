import McFront.Proofs.Analysis.Invariant
import McFront.Proofs.Parsing.CompileRun
import McFront.Proofs.Parsing.Frame
import McFront.Proofs.Tree.Nodes

set_option autoImplicit false

namespace McFront

inductive Declaration.IsGiven : Declaration → Prop where
  | given {name : String} {type : Ty} {place : Location} :
      IsGiven (.object ⟨.param, name, type, place⟩ none)

inductive Declaration.IsStored : Declaration → Prop where
  | empty {name : String} {type : Ty} {place : Location} :
      IsStored (.object ⟨.var, name, type, place⟩ none)
  | filled {kind : Kind} {name : String} {type : Ty} {place : Location} {value : Expr}
      (isObject : kind = .var ∨ kind = .const ∨ kind = .val) (typed : value.type = type) :
      IsStored (.object ⟨kind, name, type, place⟩ (some value))

-- A statement in a function with this result, where the flag says whether it stands in the body of
-- a loop of that function.
inductive Stmt.Proper (result : Ty) : Bool → Stmt → Prop where
  | block {looping : Bool} {stmts : List Stmt}
      (inner : ∀ stmt ∈ stmts, Proper result looping stmt) : Proper result looping (.block stmts)
  | when {looping : Bool} {condition : Expr} {body : Stmt} (tested : condition.type = .bool)
      (inner : Proper result looping body) : Proper result looping (.when condition body)
  | ifElse {looping : Bool} {condition : Expr} {first second : Stmt}
      (tested : condition.type = .bool) (chosen : Proper result looping first)
      (otherwise : Proper result looping second) :
      Proper result looping (.ifElse condition first second)
  | whileLoop {looping : Bool} {condition : Expr} {body : Stmt} (tested : condition.type = .bool)
      (inner : Proper result true body) : Proper result looping (.whileLoop condition body)
  | breakLoop : Proper result true .breakLoop
  | continueLoop : Proper result true .continueLoop
  | returnValue {looping : Bool} {value : Expr} (typed : value.type = result) :
      Proper result looping (.returnValue value)
  | declare {looping : Bool} {declaration : Declaration} (stored : declaration.IsStored) :
      Proper result looping (.declare declaration)
  | evaluate {looping : Bool} {expr : Expr} : Proper result looping (.evaluate expr)

structure Entity.Takes (entity : Entity) (parameters : List Declaration) (result : Ty) : Prop where
  isFunction : entity.kind = .func
  given : ∀ parameter ∈ parameters, parameter.IsGiven
  typed : entity.type =
    .function ((parameters.filterMap Declaration.entity?).map Entity.type) result

inductive Declaration.IsOutermost : Declaration → Prop where
  | object {declaration : Declaration} (stored : declaration.IsStored) : IsOutermost declaration
  | prototype {entity : Entity} {parameters : List Declaration} {result : Ty}
      (takes : entity.Takes parameters result) : IsOutermost (.prototype entity parameters)
  | function {entity : Entity} {parameters : List Declaration} {result : Ty} {stmts : List Stmt}
      (takes : entity.Takes parameters result) (inner : ∀ stmt ∈ stmts, stmt.Proper result false) :
      IsOutermost (.function entity parameters (.block stmts))

inductive Declaration.WellStructured : Declaration → Prop where
  | program {declarations : List Declaration}
      (outermost : ∀ declaration ∈ declarations, declaration.IsOutermost) :
      WellStructured (.program declarations)

variable {before mid after analyzer : Analyzer} {depth : Nat} {input rest : List Token}
  {declaration program : Declaration} {result : Ty}

def Analyzer.Returns (analyzer : Analyzer) (result : Ty) : Prop :=
  analyzer.function.bind Declaration.result? = some result

theorem SameFrame.returns (same : SameFrame before after) (returns : before.Returns result) :
    after.Returns result := by
  unfold Analyzer.Returns
  rwa [same.function]

theorem ConditionReading.tested {condition : Expr}
    (reading : ConditionReading analyzer depth condition input rest) : condition.type = .bool := by
  cases reading with
  | condition opened inner closed required => exact (Expr.require_truth_ok required).2

theorem ObjectReading.stored (reading : ObjectReading before depth declaration input after rest) :
    declaration.IsStored := by
  cases reading with
  | object introduced isKind isName divided isType value closed built =>
      obtain ⟨isObject, _, initialized, rfl, _⟩ := object_gains built
      cases initialized with
      | missing isVar =>
          cases isVar
          exact .empty
      | given required => exact .filled isObject (Expr.require_type_ok required).2

def Sentence.Proper (result : Ty) (looping : Bool) : Sentence → Prop
  | .statement stmt => stmt.Proper result looping
  | .block stmt => ∃ stmts, stmt = .block stmts ∧ ∀ inner ∈ stmts, inner.Proper result looping
  | .statements stmts => ∀ stmt ∈ stmts, stmt.Proper result looping

theorem SentenceReading.proper {sentence : Sentence} {looping : Bool}
    (reading : SentenceReading before depth sentence input after rest)
    (returns : before.Returns result) (counted : before.loops ≠ 0 → looping = true) :
    sentence.Proper result looping := by
  induction reading generalizing looping with
  | block within inner ih =>
      obtain ⟨stmts, rfl, proper⟩ := ih returns counted
      exact .block proper
  | when within named tested inner stop ih => exact .when tested.tested (ih returns counted)
  | @ifElse before mid _ _ _ _ _ _ _ _ _ _ _ within named tested chosen divided otherwise first
      second =>
      have same : SameFrame before mid := chosen.frames.same_frame
      have stillCounted : mid.loops ≠ 0 → looping = true := by rwa [same.loops]
      exact .ifElse tested.tested (first returns counted)
        (second (same.returns returns) stillCounted)
  | whileLoop within named tested inner ih =>
      exact .whileLoop tested.tested (ih returns fun _ => rfl)
  | breakLoop within named closed built =>
      obtain ⟨rfl, opened⟩ := in_loop_ok built
      rw [counted opened]
      exact .breakLoop
  | continueLoop within named closed built =>
      obtain ⟨rfl, opened⟩ := in_loop_ok built
      rw [counted opened]
      exact .continueLoop
  | returnValue within named inner built =>
      obtain ⟨value, wanted, rfl, active, source, _, required⟩ := return_value_ok built
      have isResult : wanted = result := Option.some.inj (active.symm.trans returns)
      exact .returnValue ((Expr.require_type_ok required).2.trans isResult)
  | declare within inner => exact .declare inner.stored
  | evaluate within inner closed => exact .evaluate
  | braces opened entered inner closed ih =>
      rw [enter_block] at entered
      obtain ⟨shared, _, filled⟩ := declare_all_gains _ entered
      have same := filled.same_frame
      exact ⟨_, rfl, ih (same.returns returns) fun isOpen => counted (same.loops ▸ isOpen)⟩
  | noStatements stop => exact List.forall_mem_nil _
  | @moreStatements before mid _ _ _ _ _ _ _ head tail first others =>
      have same : SameFrame before mid := head.frames.same_frame
      have stillCounted : mid.loops ≠ 0 → looping = true := by rwa [same.loops]
      exact List.forall_mem_cons.mpr
        ⟨first returns counted, others (same.returns returns) stillCounted⟩

theorem ParametersReading.given {parameters : List Declaration}
    (reading : ParametersReading depth before parameters input after rest) :
    ∀ parameter ∈ parameters, parameter.IsGiven := by
  induction reading with
  | one isName divided isType built stop =>
      obtain ⟨rfl, _⟩ := parameter_gains built
      exact List.forall_mem_singleton.mpr .given
  | more isName divided isType built continued tail ih =>
      obtain ⟨rfl, _⟩ := parameter_gains built
      exact List.forall_mem_cons.mpr ⟨.given, ih⟩

theorem ParameterListReading.given {parameters : List Declaration}
    (reading : ParameterListReading depth before parameters input after rest) :
    ∀ parameter ∈ parameters, parameter.IsGiven := by
  cases reading with
  | empty opened closed => exact List.forall_mem_nil _
  | filled opened present inner closed => exact inner.given

theorem HeaderReading.takes (reading : HeaderReading depth before declaration input after rest) :
    ∃ entity parameters result, declaration = .prototype entity parameters ∧
      entity.Takes parameters result := by
  cases reading.prototyped with
  | @function _ _ parameters result _ _ _ _ _ _ _ taken isType listed gains =>
      refine ⟨_, parameters, result, rfl, rfl, taken.given, ?_⟩
      rw [listed_entities listed]

theorem DeclarationReading.outermost
    (reading : DeclarationReading depth before declaration input after rest) :
    declaration.IsOutermost := by
  cases reading with
  | object inner => exact .object inner.stored
  | prototype header closed =>
      obtain ⟨entity, parameters, result, rfl, takes⟩ := header.takes
      exact .prototype takes
  | function header begins inner defined =>
      obtain ⟨entity, parameters, result, rfl, takes⟩ := header.takes
      obtain ⟨_, rfl⟩ := begin_function_ran begins
      cases defined
      have returns : Declaration.result? (.prototype entity parameters) = some result := by
        rw [Declaration.result?, takes.typed]
        rfl
      have counted : 0 ≠ 0 → false = true := fun isOpen => absurd rfl isOpen
      obtain ⟨stmts, rfl, proper⟩ := inner.proper returns counted
      exact .function takes proper

theorem DeclarationsReading.outermost {declarations : List Declaration}
    (reading : DeclarationsReading depth before declarations input after) :
    ∀ declaration ∈ declarations, declaration.IsOutermost := by
  induction reading with
  | done => exact List.forall_mem_nil _
  | more head tail ih => exact List.forall_mem_cons.mpr ⟨head.outermost, ih⟩

theorem program_well_structured (text : String) (interner : Interner) (program : Declaration)
    (accepted : (compile text interner).1 = .ok program) : program.WellStructured := by
  obtain ⟨_, _, reading⟩ := compile_reads accepted
  cases reading with
  | program entered inner => exact .program inner.outermost

theorem looping_well_structured :
    ∃ program, (compile
      "let n: int = 3; def f(x: int) -> int \x7b while (x) if (n) break; else continue; return x; \x7d"
        .empty).1 = .ok program ∧
      program.declared.length = 3 ∧ program.WellStructured := by
  obtain ⟨program, accepted, declared⟩ := exists_of_measured (show (compile
      "let n: int = 3; def f(x: int) -> int \x7b while (x) if (n) break; else continue; return x; \x7d"
        .empty).1.toOption.map (fun program => program.declared.length) = some 3
    by decide +kernel)
  exact ⟨program, accepted, declared, program_well_structured _ .empty program accepted⟩

end McFront
