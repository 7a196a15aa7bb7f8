import McFront.Proofs.Analysis.Invariant
import McFront.Proofs.Parsing.CompileRun
import McFront.Proofs.Tree.Nodes

set_option autoImplicit false

namespace McFront

open McFront.Expr (Wraps)

namespace Expr

theorem forall_nodes_of {law : Expr → Prop} {exprs : List Expr} :
    (∀ node ∈ nodesOf exprs, law node) ↔ ∀ e ∈ exprs, ∀ node ∈ e.nodes, law node := by
  induction exprs with
  | nil => simp [nodesOf]
  | cons e exprs ih => rw [nodesOf, List.forall_mem_append, List.forall_mem_cons, ih]

end Expr

-- A property that the rules keep, and a law that holds then at every node of an expression.
structure Rule.Keeps (property law : Expr → Prop) : Prop where
  bool (value : Bool) (place : Location) : property (.bool value .bool place)
  int (value : Int) (place : Location) : property (.int value .int place)
  float (value : Binary64) (place : Location) : property (.float value .float place)
  char (value : Char) (place : Location) : property (.char value .char place)
  name {entity : Entity} (spelled : String) (place : Location) (plain : entity.type.Plain) :
    property (Rule.name spelled entity place)
  unary {operation : UnaryOp} {operand e : Expr} {place : Location}
    (built : Rule.unary operation operand place = .ok e) (kept : property operand) : property e
  binary {operation : BinaryOp} {left right e : Expr} {place : Location}
    (built : Rule.binary operation left right place = .ok e) (isLeft : property left)
    (isRight : property right) : property e
  assign {target value e : Expr} {place : Location} (built : Rule.assign target value place = .ok e)
    (isTarget : property target) (isValue : property value) : property e
  conditional {condition first second e : Expr} {place : Location}
    (built : Rule.conditional condition first second place = .ok e)
    (isCondition : property condition) (isFirst : property first) (isSecond : property second) :
    property e
  cast {source e : Expr} {type : Ty} {place : Location} (built : Rule.cast source type place = .ok e)
    (isSource : property source) (plain : type.Plain) : property e
  call {callee e : Expr} {given : List Expr} {place : Location}
    (built : Rule.call callee given place = .ok e) (isCallee : property callee)
    (areGiven : ∀ argument ∈ given, property argument) : property e
  index {base e : Expr} {given : List Expr} {place : Location}
    (built : Rule.index base given place = .ok e) (isBase : property base)
    (areGiven : ∀ argument ∈ given, property argument) : property e
  wraps {e operand : Expr} (wraps : Wraps e operand) (kept : property e) : property operand
  everywhere {e : Expr} (kept : property e) : ∀ node ∈ e.nodes, law node

def Phrase.Has (property : Expr → Prop) : Phrase → Prop
  | .expression e | .binary _ e | .cast e | .unary e | .primary e => property e
  | .operations _ before e | .casts before e | .applications before e =>
      property before → property e
  | .arguments _ given | .expressions given => ∀ e ∈ given, property e

def Sentence.nodes : Sentence → List Expr
  | .statement stmt | .block stmt => stmt.nodes
  | .statements stmts => Stmt.nodesOf stmts

theorem nodes_of_parameters {parameters : List Declaration}
    (made : ∀ parameter ∈ parameters, parameter.IsParameter) :
    Declaration.nodesOf parameters = [] := by
  induction parameters with
  | nil => rfl
  | cons first parameters ih =>
      rw [List.forall_mem_cons] at made
      obtain ⟨⟨entity, rfl, _⟩, others⟩ := made
      rw [Declaration.nodesOf, ih others]
      rfl

section

variable {property law : Expr → Prop} {before after analyzer : Analyzer} {depth : Nat}
  {input rest : List Token} {declaration : Declaration}

theorem Reading.has {phrase : Phrase} (reading : Reading analyzer depth phrase input rest)
    (keeps : Rule.Keeps property law) (sound : analyzer.Sound) : phrase.Has property := by
  induction reading with
  | plain within operand stop ih => exact ih
  | conditional within tested asked chosen divided otherwise built condition first second =>
      exact keeps.conditional built condition first second
  | assignment within place assigned given built target value =>
      exact keeps.assign built target value
  | binary operand chain left whole => exact whole left
  | joined stop => exact id
  | operation named meant within operand built chain right whole =>
      exact fun left => whole (keeps.binary built left right)
  | cast operand chain source whole => exact whole source
  | uncast stop => exact id
  | castTo named within type built chain whole =>
      exact fun source => whole (keeps.cast built source type.plain)
  | unary meant within inner built operand => exact keeps.unary built operand
  | applied stop operand chain head whole => exact whole head
  | unapplied stop => exact id
  | call opened inner built chain given whole =>
      exact fun head => whole (keeps.call built head given)
  | index opened inner built chain given whole =>
      exact fun head => whole (keeps.index built head given)
  | noArguments closed => exact List.forall_mem_nil _
  | arguments filled inner closed ih => exact ih
  | oneExpression only stop first => exact List.forall_mem_singleton.mpr first
  | moreExpressions head divided tail first others =>
      exact List.forall_mem_cons.mpr ⟨first, others⟩
  | bool named => exact keeps.bool _ _
  | int named => exact keeps.int _ _
  | float named => exact keeps.float _ _
  | char named => exact keeps.char _ _
  | name named found =>
      unfold Analyzer.name at found
      split at found
      · rename_i entity held
        cases found
        exact keeps.name _ _ (sound.lookup held).2
      · cases found
  | grouped opened inner closed ih => exact ih

theorem Reading.everywhere {e operand : Expr}
    (reading : Reading analyzer depth (.expression e) input rest) (wraps : Wraps e operand)
    (keeps : Rule.Keeps property law) (sound : analyzer.Sound) : ∀ node ∈ operand.nodes, law node :=
  keeps.everywhere (keeps.wraps wraps (reading.has keeps sound))

theorem ConditionReading.everywhere {condition : Expr}
    (reading : ConditionReading analyzer depth condition input rest)
    (keeps : Rule.Keeps property law) (sound : analyzer.Sound) :
    ∀ node ∈ condition.nodes, law node := by
  cases reading with
  | condition opened inner closed tested =>
      exact inner.everywhere (Expr.require_truth_ok tested).1 keeps sound

theorem ObjectReading.everywhere
    (reading : ObjectReading before depth declaration input after rest)
    (keeps : Rule.Keeps property law) (sound : before.Sound) :
    ∀ node ∈ declaration.nodes, law node := by
  cases reading with
  | object introduced isKind isName divided isType value closed built =>
      obtain ⟨_, _, initialized, rfl, _⟩ := object_gains built
      rw [Declaration.nodes, Expr.forall_nodes_of]
      cases initialized with
      | missing isVar => exact List.forall_mem_nil _
      | given required =>
          cases value with
          | given announced inner =>
              have wraps := (Expr.require_type_ok required).1
              exact List.forall_mem_singleton.mpr (inner.everywhere wraps keeps sound)

theorem SentenceReading.everywhere {sentence : Sentence}
    (reading : SentenceReading before depth sentence input after rest)
    (keeps : Rule.Keeps property law) (sound : before.Sound) :
    ∀ node ∈ sentence.nodes, law node := by
  induction reading with
  | block within inner ih => exact ih sound
  | when within named tested inner stop ih =>
      exact List.forall_mem_append.mpr ⟨tested.everywhere keeps sound, ih sound⟩
  | ifElse within named tested chosen divided otherwise first second =>
      have condition := tested.everywhere keeps sound
      have isFirst := first sound
      have isSecond := second (chosen.keeps sound)
      exact List.forall_mem_append.mpr
        ⟨List.forall_mem_append.mpr ⟨condition, isFirst⟩, isSecond⟩
  | whileLoop within named tested inner ih =>
      exact List.forall_mem_append.mpr
        ⟨tested.everywhere keeps sound, ih ⟨sound.scopes, sound.given⟩⟩
  | breakLoop within named closed built =>
      obtain ⟨rfl, _⟩ := in_loop_ok built
      exact List.forall_mem_nil _
  | continueLoop within named closed built =>
      obtain ⟨rfl, _⟩ := in_loop_ok built
      exact List.forall_mem_nil _
  | returnValue within named inner built =>
      obtain ⟨value, source, result, _, rfl, required, inner, _⟩ := inner.returned built
      exact inner.everywhere (Expr.require_type_ok required).1 keeps sound
  | declare within inner => exact inner.everywhere keeps sound
  | evaluate within inner closed => exact inner.everywhere .same keeps sound
  | braces opened entered inner closed ih => exact ih (sound.enter_block entered)
  | noStatements stop => exact List.forall_mem_nil _
  | moreStatements head tail first others =>
      exact List.forall_mem_append.mpr ⟨first sound, others (head.keeps sound)⟩

theorem DeclarationReading.everywhere
    (reading : DeclarationReading depth before declaration input after rest)
    (keeps : Rule.Keeps property law) (sound : before.Sound) :
    ∀ node ∈ declaration.nodes, law node := by
  cases reading with
  | object inner => exact inner.everywhere keeps sound
  | prototype header closed =>
      obtain ⟨_, parameters, rfl, _, made, _⟩ := header.made
      rw [Declaration.nodes, nodes_of_parameters made]
      exact List.forall_mem_nil _
  | function header begins inner defined =>
      have begun := header.begun begins sound
      obtain ⟨_, parameters, rfl, _, made, _⟩ := header.made
      cases defined
      rw [Declaration.nodes, nodes_of_parameters made, List.nil_append]
      exact inner.everywhere keeps begun

theorem DeclarationsReading.everywhere {declarations : List Declaration}
    (reading : DeclarationsReading depth before declarations input after)
    (keeps : Rule.Keeps property law) (sound : before.Sound) :
    ∀ node ∈ Declaration.nodesOf declarations, law node := by
  induction reading with
  | done => exact List.forall_mem_nil _
  | more head tail ih =>
      exact List.forall_mem_append.mpr ⟨head.everywhere keeps sound, ih (head.keeps sound)⟩

theorem ProgramReading.everywhere {program : Declaration}
    (reading : ProgramReading program input) (keeps : Rule.Keeps property law) :
    ∀ node ∈ program.nodes, law node := by
  cases reading with
  | program entered inner =>
      cases entered
      exact inner.everywhere keeps (Analyzer.Sound.initial.entered .outermost)

end

end McFront
