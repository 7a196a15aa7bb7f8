import Mathlib.Data.List.Forall2
import McFront.Analysis.Analyzer
import McFront.Token.Basic

set_option autoImplicit false

namespace McFront

-- Which places of two texts correspond: the places of phrases, and the places of declarations,
-- which names stand for.
structure Places where
  own : Location → Location → Prop
  linked : Location → Location → Prop
  linked_of_own : ∀ {a b : Location}, own a b → linked a b

def Places.both (places : Location → Location → Prop) : Places := ⟨places, places, id⟩

structure Token.Alike (places : Places) (a b : Token) : Prop where
  kind : a.kind = b.kind
  location : places.own a.location b.location

structure Entity.Alike (places : Location → Location → Prop) (a b : Entity) : Prop where
  kind : a.kind = b.kind
  name : a.name = b.name
  type : a.type = b.type
  location : places a.location b.location

inductive Expr.Alike (places : Places) : Expr → Expr → Prop where
  | bool {value : Bool} {type : Ty} {a b : Location} (place : places.own a b) :
      Alike places (.bool value type a) (.bool value type b)
  | int {value : Int} {type : Ty} {a b : Location} (place : places.own a b) :
      Alike places (.int value type a) (.int value type b)
  | float {value : Binary64} {type : Ty} {a b : Location} (place : places.own a b) :
      Alike places (.float value type a) (.float value type b)
  | char {value : Char} {type : Ty} {a b : Location} (place : places.own a b) :
      Alike places (.char value type a) (.char value type b)
  | name {spelled : String} {entity other : Entity} {type : Ty} {a b : Location}
      (link : entity.Alike places.linked other) (place : places.own a b) :
      Alike places (.name spelled entity type a) (.name spelled other type b)
  | unary {operation : UnaryOp} {operand operand' : Expr} {type : Ty} {a b : Location}
      (inner : Alike places operand operand') (place : places.own a b) :
      Alike places (.unary operation operand type a) (.unary operation operand' type b)
  | binary {operation : BinaryOp} {left right left' right' : Expr} {type : Ty} {a b : Location}
      (first : Alike places left left') (second : Alike places right right')
      (place : places.own a b) :
      Alike places (.binary operation left right type a) (.binary operation left' right' type b)
  | call {callee callee' : Expr} {given given' : List Expr} {type : Ty} {a b : Location}
      (called : Alike places callee callee') (arguments : List.Forall₂ (Alike places) given given')
      (place : places.own a b) :
      Alike places (.call callee given type a) (.call callee' given' type b)
  | index {base base' offset offset' : Expr} {type : Ty} {a b : Location}
      (pointer : Alike places base base') (distance : Alike places offset offset')
      (place : places.own a b) :
      Alike places (.index base offset type a) (.index base' offset' type b)
  | cast {source source' : Expr} {type : Ty} {a b : Location} (inner : Alike places source source')
      (place : places.own a b) : Alike places (.cast source type a) (.cast source' type b)
  | assign {target target' value value' : Expr} {type : Ty} {a b : Location}
      (assigned : Alike places target target') (given : Alike places value value')
      (place : places.own a b) :
      Alike places (.assign target value type a) (.assign target' value' type b)
  | conditional {condition condition' first first' second second' : Expr} {type : Ty}
      {a b : Location} (tested : Alike places condition condition')
      (chosen : Alike places first first') (otherwise : Alike places second second')
      (place : places.own a b) :
      Alike places (.conditional condition first second type a)
        (.conditional condition' first' second' type b)
  | conversion {tag : Conversion} {source source' : Expr} {type : Ty} {a b : Location}
      (inner : Alike places source source') (place : places.own a b) :
      Alike places (.conversion tag source type a) (.conversion tag source' type b)

mutual
inductive Stmt.Alike (places : Places) : Stmt → Stmt → Prop where
  | block {stmts stmts' : List Stmt} (inner : List.Forall₂ (Stmt.Alike places) stmts stmts') :
      Stmt.Alike places (.block stmts) (.block stmts')
  | when {condition condition' : Expr} {body body' : Stmt}
      (tested : condition.Alike places condition') (inner : Stmt.Alike places body body') :
      Stmt.Alike places (.when condition body) (.when condition' body')
  | ifElse {condition condition' : Expr} {first first' second second' : Stmt}
      (tested : condition.Alike places condition') (chosen : Stmt.Alike places first first')
      (otherwise : Stmt.Alike places second second') :
      Stmt.Alike places (.ifElse condition first second) (.ifElse condition' first' second')
  | whileLoop {condition condition' : Expr} {body body' : Stmt}
      (tested : condition.Alike places condition') (inner : Stmt.Alike places body body') :
      Stmt.Alike places (.whileLoop condition body) (.whileLoop condition' body')
  | breakLoop : Stmt.Alike places .breakLoop .breakLoop
  | continueLoop : Stmt.Alike places .continueLoop .continueLoop
  | returnValue {value value' : Expr} (inner : value.Alike places value') :
      Stmt.Alike places (.returnValue value) (.returnValue value')
  | declare {declaration declaration' : Declaration}
      (inner : Declaration.Alike places declaration declaration') :
      Stmt.Alike places (.declare declaration) (.declare declaration')
  | evaluate {expr expr' : Expr} (inner : expr.Alike places expr') :
      Stmt.Alike places (.evaluate expr) (.evaluate expr')
inductive Declaration.Alike (places : Places) : Declaration → Declaration → Prop where
  | object {entity entity' : Entity} {initial initial' : Option Expr}
      (named : entity.Alike places.own entity')
      (value : Option.Rel (Expr.Alike places) initial initial') :
      Declaration.Alike places (.object entity initial) (.object entity' initial')
  | prototype {entity entity' : Entity} {parameters parameters' : List Declaration}
      (named : entity.Alike places.own entity')
      (given : List.Forall₂ (Declaration.Alike places) parameters parameters') :
      Declaration.Alike places (.prototype entity parameters) (.prototype entity' parameters')
  | function {entity entity' : Entity} {parameters parameters' : List Declaration}
      {body body' : Stmt} (named : entity.Alike places.own entity')
      (given : List.Forall₂ (Declaration.Alike places) parameters parameters')
      (inner : Stmt.Alike places body body') :
      Declaration.Alike places (.function entity parameters body)
        (.function entity' parameters' body')
  | program {declarations declarations' : List Declaration}
      (inner : List.Forall₂ (Declaration.Alike places) declarations declarations') :
      Declaration.Alike places (.program declarations) (.program declarations')
end

variable {places : Places}

theorem Entity.Alike.linked {a b : Entity} (alike : a.Alike places.own b) :
    a.Alike places.linked b :=
  ⟨alike.kind, alike.name, alike.type, places.linked_of_own alike.location⟩

namespace Expr.Alike

variable {e e' : Expr}

theorem type (alike : e.Alike places e') : e.type = e'.type := by
  cases alike <;> rfl

theorem location (alike : e.Alike places e') : places.own e.location e'.location := by
  cases alike <;> assumption

end Expr.Alike

end McFront
