import McFront.Typing.Conversion

set_option autoImplicit false

namespace McFront.Rule

def unary (operation : UnaryOp) (operand : Expr) (place : Location) : Checked Expr :=
  match operation with
  | .pos | .neg => do
      let operand ← operand.require .arithmetic
      return .unary operation operand operand.type place
  | .cmp => do
      let operand ← operand.require .integer
      return .unary operation operand .int place
  | .not => do
      let operand ← operand.requireTruth
      return .unary operation operand .bool place
  | .addr => do
      let operand ← operand.requirePlace
      return .unary operation operand (.pointer operand.type.object) place
  | .deref => do
      let operand ← operand.require .pointer
      return .unary operation operand (.referenceTo (operand.type.pointee?.getD operand.type)) place

def sameType (left right : Expr) : Checked Ty :=
  if left.type = right.type then .ok left.type
  else right.reject (.typeMismatch left.type.text right.type.text)

def binary (operation : BinaryOp) (left right : Expr) (place : Location) : Checked Expr :=
  match operation.group with
  | .arithmetic => do
      let left ← left.require .arithmetic
      let right ← right.require .arithmetic
      let type ← sameType left right
      return .binary operation left right type place
  | .bitwise => do
      let left ← left.require .integer
      let right ← right.require .integer
      return .binary operation left right .int place
  | .logical => do
      let left ← left.requireTruth
      let right ← right.requireTruth
      return .binary operation left right .bool place
  | .equality => do
      let left ← left.require .scalar
      let right ← right.require .scalar
      let _ ← sameType left right
      return .binary operation left right .bool place
  | .ordering => do
      let left ← left.require .numeric
      let right ← right.require .numeric
      let _ ← sameType left right
      return .binary operation left right .bool place

def assign (target value : Expr) (place : Location) : Checked Expr := do
  let target ← target.requirePlace
  let value ← value.requireType target.type.object
  return .assign target value target.type place

def conditional (condition first second : Expr) (place : Location) : Checked Expr := do
  let condition ← condition.requireTruth
  match first.type.common? second.type with
  | none => second.reject (.noCommonType first.type.text second.type.text)
  | some type =>
      let first ← first.convertTo type
      let second ← second.convertTo type
      return .conditional condition first second type place

def cast (source : Expr) (target : Ty) (place : Location) : Checked Expr := do
  let source ← source.convertTo target
  return .cast source target place

def arguments : List Ty → List Expr → Checked (List Expr)
  | type :: types, argument :: rest => do
      let argument ← argument.requireType type
      let rest ← arguments types rest
      return argument :: rest
  | _, _ => .ok []

def call (callee : Expr) (given : List Expr) (place : Location) : Checked Expr := do
  let callee ← callee.require .function
  let (parameters, result) := callee.type.signature?.getD ([], callee.type)
  if given.length ≠ parameters.length then
    .error ((Complaint.argumentCount parameters.length given.length).raise place)
  else
    let given ← arguments parameters given
    return .call callee given result place

def index (base : Expr) (given : List Expr) (place : Location) : Checked Expr := do
  let base ← base.require .pointer
  match given with
  | [index] =>
      let index ← index.require .integer
      return .index base index (.referenceTo (base.type.pointee?.getD base.type)) place
  | _ => .error ((Complaint.indexCount given.length).raise place)

def name (spelled : String) (entity : Entity) (place : Location) : Expr :=
  .name spelled entity (if entity.kind.isPlace then .referenceTo entity.type else entity.type) place

end McFront.Rule
