import McFront.Complaint
import McFront.Tree.Basic

set_option autoImplicit false

namespace McFront

inductive Category where
  | arithmetic | numeric | scalar | integer | function | pointer
deriving DecidableEq

namespace Category

def phrase : Category → String
  | arithmetic => "an arithmetic operand"
  | numeric => "a numeric operand"
  | scalar => "a scalar operand"
  | integer => "an integer operand"
  | function => "a function"
  | pointer => "a pointer"

def accepts : Category → Ty → Bool
  | arithmetic, type => type.isArithmetic
  | numeric, type => type.isNumeric
  | scalar, type => type.isScalar
  | integer, type => type = .int
  | function, type => type.isFunction
  | pointer, type => type.isPointer

end Category

namespace Expr

def reject {α : Type} (e : Expr) (complaint : Complaint) : Checked α :=
  .error (complaint.raise e.location)

def converted (e : Expr) (tag : Conversion) (type : Ty) : Expr :=
  .conversion tag e type e.location

def loaded (e : Expr) : Expr :=
  match e.type with
  | .reference object => e.converted .value object
  | _ => e

def require (category : Category) (e : Expr) : Checked Expr :=
  if category.accepts e.loaded.type then .ok e.loaded
  else e.loaded.reject (.categoryMismatch category.phrase e.loaded.type.text)

def requirePlace (e : Expr) : Checked Expr :=
  if e.type.isReference then .ok e else e.reject (.notAssignable e.type.text)

def requireTruth (e : Expr) : Checked Expr :=
  if e.loaded.type = .bool then .ok e.loaded
  else if e.loaded.type.isScalar || e.loaded.type.isFunction then
    .ok (e.loaded.converted .bool .bool)
  else e.loaded.reject (.categoryMismatch "a boolean" e.loaded.type.text)

def requireType (type : Ty) (e : Expr) : Checked Expr :=
  if e.loaded.type = type then .ok e.loaded
  else e.loaded.reject (.typeMismatch type.text e.loaded.type.text)

end Expr
end McFront
