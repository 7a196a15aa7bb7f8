import McFront.Typing.Operand

set_option autoImplicit false

namespace McFront

def Conversion.between? (source target : Ty) : Option Conversion :=
  match target, source with
  | .bool, source => if source.isScalar || source.isFunction then some .bool else none
  | .char, .int => some .char
  | .int, .float => some .trunc
  | .int, .bool | .int, .char => some .int
  | .float, .int => some .ext
  | _, _ => none

def Expr.convertTo (target : Ty) (e : Expr) : Checked Expr :=
  if e.type = target then .ok e
  else
    let value := if target.isReference then e else e.loaded
    if value.type = target then .ok value
    else
      match Conversion.between? value.type target with
      | some tag => .ok (value.converted tag target)
      | none => value.reject (.cannotConvert value.type.text target.text)

def Ty.common? (left right : Ty) : Option Ty :=
  if left = right then some left
  else if left.refersTo right then some right
  else if right.refersTo left then some left
  else none

end McFront
