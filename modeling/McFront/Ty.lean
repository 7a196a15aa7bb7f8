import McFront.Lexicon.Scalar

set_option autoImplicit false

namespace McFront

inductive Ty where
  | bool | char | int | float
  | pointer (pointee : Ty)
  | reference (object : Ty)
  | function (parameters : List Ty) (result : Ty)

namespace Ty

mutual
def decEq : (a b : Ty) → Decidable (a = b)
  | .bool, b => by cases b <;> first | exact isTrue rfl | exact isFalse nofun
  | .char, b => by cases b <;> first | exact isTrue rfl | exact isFalse nofun
  | .int, b => by cases b <;> first | exact isTrue rfl | exact isFalse nofun
  | .float, b => by cases b <;> first | exact isTrue rfl | exact isFalse nofun
  | .pointer a, b =>
      match b with
      | .pointer b =>
          match decEq a b with
          | isTrue same => isTrue (by rw [same])
          | isFalse differ => isFalse fun same => differ (by injection same)
      | .bool | .char | .int | .float | .reference _ | .function .. => isFalse nofun
  | .reference a, b =>
      match b with
      | .reference b =>
          match decEq a b with
          | isTrue same => isTrue (by rw [same])
          | isFalse differ => isFalse fun same => differ (by injection same)
      | .bool | .char | .int | .float | .pointer _ | .function .. => isFalse nofun
  | .function as a, b =>
      match b with
      | .function bs b =>
          match decEqAll as bs, decEq a b with
          | isTrue same, isTrue alike => isTrue (by rw [same, alike])
          | isFalse differ, _ => isFalse fun same => differ (by injection same)
          | _, isFalse differ => isFalse fun same => differ (by injection same)
      | .bool | .char | .int | .float | .pointer _ | .reference _ => isFalse nofun
def decEqAll : (as bs : List Ty) → Decidable (as = bs)
  | [], [] => isTrue rfl
  | [], _ :: _ => isFalse nofun
  | _ :: _, [] => isFalse nofun
  | a :: as, b :: bs =>
      match decEq a b, decEqAll as bs with
      | isTrue same, isTrue alike => isTrue (by rw [same, alike])
      | isFalse differ, _ => isFalse fun same => differ (by injection same)
      | _, isFalse differ => isFalse fun same => differ (by injection same)
end

instance : DecidableEq Ty := decEq

def ofScalar : Scalar → Ty
  | .bool => .bool
  | .char => .char
  | .int => .int
  | .float => .float

def referenceTo : Ty → Ty
  | .reference object => .reference object
  | type => .reference type

def object : Ty → Ty
  | .reference object => object
  | type => type

def pointee? : Ty → Option Ty
  | .pointer pointee => some pointee
  | _ => none

def signature? : Ty → Option (List Ty × Ty)
  | .function parameters result => some (parameters, result)
  | _ => none

def isReference : Ty → Bool
  | .reference _ => true
  | _ => false

def isPointer : Ty → Bool
  | .pointer _ => true
  | _ => false

def isFunction : Ty → Bool
  | .function .. => true
  | _ => false

def isNumeric : Ty → Bool
  | .bool | .char | .int | .float => true
  | _ => false

def isArithmetic : Ty → Bool
  | .int | .float => true
  | _ => false

def isScalar (type : Ty) : Bool := type.isNumeric || type.isPointer

def refersTo : Ty → Ty → Bool
  | .reference object, type => object = type
  | _, _ => false

mutual
def text : Ty → String
  | .bool => "bool"
  | .char => "char"
  | .int => "int"
  | .float => "float"
  | .pointer pointee => "*" ++ text pointee
  | .reference object => "&" ++ text object
  | .function parameters result => "(" ++ listText parameters ++ ") -> " ++ text result
def listText : List Ty → String
  | [] => ""
  | [type] => text type
  | type :: types => text type ++ ", " ++ listText types
end

end Ty
end McFront
