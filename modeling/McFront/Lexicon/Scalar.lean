set_option autoImplicit false

namespace McFront

inductive Scalar where
  | bool | char | int | float
deriving DecidableEq

namespace Scalar

def all : List Scalar := [bool, char, int, float]

def word : Scalar → String
  | bool => "bool"
  | char => "char"
  | int => "int"
  | float => "float"

def bits : Scalar → Nat
  | bool => 1
  | _ => 32

def ofWord? (text : String) : Option Scalar := all.find? (·.word == text)

end Scalar
end McFront
