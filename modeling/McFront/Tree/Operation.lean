import McFront.Lexicon.Operator

set_option autoImplicit false

namespace McFront

inductive UnaryOp where
  | pos | neg | cmp | not | addr | deref
deriving DecidableEq

namespace UnaryOp

def name : UnaryOp → String
  | pos => "pos"
  | neg => "neg"
  | cmp => "cmp"
  | not => "not"
  | addr => "addr"
  | deref => "deref"

end UnaryOp

inductive BinaryOp where
  | add | sub | mul | quo | rem
  | bitAnd | bitOr | bitXor | shl | shr
  | logicalAnd | logicalOr
  | eq | ne
  | lt | gt | le | ge
deriving DecidableEq

namespace BinaryOp

def name : BinaryOp → String
  | add => "add"
  | sub => "sub"
  | mul => "mul"
  | quo => "quo"
  | rem => "rem"
  | bitAnd => "and"
  | bitOr => "or"
  | bitXor => "xor"
  | shl => "shl"
  | shr => "shr"
  | logicalAnd => "land"
  | logicalOr => "lor"
  | eq => "eq"
  | ne => "ne"
  | lt => "lt"
  | gt => "gt"
  | le => "le"
  | ge => "ge"

inductive Group where
  | arithmetic | bitwise | logical | equality | ordering
deriving DecidableEq

def group : BinaryOp → Group
  | add | sub | mul | quo | rem => .arithmetic
  | bitAnd | bitOr | bitXor | shl | shr => .bitwise
  | logicalAnd | logicalOr => .logical
  | eq | ne => .equality
  | lt | gt | le | ge => .ordering

end BinaryOp

namespace Operator

def unary? : Operator → Option UnaryOp
  | plus => some .pos
  | minus => some .neg
  | tilde => some .cmp
  | bang => some .not
  | ampersand => some .addr
  | star => some .deref
  | _ => none

def binary? : Operator → Option BinaryOp
  | plus => some .add
  | minus => some .sub
  | star => some .mul
  | slash => some .quo
  | percent => some .rem
  | ampersand => some .bitAnd
  | bar => some .bitOr
  | caret => some .bitXor
  | shiftLeft => some .shl
  | shiftRight => some .shr
  | both => some .logicalAnd
  | either => some .logicalOr
  | equal => some .eq
  | notEqual => some .ne
  | less => some .lt
  | greater => some .gt
  | atMost => some .le
  | atLeast => some .ge
  | _ => none

end Operator

-- What a conversion does to a value: load it from its place, test it against zero, narrow an int to
-- a char, widen a bool or char to an int, extend an int to a float, truncate a float to an int.
inductive Conversion where
  | value | bool | char | int | ext | trunc
deriving DecidableEq

def Conversion.name : Conversion → String
  | value => "value"
  | bool => "bool"
  | char => "char"
  | int => "int"
  | ext => "ext"
  | trunc => "trunc"

end McFront
