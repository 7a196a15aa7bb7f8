set_option autoImplicit false

namespace McFront

inductive Operator where
  | equal | notEqual | less | greater | atMost | atLeast
  | plus | minus | star | slash | percent
  | ampersand | bar | caret | shiftLeft | shiftRight | tilde
  | both | either | bang
  | question | becomes
deriving DecidableEq

namespace Operator

inductive Family where
  | relational | arithmetic | bitwise | logical | conditional | assignment
deriving DecidableEq

def Family.name : Family → String
  | relational => "relational-operator"
  | arithmetic => "arithmetic-operator"
  | bitwise => "bitwise-operator"
  | logical => "logical-operator"
  | conditional => "conditional-operator"
  | assignment => "assignment-operator"

inductive Side where
  | left | right
deriving DecidableEq

def Side.name : Side → String
  | left => "Left"
  | right => "Right"

inductive Position where
  | between | before | betweenOrBefore
deriving DecidableEq

def Position.name : Position → String
  | between => "Infix"
  | before => "Prefix"
  | betweenOrBefore => "InfixOrPrefix"

def all : List Operator :=
  [equal, notEqual, less, greater, atMost, atLeast, plus, minus, star, slash, percent,
    ampersand, bar, caret, shiftLeft, shiftRight, tilde, both, either, bang, question, becomes]

def spelling : Operator → String
  | equal => "=="
  | notEqual => "!="
  | less => "<"
  | greater => ">"
  | atMost => "<="
  | atLeast => ">="
  | plus => "+"
  | minus => "-"
  | star => "*"
  | slash => "/"
  | percent => "%"
  | ampersand => "&"
  | bar => "|"
  | caret => "^"
  | shiftLeft => "<<"
  | shiftRight => ">>"
  | tilde => "~"
  | both => "&&"
  | either => "||"
  | bang => "!"
  | question => "?"
  | becomes => "="

def mnemonic : Operator → String
  | equal => "eq"
  | notEqual => "ne"
  | less => "lt"
  | greater => "gt"
  | atMost => "le"
  | atLeast => "ge"
  | plus => "add"
  | minus => "sub"
  | star => "mul"
  | slash => "quo"
  | percent => "rem"
  | ampersand => "and"
  | bar => "ior"
  | caret => "xor"
  | shiftLeft => "shl"
  | shiftRight => "shr"
  | tilde => "not"
  | both => "and"
  | either => "or"
  | bang => "not"
  | question => "cond"
  | becomes => "assign"

def family : Operator → Family
  | equal | notEqual | less | greater | atMost | atLeast => .relational
  | plus | minus | star | slash | percent => .arithmetic
  | ampersand | bar | caret | shiftLeft | shiftRight | tilde => .bitwise
  | both | either | bang => .logical
  | question => .conditional
  | becomes => .assignment

def precedence : Operator → Nat
  | becomes => 0
  | question => 10
  | either => 20
  | both => 30
  | bar => 40
  | caret => 50
  | ampersand => 60
  | equal | notEqual => 70
  | less | greater | atMost | atLeast => 80
  | shiftLeft | shiftRight => 90
  | plus | minus => 100
  | star | slash | percent => 110
  | tilde | bang => 130

def side : Operator → Side
  | tilde | bang | question | becomes => .right
  | _ => .left

def position : Operator → Position
  | tilde | bang => .before
  | plus | minus | star | ampersand => .betweenOrBefore
  | _ => .between

def ofSpelling? (text : String) : Option Operator := all.find? (·.spelling == text)

end Operator
end McFront
