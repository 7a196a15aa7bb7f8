import McFront.Lexicon.Operator
import McFront.Lexicon.Scalar

set_option autoImplicit false

namespace McFront

inductive Keyword where
  | ifWord | elseWord | whileWord | breakWord | continueWord | returnWord
  | defWord | varWord | letWord
  | asWord
  | trueWord | falseWord
  | boolWord | charWord | intWord | floatWord
  | andWord | orWord | notWord
deriving DecidableEq

namespace Keyword

def all : List Keyword :=
  [ifWord, elseWord, whileWord, breakWord, continueWord, returnWord, defWord, varWord, letWord,
    asWord, trueWord, falseWord, boolWord, charWord, intWord, floatWord, andWord, orWord, notWord]

def word : Keyword → String
  | ifWord => "if"
  | elseWord => "else"
  | whileWord => "while"
  | breakWord => "break"
  | continueWord => "continue"
  | returnWord => "return"
  | defWord => "def"
  | varWord => "var"
  | letWord => "let"
  | asWord => "as"
  | trueWord => "true"
  | falseWord => "false"
  | boolWord => "bool"
  | charWord => "char"
  | intWord => "int"
  | floatWord => "float"
  | andWord => "and"
  | orWord => "or"
  | notWord => "not"

def ofWord? (text : String) : Option Keyword := all.find? (·.word == text)

def literal? : Keyword → Option Bool
  | trueWord => some true
  | falseWord => some false
  | _ => none

def scalar? : Keyword → Option Scalar
  | boolWord => some .bool
  | charWord => some .char
  | intWord => some .int
  | floatWord => some .float
  | _ => none

def operator? : Keyword → Option Operator
  | andWord => some .both
  | orWord => some .either
  | notWord => some .bang
  | _ => none

inductive Group where
  | controlFlow | definition | expression | literal | type | operator
deriving DecidableEq

def Group.name : Group → String
  | controlFlow => "ControlFlow"
  | definition => "Definition"
  | expression => "Expression"
  | literal => "Literal"
  | type => "Type"
  | operator => "Operator"

def group : Keyword → Group
  | ifWord | elseWord | whileWord | breakWord | continueWord | returnWord => .controlFlow
  | defWord | varWord | letWord => .definition
  | asWord => .expression
  | trueWord | falseWord => .literal
  | boolWord | charWord | intWord | floatWord => .type
  | andWord | orWord | notWord => .operator

def description : Keyword → String
  | ifWord => "Conditional statement."
  | elseWord => "Alternative branch of an `if`."
  | whileWord => "Pre-tested loop."
  | breakWord => "Leave the innermost loop."
  | continueWord => "Start the next iteration of the innermost loop."
  | returnWord => "Return a value from the enclosing function."
  | defWord => "Define a value (`def x: T = e;`) or a function (`def f(...) -> T`)."
  | varWord => "Define an assignable variable."
  | letWord => "Define a constant."
  | asWord => "Explicit conversion (`e as T`)."
  | trueWord => "Boolean literal."
  | falseWord => "Boolean literal."
  | boolWord => "Boolean type."
  | charWord => "Character type."
  | intWord => "Signed integer type."
  | floatWord => "Floating-point type."
  | andWord => "Logical conjunction (same as `&&`)."
  | orWord => "Logical disjunction (same as `||`)."
  | notWord => "Logical negation (same as `!`)."

def since : String := "0.1"

def stability : String := "Stable"

end Keyword
end McFront
