import McFront.Lexicon.Keyword
import McFront.Lexicon.Punctuation
import McFront.Lexicon.Radix
import McFront.Number.Binary64
import McFront.Text.Location

set_option autoImplicit false

namespace McFront

inductive Token.Kind where
  | punctuation (mark : Punctuation)
  | operator (operator : Operator)
  | keyword (word : Keyword)
  | scalar (scalar : Scalar)
  | identifier (name : String)
  | integer (radix : Radix) (value : Nat)
  | float (value : Binary64)
  | boolean (value : Bool)
  | character (value : Char)
  | text (content : String)
  | endOfInput
deriving DecidableEq

structure Token where
  kind : Token.Kind
  location : Location
deriving DecidableEq

namespace Token

def Kind.ofKeyword (word : Keyword) : Kind :=
  match word.literal?, word.scalar?, word.operator? with
  | some value, _, _ => .boolean value
  | none, some named, _ => .scalar named
  | none, none, some meant => .operator meant
  | none, none, none => .keyword word

def Kind.symbol? : Kind → Option String
  | .identifier name => some name
  | .text content => some content
  | _ => none

def isEnd (token : Token) : Bool := token.kind = .endOfInput

def isName (token : Token) : Bool :=
  match token.kind with
  | .identifier _ => true
  | _ => false

def family? (token : Token) : Option Operator.Family :=
  match token.kind with
  | .operator found => some found.family
  | _ => none

end Token
end McFront
