import McFront.Lexicon.Escape
import McFront.Number.Decimal
import McFront.Token.Basic

set_option autoImplicit false

namespace McFront.Token

def operatorText (operator : Operator) : String :=
  match operator.family with
  | .conditional | .assignment => s!"<{operator.family.name}>"
  | family => s!"<{family.name}:{operator.mnemonic}>"

def Kind.display : Kind → String
  | .punctuation mark => s!"<{mark.name}>"
  | .operator meant => operatorText meant
  | .keyword word => s!"<{word.word}>"
  | .scalar named => s!"<type-specifier:{named.word}>"
  | .identifier name => s!"<identifier:{name}>"
  | .integer radix value =>
      s!"<{radix.name}:{radix.lead}{String.ofList (radix.digits value)}>"
  | .float value => s!"<floating-point:{value.text}>"
  | .boolean value => s!"<boolean:{value}>"
  | .character value => s!"<character:{Escape.shownText [value]}>"
  | .text content => s!"<string:{Escape.shownText content.toList}>"
  | .endOfInput => "<end-of-input>"

def display (token : Token) : String := token.kind.display

def listing (tokens : List Token) : String :=
  String.join (tokens.map fun token => token.display ++ "\n")

end McFront.Token
