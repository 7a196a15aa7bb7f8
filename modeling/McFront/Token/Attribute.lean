import McFront.Breach
import McFront.Token.Display

set_option autoImplicit false

namespace McFront.Token

def refuse {α : Type} (token : Token) (wanted : String) : Except Breach α :=
  .error (.wrongToken token.display token.location wanted)

def symbol (token : Token) : Except Breach String :=
  match token.kind with
  | .identifier name => .ok name
  | _ => token.refuse "an identifier"

def operator (token : Token) : Except Breach Operator :=
  match token.kind with
  | .operator meant => .ok meant
  | _ => token.refuse "an operator"

def scalar (token : Token) : Except Breach Scalar :=
  match token.kind with
  | .scalar named => .ok named
  | _ => token.refuse "a type specifier"

def integer (token : Token) : Except Breach Nat :=
  match token.kind with
  | .integer _ value => .ok value
  | _ => token.refuse "an integer literal"

def radix (token : Token) : Except Breach Radix :=
  match token.kind with
  | .integer radix _ => .ok radix
  | _ => token.refuse "an integer literal"

def float (token : Token) : Except Breach Binary64 :=
  match token.kind with
  | .float value => .ok value
  | _ => token.refuse "a floating-point literal"

def boolean (token : Token) : Except Breach Bool :=
  match token.kind with
  | .boolean value => .ok value
  | _ => token.refuse "a boolean literal"

def character (token : Token) : Except Breach Char :=
  match token.kind with
  | .character value => .ok value
  | _ => token.refuse "a character literal"

def content (token : Token) : Except Breach String :=
  match token.kind with
  | .text content => .ok content
  | _ => token.refuse "a string literal"

end McFront.Token
