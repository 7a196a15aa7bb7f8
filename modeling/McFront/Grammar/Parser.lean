import McFront.Analysis.Analyzer
import McFront.Token.Attribute
import McFront.Token.Stream

set_option autoImplicit false

namespace McFront

structure Parser where
  lexer : Lexer
  pending : List Token
  analyzer : Analyzer
  depth : Nat

abbrev Parse := EStateM Fault Parser

namespace Parser

def nestingLimit : Nat := 128

def ofText (text : String) (interner : Interner) : Checked Parser × Interner :=
  match (Lexer.ofText text interner).next with
  | (.ok token, lexer) => (.ok ⟨lexer, [token], .initial, 0⟩, lexer.interner)
  | (.error error, lexer) => (.error error, lexer.interner)

-- Enough nested calls for every phrase: a call that takes no token leads to one that does within a
-- few more, and each token has a character or is pending.
def budget (parser : Parser) : Nat :=
  16 * (parser.lexer.cursor.rest.length + parser.pending.length + 1)

end Parser

namespace Parse

variable {α : Type}

def peek : Parse Token := fun parser =>
  match parser.pending with
  | token :: _ => .ok token parser
  | [] => .error (.breach .emptyLookahead) parser

def draw : Parse Unit := fun parser =>
  match parser.lexer.next with
  | (.ok token, lexer) => .ok () { parser with lexer, pending := parser.pending ++ [token] }
  | (.error error, lexer) => .error (.error error) { parser with lexer }

def drawMany : Nat → Parse Unit
  | 0 => pure ()
  | count + 1 => do
      draw
      drawMany count

def lookahead (places : Nat) : Parse Token := do
  drawMany (places + 1 - (← get).pending.length)
  match (← get).pending[places]? with
  | some token => return token
  | none => breach .emptyLookahead

def accept : Parse Token := do
  let parser ← get
  match parser.pending with
  | [] => breach .emptyLookahead
  | token :: pending =>
      set { parser with pending }
      if pending.isEmpty then draw
      return token

def sees (kind : Token.Kind) : Parse Bool := do
  return (← peek).kind = kind

def takes (kind : Token.Kind) : Parse Bool := do
  if ← sees kind then
    let _ ← accept
    return true
  else
    return false

def reject (complaint : Complaint) (place : Location) : Parse α :=
  check (.error (complaint.raise place))

def unexpected (what : String) : Parse α := do
  let token ← peek
  reject (.expected what token.display) token.location

def expect (kind : Token.Kind) (what : String) : Parse Token := do
  if ← sees kind then accept else unexpected what

def demand : Except Breach α → Parse α
  | .ok a => pure a
  | .error broken => breach broken

def expectName : Parse (String × Location) := do
  if (← peek).isName then
    let token ← accept
    return (← demand token.symbol, token.location)
  else
    unexpected "an identifier"

def analyze (step : Analysis α) : Parse α := fun parser =>
  match step parser.analyzer with
  | .ok a analyzer => .ok a { parser with analyzer }
  | .error fault analyzer => .error fault { parser with analyzer }

def change (f : Analyzer → Analyzer) (parser : Parser) : Parser :=
  { parser with analyzer := f parser.analyzer }

def releasing (phrase : Parse α) (release : Parser → Parser) : Parse α := fun parser =>
  match phrase parser with
  | .ok a parser => .ok a (release parser)
  | .error fault parser => .error fault (release parser)

def inScope (kind : ScopeKind) (phrase : Parse α) : Parse α :=
  releasing (do analyze (Analysis.enter kind); phrase) (change Analyzer.leaveScope)

def deepen : Parse Unit := do
  let parser ← get
  if Parser.nestingLimit ≤ parser.depth then
    reject (.nestingTooDeep Parser.nestingLimit) (← peek).location
  else
    set { parser with depth := parser.depth + 1 }

-- Comes back to the depth at which the phrase started.
def keepingDepth (phrase : Parse α) : Parse α := fun parser =>
  releasing phrase (fun after => { after with depth := parser.depth }) parser

def rise (parser : Parser) : Parser := { parser with depth := parser.depth - 1 }

def nested (phrase : Parse α) : Parse α := do
  deepen
  releasing phrase rise

def outOfBudget : Parse α := breach .outOfBudget

end Parse
end McFront
