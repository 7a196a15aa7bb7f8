import McFront.Grammar.Declarations

set_option autoImplicit false

namespace McFront

namespace Parser

def read {α : Type} (phrase : Nat → Parse α) (parser : Parser) : EStateM.Result Fault Parser α :=
  phrase parser.budget parser

def type : Parser → EStateM.Result Fault Parser Ty := read Grammar.type

def expression : Parser → EStateM.Result Fault Parser Expr := read Grammar.expression

def statement : Parser → EStateM.Result Fault Parser Stmt := read Grammar.statement

def declaration : Parser → EStateM.Result Fault Parser Declaration := read Grammar.declaration

def program : Parser → EStateM.Result Fault Parser Declaration := read Grammar.program

def enterOutermost (parser : Parser) : EStateM.Result Fault Parser Unit :=
  Parse.analyze (Analysis.enter .outermost) parser

end Parser

def compile (text : String) (interner : Interner) : Except Fault Declaration × Interner :=
  match Parser.ofText text interner with
  | (.error error, interner) => (.error (.error error), interner)
  | (.ok parser, _) =>
      match parser.program with
      | .ok program parser => (.ok program, parser.lexer.interner)
      | .error fault parser => (.error fault, parser.lexer.interner)

end McFront
