import McFront.Grammar.Declarations
import McFront.Proofs.Parsing.Stance

set_option autoImplicit false

namespace McFront

open McFront.Parser (nestingLimit Starts)

inductive TypeReading : Nat → List Token → Ty → List Token → Prop where
  | scalar {depth : Nat} {token : Token} {scalar : Scalar} {rest : List Token}
      (within : depth < nestingLimit) (named : token.kind = .scalar scalar) :
      TypeReading depth (token :: rest) (.ofScalar scalar) rest
  | pointer {depth : Nat} {star : Token} {type : Ty} {input rest : List Token}
      (within : depth < nestingLimit) (isStar : star.kind = .operator .star)
      (pointee : TypeReading (depth + 1) input type rest) :
      TypeReading depth (star :: input) (.pointer type) rest
  | grouped {depth : Nat} {opening closing : Token} {type : Ty} {input rest : List Token}
      (within : depth < nestingLimit) (opened : opening.kind = .punctuation .leftParen)
      (inner : TypeReading (depth + 1) input type (closing :: rest))
      (closed : closing.kind = .punctuation .rightParen) :
      TypeReading depth (opening :: input) type rest

-- What tokens of expressions are read as. The operations, casts and applications extend what
-- stands before them; the operands of operations bind at least so tightly.
inductive Phrase where
  | expression (expr : Expr)
  | binary (least : Nat) (expr : Expr)
  | operations (least : Nat) (left expr : Expr)
  | cast (expr : Expr)
  | casts (source expr : Expr)
  | unary (expr : Expr)
  | applications (head expr : Expr)
  | arguments (close : Punctuation) (given : List Expr)
  | expressions (given : List Expr)
  | primary (expr : Expr)

inductive Reading (analyzer : Analyzer) : Nat → Phrase → List Token → List Token → Prop where
  | plain {depth : Nat} {expr : Expr} {input rest : List Token} (within : depth < nestingLimit)
      (operand : Reading analyzer (depth + 1) (.binary Operator.either.precedence expr) input rest)
      (stop : ∀ next ∈ rest.head?,
        next.kind ≠ .operator .question ∧ next.kind ≠ .operator .becomes) :
      Reading analyzer depth (.expression expr) input rest
  | conditional {depth : Nat} {question colon : Token} {condition first second expr : Expr}
      {input branches other rest : List Token} (within : depth < nestingLimit)
      (tested : Reading analyzer (depth + 1) (.binary Operator.either.precedence condition) input
        (question :: branches))
      (asked : question.kind = .operator .question)
      (chosen : Reading analyzer (depth + 1) (.expression first) branches (colon :: other))
      (divided : colon.kind = .punctuation .colon)
      (otherwise : Reading analyzer (depth + 1) (.expression second) other rest)
      (built : Rule.conditional condition first second question.location = .ok expr) :
      Reading analyzer depth (.expression expr) input rest
  | assignment {depth : Nat} {becomes : Token} {target value expr : Expr}
      {input source rest : List Token} (within : depth < nestingLimit)
      (place : Reading analyzer (depth + 1) (.binary Operator.either.precedence target) input
        (becomes :: source))
      (assigned : becomes.kind = .operator .becomes)
      (given : Reading analyzer (depth + 1) (.expression value) source rest)
      (built : Rule.assign target value becomes.location = .ok expr) :
      Reading analyzer depth (.expression expr) input rest
  | binary {depth least : Nat} {left expr : Expr} {input further rest : List Token}
      (operand : Reading analyzer depth (.cast left) input further)
      (chain : Reading analyzer depth (.operations least left expr) further rest) :
      Reading analyzer depth (.binary least expr) input rest
  | joined {depth least : Nat} {left : Expr} {rest : List Token}
      (stop : ∀ next ∈ rest.head?, Grammar.binaryOperation? least next = none) :
      Reading analyzer depth (.operations least left left) rest rest
  | operation {depth least : Nat} {token : Token} {operator : Operator} {operation : BinaryOp}
      {left right whole expr : Expr} {input further rest : List Token}
      (named : token.kind = .operator operator)
      (meant : Grammar.binaryOperation? least token = some operation)
      (within : depth < nestingLimit)
      (operand : Reading analyzer (depth + 1) (.binary (operator.precedence + 1) right) input
        further)
      (built : Rule.binary operation left right token.location = .ok whole)
      (chain : Reading analyzer (depth + 1) (.operations least whole expr) further rest) :
      Reading analyzer depth (.operations least left expr) (token :: input) rest
  | cast {depth : Nat} {source expr : Expr} {input further rest : List Token}
      (operand : Reading analyzer depth (.unary source) input further)
      (chain : Reading analyzer depth (.casts source expr) further rest) :
      Reading analyzer depth (.cast expr) input rest
  | uncast {depth : Nat} {source : Expr} {rest : List Token}
      (stop : ∀ next ∈ rest.head?, next.kind ≠ .keyword .asWord) :
      Reading analyzer depth (.casts source source) rest rest
  | castTo {depth : Nat} {token : Token} {target : Ty} {source whole expr : Expr}
      {input further rest : List Token} (named : token.kind = .keyword .asWord)
      (within : depth < nestingLimit) (type : TypeReading (depth + 1) input target further)
      (built : Rule.cast source target token.location = .ok whole)
      (chain : Reading analyzer (depth + 1) (.casts whole expr) further rest) :
      Reading analyzer depth (.casts source expr) (token :: input) rest
  | unary {depth : Nat} {token : Token} {operation : UnaryOp} {operand expr : Expr}
      {input rest : List Token} (meant : Grammar.unaryOperation? token = some operation)
      (within : depth < nestingLimit)
      (inner : Reading analyzer (depth + 1) (.unary operand) input rest)
      (built : Rule.unary operation operand token.location = .ok expr) :
      Reading analyzer depth (.unary expr) (token :: input) rest
  | applied {depth : Nat} {head expr : Expr} {input further rest : List Token}
      (stop : ∀ next ∈ input.head?, Grammar.unaryOperation? next = none)
      (operand : Reading analyzer depth (.primary head) input further)
      (chain : Reading analyzer depth (.applications head expr) further rest) :
      Reading analyzer depth (.unary expr) input rest
  | unapplied {depth : Nat} {head : Expr} {rest : List Token}
      (stop : ∀ next ∈ rest.head?,
        next.kind ≠ .punctuation .leftParen ∧ next.kind ≠ .punctuation .leftBracket) :
      Reading analyzer depth (.applications head head) rest rest
  | call {depth : Nat} {opening : Token} {given : List Expr} {head whole expr : Expr}
      {input further rest : List Token} (opened : opening.kind = .punctuation .leftParen)
      (inner : Reading analyzer depth (.arguments .rightParen given) input further)
      (built : Rule.call head given opening.location = .ok whole)
      (chain : Reading analyzer depth (.applications whole expr) further rest) :
      Reading analyzer depth (.applications head expr) (opening :: input) rest
  | index {depth : Nat} {opening : Token} {given : List Expr} {head whole expr : Expr}
      {input further rest : List Token} (opened : opening.kind = .punctuation .leftBracket)
      (inner : Reading analyzer depth (.arguments .rightBracket given) input further)
      (built : Rule.index head given opening.location = .ok whole)
      (chain : Reading analyzer depth (.applications whole expr) further rest) :
      Reading analyzer depth (.applications head expr) (opening :: input) rest
  | noArguments {depth : Nat} {close : Punctuation} {closing : Token} {rest : List Token}
      (closed : closing.kind = .punctuation close) :
      Reading analyzer depth (.arguments close []) (closing :: rest) rest
  | arguments {depth : Nat} {close : Punctuation} {closing : Token} {given : List Expr}
      {input rest : List Token} (filled : ¬ Starts (.punctuation close) input)
      (inner : Reading analyzer depth (.expressions given) input (closing :: rest))
      (closed : closing.kind = .punctuation close) :
      Reading analyzer depth (.arguments close given) input rest
  | oneExpression {depth : Nat} {first : Expr} {input rest : List Token}
      (only : Reading analyzer depth (.expression first) input rest)
      (stop : ¬ Starts (.punctuation .comma) rest) :
      Reading analyzer depth (.expressions [first]) input rest
  | moreExpressions {depth : Nat} {comma : Token} {first : Expr} {others : List Expr}
      {input further rest : List Token}
      (head : Reading analyzer depth (.expression first) input (comma :: further))
      (divided : comma.kind = .punctuation .comma)
      (tail : Reading analyzer depth (.expressions others) further rest) :
      Reading analyzer depth (.expressions (first :: others)) input rest
  | bool {depth : Nat} {token : Token} {value : Bool} {rest : List Token}
      (named : token.kind = .boolean value) :
      Reading analyzer depth (.primary (.bool value .bool token.location)) (token :: rest) rest
  | int {depth : Nat} {token : Token} {radix : Radix} {value : Nat} {rest : List Token}
      (named : token.kind = .integer radix value) :
      Reading analyzer depth (.primary (.int value .int token.location)) (token :: rest) rest
  | float {depth : Nat} {token : Token} {value : Binary64} {rest : List Token}
      (named : token.kind = .float value) :
      Reading analyzer depth (.primary (.float value .float token.location)) (token :: rest) rest
  | char {depth : Nat} {token : Token} {value : Char} {rest : List Token}
      (named : token.kind = .character value) :
      Reading analyzer depth (.primary (.char value .char token.location)) (token :: rest) rest
  | name {depth : Nat} {token : Token} {name : String} {expr : Expr} {rest : List Token}
      (named : token.kind = .identifier name)
      (found : analyzer.name name token.location = .ok expr) :
      Reading analyzer depth (.primary expr) (token :: rest) rest
  | grouped {depth : Nat} {opening closing : Token} {expr : Expr} {input rest : List Token}
      (opened : opening.kind = .punctuation .leftParen)
      (inner : Reading analyzer depth (.expression expr) input (closing :: rest))
      (closed : closing.kind = .punctuation .rightParen) :
      Reading analyzer depth (.primary expr) (opening :: input) rest

inductive InitialReading (analyzer : Analyzer) (depth : Nat) :
    Option Expr → List Token → List Token → Prop where
  | missing {rest : List Token} (stop : ¬ Starts (.operator .becomes) rest) :
      InitialReading analyzer depth none rest rest
  | given {becomes : Token} {expr : Expr} {input rest : List Token}
      (announced : becomes.kind = .operator .becomes)
      (inner : Reading analyzer depth (.expression expr) input rest) :
      InitialReading analyzer depth (some expr) (becomes :: input) rest

inductive ConditionReading (analyzer : Analyzer) (depth : Nat) :
    Expr → List Token → List Token → Prop where
  | condition {opening closing : Token} {expr condition : Expr} {input rest : List Token}
      (opened : opening.kind = .punctuation .leftParen)
      (inner : Reading analyzer depth (.expression expr) input (closing :: rest))
      (closed : closing.kind = .punctuation .rightParen)
      (tested : expr.requireTruth = .ok condition) :
      ConditionReading analyzer depth condition (opening :: input) rest

def Keyword.introduces? : Keyword → Option Kind
  | .varWord => some .var
  | .letWord => some .const
  | .defWord => some .val
  | _ => none

inductive ObjectReading (analyzer : Analyzer) (depth : Nat) :
    Declaration → List Token → Analyzer → List Token → Prop where
  | object {introducer named colon semicolon : Token} {word : Keyword} {kind : Kind}
      {name : String} {type : Ty} {initial : Option Expr} {declaration : Declaration}
      {after : Analyzer} {typed input rest : List Token}
      (introduced : introducer.kind = .keyword word) (isKind : word.introduces? = some kind)
      (isName : named.kind = .identifier name) (divided : colon.kind = .punctuation .colon)
      (isType : TypeReading depth typed type input)
      (value : InitialReading analyzer depth initial input (semicolon :: rest))
      (closed : semicolon.kind = .punctuation .semicolon)
      (built : Analysis.object kind name type initial named.location analyzer =
        .ok declaration after) :
      ObjectReading analyzer depth declaration (introducer :: named :: colon :: typed) after rest

inductive ReturnReading (analyzer : Analyzer) (depth : Nat) :
    Option Expr → List Token → List Token → Prop where
  | missing {semicolon : Token} {rest : List Token}
      (closed : semicolon.kind = .punctuation .semicolon) :
      ReturnReading analyzer depth none (semicolon :: rest) rest
  | given {semicolon : Token} {expr : Expr} {input rest : List Token}
      (filled : ¬ Starts (.punctuation .semicolon) input)
      (inner : Reading analyzer depth (.expression expr) input (semicolon :: rest))
      (closed : semicolon.kind = .punctuation .semicolon) :
      ReturnReading analyzer depth (some expr) input rest

end McFront
