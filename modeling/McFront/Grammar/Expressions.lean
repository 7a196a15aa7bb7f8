import McFront.Analysis.Production
import McFront.Grammar.Parser

/-
Types and expressions.

    type        ::= scalar | '*' type | '(' type ')'
    expression  ::= binary | binary '?' expression ':' expression | binary '=' expression
    binary      ::= cast (operator cast)*      by the binding strengths of the operators
    cast        ::= unary ('as' type)*
    unary       ::= operator unary | applied
    applied     ::= primary ('(' expressions? ')' | '[' expressions? ']')*
    primary     ::= literal | name | '(' expression ')'
-/
set_option autoImplicit false

namespace McFront.Grammar

open Parse

def type : Nat → Parse Ty
  | 0 => outOfBudget
  | budget + 1 => nested do
      match (← peek).kind with
      | .scalar scalar =>
          let _ ← accept
          return .ofScalar scalar
      | .operator .star =>
          let _ ← accept
          return .pointer (← type budget)
      | .punctuation .leftParen =>
          let _ ← accept
          let inner ← type budget
          let _ ← expect (.punctuation .rightParen) "')' after a type"
          return inner
      | _ => unexpected "a type"

-- The current token as an operation between operands that binds at least so tightly.
def binaryOperation? (least : Nat) (token : Token) : Option BinaryOp :=
  match token.kind with
  | .operator operator =>
      if operator.family = .assignment ∨ operator.family = .conditional ∨
          operator.precedence < least then none
      else operator.binary?
  | _ => none

def unaryOperation? (token : Token) : Option UnaryOp :=
  match token.kind with
  | .operator operator => operator.unary?
  | _ => none

mutual
def expression : Nat → Parse Expr
  | 0 => outOfBudget
  | budget + 1 => nested do
      let left ← binary budget Operator.either.precedence
      let token ← peek
      match token.kind with
      | .operator .question =>
          let _ ← accept
          let first ← expression budget
          let _ ← expect (.punctuation .colon) "':' in a conditional expression"
          let second ← expression budget
          check (Rule.conditional left first second token.location)
      | .operator .becomes =>
          let _ ← accept
          let value ← expression budget
          check (Rule.assign left value token.location)
      | _ => return left

def binary : Nat → Nat → Parse Expr
  | 0, _ => outOfBudget
  | budget + 1, least => keepingDepth do
      let left ← cast budget
      operations budget least left

-- The operators after a left operand, applied from left to right. Each one deepens the tree.
def operations : Nat → Nat → Expr → Parse Expr
  | 0, _, _ => outOfBudget
  | budget + 1, least, left => do
      let token ← peek
      match binaryOperation? least token with
      | none => return left
      | some operation =>
          deepen
          let token ← accept
          let operator ← demand token.operator
          let right ← binary budget (operator.precedence + 1)
          let joined ← check (Rule.binary operation left right token.location)
          operations budget least joined

def cast : Nat → Parse Expr
  | 0 => outOfBudget
  | budget + 1 => keepingDepth do
      let source ← unary budget
      casts budget source

def casts : Nat → Expr → Parse Expr
  | 0, _ => outOfBudget
  | budget + 1, source => do
      let token ← peek
      if token.kind = .keyword .asWord then
        deepen
        let _ ← accept
        let target ← type budget
        let cast ← check (Rule.cast source target token.location)
        casts budget cast
      else
        return source

def unary : Nat → Parse Expr
  | 0 => outOfBudget
  | budget + 1 => do
      let token ← peek
      match unaryOperation? token with
      | some operation =>
          let _ ← accept
          let operand ← nested (unary budget)
          check (Rule.unary operation operand token.location)
      | none =>
          let head ← primary budget
          applications budget head

def applications : Nat → Expr → Parse Expr
  | 0, _ => outOfBudget
  | budget + 1, head => do
      let token ← peek
      match token.kind with
      | .punctuation .leftParen =>
          let _ ← accept
          let given ← arguments budget .rightParen "')' after the arguments"
          let call ← check (Rule.call head given token.location)
          applications budget call
      | .punctuation .leftBracket =>
          let _ ← accept
          let given ← arguments budget .rightBracket "']' after the index"
          let element ← check (Rule.index head given token.location)
          applications budget element
      | _ => return head

def arguments : Nat → Punctuation → String → Parse (List Expr)
  | 0, _, _ => outOfBudget
  | budget + 1, close, what => do
      let given ← if ← sees (.punctuation close) then pure [] else expressions budget
      let _ ← expect (.punctuation close) what
      return given

def expressions : Nat → Parse (List Expr)
  | 0 => outOfBudget
  | budget + 1 => do
      let first ← expression budget
      if ← takes (.punctuation .comma) then
        return first :: (← expressions budget)
      else
        return [first]

def primary : Nat → Parse Expr
  | 0 => outOfBudget
  | budget + 1 => do
      let token ← peek
      match token.kind with
      | .punctuation .leftParen =>
          let _ ← accept
          let inner ← expression budget
          let _ ← expect (.punctuation .rightParen) "')' after the expression"
          return inner
      | .boolean value =>
          let _ ← accept
          return .bool value .bool token.location
      | .integer _ value =>
          let _ ← accept
          return .int value .int token.location
      | .float value =>
          let _ ← accept
          return .float value .float token.location
      | .character value =>
          let _ ← accept
          return .char value .char token.location
      | .identifier name =>
          let _ ← accept
          let parser ← get
          check (parser.analyzer.name name token.location)
      | _ => unexpected "a primary expression"
end

end McFront.Grammar
