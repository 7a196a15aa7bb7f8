import McFront.Grammar.Expressions
import McFront.Proofs.Lexing.Vocabulary

/-
The grammar of expressions as a ladder of levels, from the loosest operators to the tightest. A
level reads operands one level tighter and joins them, from left to right, by operators of its own.
There is no limit of nesting.

    expression  ::= level '?' expression ':' expression | level '=' expression | level
    level       ::= tighter (operator tighter)*      for each level, cast behind the last
    cast        ::= unary ('as' type)*
    unary       ::= operator unary | applied
    applied     ::= primary ('(' expressions? ')' | '[' expressions? ']')*
    primary     ::= literal | name | '(' expression ')'
-/
set_option autoImplicit false

namespace McFront.Ladder

open Parse

def levels : List (List Operator) :=
  [[.either], [.both], [.bar], [.caret], [.ampersand], [.equal, .notEqual],
    [.less, .greater, .atMost, .atLeast], [.shiftLeft, .shiftRight], [.plus, .minus],
    [.star, .slash, .percent]]

def operation? (own : List Operator) (token : Token) : Option BinaryOp :=
  match token.kind with
  | .operator operator => if operator ∈ own then operator.binary? else none
  | _ => none

def type : Nat → Parse Ty
  | 0 => outOfBudget
  | budget + 1 => do
      match (← peek).kind with
      | .scalar scalar =>
          let _ ← accept
          return .ofScalar scalar
      | .operator .star =>
          let _ ← accept
          return .pointer (← type budget)
      | .punctuation .leftParen =>
          let _ ← accept
          let inner ← type budget
          let _ ← expect (.punctuation .rightParen) "')' after a type"
          return inner
      | _ => unexpected "a type"

mutual
def expression : Nat → Parse Expr
  | 0 => outOfBudget
  | budget + 1 => do
      let left ← level budget levels
      let token ← peek
      match token.kind with
      | .operator .question =>
          let _ ← accept
          let first ← expression budget
          let _ ← expect (.punctuation .colon) "':' in a conditional expression"
          let second ← expression budget
          check (Rule.conditional left first second token.location)
      | .operator .becomes =>
          let _ ← accept
          let value ← expression budget
          check (Rule.assign left value token.location)
      | _ => return left

def level : Nat → List (List Operator) → Parse Expr
  | 0, _ => outOfBudget
  | budget + 1, [] => cast budget
  | budget + 1, own :: tighter => do
      let left ← level budget tighter
      folds budget own tighter left

def folds : Nat → List Operator → List (List Operator) → Expr → Parse Expr
  | 0, _, _, _ => outOfBudget
  | budget + 1, own, tighter, left => do
      match operation? own (← peek) with
      | none => return left
      | some operation =>
          let token ← accept
          let right ← level budget tighter
          let joined ← check (Rule.binary operation left right token.location)
          folds budget own tighter joined

def cast : Nat → Parse Expr
  | 0 => outOfBudget
  | budget + 1 => do
      let source ← unary budget
      casts budget source

def casts : Nat → Expr → Parse Expr
  | 0, _ => outOfBudget
  | budget + 1, source => do
      let token ← peek
      if token.kind = .keyword .asWord then
        let _ ← accept
        let target ← type budget
        let cast ← check (Rule.cast source target token.location)
        casts budget cast
      else
        return source

def unary : Nat → Parse Expr
  | 0 => outOfBudget
  | budget + 1 => do
      let token ← peek
      match Grammar.unaryOperation? token with
      | some operation =>
          let _ ← accept
          let operand ← unary budget
          check (Rule.unary operation operand token.location)
      | none =>
          let head ← primary budget
          applications budget head

def applications : Nat → Expr → Parse Expr
  | 0, _ => outOfBudget
  | budget + 1, head => do
      let token ← peek
      match token.kind with
      | .punctuation .leftParen =>
          let _ ← accept
          let given ← arguments budget .rightParen "')' after the arguments"
          let call ← check (Rule.call head given token.location)
          applications budget call
      | .punctuation .leftBracket =>
          let _ ← accept
          let given ← arguments budget .rightBracket "']' after the index"
          let element ← check (Rule.index head given token.location)
          applications budget element
      | _ => return head

def arguments : Nat → Punctuation → String → Parse (List Expr)
  | 0, _, _ => outOfBudget
  | budget + 1, close, what => do
      let given ← if ← sees (.punctuation close) then pure [] else expressions budget
      let _ ← expect (.punctuation close) what
      return given

def expressions : Nat → Parse (List Expr)
  | 0 => outOfBudget
  | budget + 1 => do
      let first ← expression budget
      if ← takes (.punctuation .comma) then
        return first :: (← expressions budget)
      else
        return [first]

def primary : Nat → Parse Expr
  | 0 => outOfBudget
  | budget + 1 => do
      let token ← peek
      match token.kind with
      | .punctuation .leftParen =>
          let _ ← accept
          let inner ← expression budget
          let _ ← expect (.punctuation .rightParen) "')' after the expression"
          return inner
      | .boolean value =>
          let _ ← accept
          return .bool value .bool token.location
      | .integer _ value =>
          let _ ← accept
          return .int value .int token.location
      | .float value =>
          let _ ← accept
          return .float value .float token.location
      | .character value =>
          let _ ← accept
          return .char value .char token.location
      | .identifier name =>
          let _ ← accept
          let parser ← get
          check (parser.analyzer.name name token.location)
      | _ => unexpected "a primary expression"
end

-- Levels that hold all operators between operands that bind at least so tightly, one level for each
-- binding strength and the looser levels first.
inductive Strata : Nat → List (List Operator) → Prop
  | done {least : Nat}
      (bare : ∀ operator : Operator, least ≤ operator.precedence → operator.binary? = none) :
      Strata least []
  | level {least strength : Nat} {own : List Operator} {tighter : List (List Operator)}
      (within : least ≤ strength)
      (same : ∀ operator : Operator, operator ∈ own ↔ operator.precedence = strength)
      (bare : ∀ operator : Operator, least ≤ operator.precedence →
        operator.precedence < strength → operator.binary? = none)
      (further : Strata (strength + 1) tighter) : Strata least (own :: tighter)

theorem of_all {property : Operator → Prop} (holds : ∀ operator ∈ Operator.all, property operator)
    (operator : Operator) : property operator := holds operator operator.mem_all

theorem levels_stratified : Strata Operator.either.precedence levels := by
  have next {least : Nat} (strength : Nat) {own : List Operator} {tighter : List (List Operator)}
      (within : least ≤ strength)
      (holds : ∀ operator ∈ Operator.all, (operator ∈ own ↔ operator.precedence = strength) ∧
        (least ≤ operator.precedence → operator.precedence < strength → operator.binary? = none))
      (further : Strata (strength + 1) tighter) : Strata least (own :: tighter) :=
    .level within (fun operator => (of_all holds operator).1)
      (fun operator => (of_all holds operator).2) further
  refine next 20 (by decide) (by decide) ?_
  refine next 30 (by decide) (by decide) ?_
  refine next 40 (by decide) (by decide) ?_
  refine next 50 (by decide) (by decide) ?_
  refine next 60 (by decide) (by decide) ?_
  refine next 70 (by decide) (by decide) ?_
  refine next 80 (by decide) (by decide) ?_
  refine next 90 (by decide) (by decide) ?_
  refine next 100 (by decide) (by decide) ?_
  refine next 110 (by decide) (by decide) ?_
  exact .done (of_all (by decide))

end McFront.Ladder
