import McFront.Grammar.Expressions

/-
Statements and the declarations among them.

    statement   ::= block | 'if' condition statement ('else' statement)? | 'while' condition statement
                  | 'break' ';' | 'continue' ';' | 'return' expression? ';'
                  | object | expression ';'
    block       ::= '{' statement* '}'
    condition   ::= '(' expression ')'
    object      ::= ('var' | 'let' | 'def') name ':' type ('=' expression)? ';'

An else belongs to the nearest if that is still open.
-/
set_option autoImplicit false

namespace McFront.Grammar

open Parse

def atFunction : Parse Bool := do
  if ← sees (.keyword .defWord) then
    return (← lookahead 2).kind = .punctuation .leftParen
  else
    return false

def objectKind : Parse Kind := do
  match (← peek).kind with
  | .keyword .varWord => return .var
  | .keyword .letWord => return .const
  | .keyword .defWord =>
      let token ← lookahead 2
      if token.kind = .punctuation .colon then
        return .val
      else
        reject (.expected "':' or '(' after the defined name" token.display) token.location
  | _ => unexpected "a declaration"

def object (budget : Nat) : Parse Declaration := do
  let kind ← objectKind
  let _ ← accept
  let (name, place) ← expectName
  let _ ← expect (.punctuation .colon) "':' before the declared type"
  let type ← type budget
  let initial ← if ← takes (.operator .becomes) then some <$> expression budget else pure none
  let _ ← expect (.punctuation .semicolon) "';' after a declaration"
  analyze (Analysis.object kind name type initial place)

def condition (budget : Nat) : Parse Expr := do
  let _ ← expect (.punctuation .leftParen) "'(' before the condition"
  let condition ← expression budget
  let _ ← expect (.punctuation .rightParen) "')' after the condition"
  check condition.requireTruth

def jump (word : String) (statement : Analyzer → Location → Checked Stmt) : Parse Stmt := do
  let token ← accept
  let _ ← expect (.punctuation .semicolon) s!"';' after '{word}'"
  let parser ← get
  check (statement parser.analyzer token.location)

def returnStatement (budget : Nat) : Parse Stmt := do
  let token ← accept
  let value ← if ← sees (.punctuation .semicolon) then pure none else some <$> expression budget
  let _ ← expect (.punctuation .semicolon) "';' after 'return'"
  let parser ← get
  check (parser.analyzer.returnValue value token.location)

def localDeclaration (budget : Nat) : Parse Stmt := do
  if ← atFunction then
    reject .localFunction (← peek).location
  else
    return .declare (← object budget)

def inLoop {α : Type} (phrase : Parse α) : Parse α := do
  modify (change Analyzer.enterLoop)
  releasing phrase (change Analyzer.leaveLoop)

mutual
def statement : Nat → Parse Stmt
  | 0 => outOfBudget
  | budget + 1 => nested do
      match (← peek).kind with
      | .punctuation .leftBrace => block budget
      | .keyword .ifWord =>
          let _ ← accept
          let condition ← condition budget
          let first ← statement budget
          if ← takes (.keyword .elseWord) then
            return .ifElse condition first (← statement budget)
          else
            return .when condition first
      | .keyword .whileWord =>
          let _ ← accept
          let condition ← condition budget
          return .whileLoop condition (← inLoop (statement budget))
      | .keyword .breakWord => jump "break" Analyzer.breakLoop
      | .keyword .continueWord => jump "continue" Analyzer.continueLoop
      | .keyword .returnWord => returnStatement budget
      | .keyword .varWord | .keyword .letWord | .keyword .defWord => localDeclaration budget
      | _ =>
          let expr ← expression budget
          let _ ← expect (.punctuation .semicolon) "';' after an expression"
          return .evaluate expr

def block : Nat → Parse Stmt
  | 0 => outOfBudget
  | budget + 1 => do
      let _ ← expect (.punctuation .leftBrace) "'\x7b'"
      let statements ← inScope .block (statements budget)
      let _ ← expect (.punctuation .rightBrace) "'\x7d'"
      return .block statements

def statements : Nat → Parse (List Stmt)
  | 0 => outOfBudget
  | budget + 1 => do
      let token ← peek
      if token.kind = .punctuation .rightBrace then
        return []
      else if token.isEnd then
        unexpected "'\x7d'"
      else
        let first ← statement budget
        return first :: (← statements budget)
end

end McFront.Grammar
