import McFront.Grammar.Statements
import McFront.Tree.Definition

/-
Outermost declarations and whole programs.

    declaration ::= object | function
    function    ::= 'def' name '(' parameters? ')' '->' type (block | ';')
    parameters  ::= name ':' type (',' parameters)?
    program     ::= declaration*
-/
set_option autoImplicit false

namespace McFront.Grammar

open Parse

def parameters : Nat → Parse (List Declaration)
  | 0 => outOfBudget
  | budget + 1 => do
      let (name, place) ← expectName
      let _ ← expect (.punctuation .colon) "':' before the parameter type"
      let type ← type budget
      let first ← analyze (Analysis.parameter name type place)
      if ← takes (.punctuation .comma) then
        return first :: (← parameters budget)
      else
        return [first]

def parameterList (budget : Nat) : Parse (List Declaration) := do
  let _ ← expect (.punctuation .leftParen) "'(' before the parameter list"
  let given ← if ← sees (.punctuation .rightParen) then pure [] else parameters budget
  let _ ← expect (.punctuation .rightParen) "')' after the parameter list"
  return given

def functionBody (budget : Nat) (function : Declaration) : Parse Declaration := do
  analyze (Analysis.beginFunction function)
  let body ← releasing (block budget) (change Analyzer.endFunction)
  demand (function.define body)

def function (budget : Nat) : Parse Declaration := do
  let _ ← expect (.keyword .defWord) "'def'"
  let (name, place) ← expectName
  let parameters ← inScope .parameters (parameterList budget)
  let _ ← expect (.punctuation .arrow) "'->' before the return type"
  let result ← type budget
  let function ← analyze (Analysis.function name parameters result place)
  if ← takes (.punctuation .semicolon) then
    return function
  else if ← sees (.punctuation .leftBrace) then
    functionBody budget function
  else
    unexpected "a function body or ';'"

def declaration (budget : Nat) : Parse Declaration := do
  if ← atFunction then function budget else object budget

def declarations : Nat → Parse (List Declaration)
  | 0 => outOfBudget
  | budget + 1 => do
      if (← peek).isEnd then
        return []
      else
        let first ← declaration budget
        return first :: (← declarations budget)

def program (budget : Nat) : Parse Declaration := do
  return .program (← inScope .outermost (declarations budget))

end McFront.Grammar
