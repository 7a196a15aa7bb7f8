import McFront.CompileError

set_option autoImplicit false

namespace McFront

inductive Breach where
  | wrongToken (shown : String) (place : Location) (wanted : String)
  | emptyLookahead
  | noOpenScope
  | programInScope
  | nestedFunction
  | notAnObject (kind : String)
  | untypedParameter
  | notAFunction
  | definedTwice (name : String)
  | outOfBudget
deriving DecidableEq

def Breach.message : Breach → String
  | wrongToken shown place wanted => s!"INVARIANT: token {shown} at {place.text} is not {wanted}"
  | emptyLookahead => "INVARIANT: lookahead buffer is never empty"
  | noOpenScope => "INVARIANT: declaration outside of any scope"
  | programInScope => unreachable "the program is never declared in a scope"
  | nestedFunction => "INVARIANT: function definitions do not nest"
  | notAnObject kind => unreachable s!"{kind} is not an object declaration"
  | untypedParameter => "INVARIANT: parameters are typed"
  | notAFunction => "INVARIANT: only functions are defined"
  | definedTwice name => s!"INVARIANT: function '{name}' defined twice"
  | outOfBudget => "INVARIANT: the budget covers every text"
where
  unreachable (rule : String) : String :=
    "internal error: entered unreachable code: INVARIANT: " ++ rule

inductive Fault where
  | error (error : CompileError)
  | breach (breach : Breach)
deriving DecidableEq

end McFront
