import McFront.Analysis.Analyzer
import McFront.Typing.Rule

set_option autoImplicit false

namespace McFront

namespace Analyzer

def name (analyzer : Analyzer) (name : String) (place : Location) : Checked Expr :=
  match analyzer.lookup name with
  | some entity => .ok (Rule.name name entity place)
  | none => .error ((Complaint.unknownSymbol name).raise place)

def inLoop (analyzer : Analyzer) (word : String) (jump : Stmt) (place : Location) : Checked Stmt :=
  if analyzer.loops = 0 then .error ((Complaint.outsideLoop word).raise place) else .ok jump

def breakLoop (analyzer : Analyzer) : Location → Checked Stmt :=
  analyzer.inLoop "break" .breakLoop

def continueLoop (analyzer : Analyzer) : Location → Checked Stmt :=
  analyzer.inLoop "continue" .continueLoop

def returnValue (analyzer : Analyzer) (value : Option Expr) (place : Location) : Checked Stmt :=
  match analyzer.function.bind Declaration.result? with
  | none => .error (Complaint.outsideFunction.raise place)
  | some result =>
      match value with
      | none => .error ((Complaint.missingReturnValue result.text).raise place)
      | some value => do
          let value ← value.requireType result
          return .returnValue value

end Analyzer

namespace Analysis

def initializer (kind : Kind) (name : String) (type : Ty) (initial : Option Expr)
    (place : Location) : Checked (Option Expr) :=
  match initial with
  | some initial => do
      let initial ← initial.requireType type
      return some initial
  | none =>
      if kind = .var then .ok none
      else .error ((Complaint.missingInitializer kind.name name).raise place)

def object (kind : Kind) (name : String) (type : Ty) (initial : Option Expr) (place : Location) :
    Analysis Declaration := do
  let initial ← check (initializer kind name type initial place)
  let declaration := .object ⟨kind, name, type, place⟩ initial
  match kind with
  | .var | .const | .val =>
      declare declaration
      return declaration
  | _ => breach (.notAnObject kind.name)

def parameter (name : String) (type : Ty) (place : Location) : Analysis Declaration := do
  let declaration := .object ⟨.param, name, type, place⟩ none
  declare declaration
  return declaration

-- A function is declared before its body is read, so that the body can call it.
def function (name : String) (parameters : List Declaration) (result : Ty) (place : Location) :
    Analysis Declaration := do
  match parameters.mapM Declaration.entity? with
  | none => breach .untypedParameter
  | some entities =>
      let type := .function (entities.map Entity.type) result
      let declaration := .prototype ⟨.func, name, type, place⟩ parameters
      declare declaration
      return declaration

end Analysis
end McFront
