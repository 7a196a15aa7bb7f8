import McFront.Breach
import McFront.Complaint
import McFront.Scope
import McFront.Tree.Basic

set_option autoImplicit false

namespace McFront

structure Analyzer where
  scopes : ScopeChain Entity
  function : Option Declaration
  loops : Nat

-- Steps of the analysis. What they changed stays changed if they fail.
abbrev Analysis := EStateM Fault Analyzer

def check {σ α : Type} : Checked α → EStateM Fault σ α
  | .ok a => fun state => .ok a state
  | .error error => fun state => .error (.error error) state

def breach {σ α : Type} (breach : Breach) : EStateM Fault σ α := fun state =>
  .error (.breach breach) state

namespace Analyzer

def initial : Analyzer := ⟨.empty, none, 0⟩

def depth (analyzer : Analyzer) : Nat := analyzer.scopes.depth

def lookup (analyzer : Analyzer) (name : String) : Option Entity := analyzer.scopes.lookup name

def leaveScope (analyzer : Analyzer) : Analyzer := { analyzer with scopes := analyzer.scopes.leave }

def endFunction (analyzer : Analyzer) : Analyzer := { analyzer with function := none, loops := 0 }

def enterLoop (analyzer : Analyzer) : Analyzer := { analyzer with loops := analyzer.loops + 1 }

def leaveLoop (analyzer : Analyzer) : Analyzer := { analyzer with loops := analyzer.loops - 1 }

end Analyzer

namespace Analysis

def declare (declaration : Declaration) : Analysis Unit := fun analyzer =>
  match declaration.entity? with
  | none => .error (.breach .programInScope) analyzer
  | some entity =>
      match analyzer.scopes.declare entity.name entity with
      | .declared scopes => .ok () { analyzer with scopes }
      | .existing _ =>
          .error (.error ((Complaint.redeclaration entity.name).raise entity.location)) analyzer
      | .noScope => .error (.breach .noOpenScope) analyzer

-- The outermost block of a function starts with the parameters of the function.
def enter (kind : ScopeKind) : Analysis Unit := do
  modify fun analyzer => { analyzer with scopes := analyzer.scopes.enter kind }
  let analyzer ← get
  if kind = .block ∧ analyzer.scopes.parentKind? = some .outermost then
    match analyzer.function with
    | some function => function.parameters.forM declare
    | none => pure ()

def beginFunction (function : Declaration) : Analysis Unit := do
  let analyzer ← get
  match analyzer.function with
  | some _ => breach .nestedFunction
  | none => set { analyzer with function := some function, loops := 0 }

end Analysis
end McFront
