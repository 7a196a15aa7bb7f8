set_option autoImplicit false

namespace McFront

inductive ScopeKind where
  | outermost | parameters | block
deriving DecidableEq

def ScopeKind.name : ScopeKind → String
  | outermost => "global"
  | parameters => "parameter"
  | block => "block"

-- The latest entry comes first.
structure Scope (α : Type) where
  kind : ScopeKind
  entries : List (String × α)

namespace Scope

variable {α : Type}

def empty (kind : ScopeKind) : Scope α := ⟨kind, []⟩

def size (scope : Scope α) : Nat := scope.entries.length

def get? (scope : Scope α) (name : String) : Option α := scope.entries.lookup name

def declare (scope : Scope α) (name : String) (item : α) : Except α (Scope α) :=
  match scope.get? name with
  | some existing => .error existing
  | none => .ok { scope with entries := (name, item) :: scope.entries }

end Scope

-- The innermost scope comes first.
structure ScopeChain (α : Type) where
  scopes : List (Scope α)

namespace ScopeChain

variable {α : Type}

def empty : ScopeChain α := ⟨[]⟩

def depth (chain : ScopeChain α) : Nat := chain.scopes.length

def current? (chain : ScopeChain α) : Option (Scope α) := chain.scopes.head?

def parentKind? (chain : ScopeChain α) : Option ScopeKind := chain.scopes[1]?.map Scope.kind

def enter (chain : ScopeChain α) (kind : ScopeKind) : ScopeChain α :=
  ⟨Scope.empty kind :: chain.scopes⟩

def leave (chain : ScopeChain α) : ScopeChain α := ⟨chain.scopes.tail⟩

def lookup (chain : ScopeChain α) (name : String) : Option α :=
  chain.scopes.findSome? (·.get? name)

inductive Outcome (α : Type) where
  | declared (chain : ScopeChain α)
  | existing (item : α)
  | noScope

def declare (chain : ScopeChain α) (name : String) (item : α) : Outcome α :=
  match chain.scopes with
  | [] => .noScope
  | scope :: outer =>
      match scope.declare name item with
      | .ok scope => .declared ⟨scope :: outer⟩
      | .error existing => .existing existing

end ScopeChain
end McFront
