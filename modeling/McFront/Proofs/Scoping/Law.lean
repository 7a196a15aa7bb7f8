import McFront.Proofs.Tree.Nodes

/-
Lexical scoping, told from finished trees. The outermost declarations share a scope, the parameters
of a function share one with the outermost block of its body, and each block inside opens a scope.
What a branch or a loop declares without braces belongs to the block around it.
-/
set_option autoImplicit false

namespace McFront

-- The scopes that are open somewhere, innermost first, each with what it has declared so far,
-- latest first.
abbrev Visible := List (List Entity)

namespace Visible

def find? (visible : Visible) (name : String) : Option Entity :=
  visible.findSome? fun scope => scope.find? fun entity => entity.name = name

def declaring (visible : Visible) (own : List Entity) : Visible :=
  match visible with
  | [] => []
  | scope :: outer => (own.reverse ++ scope) :: outer

end Visible

mutual
def Stmt.own : Stmt → List Entity
  | .when _ body => body.own
  | .ifElse _ first second => first.own ++ second.own
  | .whileLoop _ body => body.own
  | .declare declaration => declaration.entity?.toList
  | .block _ | .breakLoop | .continueLoop | .returnValue _ | .evaluate _ => []
def Stmt.ownOf : List Stmt → List Entity
  | [] => []
  | stmt :: stmts => stmt.own ++ Stmt.ownOf stmts
end

structure Use where
  visible : Visible
  name : String
  entity : Entity

def Use.link (use : Use) : String × Entity := (use.name, use.entity)

def Expr.uses (visible : Visible) (expr : Expr) : List Use :=
  expr.links.map fun link => ⟨visible, link.1, link.2⟩

mutual
-- An object is visible after its initializer, a function from its body on.
def Stmt.uses (visible : Visible) : Stmt → List Use
  | .block stmts => Stmt.usesOf ([] :: visible) stmts
  | .when condition body => condition.uses visible ++ body.uses visible
  | .ifElse condition first second =>
      condition.uses visible ++ first.uses visible ++ second.uses (visible.declaring first.own)
  | .whileLoop condition body => condition.uses visible ++ body.uses visible
  | .returnValue value => value.uses visible
  | .declare declaration => declaration.uses visible
  | .evaluate expr => expr.uses visible
  | .breakLoop | .continueLoop => []
def Stmt.usesOf (visible : Visible) : List Stmt → List Use
  | [] => []
  | stmt :: stmts => stmt.uses visible ++ Stmt.usesOf (visible.declaring stmt.own) stmts
def Declaration.uses (visible : Visible) : Declaration → List Use
  | .object _ initial => initial.toList.flatMap (Expr.uses visible)
  | .prototype _ parameters => Declaration.usesOf visible parameters
  | .function entity parameters (.block stmts) =>
      Declaration.usesOf visible parameters ++ Stmt.usesOf
        ((parameters.filterMap Declaration.entity?).reverse :: visible.declaring [entity]) stmts
  | .function entity parameters body =>
      Declaration.usesOf visible parameters ++ body.uses (visible.declaring [entity])
  | .program declarations => Declaration.usesOf ([] :: visible) declarations
def Declaration.usesOf (visible : Visible) : List Declaration → List Use
  | [] => []
  | declaration :: declarations =>
      declaration.uses visible ++
        Declaration.usesOf (visible.declaring declaration.entity?.toList) declarations
end

mutual
def Stmt.scopes : Stmt → List (List Entity)
  | .block stmts => Stmt.ownOf stmts :: Stmt.scopesOf stmts
  | .when _ body => body.scopes
  | .ifElse _ first second => first.scopes ++ second.scopes
  | .whileLoop _ body => body.scopes
  | .declare declaration => declaration.scopes
  | .breakLoop | .continueLoop | .returnValue _ | .evaluate _ => []
def Stmt.scopesOf : List Stmt → List (List Entity)
  | [] => []
  | stmt :: stmts => stmt.scopes ++ Stmt.scopesOf stmts
def Declaration.scopes : Declaration → List (List Entity)
  | .object _ _ => []
  | .prototype _ parameters => [parameters.filterMap Declaration.entity?]
  | .function _ parameters (.block stmts) =>
      (parameters.filterMap Declaration.entity? ++ Stmt.ownOf stmts) :: Stmt.scopesOf stmts
  | .function _ parameters body => parameters.filterMap Declaration.entity? :: body.scopes
  | .program declarations =>
      declarations.filterMap Declaration.entity? :: Declaration.scopesOf declarations
def Declaration.scopesOf : List Declaration → List (List Entity)
  | [] => []
  | declaration :: declarations => declaration.scopes ++ Declaration.scopesOf declarations
end

end McFront
