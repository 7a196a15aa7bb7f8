import McFront.Tree.Basic

set_option autoImplicit false

namespace McFront

mutual
def Expr.nodes : Expr → List Expr
  | e@(.bool ..) | e@(.int ..) | e@(.float ..) | e@(.char ..) | e@(.name ..) => [e]
  | e@(.unary _ operand _ _) => e :: operand.nodes
  | e@(.binary _ left right _ _) => e :: (left.nodes ++ right.nodes)
  | e@(.call callee arguments _ _) => e :: (callee.nodes ++ Expr.nodesOf arguments)
  | e@(.index base offset _ _) => e :: (base.nodes ++ offset.nodes)
  | e@(.cast source _ _) => e :: source.nodes
  | e@(.assign target value _ _) => e :: (target.nodes ++ value.nodes)
  | e@(.conditional condition first second _ _) =>
      e :: (condition.nodes ++ first.nodes ++ second.nodes)
  | e@(.conversion _ source _ _) => e :: source.nodes
def Expr.nodesOf : List Expr → List Expr
  | [] => []
  | e :: es => e.nodes ++ Expr.nodesOf es
end

mutual
def Stmt.nodes : Stmt → List Expr
  | .block stmts => Stmt.nodesOf stmts
  | .when condition body => condition.nodes ++ body.nodes
  | .ifElse condition first second => condition.nodes ++ first.nodes ++ second.nodes
  | .whileLoop condition body => condition.nodes ++ body.nodes
  | .breakLoop | .continueLoop => []
  | .returnValue value => value.nodes
  | .declare declaration => declaration.nodes
  | .evaluate expr => expr.nodes
def Stmt.nodesOf : List Stmt → List Expr
  | [] => []
  | stmt :: stmts => stmt.nodes ++ Stmt.nodesOf stmts
def Declaration.nodes : Declaration → List Expr
  | .object _ initial => Expr.nodesOf initial.toList
  | .prototype _ parameters => Declaration.nodesOf parameters
  | .function _ parameters body => Declaration.nodesOf parameters ++ body.nodes
  | .program declarations => Declaration.nodesOf declarations
def Declaration.nodesOf : List Declaration → List Expr
  | [] => []
  | declaration :: declarations => declaration.nodes ++ Declaration.nodesOf declarations
end

mutual
def Stmt.declared : Stmt → List Entity
  | .block stmts => Stmt.declaredIn stmts
  | .when _ body => body.declared
  | .ifElse _ first second => first.declared ++ second.declared
  | .whileLoop _ body => body.declared
  | .declare declaration => declaration.declared
  | .breakLoop | .continueLoop | .returnValue _ | .evaluate _ => []
def Stmt.declaredIn : List Stmt → List Entity
  | [] => []
  | stmt :: stmts => stmt.declared ++ Stmt.declaredIn stmts
def Declaration.declared : Declaration → List Entity
  | .object entity _ => [entity]
  | .prototype entity parameters => entity :: Declaration.declaredIn parameters
  | .function entity parameters body =>
      entity :: (Declaration.declaredIn parameters ++ body.declared)
  | .program declarations => Declaration.declaredIn declarations
def Declaration.declaredIn : List Declaration → List Entity
  | [] => []
  | declaration :: declarations => declaration.declared ++ Declaration.declaredIn declarations
end

def Expr.entity? : Expr → Option Entity
  | .name _ entity _ _ => some entity
  | _ => none

def Expr.link? : Expr → Option (String × Entity)
  | .name spelled entity _ _ => some (spelled, entity)
  | _ => none

def Expr.links (expr : Expr) : List (String × Entity) := expr.nodes.filterMap Expr.link?

theorem Expr.link_of_entity {e : Expr} {entity : Entity} (named : e.entity? = some entity) :
    ∃ spelled, e.link? = some (spelled, entity) := by
  cases e with
  | name spelled =>
      cases named
      exact ⟨spelled, rfl⟩
  | _ => cases named

end McFront
