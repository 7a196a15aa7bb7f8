import McFront.Breach
import McFront.Tree.Basic

set_option autoImplicit false

namespace McFront

def Declaration.define (declaration : Declaration) (body : Stmt) : Except Breach Declaration :=
  match declaration with
  | .prototype entity parameters => .ok (.function entity parameters body)
  | .function entity _ _ => .error (.definedTwice entity.name)
  | .object .. | .program _ => .error .notAFunction

mutual
-- The statement with the body given wherever the prototype of the function is declared in it.
def Stmt.completed (function : Entity) (body : Stmt) : Stmt → Stmt
  | .block statements => .block (Stmt.allCompleted function body statements)
  | .when condition inner => .when condition (Stmt.completed function body inner)
  | .ifElse condition first second =>
      .ifElse condition (Stmt.completed function body first)
        (Stmt.completed function body second)
  | .whileLoop condition inner => .whileLoop condition (Stmt.completed function body inner)
  | .declare declaration => .declare (Declaration.completed function body declaration)
  | stmt@(.breakLoop) | stmt@(.continueLoop) | stmt@(.returnValue _) | stmt@(.evaluate _) => stmt
def Stmt.allCompleted (function : Entity) (body : Stmt) : List Stmt → List Stmt
  | [] => []
  | stmt :: stmts => Stmt.completed function body stmt :: Stmt.allCompleted function body stmts
def Declaration.completed (function : Entity) (body : Stmt) : Declaration → Declaration
  | .object entity initial => .object entity initial
  | .prototype entity parameters =>
      if entity = function then
        .function entity (Declaration.allCompleted function body parameters) body
      else .prototype entity (Declaration.allCompleted function body parameters)
  | .function entity parameters inner =>
      .function entity (Declaration.allCompleted function body parameters)
        (Stmt.completed function body inner)
  | .program declarations => .program (Declaration.allCompleted function body declarations)
def Declaration.allCompleted (function : Entity) (body : Stmt) :
    List Declaration → List Declaration
  | [] => []
  | d :: ds => Declaration.completed function body d :: Declaration.allCompleted function body ds
end

end McFront
