import McFront.Lexicon.Escape
import McFront.Number.Decimal
import McFront.Tree.Basic

set_option autoImplicit false

namespace McFront

inductive Outline where
  | node (label : String) (children : List Outline)

namespace Outline

mutual
def lines (depth : Nat) : Outline → List (Nat × String)
  | node label children => (depth, label) :: linesOf (depth + 1) children
def linesOf (depth : Nat) : List Outline → List (Nat × String)
  | [] => []
  | outline :: outlines => lines depth outline ++ linesOf depth outlines
end

def indentedText (outline : Outline) : String :=
  String.join ((outline.lines 0).map fun line =>
    String.ofList (List.replicate (2 * line.1) ' ') ++ line.2 ++ "\n")

def numberedLines (outline : Outline) : List String :=
  (outline.lines 0).map fun line => toString line.1 ++ " " ++ line.2

end Outline

structure Labels where
  expr : Expr → String
  declaration : Declaration → String

namespace Labels

mutual
def ofExpr (labels : Labels) : Expr → Outline
  | e@(.bool ..) | e@(.int ..) | e@(.float ..) | e@(.char ..) | e@(.name ..) =>
      .node (labels.expr e) []
  | e@(.unary _ operand _ _) => .node (labels.expr e) [labels.ofExpr operand]
  | e@(.binary _ left right _ _) => .node (labels.expr e) [labels.ofExpr left, labels.ofExpr right]
  | e@(.call callee arguments _ _) =>
      .node (labels.expr e) (labels.ofExpr callee :: labels.ofExprs arguments)
  | e@(.index base index _ _) => .node (labels.expr e) [labels.ofExpr base, labels.ofExpr index]
  | e@(.cast source _ _) => .node (labels.expr e) [labels.ofExpr source]
  | e@(.assign target value _ _) =>
      .node (labels.expr e) [labels.ofExpr target, labels.ofExpr value]
  | e@(.conditional condition first second _ _) =>
      .node (labels.expr e)
        [labels.ofExpr condition, labels.ofExpr first, labels.ofExpr second]
  | e@(.conversion _ source _ _) => .node (labels.expr e) [labels.ofExpr source]
def ofExprs (labels : Labels) : List Expr → List Outline
  | [] => []
  | e :: es => labels.ofExpr e :: labels.ofExprs es
end

mutual
def ofStmt (labels : Labels) : Stmt → Outline
  | .block statements => .node "block" (labels.ofStmts statements)
  | .when condition body => .node "when" [labels.ofExpr condition, labels.ofStmt body]
  | .ifElse condition first second =>
      .node "if" [labels.ofExpr condition, labels.ofStmt first, labels.ofStmt second]
  | .whileLoop condition body => .node "while" [labels.ofExpr condition, labels.ofStmt body]
  | .breakLoop => .node "break" []
  | .continueLoop => .node "continue" []
  | .returnValue value => .node "return" [labels.ofExpr value]
  | .declare declaration => labels.ofDeclaration declaration
  | .evaluate expr => .node "expression" [labels.ofExpr expr]
def ofStmts (labels : Labels) : List Stmt → List Outline
  | [] => []
  | s :: ss => labels.ofStmt s :: labels.ofStmts ss
def ofDeclaration (labels : Labels) : Declaration → Outline
  | d@(.object _ initial) =>
      .node (labels.declaration d) (initial.toList.map labels.ofExpr)
  | d@(.prototype _ parameters) =>
      .node (labels.declaration d) (labels.ofDeclarations parameters)
  | d@(.function _ parameters body) =>
      .node (labels.declaration d) (labels.ofDeclarations parameters ++ [labels.ofStmt body])
  | d@(.program declarations) =>
      .node (labels.declaration d) (labels.ofDeclarations declarations)
def ofDeclarations (labels : Labels) : List Declaration → List Outline
  | [] => []
  | d :: ds => labels.ofDeclaration d :: labels.ofDeclarations ds
end

end Labels

def Expr.head (shown : Char → String) : Expr → String
  | bool value _ _ => s!"bool {value}"
  | int value _ _ => s!"int {value}"
  | float value _ _ => s!"float {value.text}"
  | char value _ _ => s!"char {shown value}"
  | name spelled _ _ _ => s!"id {spelled}"
  | unary operation _ _ _ => s!"unary {operation.name}"
  | binary operation _ _ _ _ => s!"binary {operation.name}"
  | call .. => "call"
  | index .. => "index"
  | cast .. => "cast"
  | assign .. => "assign"
  | conditional .. => "conditional"
  | conversion tag _ _ _ => s!"conversion {tag.name}"

def Entity.head (entity : Entity) : String :=
  s!"{entity.kind.name} {entity.name} : {entity.type.text}"

def Entity.line (entity : Entity) : String := s!"{entity.head} @{entity.location.text}"

def Declaration.line (declaration : Declaration) : String :=
  match declaration.entity? with
  | some entity => entity.line
  | none => "program"

namespace Labels

def literal (c : Char) : String := "'" ++ Escape.shownText [c] ++ "'"

def dump : Labels where
  expr e := s!"{e.head literal} : {e.type.text}"
  declaration
    | .object entity _ | .function entity _ _ => entity.head
    | .prototype entity _ => entity.head ++ " (declaration)"
    | .program _ => "program"

def codePoint (c : Char) : String :=
  let digits := (Nat.toDigits 16 c.toNat).map Char.toUpper
  "U+" ++ String.ofList (List.replicate (4 - digits.length) '0' ++ digits)

def listing : Labels where
  expr e :=
    let line := s!"{e.head codePoint} : {e.type.text} @{e.location.text}"
    match e with
    | .name _ entity _ _ => s!"{line} -> {entity.line}"
    | _ => line
  declaration := Declaration.line

end Labels

def Declaration.dump (declaration : Declaration) : String :=
  (Labels.dump.ofDeclaration declaration).indentedText

def Declaration.listing (declaration : Declaration) : List String :=
  (Labels.listing.ofDeclaration declaration).numberedLines

def Stmt.listing (stmt : Stmt) : List String := (Labels.listing.ofStmt stmt).numberedLines

def Expr.listing (expr : Expr) : List String := (Labels.listing.ofExpr expr).numberedLines

end McFront
