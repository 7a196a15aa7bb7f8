import McFront.Proofs.Tree.Nodes
import McFront.Token.Basic

set_option autoImplicit false

namespace McFront

inductive Leaf.Value where
  | name (name : String)
  | int (value : Int)
  | float (value : Binary64)
  | bool (value : Bool)
  | char (value : Char)
deriving DecidableEq

structure Leaf where
  value : Leaf.Value
  location : Location
deriving DecidableEq

def Token.leaf? (token : Token) : Option Leaf :=
  match token.kind with
  | .identifier name => some ⟨.name name, token.location⟩
  | .integer _ value => some ⟨.int value, token.location⟩
  | .float value => some ⟨.float value, token.location⟩
  | .boolean value => some ⟨.bool value, token.location⟩
  | .character value => some ⟨.char value, token.location⟩
  | _ => none

theorem leaf_places (tokens : List Token) :
    ((tokens.filterMap Token.leaf?).map Leaf.location).Sublist (tokens.map Token.location) := by
  induction tokens with
  | nil => exact List.nil_sublist _
  | cons token tokens ih =>
      cases carried : token.leaf? with
      | none =>
          rw [List.filterMap_cons_none carried]
          exact ih.cons _
      | some leaf =>
          have place : leaf.location = token.location := by
            unfold Token.leaf? at carried
            split at carried <;> cases carried <;> rfl
          rw [List.filterMap_cons_some carried, List.map_cons, List.map_cons, place]
          exact ih.cons_cons _

def Entity.leaf (entity : Entity) : Leaf := ⟨.name entity.name, entity.location⟩

namespace Expr

def isLeaf : Expr → Bool
  | .bool .. | .int .. | .float .. | .char .. | .name .. => true
  | _ => false

def leafNodes (e : Expr) : List Expr := e.nodes.filter isLeaf

def leaf? : Expr → Option Leaf
  | .bool value _ place => some ⟨.bool value, place⟩
  | .int value _ place => some ⟨.int value, place⟩
  | .float value _ place => some ⟨.float value, place⟩
  | .char value _ place => some ⟨.char value, place⟩
  | .name spelled _ _ place => some ⟨.name spelled, place⟩
  | _ => none

def leaves (e : Expr) : List Leaf := e.nodes.filterMap leaf?

variable {α : Type}

theorem gather_leaf_nodes {part : Expr → Option α} (e : Expr)
    (bare : ∀ node, node.isLeaf = false → part node = none) :
    e.leafNodes.filterMap part = e.nodes.filterMap part := by
  unfold leafNodes
  induction e.nodes with
  | nil => rfl
  | cons node nodes ih =>
      cases isLeaf : node.isLeaf with
      | true => rw [List.filter_cons_of_pos isLeaf, List.filterMap_cons, List.filterMap_cons, ih]
      | false =>
          rw [List.filter_cons_of_neg (by simp [isLeaf]), ih,
            List.filterMap_cons_none (bare node isLeaf)]

theorem leaves_eq (e : Expr) : e.leaves = e.leafNodes.filterMap leaf? := by
  refine (e.gather_leaf_nodes ?_).symm
  intro node bare
  cases node <;> first | rfl | cases bare

theorem links_eq (e : Expr) : e.links = e.leafNodes.filterMap link? := by
  refine (e.gather_leaf_nodes ?_).symm
  intro node bare
  cases node <;> first | rfl | cases bare

end Expr

mutual
def Stmt.leaves : Stmt → List Leaf
  | .block stmts => Stmt.leavesOf stmts
  | .when condition body => condition.leaves ++ body.leaves
  | .ifElse condition first second => condition.leaves ++ first.leaves ++ second.leaves
  | .whileLoop condition body => condition.leaves ++ body.leaves
  | .breakLoop | .continueLoop => []
  | .returnValue value => value.leaves
  | .declare declaration => declaration.leaves
  | .evaluate expr => expr.leaves
def Stmt.leavesOf : List Stmt → List Leaf
  | [] => []
  | stmt :: stmts => stmt.leaves ++ Stmt.leavesOf stmts
def Declaration.leaves : Declaration → List Leaf
  | .object entity initial => entity.leaf :: initial.toList.flatMap Expr.leaves
  | .prototype entity parameters => entity.leaf :: Declaration.leavesOf parameters
  | .function entity parameters body =>
      entity.leaf :: (Declaration.leavesOf parameters ++ body.leaves)
  | .program declarations => Declaration.leavesOf declarations
def Declaration.leavesOf : List Declaration → List Leaf
  | [] => []
  | declaration :: declarations => declaration.leaves ++ Declaration.leavesOf declarations
end

end McFront
