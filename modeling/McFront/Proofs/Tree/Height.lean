import Mathlib.Order.MinMax
import McFront.Proofs.Tree.Nodes

set_option autoImplicit false

namespace McFront

mutual
def Ty.height : Ty → Nat
  | .bool | .char | .int | .float => 1
  | .pointer pointee => pointee.height + 1
  | .reference object => object.height + 1
  | .function parameters result => max (Ty.heightOf parameters) result.height + 1
def Ty.heightOf : List Ty → Nat
  | [] => 0
  | type :: types => max type.height (Ty.heightOf types)
end

mutual
def Expr.height : Expr → Nat
  | .bool .. | .int .. | .float .. | .char .. | .name .. => 1
  | .unary _ operand _ _ => operand.height + 1
  | .binary _ left right _ _ => max left.height right.height + 1
  | .call callee arguments _ _ => max callee.height (Expr.heightOf arguments) + 1
  | .index base offset _ _ => max base.height offset.height + 1
  | .cast source _ _ => source.height + 1
  | .assign target value _ _ => max target.height value.height + 1
  | .conditional condition first second _ _ =>
      max condition.height (max first.height second.height) + 1
  | .conversion _ source _ _ => source.height + 1
def Expr.heightOf : List Expr → Nat
  | [] => 0
  | e :: es => max e.height (Expr.heightOf es)
end

mutual
def Stmt.height : Stmt → Nat
  | .block stmts => Stmt.heightOf stmts + 1
  | .when condition body => max condition.height body.height + 1
  | .ifElse condition first second =>
      max condition.height (max first.height second.height) + 1
  | .whileLoop condition body => max condition.height body.height + 1
  | .breakLoop | .continueLoop => 1
  | .returnValue value => value.height + 1
  | .declare declaration => declaration.height + 1
  | .evaluate expr => expr.height + 1
def Stmt.heightOf : List Stmt → Nat
  | [] => 0
  | stmt :: stmts => max stmt.height (Stmt.heightOf stmts)
def Declaration.height : Declaration → Nat
  | .object _ initial => Expr.heightOf initial.toList + 1
  | .prototype _ parameters => Declaration.heightOf parameters + 1
  | .function _ parameters body => max (Declaration.heightOf parameters) body.height + 1
  | .program declarations => Declaration.heightOf declarations + 1
def Declaration.heightOf : List Declaration → Nat
  | [] => 0
  | declaration :: declarations => max declaration.height (Declaration.heightOf declarations)
end

mutual
def Stmt.statements : Stmt → List Stmt
  | stmt@(.block stmts) => stmt :: Stmt.statementsOf stmts
  | stmt@(.when _ body) => stmt :: body.statements
  | stmt@(.ifElse _ first second) => stmt :: (first.statements ++ second.statements)
  | stmt@(.whileLoop _ body) => stmt :: body.statements
  | stmt@(.declare declaration) => stmt :: declaration.statements
  | stmt@.breakLoop | stmt@.continueLoop | stmt@(.returnValue _) | stmt@(.evaluate _) => [stmt]
def Stmt.statementsOf : List Stmt → List Stmt
  | [] => []
  | stmt :: stmts => stmt.statements ++ Stmt.statementsOf stmts
def Declaration.statements : Declaration → List Stmt
  | .object _ _ => []
  | .prototype _ parameters => Declaration.statementsOf parameters
  | .function _ parameters body => Declaration.statementsOf parameters ++ body.statements
  | .program declarations => Declaration.statementsOf declarations
def Declaration.statementsOf : List Declaration → List Stmt
  | [] => []
  | declaration :: declarations =>
      declaration.statements ++ Declaration.statementsOf declarations
end

-- All types of a tree: those that it declares, and those of its expressions and of what the
-- names among them stand for.
def Declaration.types (declaration : Declaration) : List Ty :=
  (declaration.declared ++ declaration.nodes.filterMap Expr.entity?).map Entity.type ++
    declaration.nodes.map Expr.type

namespace Ty

variable {bound : Nat}

theorem height_of_le {types : List Ty} :
    heightOf types ≤ bound ↔ ∀ type ∈ types, type.height ≤ bound := by
  induction types with
  | nil => simp [heightOf]
  | cons type types ih => rw [heightOf, Nat.max_le, List.forall_mem_cons, ih]

theorem height_object (type : Ty) : type.object.height ≤ type.height := by
  cases type with
  | reference object => exact Nat.le_succ _
  | _ => exact Nat.le_refl _

theorem height_object_reference_to (type : Ty) :
    type.referenceTo.object.height ≤ type.height := by
  cases type with
  | reference object => exact Nat.le_succ _
  | _ => exact Nat.le_refl _

end Ty

namespace Expr

variable {bound : Nat}

def children : Expr → List Expr
  | .bool .. | .int .. | .float .. | .char .. | .name .. => []
  | .unary _ operand _ _ => [operand]
  | .binary _ left right _ _ => [left, right]
  | .call callee arguments _ _ => callee :: arguments
  | .index base offset _ _ => [base, offset]
  | .cast source _ _ => [source]
  | .assign target value _ _ => [target, value]
  | .conditional condition first second _ _ => [condition, first, second]
  | .conversion _ source _ _ => [source]

theorem height_of_le {es : List Expr} : heightOf es ≤ bound ↔ ∀ e ∈ es, e.height ≤ bound := by
  induction es with
  | nil => simp [heightOf]
  | cons e es ih => rw [heightOf, Nat.max_le, List.forall_mem_cons, ih]

theorem height_eq (e : Expr) : e.height = heightOf e.children + 1 := by
  cases e <;> simp [height, children, heightOf]

theorem nodes_eq (e : Expr) : e.nodes = e :: nodesOf e.children := by
  cases e <;> simp [nodes, children, nodesOf]

theorem mem_nodes_of {node : Expr} {es : List Expr} :
    node ∈ nodesOf es ↔ ∃ e ∈ es, node ∈ e.nodes := by
  induction es with
  | nil => simp [nodesOf]
  | cons e es ih => simp [nodesOf, ih]

theorem mem_nodes {e node : Expr} :
    node ∈ e.nodes ↔ node = e ∨ ∃ child ∈ e.children, node ∈ child.nodes := by
  rw [nodes_eq, List.mem_cons, mem_nodes_of]

theorem mem_nodes_self (e : Expr) : e ∈ e.nodes := mem_nodes.mpr (.inl rfl)

theorem height_child {e child : Expr} (member : child ∈ e.children) : child.height < e.height := by
  rw [height_eq e]
  exact Nat.lt_succ_of_le (height_of_le.mp (Nat.le_refl _) child member)

theorem height_node (e : Expr) : ∀ node ∈ e.nodes, node.height ≤ e.height := by
  intro node member
  rcases mem_nodes.mp member with rfl | ⟨child, among, inside⟩
  · exact Nat.le_refl _
  · have below := height_child among
    exact le_trans (height_node child node inside) below.le
termination_by e.height

end Expr

theorem Stmt.height_of_le {bound : Nat} {stmts : List Stmt} :
    Stmt.heightOf stmts ≤ bound ↔ ∀ stmt ∈ stmts, stmt.height ≤ bound := by
  induction stmts with
  | nil => simp [Stmt.heightOf]
  | cons stmt stmts ih => rw [Stmt.heightOf, Nat.max_le, List.forall_mem_cons, ih]

def Rooted (bound : Nat) (nodes : List Expr) : Prop :=
  ∃ es, nodes = Expr.nodesOf es ∧ ∀ e ∈ es, e.height ≤ bound

namespace Rooted

variable {bound greater : Nat} {nodes others : List Expr}

theorem nil : Rooted bound [] := ⟨[], rfl, nofun⟩

theorem of_exprs {es : List Expr} (within : ∀ e ∈ es, e.height ≤ bound) :
    Rooted bound (Expr.nodesOf es) := ⟨es, rfl, within⟩

theorem of_expr {e : Expr} (within : e.height ≤ bound) : Rooted bound e.nodes :=
  ⟨[e], (List.append_nil _).symm, List.forall_mem_singleton.mpr within⟩

theorem append (first : Rooted bound nodes) (second : Rooted bound others) :
    Rooted bound (nodes ++ others) := by
  obtain ⟨es, rfl, within⟩ := first
  obtain ⟨more, rfl, withinToo⟩ := second
  refine ⟨es ++ more, ?_, List.forall_mem_append.mpr ⟨within, withinToo⟩⟩
  induction es with
  | nil => rfl
  | cons e es ih =>
      rw [List.cons_append, Expr.nodesOf, Expr.nodesOf, List.append_assoc]
      rw [ih fun e member => within e (List.mem_cons_of_mem _ member)]

theorem weaken (rooted : Rooted bound nodes) (atMost : bound ≤ greater) : Rooted greater nodes := by
  obtain ⟨es, isNodes, within⟩ := rooted
  exact ⟨es, isNodes, fun e member => le_trans (within e member) atMost⟩

theorem height (rooted : Rooted bound nodes) : ∀ node ∈ nodes, node.height ≤ bound := by
  obtain ⟨es, rfl, within⟩ := rooted
  intro node member
  obtain ⟨e, among, inside⟩ := Expr.mem_nodes_of.mp member
  exact le_trans (e.height_node node inside) (within e among)

end Rooted

mutual
theorem Stmt.rooted (stmt : Stmt) : Rooted stmt.height stmt.nodes := by
  cases stmt with
  | block stmts => exact (Stmt.rooted_of stmts).weaken (Nat.le_succ _)
  | when condition body | whileLoop condition body =>
      have inside := Stmt.rooted body
      exact (Rooted.of_expr (le_trans (le_max_left ..) (Nat.le_succ _))).append
        (inside.weaken (le_trans (le_max_right ..) (Nat.le_succ _)))
  | ifElse condition first second =>
      have whole : (Stmt.ifElse condition first second).height =
        max condition.height (max first.height second.height) + 1 := rfl
      have tested : condition.height ≤ (Stmt.ifElse condition first second).height := by omega
      have chosen : first.height ≤ (Stmt.ifElse condition first second).height := by omega
      have otherwise : second.height ≤ (Stmt.ifElse condition first second).height := by omega
      exact ((Rooted.of_expr tested).append ((Stmt.rooted first).weaken chosen)).append
        ((Stmt.rooted second).weaken otherwise)
  | breakLoop | continueLoop => exact .nil
  | returnValue e | evaluate e => exact .of_expr (Nat.le_succ _)
  | declare declaration => exact (Declaration.rooted declaration).weaken (Nat.le_succ _)
theorem Stmt.rooted_of (stmts : List Stmt) :
    Rooted (Stmt.heightOf stmts) (Stmt.nodesOf stmts) := by
  cases stmts with
  | nil => exact .nil
  | cons stmt stmts =>
      exact ((Stmt.rooted stmt).weaken (le_max_left ..)).append
        ((Stmt.rooted_of stmts).weaken (le_max_right ..))
theorem Declaration.rooted (declaration : Declaration) :
    Rooted declaration.height declaration.nodes := by
  cases declaration with
  | object entity initial => exact .of_exprs (Expr.height_of_le.mp (Nat.le_succ _))
  | prototype entity declarations | program declarations =>
      exact (Declaration.rooted_of declarations).weaken (Nat.le_succ _)
  | function entity parameters body =>
      have given := Declaration.rooted_of parameters
      have inside := Stmt.rooted body
      exact (given.weaken (le_trans (le_max_left ..) (Nat.le_succ _))).append
        (inside.weaken (le_trans (le_max_right ..) (Nat.le_succ _)))
theorem Declaration.rooted_of (declarations : List Declaration) :
    Rooted (Declaration.heightOf declarations) (Declaration.nodesOf declarations) := by
  cases declarations with
  | nil => exact .nil
  | cons declaration declarations =>
      exact ((Declaration.rooted declaration).weaken (le_max_left ..)).append
        ((Declaration.rooted_of declarations).weaken (le_max_right ..))
end

mutual
theorem Stmt.height_statement (stmt : Stmt) :
    ∀ part ∈ stmt.statements, part.height ≤ stmt.height := by
  intro part member
  cases stmt with
  | block stmts =>
      rcases List.mem_cons.mp member with rfl | inside
      · exact Nat.le_refl _
      · exact le_trans (Stmt.height_statement_of stmts part inside) (Nat.le_succ _)
  | when condition body | whileLoop condition body =>
      rcases List.mem_cons.mp member with rfl | inside
      · exact Nat.le_refl _
      · have := Stmt.height_statement body part inside
        rw [Stmt.height]
        omega
  | ifElse condition first second =>
      rcases List.mem_cons.mp member with rfl | inside
      · exact Nat.le_refl _
      · rw [Stmt.height]
        rcases List.mem_append.mp inside with inside | inside
        · have := Stmt.height_statement first part inside
          omega
        · have := Stmt.height_statement second part inside
          omega
  | declare declaration =>
      rcases List.mem_cons.mp member with rfl | inside
      · exact Nat.le_refl _
      · exact le_trans (Declaration.height_statement declaration part inside) (Nat.le_succ _)
  | breakLoop | continueLoop | returnValue | evaluate =>
      cases List.mem_singleton.mp member
      exact Nat.le_refl _
theorem Stmt.height_statement_of (stmts : List Stmt) :
    ∀ part ∈ Stmt.statementsOf stmts, part.height ≤ Stmt.heightOf stmts := by
  intro part member
  cases stmts with
  | nil => cases member
  | cons stmt stmts =>
      rw [Stmt.heightOf, le_max_iff]
      rcases List.mem_append.mp member with inside | inside
      · exact .inl (Stmt.height_statement stmt part inside)
      · exact .inr (Stmt.height_statement_of stmts part inside)
theorem Declaration.height_statement (declaration : Declaration) :
    ∀ part ∈ declaration.statements, part.height ≤ declaration.height := by
  intro part member
  cases declaration with
  | object entity initial => cases member
  | prototype entity declarations | program declarations =>
      exact le_trans (Declaration.height_statement_of declarations part member) (Nat.le_succ _)
  | function entity parameters body =>
      rw [Declaration.height]
      rcases List.mem_append.mp member with inside | inside
      · have := Declaration.height_statement_of parameters part inside
        omega
      · have := Stmt.height_statement body part inside
        omega
theorem Declaration.height_statement_of (declarations : List Declaration) :
    ∀ part ∈ Declaration.statementsOf declarations,
      part.height ≤ Declaration.heightOf declarations := by
  intro part member
  cases declarations with
  | nil => cases member
  | cons declaration declarations =>
      rw [Declaration.heightOf, le_max_iff]
      rcases List.mem_append.mp member with inside | inside
      · exact .inl (Declaration.height_statement declaration part inside)
      · exact .inr (Declaration.height_statement_of declarations part inside)
end

end McFront
