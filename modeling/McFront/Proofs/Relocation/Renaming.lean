import Mathlib.Data.List.Forall2
import Mathlib.Data.Option.Basic
import Mathlib.Data.Set.Function
import McFront.Proofs.Relocation.Alike
import McFront.Token.Attribute

set_option autoImplicit false

namespace McFront

section Renamed

variable (rename : String → String)

def Token.Kind.renamed : Token.Kind → Token.Kind
  | .identifier name => .identifier (rename name)
  | kind => kind

def Entity.renamed (entity : Entity) : Entity := { entity with name := rename entity.name }

mutual
def Expr.renamed : Expr → Expr
  | .bool value type place => .bool value type place
  | .int value type place => .int value type place
  | .float value type place => .float value type place
  | .char value type place => .char value type place
  | .name spelled entity type place =>
      .name (rename spelled) (entity.renamed rename) type place
  | .unary operation operand type place => .unary operation operand.renamed type place
  | .binary operation left right type place =>
      .binary operation left.renamed right.renamed type place
  | .call callee arguments type place => .call callee.renamed (Expr.allRenamed arguments) type place
  | .index base offset type place => .index base.renamed offset.renamed type place
  | .cast source type place => .cast source.renamed type place
  | .assign target value type place => .assign target.renamed value.renamed type place
  | .conditional condition first second type place =>
      .conditional condition.renamed first.renamed second.renamed type place
  | .conversion tag source type place => .conversion tag source.renamed type place
def Expr.allRenamed : List Expr → List Expr
  | [] => []
  | e :: es => e.renamed :: Expr.allRenamed es
end

mutual
def Stmt.renamed : Stmt → Stmt
  | .block stmts => .block (Stmt.allRenamed stmts)
  | .when condition body => .when (condition.renamed rename) body.renamed
  | .ifElse condition first second =>
      .ifElse (condition.renamed rename) first.renamed second.renamed
  | .whileLoop condition body => .whileLoop (condition.renamed rename) body.renamed
  | .breakLoop => .breakLoop
  | .continueLoop => .continueLoop
  | .returnValue value => .returnValue (value.renamed rename)
  | .declare declaration => .declare declaration.renamed
  | .evaluate expr => .evaluate (expr.renamed rename)
def Stmt.allRenamed : List Stmt → List Stmt
  | [] => []
  | stmt :: stmts => stmt.renamed :: Stmt.allRenamed stmts
def Declaration.renamed : Declaration → Declaration
  | .object entity initial =>
      .object (entity.renamed rename) (initial.map (Expr.renamed rename))
  | .prototype entity parameters =>
      .prototype (entity.renamed rename) (Declaration.allRenamed parameters)
  | .function entity parameters body =>
      .function (entity.renamed rename) (Declaration.allRenamed parameters) body.renamed
  | .program declarations => .program (Declaration.allRenamed declarations)
def Declaration.allRenamed : List Declaration → List Declaration
  | [] => []
  | declaration :: declarations => declaration.renamed :: Declaration.allRenamed declarations
end

inductive Complaint.Renamed : Complaint → Complaint → Prop where
  | same {complaint : Complaint} : Renamed complaint complaint
  | expected {what : String} {found : Token.Kind} :
      Renamed (.expected what found.display) (.expected what (found.renamed rename).display)
  | missingInitializer {kind name : String} :
      Renamed (.missingInitializer kind name) (.missingInitializer kind (rename name))
  | unknownSymbol {name : String} : Renamed (.unknownSymbol name) (.unknownSymbol (rename name))
  | redeclaration {name : String} : Renamed (.redeclaration name) (.redeclaration (rename name))

end Renamed

variable {rename : String → String}

theorem Complaint.Renamed.kind {a b : Complaint} (renamed : a.Renamed rename b) :
    a.kind = b.kind := by
  cases renamed <;> rfl

theorem Expr.all_renamed_map (es : List Expr) :
    Expr.allRenamed rename es = es.map (Expr.renamed rename) := by
  induction es with
  | nil => rfl
  | cons e es ih => rw [Expr.allRenamed, ih, List.map_cons]

theorem Stmt.all_renamed_map (stmts : List Stmt) :
    Stmt.allRenamed rename stmts = stmts.map (Stmt.renamed rename) := by
  induction stmts with
  | nil => rfl
  | cons stmt stmts ih => rw [Stmt.allRenamed, ih, List.map_cons]

theorem Declaration.all_renamed_map (declarations : List Declaration) :
    Declaration.allRenamed rename declarations =
      declarations.map (Declaration.renamed rename) := by
  induction declarations with
  | nil => rfl
  | cons declaration declarations ih => rw [Declaration.allRenamed, ih, List.map_cons]

@[simp]
theorem Entity.renamed_id (entity : Entity) : entity.renamed id = entity := rfl

@[simp]
theorem Token.Kind.renamed_id (kind : Token.Kind) : kind.renamed id = kind := by
  cases kind <;> rfl

mutual
theorem Expr.renamed_id (e : Expr) : e.renamed id = e := by
  cases e with
  | bool | int | float | char | name => rfl
  | unary operation operand | cast operand | conversion operation operand =>
      simp only [Expr.renamed, operand.renamed_id]
  | binary operation left right => simp only [Expr.renamed, left.renamed_id, right.renamed_id]
  | call callee arguments =>
      simp only [Expr.renamed, callee.renamed_id, Expr.all_renamed_id arguments]
  | index left right | assign left right =>
      simp only [Expr.renamed, left.renamed_id, right.renamed_id]
  | conditional condition first second =>
      simp only [Expr.renamed, condition.renamed_id, first.renamed_id, second.renamed_id]
termination_by structural e
theorem Expr.all_renamed_id (es : List Expr) : Expr.allRenamed id es = es := by
  cases es with
  | nil => rfl
  | cons e es => simp only [Expr.allRenamed, e.renamed_id, Expr.all_renamed_id es]
termination_by structural es
end

theorem Expr.renamed_id_eq : Expr.renamed id = id := funext Expr.renamed_id

mutual
theorem Stmt.renamed_id (stmt : Stmt) : stmt.renamed id = stmt := by
  cases stmt with
  | breakLoop | continueLoop => rfl
  | block stmts => simp only [Stmt.renamed, Stmt.all_renamed_id stmts]
  | when condition body | whileLoop condition body =>
      simp only [Stmt.renamed, condition.renamed_id, body.renamed_id]
  | ifElse condition first second =>
      simp only [Stmt.renamed, condition.renamed_id, first.renamed_id, second.renamed_id]
  | returnValue value | evaluate value => simp only [Stmt.renamed, value.renamed_id]
  | declare declaration => simp only [Stmt.renamed, declaration.renamed_id]
termination_by structural stmt
theorem Stmt.all_renamed_id (stmts : List Stmt) : Stmt.allRenamed id stmts = stmts := by
  cases stmts with
  | nil => rfl
  | cons stmt stmts => simp only [Stmt.allRenamed, stmt.renamed_id, Stmt.all_renamed_id stmts]
termination_by structural stmts
theorem Declaration.renamed_id (declaration : Declaration) :
    declaration.renamed id = declaration := by
  cases declaration with
  | object entity initial =>
      simp only [Declaration.renamed, Entity.renamed_id, Expr.renamed_id_eq, Option.map_id_fun, id]
  | prototype entity parameters =>
      simp only [Declaration.renamed, Entity.renamed_id, Declaration.all_renamed_id parameters]
  | function entity parameters body =>
      simp only [Declaration.renamed, Entity.renamed_id, Declaration.all_renamed_id parameters,
        body.renamed_id]
  | program declarations =>
      simp only [Declaration.renamed, Declaration.all_renamed_id declarations]
termination_by structural declaration
theorem Declaration.all_renamed_id (declarations : List Declaration) :
    Declaration.allRenamed id declarations = declarations := by
  cases declarations with
  | nil => rfl
  | cons declaration declarations =>
      simp only [Declaration.allRenamed, declaration.renamed_id,
        Declaration.all_renamed_id declarations]
termination_by structural declarations
end

theorem Complaint.Renamed.same_of_id {a b : Complaint} (renamed : a.Renamed id b) : a = b := by
  cases renamed with
  | expected => rw [Token.Kind.renamed_id]
  | same | missingInitializer | unknownSymbol | redeclaration => rfl

-- Which places and which names of two texts correspond. The names are those that stand in the first
-- text.
structure View where
  places : Places
  rename : String → String
  known : Set String
  distinct : Set.InjOn rename known

def View.plain (places : Places) : View := ⟨places, id, Set.univ, Set.injOn_id _⟩

variable {view : View}

inductive Token.Kind.Matches (view : View) : Token.Kind → Token.Kind → Prop where
  | name {name : String} (known : name ∈ view.known) :
      Matches view (.identifier name) (.identifier (view.rename name))
  | other {kind : Token.Kind} (proper : ∀ name, kind ≠ .identifier name) : Matches view kind kind

structure Token.Matches (view : View) (a b : Token) : Prop where
  kind : a.kind.Matches view b.kind
  location : view.places.own a.location b.location

structure Entity.Matches (view : View) (places : Location → Location → Prop) (a b : Entity) :
    Prop where
  known : a.name ∈ view.known
  alike : (a.renamed view.rename).Alike places b

def Expr.Matches (view : View) (a b : Expr) : Prop := (a.renamed view.rename).Alike view.places b

def Stmt.Matches (view : View) (a b : Stmt) : Prop := (a.renamed view.rename).Alike view.places b

inductive Declaration.Known (known : Set String) : Declaration → Prop where
  | object {entity : Entity} {initial : Option Expr} (named : entity.name ∈ known) :
      Known known (.object entity initial)
  | prototype {entity : Entity} {parameters : List Declaration} (named : entity.name ∈ known)
      (given : ∀ parameter ∈ parameters, Known known parameter) :
      Known known (.prototype entity parameters)
  | function {entity : Entity} {parameters : List Declaration} {body : Stmt}
      (named : entity.name ∈ known) (given : ∀ parameter ∈ parameters, Known known parameter) :
      Known known (.function entity parameters body)
  | program {declarations : List Declaration} : Known known (.program declarations)

structure Declaration.Matches (view : View) (a b : Declaration) : Prop where
  known : a.Known view.known
  alike : (a.renamed view.rename).Alike view.places b

structure Scope.Matches (view : View) (a b : Scope Entity) : Prop where
  kind : a.kind = b.kind
  entries : List.Forall₂ (fun entry other => entry.1 ∈ view.known ∧
    view.rename entry.1 = other.1 ∧ entry.2.Matches view view.places.linked other.2)
      a.entries b.entries

-- The function whose body is being read is one of the text itself, its parameters may be blamed.
structure Analyzer.Matches (view : View) (a b : Analyzer) : Prop where
  scopes : List.Forall₂ (Scope.Matches view) a.scopes.scopes b.scopes.scopes
  function : Option.Rel (Declaration.Matches view) a.function b.function
  loops : a.loops = b.loops

namespace Token

variable {a b : Token}

theorem Matches.kinds (matching : a.Matches view b) :
    (∃ name ∈ view.known, a.kind = .identifier name ∧ b.kind = .identifier (view.rename name)) ∨
      (∀ name, a.kind ≠ .identifier name) ∧ b.kind = a.kind := by
  have kinds := matching.kind
  generalize a.kind = one, b.kind = other at kinds ⊢
  cases kinds with
  | name known => exact .inl ⟨_, known, rfl, rfl⟩
  | other proper => exact .inr ⟨proper, rfl⟩

theorem Matches.kind_renamed (matching : a.Matches view b) :
    b.kind = a.kind.renamed view.rename := by
  have kinds := matching.kind
  generalize a.kind = one, b.kind = other at kinds ⊢
  cases kinds with
  | name _ => rfl
  | other proper =>
      cases one with
      | identifier name => exact absurd rfl (proper name)
      | _ => rfl

class Kind.Unnamed (kind : Kind) : Prop where
  proper (name : String) : kind ≠ .identifier name

instance (mark : Punctuation) : Kind.Unnamed (.punctuation mark) := ⟨by simp⟩

instance (operator : Operator) : Kind.Unnamed (.operator operator) := ⟨by simp⟩

instance (word : Keyword) : Kind.Unnamed (.keyword word) := ⟨by simp⟩

instance : Kind.Unnamed .endOfInput := ⟨by simp⟩

theorem Matches.is (matching : a.Matches view b) (kind : Token.Kind) [unnamed : kind.Unnamed] :
    a.kind = kind ↔ b.kind = kind := by
  rcases matching.kinds with ⟨name, _, named, named'⟩ | ⟨_, same⟩
  · rw [named, named']
    exact iff_of_false (unnamed.proper _).symm (unnamed.proper _).symm
  · rw [same]

theorem Matches.isEnd (matching : a.Matches view b) : a.isEnd = b.isEnd :=
  decide_eq_decide.mpr (matching.is .endOfInput)

theorem Matches.isName (matching : a.Matches view b) : a.isName = b.isName := by
  unfold Token.isName
  rcases matching.kinds with ⟨name, _, named, named'⟩ | ⟨_, same⟩
  · rw [named, named']
  · rw [same]

theorem Matches.operator (matching : a.Matches view b) :
    a.operator.toOption = b.operator.toOption := by
  unfold Token.operator
  rcases matching.kinds with ⟨name, _, named, named'⟩ | ⟨_, same⟩
  · rw [named, named']
    rfl
  · rw [same]
    split <;> rfl

end Token

namespace Entity

variable {places : Location → Location → Prop} {a b : Entity}

theorem Matches.kind (matching : a.Matches view places b) : a.kind = b.kind := matching.alike.kind

theorem Matches.name (matching : a.Matches view places b) : view.rename a.name = b.name :=
  matching.alike.name

theorem Matches.type (matching : a.Matches view places b) : a.type = b.type := matching.alike.type

theorem Matches.linked (matching : a.Matches view view.places.own b) :
    a.Matches view view.places.linked b :=
  ⟨matching.known, matching.alike.linked⟩

end Entity

namespace Expr

variable {e e' : Expr} {es es' : List Expr}

@[simp]
theorem type_renamed (e : Expr) : (e.renamed rename).type = e.type := by cases e <;> rfl

@[simp]
theorem location_renamed (e : Expr) : (e.renamed rename).location = e.location := by
  cases e <;> rfl

theorem Matches.type (matching : e.Matches view e') : e.type = e'.type := by
  rw [← e.type_renamed, Alike.type matching]

theorem Matches.location (matching : e.Matches view e') :
    view.places.own e.location e'.location := by
  rw [← e.location_renamed]
  exact Alike.location matching

theorem Matches.all (matching : List.Forall₂ (Expr.Matches view) es es') :
    List.Forall₂ (Alike view.places) (allRenamed view.rename es) es' := by
  rw [all_renamed_map]
  exact List.forall₂_map_left_iff.mpr matching

end Expr

section Forms

variable {e e' : Expr} {initial initial' : Option Expr} {stmt stmt' : Stmt}
  {stmts stmts' : List Stmt} {declaration declaration' : Declaration}
  {declarations declarations' : List Declaration} {entity entity' : Entity}

theorem Stmt.Matches.all (matching : List.Forall₂ (Stmt.Matches view) stmts stmts') :
    List.Forall₂ (Stmt.Alike view.places) (Stmt.allRenamed view.rename stmts) stmts' := by
  rw [Stmt.all_renamed_map]
  exact List.forall₂_map_left_iff.mpr matching

theorem Stmt.Matches.declare (matching : declaration.Matches view declaration') :
    Stmt.Matches view (.declare declaration) (.declare declaration') :=
  Stmt.Alike.declare matching.alike

namespace Declaration

theorem Matches.all_iff : List.Forall₂ (Matches view) declarations declarations' ↔
    (∀ declaration ∈ declarations, declaration.Known view.known) ∧
      List.Forall₂ (Alike view.places) (allRenamed view.rename declarations) declarations' := by
  rw [all_renamed_map, List.forall₂_map_left_iff, ← List.forall₂_and_left]
  exact ⟨.imp fun _ _ matching => ⟨matching.known, matching.alike⟩,
    .imp fun _ _ matching => ⟨matching.1, matching.2⟩⟩

theorem Matches.object (named : entity.Matches view view.places.own entity')
    (value : Option.Rel (Expr.Matches view) initial initial') :
    Matches view (.object entity initial) (.object entity' initial') := by
  have inner : Option.Rel (Expr.Alike view.places) (initial.map (Expr.renamed view.rename))
      initial' := by
    cases value with
    | none => exact .none
    | some alike => exact .some alike
  exact ⟨.object named.known, Alike.object named.alike inner⟩

theorem Matches.prototype (named : entity.Matches view view.places.own entity')
    (given : List.Forall₂ (Matches view) declarations declarations') :
    Matches view (.prototype entity declarations) (.prototype entity' declarations') := by
  obtain ⟨known, given⟩ := Matches.all_iff.mp given
  exact ⟨.prototype named.known known, Alike.prototype named.alike given⟩

theorem Matches.program (inner : List.Forall₂ (Matches view) declarations declarations') :
    Matches view (.program declarations) (.program declarations') :=
  ⟨.program, Alike.program (Matches.all_iff.mp inner).2⟩

end Declaration

end Forms

end McFront
