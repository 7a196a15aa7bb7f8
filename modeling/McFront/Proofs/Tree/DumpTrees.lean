import McFront.Proofs.Tree.DumpLines
import McFront.Proofs.Tree.Height

set_option autoImplicit false

namespace McFront

def Entity.unplaced (entity : Entity) : Entity := { entity with location := .first }

-- What stands for a link that has been taken away.
def Entity.absent : Entity := ⟨.program, "", .function [] .int, .first⟩

mutual
def Expr.bare : Expr → Expr
  | .bool value type _ => .bool value type .first
  | .int value type _ => .int value type .first
  | .float value type _ => .float value type .first
  | .char value type _ => .char value type .first
  | .name spelled _ type _ => .name spelled .absent type .first
  | .unary operation operand type _ => .unary operation operand.bare type .first
  | .binary operation left right type _ => .binary operation left.bare right.bare type .first
  | .call callee arguments type _ => .call callee.bare (Expr.bareOf arguments) type .first
  | .index base offset type _ => .index base.bare offset.bare type .first
  | .cast source type _ => .cast source.bare type .first
  | .assign target value type _ => .assign target.bare value.bare type .first
  | .conditional condition first second type _ =>
      .conditional condition.bare first.bare second.bare type .first
  | .conversion tag source type _ => .conversion tag source.bare type .first
def Expr.bareOf : List Expr → List Expr
  | [] => []
  | e :: es => e.bare :: Expr.bareOf es
end

mutual
def Stmt.bare : Stmt → Stmt
  | .block stmts => .block (Stmt.bareOf stmts)
  | .when condition body => .when condition.bare body.bare
  | .ifElse condition first second => .ifElse condition.bare first.bare second.bare
  | .whileLoop condition body => .whileLoop condition.bare body.bare
  | .breakLoop => .breakLoop
  | .continueLoop => .continueLoop
  | .returnValue value => .returnValue value.bare
  | .declare declaration => .declare declaration.bare
  | .evaluate expr => .evaluate expr.bare
def Stmt.bareOf : List Stmt → List Stmt
  | [] => []
  | stmt :: stmts => stmt.bare :: Stmt.bareOf stmts
def Declaration.bare : Declaration → Declaration
  | .object entity initial => .object entity.unplaced (initial.map Expr.bare)
  | .prototype entity parameters => .prototype entity.unplaced (Declaration.bareOf parameters)
  | .function entity parameters body =>
      .function entity.unplaced (Declaration.bareOf parameters) body.bare
  | .program declarations => .program (Declaration.bareOf declarations)
def Declaration.bareOf : List Declaration → List Declaration
  | [] => []
  | declaration :: declarations => declaration.bare :: Declaration.bareOf declarations
end

theorem map_alike {α β γ : Type} {look : α → β} {told : α → γ} {as bs : List α}
    (tells : ∀ a ∈ as, ∀ b ∈ bs, look a = look b → told a = told b)
    (same : as.map look = bs.map look) : as.map told = bs.map told := by
  induction as generalizing bs with
  | nil =>
      cases bs with
      | nil => rfl
      | cons b bs => cases same
  | cons a as ih =>
      cases bs with
      | nil => cases same
      | cons b bs =>
          obtain ⟨first, others⟩ := List.cons.inj same
          have inside := ih (fun a member b memberToo =>
            tells a (List.mem_cons_of_mem _ member) b (List.mem_cons_of_mem _ memberToo)) others
          rw [List.map_cons, List.map_cons, inside,
            tells a List.mem_cons_self b List.mem_cons_self first]

theorem legible_append {leaves others : List Leaf} :
    Legible (leaves ++ others) ↔ Legible leaves ∧ Legible others := List.forall_mem_append

namespace Shape

def withParts : Shape → Ty → List Expr → Expr
  | .int value, type, _ => .int value type .first
  | .float value, type, _ => .float value type .first
  | .char value, type, _ => .char value type .first
  | .name spelled, type, _ => .name spelled .absent type .first
  | .unary operation, type, [operand] => .unary operation operand type .first
  | .binary operation, type, [left, right] => .binary operation left right type .first
  | .call, type, callee :: arguments => .call callee arguments type .first
  | .index, type, [base, offset] => .index base offset type .first
  | .cast, type, [source] => .cast source type .first
  | .assign, type, [target, value] => .assign target value type .first
  | .conditional, type, [condition, first, second] => .conditional condition first second type .first
  | .conversion tag, type, [source] => .conversion tag source type .first
  | .bool value, type, _ => .bool value type .first
  | _, type, _ => .bool false type .first

end Shape

namespace Expr

theorem bare_of_map (es : List Expr) : bareOf es = es.map bare := by
  induction es with
  | nil => rfl
  | cons e es ih => rw [bareOf, ih, List.map_cons]

theorem of_exprs_map (labels : Labels) (es : List Expr) :
    labels.ofExprs es = es.map labels.ofExpr := by
  induction es with
  | nil => rfl
  | cons e es ih => rw [Labels.ofExprs, ih, List.map_cons]

theorem bare_eq (e : Expr) : e.bare = e.shape.withParts e.type (e.children.map bare) := by
  cases e <;> simp [bare, shape, Shape.withParts, children, type, bare_of_map]

theorem outline_eq (e : Expr) :
    Labels.dump.ofExpr e = .node (Labels.dump.expr e) (e.children.map Labels.dump.ofExpr) := by
  cases e <;> simp [Labels.ofExpr, children, of_exprs_map]

theorem legible_child {e child : Expr} (legible : Legible e.leaves) (member : child ∈ e.children) :
    Legible child.leaves := by
  intro leaf among
  obtain ⟨node, inside, isLeaf⟩ := List.mem_filterMap.mp among
  exact legible leaf (List.mem_filterMap.mpr ⟨node, mem_nodes.mpr (.inr ⟨child, member, inside⟩),
    isLeaf⟩)

theorem legible_shape {e : Expr} (legible : Legible e.leaves) : e.shape.Legible := by
  have own : ∀ leaf, e.leaf? = some leaf → leaf.value.Legible := fun leaf isLeaf =>
    legible leaf (List.mem_filterMap.mpr ⟨e, e.mem_nodes_self, isLeaf⟩)
  cases e with
  | float value type place => exact own _ rfl
  | name spelled entity type place => exact own _ rfl
  | _ => trivial

theorem outline_unique (a b : Expr) (legible : Legible a.leaves) (legibleToo : Legible b.leaves)
    (same : Labels.dump.ofExpr a = Labels.dump.ofExpr b) : a.bare = b.bare := by
  rw [outline_eq, outline_eq, Outline.node.injEq] at same
  obtain ⟨labels, parts⟩ := same
  have texts := congrArg String.toList labels
  rw [dump_label, dump_label] at texts
  obtain ⟨shapes, types⟩ := Shape.label_unique (legible_shape legible) (legible_shape legibleToo)
    texts
  have inside : a.children.map bare = b.children.map bare := by
    refine map_alike (fun child member other memberToo alike => ?_) parts
    have smaller := height_child member
    exact outline_unique child other (legible_child legible member)
      (legible_child legibleToo memberToo) alike
  rw [bare_eq, bare_eq b, shapes, types, inside]
termination_by a.height

end Expr

def Outline.label : Outline → String
  | .node label _ => label

def Outline.children : Outline → List Outline
  | .node _ children => children

def Declaration.word : Declaration → String
  | .object entity _ | .prototype entity _ | .function entity _ _ => entity.kind.name
  | .program _ => "program"

def Stmt.word : Stmt → String
  | .block _ => "block"
  | .when .. => "when"
  | .ifElse .. => "if"
  | .whileLoop .. => "while"
  | .breakLoop => "break"
  | .continueLoop => "continue"
  | .returnValue _ => "return"
  | .declare declaration => declaration.word
  | .evaluate _ => "expression"

def firstWord (label : String) : List Char := label.toList.takeWhile (· != ' ')

theorem Expr.first_word (e : Expr) : firstWord (Labels.dump.expr e) = e.shape.word.toList := by
  obtain ⟨plain, _⟩ := Shape.words_plain _ e.shape.word_listed
  rw [firstWord, e.dump_label]
  exact run_taken plain.unbroken e.shape.argument_blank

theorem Entity.first_word (entity : Entity) {label : String} {rest : List Char}
    (split : label.toList = entity.head.toList ++ rest) :
    firstWord label = entity.kind.name.toList := by
  obtain ⟨plain, _⟩ := kind_words_plain _ (List.mem_map_of_mem entity.kind.mem_all)
  rw [firstWord, split, head_text, List.append_assoc]
  exact run_taken plain.unbroken blank_ends

def Stmt.words : List String :=
  ["block", "when", "if", "while", "break", "continue", "return", "expression"]

theorem single_words : ∀ word ∈ "program" :: Stmt.words, firstWord word = word.toList := by
  decide

theorem Declaration.first_word (declaration : Declaration) :
    firstWord (Labels.dump.ofDeclaration declaration).label = declaration.word.toList := by
  cases declaration with
  | object entity initial | function entity parameters body =>
      rw [Labels.ofDeclaration]
      exact entity.first_word (List.append_nil _).symm
  | prototype entity parameters =>
      rw [Labels.ofDeclaration]
      exact entity.first_word String.toList_append
  | program declarations =>
      rw [Labels.ofDeclaration]
      exact single_words "program" List.mem_cons_self

theorem Declaration.word_listed (declaration : Declaration) :
    declaration.word ∈ Kind.all.map Kind.name := by
  cases declaration with
  | program => exact List.mem_map_of_mem Kind.program.mem_all
  | _ => exact List.mem_map_of_mem (Kind.mem_all _)

theorem Stmt.first_word (stmt : Stmt) :
    firstWord (Labels.dump.ofStmt stmt).label = stmt.word.toList := by
  cases stmt with
  | declare declaration =>
      rw [Labels.ofStmt]
      exact declaration.first_word
  | _ =>
      rw [Labels.ofStmt]
      exact single_words _ (by simp [Stmt.words, Outline.label])

theorem words_apart :
    ∀ word ∈ Kind.all.map Kind.name, word ∉ Stmt.words ∧ word ∉ Shape.words := by
  decide

theorem Declaration.word_foreign (declaration : Declaration) {word : String}
    (foreign : word ∈ Stmt.words ∨ word ∈ Shape.words) : declaration.word ≠ word := by
  rintro rfl
  obtain ⟨notStmt, notExpr⟩ := words_apart _ declaration.word_listed
  exact foreign.elim notStmt notExpr

theorem Stmt.word_unique {a b : Stmt} (same : Labels.dump.ofStmt a = Labels.dump.ofStmt b) :
    a.word = b.word := by
  rw [← String.toList_inj, ← a.first_word, ← b.first_word, same]

inductive Stmt.SameKind : Stmt → Stmt → Prop where
  | block (as bs : List Stmt) : SameKind (.block as) (.block bs)
  | when (condition other : Expr) (a b : Stmt) : SameKind (.when condition a) (.when other b)
  | ifElse (condition other : Expr) (a b c d : Stmt) :
      SameKind (.ifElse condition a b) (.ifElse other c d)
  | whileLoop (condition other : Expr) (a b : Stmt) :
      SameKind (.whileLoop condition a) (.whileLoop other b)
  | breakLoop : SameKind .breakLoop .breakLoop
  | continueLoop : SameKind .continueLoop .continueLoop
  | returnValue (value other : Expr) : SameKind (.returnValue value) (.returnValue other)
  | declare (a b : Declaration) : SameKind (.declare a) (.declare b)
  | evaluate (expr other : Expr) : SameKind (.evaluate expr) (.evaluate other)

theorem Stmt.same_kind {a b : Stmt} (same : Labels.dump.ofStmt a = Labels.dump.ofStmt b) :
    a.SameKind b := by
  have words := word_unique same
  cases a with
  | declare d =>
      cases b with
      | declare other => exact .declare d other
      | _ => exact absurd words (d.word_foreign (.inl (by simp [word, Stmt.words])))
  | _ =>
      cases b with
      | declare d => exact absurd words.symm (d.word_foreign (.inl (by simp [word, Stmt.words])))
      | _ => first | constructor | simp [word] at words

theorem Stmt.outline_foreign (stmt : Stmt) (e : Expr) :
    Labels.dump.ofStmt stmt ≠ Labels.dump.ofExpr e := by
  intro same
  have words : stmt.word = e.shape.word := by
    rw [← String.toList_inj, ← stmt.first_word, ← e.first_word, same, e.outline_eq]
    rfl
  have listed := e.shape.word_listed
  rw [← words] at listed
  cases stmt with
  | declare declaration => exact declaration.word_foreign (.inr listed) rfl
  | _ => exact absurd listed (by simp [word, Shape.words])

theorem Stmt.outline_foreign_initial (stmt : Stmt) (initial : Option Expr)
    {before : List Outline} :
    before ++ [Labels.dump.ofStmt stmt] ≠ initial.toList.map Labels.dump.ofExpr := by
  intro same
  cases initial with
  | none => simp at same
  | some e =>
      have last : Labels.dump.ofStmt stmt = Labels.dump.ofExpr e :=
        (List.append_eq_singleton_iff.mp same).elim
          (fun both => List.head_eq_of_cons_eq both.2) (fun both => absurd both.2 (by simp))
      exact stmt.outline_foreign e last

theorem Expr.option_outline_unique {a b : Option Expr}
    (legible : Legible (a.toList.flatMap Expr.leaves))
    (legibleToo : Legible (b.toList.flatMap Expr.leaves))
    (same : a.toList.map Labels.dump.ofExpr = b.toList.map Labels.dump.ofExpr) :
    a.map Expr.bare = b.map Expr.bare := by
  cases a with
  | none =>
      cases b with
      | none => rfl
      | some e => simp at same
  | some e =>
      cases b with
      | none => simp at same
      | some other =>
          simp only [Option.toList_some, List.flatMap_singleton] at legible legibleToo
          have alike := outline_unique e other legible legibleToo (List.head_eq_of_cons_eq same)
          rw [Option.map_some, Option.map_some, alike]

namespace Entity

variable {a b : Entity}

theorem line_unique {rest others : List Char} (plain : Plain a.name.toList)
    (plainToo : Plain b.name.toList) (same : a.head.toList ++ rest = b.head.toList ++ others) :
    a.unplaced = b.unplaced ∧ rest = others := by
  obtain ⟨kinds, names, types, left⟩ := head_unique plain plainToo same
  exact ⟨by rw [unplaced, unplaced, kinds, names, types], left⟩

theorem head_spaced (entity : Entity) : ' ' ∈ entity.head.toList := by
  rw [head_text]
  exact List.mem_append_right _ List.mem_cons_self

end Entity

def Declaration.mark : Declaration → List Char
  | .prototype .. => " (declaration)".toList
  | .object .. | .function .. | .program _ => []

theorem mark_filled : " (declaration)".toList ≠ [] := by decide

theorem Declaration.entity_line {declaration : Declaration} {entity : Entity}
    (isEntity : declaration.entity? = some entity) :
    (Labels.dump.declaration declaration).toList = entity.head.toList ++ declaration.mark ∧
      entity.leaf ∈ declaration.leaves := by
  cases declaration with
  | object | function =>
      cases isEntity
      exact ⟨(List.append_nil _).symm, List.mem_cons_self⟩
  | prototype =>
      cases isEntity
      exact ⟨String.toList_append, List.mem_cons_self⟩
  | program => cases isEntity

theorem Declaration.outline_label (declaration : Declaration) :
    (Labels.dump.ofDeclaration declaration).label = Labels.dump.declaration declaration := by
  cases declaration <;> rw [Labels.ofDeclaration] <;> rfl

theorem Declaration.line_unique {a b : Declaration} (legible : Legible a.leaves)
    (legibleToo : Legible b.leaves)
    (same : Labels.dump.ofDeclaration a = Labels.dump.ofDeclaration b) :
    a.entity?.map Entity.unplaced = b.entity?.map Entity.unplaced ∧ a.mark = b.mark := by
  have lines : (Labels.dump.declaration a).toList = (Labels.dump.declaration b).toList := by
    rw [← outline_label, ← outline_label, same]
  have programs : ∀ {d : Declaration}, d.entity? = none →
      Labels.dump.declaration d = "program" ∧ d.mark = [] := by
    intro d isProgram
    cases d with
    | program declarations => exact ⟨rfl, rfl⟩
    | object | prototype | function => cases isProgram
  have spaced : ∀ {entity : Entity} {rest : List Char},
      "program".toList ≠ entity.head.toList ++ rest := by
    intro entity rest alike
    have blank := List.mem_append_left rest entity.head_spaced
    rw [← alike] at blank
    exact absurd blank (by decide)
  cases first : a.entity? with
  | none =>
      obtain ⟨single, bare⟩ := programs first
      cases second : b.entity? with
      | none => exact ⟨rfl, bare.trans (programs second).2.symm⟩
      | some entity =>
          rw [single, (entity_line second).1] at lines
          exact absurd lines spaced
  | some entity =>
      obtain ⟨split, among⟩ := entity_line first
      cases second : b.entity? with
      | none =>
          rw [split, (programs second).1] at lines
          exact absurd lines.symm spaced
      | some other =>
          obtain ⟨splitToo, amongToo⟩ := entity_line second
          rw [split, splitToo] at lines
          obtain ⟨alike, marks⟩ := Entity.line_unique (legible _ among) (legibleToo _ amongToo) lines
          exact ⟨congrArg some alike, marks⟩

mutual
-- By recursion on the first tree. Lines that are alike are of nodes of one kind.
theorem Stmt.outline_unique (a b : Stmt) (legible : Legible a.leaves) (legibleToo : Legible b.leaves)
    (same : Labels.dump.ofStmt a = Labels.dump.ofStmt b) : a.bare = b.bare := by
  have kinds := Stmt.same_kind same
  cases a with
  | block as =>
      cases kinds with
      | block _ bs =>
          simp only [Labels.ofStmt, Outline.node.injEq, true_and] at same
          rw [Stmt.bare, Stmt.bare, Stmt.outlines_unique as bs legible legibleToo same]
  | when condition body =>
      cases kinds with
      | when _ conditionToo _ bodyToo =>
          obtain ⟨tested, inner⟩ := legible_append.mp legible
          obtain ⟨testedToo, innerToo⟩ := legible_append.mp legibleToo
          simp only [Labels.ofStmt, Outline.node.injEq, true_and, List.cons.injEq, and_true] at same
          rw [Stmt.bare, Stmt.bare, Expr.outline_unique _ _ tested testedToo same.1,
            Stmt.outline_unique body bodyToo inner innerToo same.2]
  | ifElse condition first second =>
      cases kinds with
      | ifElse _ conditionToo _ _ firstToo secondToo =>
          obtain ⟨both, otherwise⟩ := legible_append.mp legible
          obtain ⟨tested, chosen⟩ := legible_append.mp both
          obtain ⟨bothToo, otherwiseToo⟩ := legible_append.mp legibleToo
          obtain ⟨testedToo, chosenToo⟩ := legible_append.mp bothToo
          simp only [Labels.ofStmt, Outline.node.injEq, true_and, List.cons.injEq, and_true] at same
          rw [Stmt.bare, Stmt.bare, Expr.outline_unique _ _ tested testedToo same.1,
            Stmt.outline_unique first firstToo chosen chosenToo same.2.1,
            Stmt.outline_unique second secondToo otherwise otherwiseToo same.2.2]
  | whileLoop condition body =>
      cases kinds with
      | whileLoop _ conditionToo _ bodyToo =>
          obtain ⟨tested, inner⟩ := legible_append.mp legible
          obtain ⟨testedToo, innerToo⟩ := legible_append.mp legibleToo
          simp only [Labels.ofStmt, Outline.node.injEq, true_and, List.cons.injEq, and_true] at same
          rw [Stmt.bare, Stmt.bare, Expr.outline_unique _ _ tested testedToo same.1,
            Stmt.outline_unique body bodyToo inner innerToo same.2]
  | breakLoop =>
      cases kinds
      rfl
  | continueLoop =>
      cases kinds
      rfl
  | returnValue value | evaluate value =>
      cases kinds
      simp only [Labels.ofStmt, Outline.node.injEq, true_and, List.cons.injEq, and_true] at same
      rw [Stmt.bare, Stmt.bare, Expr.outline_unique _ _ legible legibleToo same]
  | declare d =>
      cases kinds with
      | declare _ other =>
          simp only [Labels.ofStmt] at same
          rw [Stmt.bare, Stmt.bare, Declaration.outline_unique d other legible legibleToo same]
termination_by structural a
theorem Stmt.outlines_unique (as bs : List Stmt) (legible : Legible (Stmt.leavesOf as))
    (legibleToo : Legible (Stmt.leavesOf bs))
    (same : Labels.dump.ofStmts as = Labels.dump.ofStmts bs) : Stmt.bareOf as = Stmt.bareOf bs := by
  cases as with
  | nil =>
      cases bs with
      | nil => rfl
      | cons b bs => simp [Labels.ofStmts] at same
  | cons a as =>
      cases bs with
      | nil => simp [Labels.ofStmts] at same
      | cons b bs =>
          obtain ⟨first, others⟩ := legible_append.mp legible
          obtain ⟨firstToo, othersToo⟩ := legible_append.mp legibleToo
          simp only [Labels.ofStmts, List.cons.injEq] at same
          rw [Stmt.bareOf, Stmt.bareOf, Stmt.outline_unique a b first firstToo same.1,
            Stmt.outlines_unique as bs others othersToo same.2]
termination_by structural as
theorem Declaration.outline_unique (a b : Declaration) (legible : Legible a.leaves)
    (legibleToo : Legible b.leaves)
    (same : Labels.dump.ofDeclaration a = Labels.dump.ofDeclaration b) : a.bare = b.bare := by
  obtain ⟨entities, marks⟩ := Declaration.line_unique legible legibleToo same
  cases a with
  | object entity initial =>
      cases b with
      | object entityToo initialToo =>
          simp only [Labels.ofDeclaration, Outline.node.injEq] at same
          rw [Declaration.bare, Declaration.bare, Option.some.inj entities,
            Expr.option_outline_unique (List.forall_mem_cons.mp legible).2
              (List.forall_mem_cons.mp legibleToo).2 same.2]
      | function entityToo parameters body =>
          simp only [Labels.ofDeclaration, Outline.node.injEq] at same
          exact absurd same.2.symm (body.outline_foreign_initial initial)
      | prototype entityToo parameters => exact absurd marks.symm mark_filled
      | program declarations => simp [Declaration.entity?] at entities
  | prototype entity parameters =>
      cases b with
      | prototype entityToo parametersToo =>
          simp only [Labels.ofDeclaration, Outline.node.injEq] at same
          rw [Declaration.bare, Declaration.bare, Option.some.inj entities,
            Declaration.outlines_unique parameters parametersToo (List.forall_mem_cons.mp legible).2
              (List.forall_mem_cons.mp legibleToo).2 same.2]
      | object | function => exact absurd marks mark_filled
      | program declarations => simp [Declaration.entity?] at entities
  | function entity parameters body =>
      cases b with
      | function entityToo parametersToo bodyToo =>
          obtain ⟨given, inner⟩ := legible_append.mp (List.forall_mem_cons.mp legible).2
          obtain ⟨givenToo, innerToo⟩ := legible_append.mp (List.forall_mem_cons.mp legibleToo).2
          simp only [Labels.ofDeclaration, Outline.node.injEq] at same
          obtain ⟨before, last⟩ := List.append_inj' same.2 rfl
          rw [Declaration.bare, Declaration.bare, Option.some.inj entities,
            Declaration.outlines_unique parameters parametersToo given givenToo before,
            Stmt.outline_unique body bodyToo inner innerToo (List.head_eq_of_cons_eq last)]
      | object entityToo initial =>
          simp only [Labels.ofDeclaration, Outline.node.injEq] at same
          exact absurd same.2 (body.outline_foreign_initial initial)
      | prototype entityToo parameters => exact absurd marks.symm mark_filled
      | program declarations => simp [Declaration.entity?] at entities
  | program declarations =>
      cases b with
      | program declarationsToo =>
          simp only [Labels.ofDeclaration, Outline.node.injEq] at same
          rw [Declaration.bare, Declaration.bare,
            Declaration.outlines_unique declarations declarationsToo legible legibleToo same.2]
      | object | prototype | function => simp [Declaration.entity?] at entities
termination_by structural a
theorem Declaration.outlines_unique (as bs : List Declaration)
    (legible : Legible (Declaration.leavesOf as)) (legibleToo : Legible (Declaration.leavesOf bs))
    (same : Labels.dump.ofDeclarations as = Labels.dump.ofDeclarations bs) :
    Declaration.bareOf as = Declaration.bareOf bs := by
  cases as with
  | nil =>
      cases bs with
      | nil => rfl
      | cons b bs => simp [Labels.ofDeclarations] at same
  | cons a as =>
      cases bs with
      | nil => simp [Labels.ofDeclarations] at same
      | cons b bs =>
          obtain ⟨first, others⟩ := legible_append.mp legible
          obtain ⟨firstToo, othersToo⟩ := legible_append.mp legibleToo
          simp only [Labels.ofDeclarations, List.cons.injEq] at same
          rw [Declaration.bareOf, Declaration.bareOf,
            Declaration.outline_unique a b first firstToo same.1,
            Declaration.outlines_unique as bs others othersToo same.2]
termination_by structural as
end

namespace Outline

def Clears (outline : Outline) : Prop := ∀ depth, ∀ line ∈ outline.lines depth, Clear line.2

theorem Clears.node {label : String} {children : List Outline} (clear : Clear label)
    (inside : ∀ child ∈ children, child.Clears) : (node label children).Clears := by
  have deeper : ∀ (outlines : List Outline), (∀ child ∈ outlines, child.Clears) →
      ∀ depth, ∀ line ∈ linesOf depth outlines, Clear line.2 := by
    intro outlines clears depth
    induction outlines with
    | nil => nofun
    | cons outline outlines ih =>
        obtain ⟨first, others⟩ := List.forall_mem_cons.mp clears
        exact List.forall_mem_append.mpr ⟨first depth, ih others⟩
  intro depth
  rw [lines]
  exact List.forall_mem_cons.mpr ⟨clear, deeper children inside (depth + 1)⟩

theorem clear_words : ∀ word ∈ "program" :: Stmt.words, Clear word := by
  intro word listed
  have plain : ∀ word ∈ "program" :: Stmt.words, Plain word.toList ∧ word.toList ≠ [] := by decide
  exact .of_word (plain word listed).1 (plain word listed).2 List.not_mem_nil
    (List.append_nil _).symm

end Outline

theorem Expr.outline_clears (e : Expr) (legible : Legible e.leaves) :
    (Labels.dump.ofExpr e).Clears := by
  rw [outline_eq]
  refine .node (e.label_clear (legible_shape legible)) (List.forall_mem_map.mpr ?_)
  intro child member
  have smaller := height_child member
  exact child.outline_clears (legible_child legible member)
termination_by e.height

theorem Declaration.label_clear (declaration : Declaration) (legible : Legible declaration.leaves) :
    Outline.Clear (Labels.dump.declaration declaration) := by
  cases isEntity : declaration.entity? with
  | some entity =>
      obtain ⟨split, among⟩ := Declaration.entity_line isEntity
      refine entity.head_clear (legible _ among) ?_ split
      cases declaration with
      | prototype => exact (by decide : '\n' ∉ " (declaration)".toList)
      | object | function | program => exact List.not_mem_nil
  | none =>
      cases declaration with
      | program declarations => exact Outline.clear_words _ List.mem_cons_self
      | object | prototype | function => cases isEntity

mutual
theorem Stmt.outline_clears (stmt : Stmt) (legible : Legible stmt.leaves) :
    (Labels.dump.ofStmt stmt).Clears := by
  cases stmt with
  | block stmts =>
      rw [Labels.ofStmt]
      exact .node (Outline.clear_words _ (by simp [Stmt.words])) (Stmt.outlines_clear stmts legible)
  | when condition body | whileLoop condition body =>
      obtain ⟨tested, inner⟩ := legible_append.mp legible
      rw [Labels.ofStmt]
      refine .node (Outline.clear_words _ (by simp [Stmt.words])) ?_
      simp only [List.forall_mem_cons]
      exact ⟨condition.outline_clears tested, Stmt.outline_clears body inner, nofun⟩
  | ifElse condition first second =>
      obtain ⟨both, otherwise⟩ := legible_append.mp legible
      obtain ⟨tested, chosen⟩ := legible_append.mp both
      rw [Labels.ofStmt]
      refine .node (Outline.clear_words _ (by simp [Stmt.words])) ?_
      simp only [List.forall_mem_cons]
      exact ⟨condition.outline_clears tested, Stmt.outline_clears first chosen,
        Stmt.outline_clears second otherwise, nofun⟩
  | breakLoop | continueLoop =>
      rw [Labels.ofStmt]
      exact .node (Outline.clear_words _ (by simp [Stmt.words])) nofun
  | returnValue e | evaluate e =>
      rw [Labels.ofStmt]
      exact .node (Outline.clear_words _ (by simp [Stmt.words]))
        (List.forall_mem_singleton.mpr (e.outline_clears legible))
  | declare declaration =>
      rw [Labels.ofStmt]
      exact Declaration.outline_clears declaration legible
termination_by structural stmt
theorem Stmt.outlines_clear (stmts : List Stmt) (legible : Legible (Stmt.leavesOf stmts)) :
    ∀ outline ∈ Labels.dump.ofStmts stmts, outline.Clears := by
  cases stmts with
  | nil => nofun
  | cons stmt stmts =>
      obtain ⟨first, others⟩ := legible_append.mp legible
      rw [Labels.ofStmts]
      exact List.forall_mem_cons.mpr ⟨Stmt.outline_clears stmt first,
        Stmt.outlines_clear stmts others⟩
termination_by structural stmts
theorem Declaration.outline_clears (declaration : Declaration)
    (legible : Legible declaration.leaves) : (Labels.dump.ofDeclaration declaration).Clears := by
  have clear := declaration.label_clear legible
  cases declaration with
  | object entity initial =>
      rw [Labels.ofDeclaration]
      refine .node clear (List.forall_mem_map.mpr ?_)
      intro e given
      refine e.outline_clears fun leaf among => ?_
      exact (List.forall_mem_cons.mp legible).2 leaf (List.mem_flatMap.mpr ⟨e, given, among⟩)
  | prototype entity parameters =>
      rw [Labels.ofDeclaration]
      exact .node clear (Declaration.outlines_clear parameters (List.forall_mem_cons.mp legible).2)
  | function entity parameters body =>
      obtain ⟨given, inner⟩ := legible_append.mp (List.forall_mem_cons.mp legible).2
      rw [Labels.ofDeclaration]
      exact .node clear (List.forall_mem_append.mpr ⟨Declaration.outlines_clear parameters given,
        List.forall_mem_singleton.mpr (Stmt.outline_clears body inner)⟩)
  | program declarations =>
      rw [Labels.ofDeclaration]
      exact .node clear (Declaration.outlines_clear declarations legible)
termination_by structural declaration
theorem Declaration.outlines_clear (declarations : List Declaration)
    (legible : Legible (Declaration.leavesOf declarations)) :
    ∀ outline ∈ Labels.dump.ofDeclarations declarations, outline.Clears := by
  cases declarations with
  | nil => nofun
  | cons declaration declarations =>
      obtain ⟨first, others⟩ := legible_append.mp legible
      rw [Labels.ofDeclarations]
      exact List.forall_mem_cons.mpr ⟨Declaration.outline_clears declaration first,
        Declaration.outlines_clear declarations others⟩
termination_by structural declarations
end

end McFront
