import McFront.Proofs.Analysis.Structure
import McFront.Proofs.Tree.Height

set_option autoImplicit false

namespace McFront

open McFront.Parser (Starts)

-- The last branch, loop after loop and else after else, is an if that has no else.
inductive Stmt.IsOpen : Stmt → Prop where
  | when {condition : Expr} {body : Stmt} : IsOpen (.when condition body)
  | ifElse {condition : Expr} {first second : Stmt} (last : IsOpen second) :
      IsOpen (.ifElse condition first second)
  | whileLoop {condition : Expr} {body : Stmt} (last : IsOpen body) :
      IsOpen (.whileLoop condition body)

def Settled (stmts : List Stmt) : Prop :=
  ∀ condition first second, .ifElse condition first second ∈ stmts → ¬ first.IsOpen

section Settled

variable {stmt first second : Stmt} {condition : Expr} {stmts others : List Stmt}

theorem settled_nil : Settled [] := by
  intro condition first second member
  cases member

theorem Settled.append (settled : Settled stmts) (more : Settled others) :
    Settled (stmts ++ others) := by
  intro condition first second member
  rcases List.mem_append.mp member with here | there
  · exact settled condition first second here
  · exact more condition first second there

theorem Settled.cons (plain : ∀ condition first second, stmt ≠ .ifElse condition first second)
    (settled : Settled stmts) : Settled (stmt :: stmts) := by
  intro condition first second member
  rcases List.mem_cons.mp member with same | there
  · exact absurd same.symm (plain condition first second)
  · exact settled condition first second there

theorem Settled.branches (closed : ¬ first.IsOpen) (isFirst : Settled first.statements)
    (isSecond : Settled second.statements) :
    Settled (Stmt.ifElse condition first second).statements := by
  intro other chosen otherwise member
  rw [Stmt.statements, List.mem_cons] at member
  rcases member with same | inside
  · cases same
    exact closed
  · exact isFirst.append isSecond other chosen otherwise inside

end Settled

namespace Sentence

def IsOpen : Sentence → Prop
  | .statement stmt | .block stmt => stmt.IsOpen
  | .statements _ => False

def parts : Sentence → List Stmt
  | .statement stmt | .block stmt => stmt.statements
  | .statements stmts => Stmt.statementsOf stmts

end Sentence

variable {before after : Analyzer} {depth : Nat} {input rest : List Token} {sentence : Sentence}
  {declaration program : Declaration}

-- An open statement takes an else that follows it, and goes on until there is none.
theorem SentenceReading.followed
    (reading : SentenceReading before depth sentence input after rest) (isOpen : sentence.IsOpen) :
    ¬ Starts (.keyword .elseWord) rest := by
  induction reading with
  | block within inner ih => exact ih isOpen
  | when within named tested inner stop ih => exact stop
  | ifElse within named tested chosen divided otherwise first second =>
      cases isOpen with
      | ifElse last => exact second last
  | whileLoop within named tested inner ih =>
      cases isOpen with
      | whileLoop last => exact ih last
  | breakLoop within named closed built | continueLoop within named closed built =>
      obtain ⟨rfl, _⟩ := in_loop_ok built
      cases isOpen
  | returnValue within named inner built =>
      obtain ⟨_, _, rfl, _⟩ := return_value_ok built
      cases isOpen
  | declare within inner => cases isOpen
  | evaluate within inner closed => cases isOpen
  | braces opened entered inner closed ih => cases isOpen
  | noStatements stop => exact isOpen.elim
  | moreStatements head tail first others => exact isOpen.elim

theorem ObjectReading.no_statements
    (reading : ObjectReading before depth declaration input after rest) :
    declaration.statements = [] := by
  cases reading.stored <;> rfl

theorem SentenceReading.settled
    (reading : SentenceReading before depth sentence input after rest) :
    Settled sentence.parts := by
  induction reading with
  | block within inner ih => exact ih
  | when within named tested inner stop ih => exact .cons (by simp) ih
  | ifElse within named tested chosen divided otherwise first second =>
      have closed := fun isOpen => chosen.followed isOpen ⟨_, _, rfl, divided⟩
      exact .branches closed first second
  | whileLoop within named tested inner ih => exact .cons (by simp) ih
  | breakLoop within named closed built | continueLoop within named closed built =>
      obtain ⟨rfl, _⟩ := in_loop_ok built
      exact .cons (by simp) settled_nil
  | returnValue within named inner built =>
      obtain ⟨_, _, rfl, _⟩ := return_value_ok built
      exact .cons (by simp) settled_nil
  | declare within inner =>
      rw [Sentence.parts, Stmt.statements, inner.no_statements]
      exact .cons (by simp) settled_nil
  | evaluate within inner closed => exact .cons (by simp) settled_nil
  | braces opened entered inner closed ih => exact .cons (by simp) ih
  | noStatements stop => exact settled_nil
  | moreStatements head tail first others => exact first.append others

theorem statements_of_given {parameters : List Declaration}
    (given : ∀ parameter ∈ parameters, parameter.IsGiven) :
    Declaration.statementsOf parameters = [] := by
  induction parameters with
  | nil => rfl
  | cons first parameters ih =>
      rw [List.forall_mem_cons] at given
      cases given.1
      exact ih given.2

theorem DeclarationReading.settled
    (reading : DeclarationReading depth before declaration input after rest) :
    Settled declaration.statements := by
  cases reading with
  | object inner =>
      rw [inner.no_statements]
      exact settled_nil
  | prototype header closed =>
      obtain ⟨_, parameters, _, rfl, takes⟩ := header.takes
      rw [Declaration.statements, statements_of_given takes.given]
      exact settled_nil
  | function header begins inner defined =>
      obtain ⟨_, parameters, _, rfl, takes⟩ := header.takes
      cases defined
      rw [Declaration.statements, statements_of_given takes.given]
      exact inner.settled

theorem DeclarationsReading.settled {declarations : List Declaration}
    (reading : DeclarationsReading depth before declarations input after) :
    Settled (Declaration.statementsOf declarations) := by
  induction reading with
  | done => exact settled_nil
  | more head tail ih => exact head.settled.append ih

theorem else_closes_innermost (text : String) (interner : Interner) (program : Declaration)
    (accepted : (compile text interner).1 = .ok program) :
    ∀ condition first second, .ifElse condition first second ∈ program.statements →
      ¬ first.IsOpen := by
  obtain ⟨_, _, reading⟩ := compile_reads accepted
  cases reading with
  | program entered inner => exact inner.settled

theorem mixed_branches_closed :
    ∃ program, (compile
      "def f(a: bool) -> bool \x7b if (a) while (a) if (a) a; else a; else if (a) a; return a; \x7d"
        .empty).1 = .ok program ∧
      program.statements.countP (fun stmt => stmt matches .ifElse ..) = 2 ∧
      ∀ condition first second, .ifElse condition first second ∈ program.statements →
        ¬ first.IsOpen := by
  obtain ⟨program, accepted, branches⟩ := exists_of_measured (show (compile
      "def f(a: bool) -> bool \x7b if (a) while (a) if (a) a; else a; else if (a) a; return a; \x7d"
        .empty).1.toOption.map (fun program : Declaration =>
          program.statements.countP fun stmt => stmt matches .ifElse ..) = some 2
    by decide +kernel)
  exact ⟨program, accepted, branches, else_closes_innermost _ .empty program accepted⟩

end McFront
