import McFront.Proofs.Parsing.ExpressionGiven
import McFront.Proofs.Parsing.SentenceRun

set_option autoImplicit false

namespace McFront

open McFront.Parser Parse

variable {α : Type} {before after analyzer : Analyzer} {depth budget : Nat}
  {input rest : List Token}

theorem gives_in_loop {phrase : Parse α} {a : α}
    (gives : Gives phrase before.enterLoop depth input a after rest) :
    Gives (Grammar.inLoop phrase) before depth input a after.leaveLoop rest := by
  intro parser last stands
  exact gives_releasing gives _ last (stands.change Analyzer.enterLoop)

theorem object_kind_given {introducer named colon : Token} {word : Keyword} {kind : Kind}
    (introduced : introducer.kind = .keyword word) (isKind : word.introduces? = some kind)
    (divided : colon.kind = .punctuation .colon) :
    Gives Grammar.objectKind analyzer depth (introducer :: named :: colon :: rest) kind analyzer
      (introducer :: named :: colon :: rest) := by
  apply gives_bind gives_peek
  simp only [introduced]
  cases word with
  | varWord | letWord =>
      cases isKind
      exact gives_pure _
  | defWord =>
      cases isKind
      apply gives_bind gives_third
      rw [if_pos divided]
      exact gives_pure _
  | _ => cases isKind

theorem object_given {declaration : Declaration}
    (reading : ObjectReading before depth declaration input after rest) :
    Gives (Grammar.object budget) before depth input declaration after rest := by
  cases reading with
  | object introduced isKind isName divided isType value closed built =>
      apply gives_bind (object_kind_given introduced isKind divided)
      apply gives_bind gives_accept
      apply gives_bind (gives_expect_name isName)
      apply gives_bind (gives_expect divided)
      apply gives_bind (type_given budget isType)
      cases value with
      | missing stop =>
          apply gives_bind (gives_takes_other (by simp) stop)
          apply gives_bind (gives_pure none)
          apply gives_bind (gives_expect closed)
          exact gives_analyze built
      | given announced inner =>
          apply gives_bind (gives_takes announced)
          apply gives_bind (gives_map some (inner.given budget))
          apply gives_bind (gives_expect closed)
          exact gives_analyze built

-- An object that starts like a function is told from one by its third token.
theorem at_object_given {declaration : Declaration}
    (reading : ObjectReading before depth declaration input after rest) :
    Gives Grammar.atFunction before depth input false before input := by
  cases reading with
  | @object introducer _ _ _ _ _ _ _ _ _ _ _ _ _ introduced isKind isName divided =>
      by_cases defines : introducer.kind = .keyword .defWord
      · apply gives_bind (gives_sees defines)
        apply gives_bind gives_third
        rw [divided]
        exact gives_pure false
      · apply gives_bind (gives_sees_other (by simp) (mt starts_cons.mp defines))
        exact gives_pure false

theorem local_given {declaration : Declaration}
    (reading : ObjectReading before depth declaration input after rest) :
    Gives (Grammar.localDeclaration budget) before depth input (.declare declaration) after
      rest := by
  apply gives_bind (at_object_given reading)
  apply gives_bind (object_given reading)
  exact gives_pure _

theorem condition_given {condition : Expr}
    (reading : ConditionReading analyzer depth condition input rest) :
    Gives (Grammar.condition budget) analyzer depth input condition analyzer rest := by
  cases reading with
  | condition opened inner closed tested =>
      apply gives_bind (gives_expect opened)
      apply gives_bind (inner.given budget)
      apply gives_bind (gives_expect closed)
      exact gives_check tested

theorem jump_given {word : String} {jump : Analyzer → Location → Checked Stmt}
    {token semicolon : Token} {stmt : Stmt} (closed : semicolon.kind = .punctuation .semicolon)
    (built : jump analyzer token.location = .ok stmt) :
    Gives (Grammar.jump word jump) analyzer depth (token :: semicolon :: rest) stmt analyzer
      rest := by
  apply gives_bind gives_accept
  apply gives_bind (gives_expect closed)
  exact gives_consult (jump · token.location) built

theorem return_given {token : Token} {value : Option Expr} {stmt : Stmt}
    (reading : ReturnReading analyzer depth value input rest)
    (built : analyzer.returnValue value token.location = .ok stmt) :
    Gives (Grammar.returnStatement budget) analyzer depth (token :: input) stmt analyzer rest := by
  apply gives_bind gives_accept
  have returned : Gives _ analyzer depth rest stmt analyzer rest :=
    gives_consult (fun analyzer => analyzer.returnValue value token.location) built
  cases reading with
  | missing closed =>
      apply gives_bind (gives_sees closed)
      apply gives_bind (gives_pure none)
      apply gives_bind (gives_expect closed)
      exact returned
  | given filled inner closed =>
      apply gives_bind (gives_sees_other (by simp) filled)
      apply gives_bind (gives_map some (inner.given budget))
      apply gives_bind (gives_expect closed)
      exact returned

def Sentence.Given (budget : Nat) (before : Analyzer) (depth : Nat) (input : List Token)
    (after : Analyzer) (rest : List Token) : Sentence → Prop
  | .statement stmt => Gives (Grammar.statement budget) before depth input stmt after rest
  | .block stmt => Gives (Grammar.block budget) before depth input stmt after rest
  | .statements stmts => Gives (Grammar.statements budget) before depth input stmts after rest

theorem block_starts {stmt : Stmt}
    (reading : SentenceReading before depth (.block stmt) input after rest) :
    ∃ opening others, input = opening :: others ∧ opening.kind = .punctuation .leftBrace := by
  cases reading with
  | braces opened => exact ⟨_, _, rfl, opened⟩

theorem object_starts {declaration : Declaration}
    (reading : ObjectReading before depth declaration input after rest) :
    ∃ introducer others word kind, input = introducer :: others ∧
      introducer.kind = .keyword word ∧ word.introduces? = some kind := by
  cases reading with
  | object introduced isKind => exact ⟨_, _, _, _, rfl, introduced, isKind⟩

theorem statement_starts {stmt : Stmt}
    (reading : SentenceReading before depth (.statement stmt) input after rest) :
    ∃ token others, input = token :: others ∧ token.kind ≠ .punctuation .rightBrace ∧
      token.kind ≠ .endOfInput := by
  cases reading with
  | block _ inner =>
      obtain ⟨opening, others, rfl, opened⟩ := block_starts inner
      exact ⟨opening, others, rfl, by simp [opened]⟩
  | when _ named | ifElse _ named | whileLoop _ named | breakLoop _ named | continueLoop _ named
  | returnValue _ named => exact ⟨_, _, rfl, by simp [named]⟩
  | declare _ inner =>
      obtain ⟨introducer, others, word, kind, rfl, introduced, _⟩ := object_starts inner
      exact ⟨introducer, others, rfl, by simp [introduced]⟩
  | evaluate _ inner _ =>
      obtain ⟨token, others, rfl, starts⟩ := inner.starts trivial
      refine ⟨token, others, rfl, ?_, ?_⟩ <;>
        · intro other
          rw [other] at starts
          exact starts

section Step

variable (lower : ∀ {before after : Analyzer} {depth : Nat} {sentence : Sentence}
    {input rest : List Token}, SentenceReading before depth sentence input after rest →
      sentence.Given budget before depth input after rest)
include lower

theorem statement_given {stmt : Stmt}
    (reading : SentenceReading before depth (.statement stmt) input after rest) :
    Gives (Grammar.statement (budget + 1)) before depth input stmt after rest := by
  rw [Grammar.statement]
  cases reading with
  | block within inner =>
      obtain ⟨opening, others, rfl, opened⟩ := block_starts inner
      apply gives_nested within
      apply gives_bind gives_peek
      simp only [opened]
      exact lower inner
  | when within named tested inner stop =>
      apply gives_nested within
      apply gives_bind gives_peek
      simp only [named]
      apply gives_bind gives_accept
      apply gives_bind (condition_given tested)
      apply gives_bind (lower inner)
      apply gives_bind (gives_takes_other (by simp) stop)
      exact gives_pure _
  | ifElse within named tested chosen divided otherwise =>
      apply gives_nested within
      apply gives_bind gives_peek
      simp only [named]
      apply gives_bind gives_accept
      apply gives_bind (condition_given tested)
      apply gives_bind (lower chosen)
      apply gives_bind (gives_takes divided)
      apply gives_bind (lower otherwise)
      exact gives_pure _
  | whileLoop within named tested inner =>
      apply gives_nested within
      apply gives_bind gives_peek
      simp only [named]
      apply gives_bind gives_accept
      apply gives_bind (condition_given tested)
      apply gives_bind (gives_in_loop (lower inner))
      exact gives_pure _
  | breakLoop within named closed built | continueLoop within named closed built =>
      apply gives_nested within
      apply gives_bind gives_peek
      simp only [named]
      exact jump_given closed built
  | returnValue within named inner built =>
      apply gives_nested within
      apply gives_bind gives_peek
      simp only [named]
      exact return_given inner built
  | declare within inner =>
      obtain ⟨introducer, others, word, kind, rfl, introduced, isKind⟩ := object_starts inner
      apply gives_nested within
      apply gives_bind gives_peek
      simp only [introduced]
      cases word with
      | varWord | letWord | defWord => exact local_given inner
      | _ => cases isKind
  | evaluate within inner closed =>
      obtain ⟨token, others, rfl, starts⟩ := inner.starts trivial
      apply gives_nested within
      apply gives_bind gives_peek
      -- Of the kinds that statements are told by only the last case is one of an expression.
      split <;> rename_i other <;> try (rw [other] at starts; exact starts.elim)
      apply gives_bind (inner.given budget)
      apply gives_bind (gives_expect closed)
      exact gives_pure _

theorem block_given {stmt : Stmt}
    (reading : SentenceReading before depth (.block stmt) input after rest) :
    Gives (Grammar.block (budget + 1)) before depth input stmt after rest := by
  rw [Grammar.block]
  cases reading with
  | braces opened entered inner closed =>
      apply gives_bind (gives_expect opened)
      apply gives_bind (gives_in_scope entered (lower inner))
      apply gives_bind (gives_expect closed)
      exact gives_pure _

theorem statements_given {stmts : List Stmt}
    (reading : SentenceReading before depth (.statements stmts) input after rest) :
    Gives (Grammar.statements (budget + 1)) before depth input stmts after rest := by
  rw [Grammar.statements]
  cases reading with
  | noStatements stop =>
      obtain ⟨closing, others, rfl, closes⟩ := stop
      apply gives_bind gives_peek
      rw [if_pos closes]
      exact gives_pure []
  | moreStatements head tail =>
      obtain ⟨token, others, rfl, goesOn, proper⟩ := statement_starts head
      apply gives_bind gives_peek
      rw [if_neg goesOn, if_neg (mt (Token.is_end_iff token).mp proper)]
      apply gives_bind (lower head)
      apply gives_bind (lower tail)
      exact gives_pure _

end Step

theorem SentenceReading.given {sentence : Sentence}
    (reading : SentenceReading before depth sentence input after rest) (budget : Nat) :
    sentence.Given budget before depth input after rest := by
  induction budget generalizing before after depth sentence input rest with
  | zero => cases sentence <;> exact gives_out_of_budget
  | succ budget lower =>
      cases sentence with
      | statement => exact statement_given lower reading
      | block => exact block_given lower reading
      | statements => exact statements_given lower reading

end McFront
