import McFront.Proofs.Analysis.Invariant
import McFront.Proofs.Parsing.CompileRun
import McFront.Proofs.Parsing.Yield

set_option autoImplicit false

namespace McFront

inductive Spells (rest : List Token) : List Token → List Leaf → Prop where
  | done : Spells rest rest []
  | leaf {token : Token} {leaf : Leaf} {input : List Token} {leaves : List Leaf}
      (carried : token.leaf? = some leaf) (others : Spells rest input leaves) :
      Spells rest (token :: input) (leaf :: leaves)
  | silent {token : Token} {input : List Token} {leaves : List Leaf} (silent : token.Silent)
      (others : Spells rest input leaves) : Spells rest (token :: input) leaves

variable {before mid after analyzer : Analyzer} {depth : Nat} {input further rest : List Token}
  {token : Token} {spelled others : List Leaf} {declaration : Declaration}

theorem Spells.append (first : Spells further input spelled) (second : Spells rest further others) :
    Spells rest input (spelled ++ others) := by
  induction first with
  | done => exact second
  | leaf carried _ ih => exact .leaf carried ih
  | silent silent _ ih => exact .silent silent ih

theorem Spells.behind (first : Spells (token :: rest) input spelled) (silent : token.Silent) :
    Spells rest input spelled := by
  have appended := first.append (.silent silent .done)
  rwa [List.append_nil] at appended

theorem Spells.name {name : String} (named : token.kind = .identifier name)
    (others : Spells rest input spelled) :
    Spells rest (token :: input) (⟨.name name, token.location⟩ :: spelled) :=
  .leaf (by simp only [Token.leaf?, named]) others

theorem Spells.gathered (spells : Spells [] input spelled) :
    input.filterMap Token.leaf? = spelled ∧
      ∀ token ∈ input, ∀ content, token.kind ≠ .text content := by
  induction spells with
  | done => exact ⟨rfl, nofun⟩
  | leaf carried others ih =>
      obtain ⟨gathered, bare⟩ := ih
      refine ⟨by rw [List.filterMap_cons_some carried, gathered], ?_⟩
      refine List.forall_mem_cons.mpr ⟨?_, bare⟩
      intro content isText
      simp [Token.leaf?, isText] at carried
  | silent silent others ih =>
      obtain ⟨gathered, bare⟩ := ih
      unfold Token.Silent at silent
      refine ⟨?_, List.forall_mem_cons.mpr ⟨?_, bare⟩⟩
      · rw [List.filterMap_cons_none, gathered]
        unfold Token.leaf?
        split <;> simp_all
      · intro content isText
        simp [isText] at silent

theorem Yields.leaf {e : Expr} (yields : Yields analyzer token e) :
    ∃ leaf, token.leaf? = some leaf ∧ e.leaf? = some leaf := by
  cases yields with
  | @name name _ named found =>
      unfold Analyzer.name at found
      split at found <;> cases found
      exact ⟨⟨.name name, token.location⟩, by simp only [Token.leaf?, named], rfl⟩
  | bool named | int named | float named | char named =>
      exact ⟨_, by simp only [Token.leaf?, named], rfl⟩

theorem YieldsAll.spells {exprs : List Expr} (yields : YieldsAll analyzer rest input exprs) :
    Spells rest input (exprs.filterMap Expr.leaf?) := by
  induction yields with
  | done => exact .done
  | leaf yields others ih =>
      obtain ⟨leaf, carried, isLeaf⟩ := yields.leaf
      rw [List.filterMap_cons_some isLeaf]
      exact .leaf carried ih
  | silent silent others ih => exact .silent silent ih

theorem Reading.spells {e : Expr} (reading : Reading analyzer depth (.expression e) input rest) :
    Spells rest input e.leaves := by
  rw [e.leaves_eq]
  exact reading.expression_yields.spells

theorem TypeReading.spells {type : Ty} (reading : TypeReading depth input type rest) :
    Spells rest input [] :=
  (reading.yields .initial).spells

theorem Expr.Wraps.leaves {e operand : Expr} (wraps : Expr.Wraps e operand) :
    operand.leaves = e.leaves := by
  rw [operand.leaves_eq, e.leaves_eq, wraps.leaf_nodes]

theorem ConditionReading.spells {condition : Expr}
    (reading : ConditionReading analyzer depth condition input rest) :
    Spells rest input condition.leaves := by
  cases reading with
  | condition opened inner closed tested =>
      rw [(Expr.require_truth_ok tested).1.leaves]
      have within := inner.spells.behind (silent_of_punctuation closed)
      exact .silent (silent_of_punctuation opened) within

theorem ObjectReading.spells (reading : ObjectReading before depth declaration input after rest) :
    Spells rest input declaration.leaves := by
  cases reading with
  | object introduced isKind isName divided isType value closed built =>
      obtain ⟨_, _, initialized, rfl, _⟩ := object_gains built
      refine .silent (silent_of_keyword introduced) (.name isName ?_)
      refine .silent (silent_of_punctuation divided) (isType.spells.append ?_)
      cases initialized with
      | missing isVar =>
          cases value
          exact .silent (silent_of_punctuation closed) .done
      | @given _ held required =>
          cases value with
          | given announced inner =>
              have within := inner.spells.behind (silent_of_punctuation closed)
              rw [← (Expr.require_type_ok required).1.leaves] at within
              have spelled := Spells.silent (silent_of_operator announced) within
              rwa [← List.append_nil held.leaves] at spelled

def Sentence.leaves : Sentence → List Leaf
  | .statement stmt | .block stmt => stmt.leaves
  | .statements stmts => Stmt.leavesOf stmts

theorem SentenceReading.spells {sentence : Sentence}
    (reading : SentenceReading before depth sentence input after rest) :
    Spells rest input sentence.leaves := by
  induction reading with
  | block within inner ih => exact ih
  | when within named tested inner stop ih =>
      exact .silent (silent_of_keyword named) (tested.spells.append ih)
  | ifElse within named tested chosen divided otherwise first second =>
      have toElse := (tested.spells.append first).behind (silent_of_keyword divided)
      exact .silent (silent_of_keyword named) (toElse.append second)
  | whileLoop within named tested inner ih =>
      exact .silent (silent_of_keyword named) (tested.spells.append ih)
  | breakLoop within named closed built =>
      obtain ⟨rfl, _⟩ := in_loop_ok built
      exact .silent (silent_of_keyword named) (.silent (silent_of_punctuation closed) .done)
  | continueLoop within named closed built =>
      obtain ⟨rfl, _⟩ := in_loop_ok built
      exact .silent (silent_of_keyword named) (.silent (silent_of_punctuation closed) .done)
  | returnValue within named inner built =>
      obtain ⟨value, source, result, _, rfl, required, inner, closed⟩ := inner.returned built
      have within := inner.spells.behind (silent_of_punctuation closed)
      rw [← (Expr.require_type_ok required).1.leaves] at within
      exact .silent (silent_of_keyword named) within
  | declare within inner => exact inner.spells
  | evaluate within inner closed =>
      exact inner.spells.behind (silent_of_punctuation closed)
  | braces opened entered inner closed ih =>
      have within := ih.behind (silent_of_punctuation closed)
      exact .silent (silent_of_punctuation opened) within
  | noStatements stop => exact .done
  | moreStatements head tail first others =>
      exact first.append others

theorem ParametersReading.spells {parameters : List Declaration}
    (reading : ParametersReading depth before parameters input after rest) :
    Spells rest input (Declaration.leavesOf parameters) := by
  induction reading with
  | one isName divided isType built stop =>
      obtain ⟨rfl, _⟩ := parameter_gains built
      exact .name isName (.silent (silent_of_punctuation divided) isType.spells)
  | more isName divided isType built continued tail ih =>
      obtain ⟨rfl, _⟩ := parameter_gains built
      have type := isType.spells.behind (silent_of_punctuation continued)
      exact .name isName (.silent (silent_of_punctuation divided) (type.append ih))

theorem ParameterListReading.spells {parameters : List Declaration}
    (reading : ParameterListReading depth before parameters input after rest) :
    Spells rest input (Declaration.leavesOf parameters) := by
  cases reading with
  | empty opened closed =>
      exact .silent (silent_of_punctuation opened) (.silent (silent_of_punctuation closed) .done)
  | filled opened present inner closed =>
      have within := inner.spells.behind (silent_of_punctuation closed)
      exact .silent (silent_of_punctuation opened) within

theorem HeaderReading.spells (reading : HeaderReading depth before declaration input after rest) :
    Spells rest input declaration.leaves := by
  cases reading with
  | header introduced isName entered taken divided isType built =>
      obtain ⟨_, _, rfl, _⟩ := function_gains built
      have parameters := taken.spells.behind (silent_of_punctuation divided)
      have header := parameters.append isType.spells
      rw [List.append_nil] at header
      exact .silent (silent_of_keyword introduced) (.name isName header)

theorem DeclarationReading.spells
    (reading : DeclarationReading depth before declaration input after rest) :
    Spells rest input declaration.leaves := by
  cases reading with
  | object inner => exact inner.spells
  | prototype header closed => exact header.spells.behind (silent_of_punctuation closed)
  | function header begins inner defined =>
      have whole := header.spells.append inner.spells
      obtain ⟨_, _, rfl, _⟩ := header.made
      cases defined
      exact whole

theorem DeclarationsReading.spells {declarations : List Declaration}
    (reading : DeclarationsReading depth before declarations input after) :
    Spells [] input (Declaration.leavesOf declarations) := by
  induction reading with
  | done => exact .done
  | more head tail ih => exact head.spells.append ih

theorem ProgramReading.spells {program : Declaration} (reading : ProgramReading program input) :
    Spells [] input program.leaves := by
  cases reading with
  | program entered inner => exact inner.spells

theorem program_keeps_leaves (text : String) (interner names : Interner) (program : Declaration)
    (accepted : (compile text interner).1 = .ok program) :
    ∃ tokens, (lex text names).1 = .ok tokens ∧
      tokens.filterMap Token.leaf? = program.leaves ∧
        ∀ token ∈ tokens, ∀ content, token.kind ≠ .text content := by
  obtain ⟨finish, isLast, reading⟩ := compile_reads accepted
  have ended := Cursor.outlook_finish isLast
  obtain ⟨gathered, bare⟩ := reading.spells.gathered
  refine ⟨_, lex_accepts_iff.mpr ⟨finish, isLast, rfl⟩, ?_, ?_⟩
  · have silent : finish.leaf? = none := by simp only [Token.leaf?, ended]
    rw [List.filterMap_append, gathered, List.filterMap_cons_none silent, List.filterMap_nil,
      List.append_nil]
  · refine List.forall_mem_append.mpr ⟨bare, ?_⟩
    simp [ended]

theorem choice_keeps_leaves :
    ∃ program tokens, (compile "def f(b: bool) -> int \x7b return b ? 'c' as int : 2; \x7d" .empty).1 =
        .ok program ∧
      (lex "def f(b: bool) -> int \x7b return b ? 'c' as int : 2; \x7d" .empty).1 = .ok tokens ∧
      program.leaves.map Leaf.value = [.name "f", .name "b", .name "b", .char 'c', .int 2] ∧
      tokens.filterMap Token.leaf? = program.leaves := by
  obtain ⟨program, accepted, leaves⟩ := exists_of_measured (show
    (compile "def f(b: bool) -> int \x7b return b ? 'c' as int : 2; \x7d" .empty).1.toOption.map
      (fun program => program.leaves.map Leaf.value) =
        some [.name "f", .name "b", .name "b", .char 'c', .int 2] by decide +kernel)
  obtain ⟨tokens, lexed, gathered, _⟩ := program_keeps_leaves _ .empty .empty program accepted
  exact ⟨program, tokens, accepted, lexed, leaves, gathered⟩

end McFront
