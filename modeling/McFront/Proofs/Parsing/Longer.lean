import McFront.Proofs.Parsing.DeclarationRun

set_option autoImplicit false

namespace McFront

open McFront.Parser (Starts)

variable {depth : Nat} {input rest : List Token} {analyzer before after : Analyzer}

theorem TypeReading.longer {type : Ty} (reading : TypeReading depth input type rest)
    (more : List Token) : TypeReading depth (input ++ more) type (rest ++ more) := by
  induction reading with
  | scalar within named => exact .scalar within named
  | pointer within isStar pointee ih => exact .pointer within isStar ih
  | grouped within opened inner closed ih => exact .grouped within opened ih closed

theorem next_longer {property : Token → Prop} (filled : rest ≠ [])
    (holds : ∀ next ∈ rest.head?, property next) (more : List Token) :
    ∀ next ∈ (rest ++ more).head?, property next := by
  cases rest with
  | nil => exact absurd rfl filled
  | cons token rest => exact holds

theorem starts_longer {kind : Token.Kind} (filled : rest ≠ []) (stop : ¬ Starts kind rest)
    (more : List Token) : ¬ Starts kind (rest ++ more) := by
  cases rest with
  | nil => exact absurd rfl filled
  | cons token rest =>
      rw [List.cons_append, Parser.starts_cons]
      exact mt Parser.starts_cons.mpr stop

theorem Reading.filled {phrase : Phrase} (reading : Reading analyzer depth phrase input rest)
    (filled : rest ≠ []) : input ≠ [] := by
  have shorter := reading.shorter
  have some := List.length_pos_iff.mpr filled
  apply List.length_pos_iff.mp
  omega

theorem Reading.longer {phrase : Phrase} (reading : Reading analyzer depth phrase input rest)
    (filled : rest ≠ []) (more : List Token) :
    Reading analyzer depth phrase (input ++ more) (rest ++ more) := by
  induction reading with
  | plain within operand stop ih => exact .plain within (ih filled) (next_longer filled stop more)
  | conditional within tested asked chosen divided otherwise built first second third =>
      exact .conditional within (first (by simp)) asked (second (by simp)) divided (third filled)
        built
  | assignment within place assigned given built first second =>
      exact .assignment within (first (by simp)) assigned (second filled) built
  | binary operand chain first second =>
      exact .binary (first (chain.filled filled)) (second filled)
  | joined stop => exact .joined (next_longer filled stop more)
  | operation named meant within operand built chain first second =>
      exact .operation named meant within (first (chain.filled filled)) built (second filled)
  | cast operand chain first second => exact .cast (first (chain.filled filled)) (second filled)
  | uncast stop => exact .uncast (next_longer filled stop more)
  | castTo named within type built chain ih =>
      exact .castTo named within (type.longer more) built (ih filled)
  | unary meant within inner built ih => exact .unary meant within (ih filled) built
  | applied stop operand chain first second =>
      have start := operand.filled (chain.filled filled)
      exact .applied (next_longer start stop more) (first (chain.filled filled)) (second filled)
  | unapplied stop => exact .unapplied (next_longer filled stop more)
  | call opened inner built chain first second =>
      exact .call opened (first (chain.filled filled)) built (second filled)
  | index opened inner built chain first second =>
      exact .index opened (first (chain.filled filled)) built (second filled)
  | noArguments closed => exact .noArguments closed
  | arguments present inner closed ih =>
      have start := inner.filled (by simp)
      exact .arguments (starts_longer start present more) (ih (by simp)) closed
  | oneExpression only stop ih =>
      exact .oneExpression (ih filled) (starts_longer filled stop more)
  | moreExpressions head divided tail first second =>
      exact .moreExpressions (first (by simp)) divided (second filled)
  | bool named => exact .bool named
  | int named => exact .int named
  | float named => exact .float named
  | char named => exact .char named
  | name named found => exact .name named found
  | grouped opened inner closed ih => exact .grouped opened (ih (by simp)) closed

theorem InitialReading.longer {initial : Option Expr}
    (reading : InitialReading analyzer depth initial input rest) (filled : rest ≠ [])
    (more : List Token) : InitialReading analyzer depth initial (input ++ more) (rest ++ more) := by
  cases reading with
  | missing stop => exact .missing (starts_longer filled stop more)
  | given announced inner => exact .given announced (inner.longer filled more)

theorem ConditionReading.longer {condition : Expr}
    (reading : ConditionReading analyzer depth condition input rest) (more : List Token) :
    ConditionReading analyzer depth condition (input ++ more) (rest ++ more) := by
  cases reading with
  | condition opened inner closed tested =>
      exact .condition opened (inner.longer (by simp) more) closed tested

theorem ObjectReading.longer {declaration : Declaration}
    (reading : ObjectReading before depth declaration input after rest) (more : List Token) :
    ObjectReading before depth declaration (input ++ more) after (rest ++ more) := by
  cases reading with
  | object introduced isKind isName divided isType value closed built =>
      exact .object introduced isKind isName divided (isType.longer more)
        (value.longer (by simp) more) closed built

theorem ReturnReading.longer {value : Option Expr}
    (reading : ReturnReading analyzer depth value input rest) (more : List Token) :
    ReturnReading analyzer depth value (input ++ more) (rest ++ more) := by
  cases reading with
  | missing closed => exact .missing closed
  | given present inner closed =>
      have start := inner.filled (by simp)
      exact .given (starts_longer start present more) (inner.longer (by simp) more) closed

theorem SentenceReading.filled {sentence : Sentence}
    (reading : SentenceReading before depth sentence input after rest) (filled : rest ≠ []) :
    input ≠ [] := by
  have shorter := reading.shorter
  have some := List.length_pos_iff.mpr filled
  apply List.length_pos_iff.mp
  omega

theorem SentenceReading.longer {sentence : Sentence}
    (reading : SentenceReading before depth sentence input after rest) (filled : rest ≠ [])
    (more : List Token) :
    SentenceReading before depth sentence (input ++ more) after (rest ++ more) := by
  induction reading with
  | block within inner ih => exact .block within (ih filled)
  | when within named tested inner stop ih =>
      exact .when within named (tested.longer more) (ih filled) (starts_longer filled stop more)
  | ifElse within named tested chosen divided otherwise first second =>
      exact .ifElse within named (tested.longer more) (first (by simp)) divided (second filled)
  | whileLoop within named tested inner ih =>
      exact .whileLoop within named (tested.longer more) (ih filled)
  | breakLoop within named closed built => exact .breakLoop within named closed built
  | continueLoop within named closed built => exact .continueLoop within named closed built
  | returnValue within named inner built =>
      exact .returnValue within named (inner.longer more) built
  | declare within inner => exact .declare within (inner.longer more)
  | evaluate within inner closed => exact .evaluate within (inner.longer (by simp) more) closed
  | braces opened entered inner closed ih => exact .braces opened entered (ih (by simp)) closed
  | noStatements stop =>
      obtain ⟨closing, others, rfl, closes⟩ := stop
      exact .noStatements ⟨closing, others ++ more, rfl, closes⟩
  | moreStatements head tail first second =>
      exact .moreStatements (first (tail.filled filled)) (second filled)

theorem block_longer {stmt : Stmt}
    (reading : SentenceReading before depth (.block stmt) input after rest) (more : List Token) :
    SentenceReading before depth (.block stmt) (input ++ more) after (rest ++ more) := by
  cases reading with
  | braces opened entered inner closed =>
      exact .braces opened entered (inner.longer (by simp) more) closed

theorem ParametersReading.longer {parameters : List Declaration}
    (reading : ParametersReading depth before parameters input after rest) (filled : rest ≠ [])
    (more : List Token) :
    ParametersReading depth before parameters (input ++ more) after (rest ++ more) := by
  induction reading with
  | one isName divided isType built stop =>
      exact .one isName divided (isType.longer more) built (starts_longer filled stop more)
  | more isName divided isType built continued tail ih =>
      exact .more isName divided (isType.longer more) built continued (ih filled)

theorem ParameterListReading.longer {parameters : List Declaration}
    (reading : ParameterListReading depth before parameters input after rest) (more : List Token) :
    ParameterListReading depth before parameters (input ++ more) after (rest ++ more) := by
  cases reading with
  | empty opened closed => exact .empty opened closed
  | filled opened present inner closed =>
      have start := List.length_pos_iff.mp (Nat.zero_lt_of_lt inner.shorter)
      exact .filled opened (starts_longer start present more) (inner.longer (by simp) more) closed

theorem HeaderReading.longer {declaration : Declaration}
    (reading : HeaderReading depth before declaration input after rest) (more : List Token) :
    HeaderReading depth before declaration (input ++ more) after (rest ++ more) := by
  cases reading with
  | header introduced isName entered taken divided isType built =>
      exact .header introduced isName entered (taken.longer more) divided (isType.longer more) built

theorem DeclarationReading.longer {declaration : Declaration}
    (reading : DeclarationReading depth before declaration input after rest) (more : List Token) :
    DeclarationReading depth before declaration (input ++ more) after (rest ++ more) := by
  cases reading with
  | object inner => exact .object (inner.longer more)
  | prototype header closed => exact .prototype (header.longer more) closed
  | function header begins inner defined =>
      exact .function (header.longer more) begins (block_longer inner more) defined

end McFront
