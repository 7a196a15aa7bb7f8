import McFront.Proofs.Parsing.ExpressionRun
import McFront.Proofs.Parsing.Gives

set_option autoImplicit false

namespace McFront

open McFront.Parser Parse

variable {analyzer : Analyzer} {depth : Nat} {input rest : List Token}

theorem type_given (budget : Nat) {type : Ty} (reading : TypeReading depth input type rest) :
    Gives (Grammar.type budget) analyzer depth input type analyzer rest := by
  induction budget generalizing depth input rest type with
  | zero => exact gives_out_of_budget
  | succ budget lower =>
      rw [Grammar.type]
      cases reading with
      | scalar within named =>
          apply gives_nested within
          apply gives_bind gives_peek
          simp only [named]
          apply gives_bind gives_accept
          exact gives_pure _
      | pointer within isStar pointee =>
          apply gives_nested within
          apply gives_bind gives_peek
          simp only [isStar]
          apply gives_bind gives_accept
          apply gives_bind (lower pointee)
          exact gives_pure _
      | grouped within opened inner closed =>
          apply gives_nested within
          apply gives_bind gives_peek
          simp only [opened]
          apply gives_bind gives_accept
          apply gives_bind (lower inner)
          apply gives_bind (gives_expect closed)
          exact gives_pure _

def Phrase.Given (budget : Nat) (analyzer : Analyzer) (depth : Nat) (input rest : List Token) :
    Phrase → Prop
  | .expression expr => Gives (Grammar.expression budget) analyzer depth input expr analyzer rest
  | .binary least expr =>
      Gives (Grammar.binary budget least) analyzer depth input expr analyzer rest
  | .operations least left expr =>
      GivesDeeper (Grammar.operations budget least left) analyzer depth input expr analyzer rest
  | .cast expr => Gives (Grammar.cast budget) analyzer depth input expr analyzer rest
  | .casts source expr =>
      GivesDeeper (Grammar.casts budget source) analyzer depth input expr analyzer rest
  | .unary expr => Gives (Grammar.unary budget) analyzer depth input expr analyzer rest
  | .applications head expr =>
      Gives (Grammar.applications budget head) analyzer depth input expr analyzer rest
  | .arguments close given => ∀ what,
      Gives (Grammar.arguments budget close what) analyzer depth input given analyzer rest
  | .expressions given =>
      Gives (Grammar.expressions budget) analyzer depth input given analyzer rest
  | .primary expr => Gives (Grammar.primary budget) analyzer depth input expr analyzer rest

theorem operator_met {token : Token} {operator : Operator}
    (named : token.kind = .operator operator) : token.operator = .ok operator := by
  simp only [Token.operator, named]

section Step

variable {budget : Nat}
  (lower : ∀ {depth : Nat} {phrase : Phrase} {input rest : List Token},
    Reading analyzer depth phrase input rest → phrase.Given budget analyzer depth input rest)
include lower

theorem expression_given {expr : Expr}
    (reading : Reading analyzer depth (.expression expr) input rest) :
    Gives (Grammar.expression (budget + 1)) analyzer depth input expr analyzer rest := by
  rw [Grammar.expression]
  cases reading with
  | plain within operand stop =>
      apply gives_nested within
      apply gives_bind (lower operand)
      apply gives_bind_peek
      intro last token shows
      have other : token.kind ≠ .operator .question ∧ token.kind ≠ .operator .becomes :=
        shows.current (by simp +contextual) stop
      split
      · rename_i asked
        exact absurd asked other.1
      · rename_i assigned
        exact absurd assigned other.2
      · exact gives_pure _
  | conditional within tested asked chosen divided otherwise built =>
      apply gives_nested within
      apply gives_bind (lower tested)
      apply gives_bind gives_peek
      simp only [asked]
      apply gives_bind gives_accept
      apply gives_bind (lower chosen)
      apply gives_bind (gives_expect divided)
      apply gives_bind (lower otherwise)
      exact gives_check built
  | assignment within place assigned given built =>
      apply gives_nested within
      apply gives_bind (lower place)
      apply gives_bind gives_peek
      simp only [assigned]
      apply gives_bind gives_accept
      apply gives_bind (lower given)
      exact gives_check built

theorem binary_given {least : Nat} {expr : Expr}
    (reading : Reading analyzer depth (.binary least expr) input rest) :
    Gives (Grammar.binary (budget + 1) least) analyzer depth input expr analyzer rest := by
  rw [Grammar.binary]
  cases reading with
  | binary operand chain =>
      exact gives_keeping_depth (gives_bind (lower operand) (lower chain))

theorem operations_given {least : Nat} {left expr : Expr}
    (reading : Reading analyzer depth (.operations least left expr) input rest) :
    GivesDeeper (Grammar.operations (budget + 1) least left) analyzer depth input expr analyzer
      rest := by
  rw [Grammar.operations]
  cases reading with
  | joined stop =>
      apply Gives.deeper
      apply gives_bind_peek
      intro last token shows
      have none : Grammar.binaryOperation? least token = none :=
        shows.current (fun finish ended => by simp [Grammar.binaryOperation?, ended]) stop
      simp only [none]
      exact gives_pure _
  | operation named meant within operand built chain =>
      apply gives_bind gives_peek
      simp only [meant]
      apply goes_deepen within
      apply gives_bind gives_accept
      apply gives_bind (gives_demand (operator_met named))
      apply gives_bind (lower operand)
      apply gives_bind (gives_check built)
      exact lower chain

theorem cast_given {expr : Expr} (reading : Reading analyzer depth (.cast expr) input rest) :
    Gives (Grammar.cast (budget + 1)) analyzer depth input expr analyzer rest := by
  rw [Grammar.cast]
  cases reading with
  | cast operand chain =>
      exact gives_keeping_depth (gives_bind (lower operand) (lower chain))

theorem casts_given {source expr : Expr}
    (reading : Reading analyzer depth (.casts source expr) input rest) :
    GivesDeeper (Grammar.casts (budget + 1) source) analyzer depth input expr analyzer rest := by
  rw [Grammar.casts]
  cases reading with
  | uncast stop =>
      apply Gives.deeper
      apply gives_bind_peek
      intro last token shows
      have other : token.kind ≠ .keyword .asWord := shows.current (by simp +contextual) stop
      rw [if_neg other]
      exact gives_pure _
  | castTo named within type built chain =>
      apply gives_bind gives_peek
      rw [if_pos named]
      apply goes_deepen within
      apply gives_bind gives_accept
      apply gives_bind (type_given budget type)
      apply gives_bind (gives_check built)
      exact lower chain

theorem unary_given {expr : Expr} (reading : Reading analyzer depth (.unary expr) input rest) :
    Gives (Grammar.unary (budget + 1)) analyzer depth input expr analyzer rest := by
  rw [Grammar.unary]
  cases reading with
  | unary meant within inner built =>
      apply gives_bind gives_peek
      simp only [meant]
      apply gives_bind gives_accept
      apply gives_bind (gives_nested within (lower inner))
      exact gives_check built
  | applied stop operand chain =>
      apply gives_bind_peek
      intro last token shows
      have none : Grammar.unaryOperation? token = none :=
        shows.current (fun finish ended => by simp [Grammar.unaryOperation?, ended]) stop
      simp only [none]
      apply gives_bind (lower operand)
      exact lower chain

theorem applications_given {head expr : Expr}
    (reading : Reading analyzer depth (.applications head expr) input rest) :
    Gives (Grammar.applications (budget + 1) head) analyzer depth input expr analyzer rest := by
  rw [Grammar.applications]
  cases reading with
  | unapplied stop =>
      apply gives_bind_peek
      intro last token shows
      have other : token.kind ≠ .punctuation .leftParen ∧ token.kind ≠ .punctuation .leftBracket :=
        shows.current (by simp +contextual) stop
      split
      · rename_i opened
        exact absurd opened other.1
      · rename_i opened
        exact absurd opened other.2
      · exact gives_pure _
  | call opened inner built chain | index opened inner built chain =>
      apply gives_bind gives_peek
      simp only [opened]
      apply gives_bind gives_accept
      apply gives_bind (lower inner _)
      apply gives_bind (gives_check built)
      exact lower chain

theorem arguments_given {close : Punctuation} {what : String} {given : List Expr}
    (reading : Reading analyzer depth (.arguments close given) input rest) :
    Gives (Grammar.arguments (budget + 1) close what) analyzer depth input given analyzer rest := by
  rw [Grammar.arguments]
  cases reading with
  | noArguments closed =>
      apply gives_bind (gives_sees closed)
      apply gives_bind (gives_pure [])
      apply gives_bind (gives_expect closed)
      exact gives_pure []
  | arguments filled inner closed =>
      apply gives_bind (gives_sees_other (by simp) filled)
      apply gives_bind (lower inner)
      apply gives_bind (gives_expect closed)
      exact gives_pure _

theorem expressions_given {given : List Expr}
    (reading : Reading analyzer depth (.expressions given) input rest) :
    Gives (Grammar.expressions (budget + 1)) analyzer depth input given analyzer rest := by
  rw [Grammar.expressions]
  cases reading with
  | oneExpression only stop =>
      apply gives_bind (lower only)
      apply gives_bind (gives_takes_other (by simp) stop)
      exact gives_pure _
  | moreExpressions head divided tail =>
      apply gives_bind (lower head)
      apply gives_bind (gives_takes divided)
      apply gives_bind (lower tail)
      exact gives_pure _

theorem primary_given {expr : Expr} (reading : Reading analyzer depth (.primary expr) input rest) :
    Gives (Grammar.primary (budget + 1)) analyzer depth input expr analyzer rest := by
  rw [Grammar.primary]
  cases reading with
  | bool named | int named | float named | char named =>
      apply gives_bind gives_peek
      simp only [named]
      apply gives_bind gives_accept
      exact gives_pure _
  | @name _ token name _ _ named found =>
      apply gives_bind gives_peek
      simp only [named]
      apply gives_bind gives_accept
      exact gives_consult (fun analyzer => analyzer.name name token.location) found
  | grouped opened inner closed =>
      apply gives_bind gives_peek
      simp only [opened]
      apply gives_bind gives_accept
      apply gives_bind (lower inner)
      apply gives_bind (gives_expect closed)
      exact gives_pure _

end Step

theorem Reading.given {phrase : Phrase} (reading : Reading analyzer depth phrase input rest)
    (budget : Nat) : phrase.Given budget analyzer depth input rest := by
  induction budget generalizing depth phrase input rest with
  | zero =>
      cases phrase with
      | arguments => exact fun _ => gives_out_of_budget
      | operations | casts => exact deeper_out_of_budget
      | _ => exact gives_out_of_budget
  | succ budget lower =>
      cases phrase with
      | expression => exact expression_given lower reading
      | binary => exact binary_given lower reading
      | operations => exact operations_given lower reading
      | cast => exact cast_given lower reading
      | casts => exact casts_given lower reading
      | unary => exact unary_given lower reading
      | applications => exact applications_given lower reading
      | arguments => exact fun _ => arguments_given lower reading
      | expressions => exact expressions_given lower reading
      | primary => exact primary_given lower reading

def Token.Kind.StartsExpression : Token.Kind → Prop
  | .punctuation .leftParen => True
  | .boolean _ | .integer _ _ | .float _ | .character _ | .identifier _ => True
  | .operator op => op.unary?.isSome
  | _ => False

def Phrase.IsOperand : Phrase → Prop
  | .expression _ | .binary _ _ | .cast _ | .unary _ | .primary _ => True
  | _ => False

theorem Reading.starts {phrase : Phrase} (reading : Reading analyzer depth phrase input rest)
    (operand : phrase.IsOperand) :
    ∃ token others, input = token :: others ∧ token.kind.StartsExpression := by
  induction reading with
  | plain _ _ _ ih => exact ih trivial
  | conditional _ _ _ _ _ _ _ ih _ _ => exact ih trivial
  | assignment _ _ _ _ _ ih _ => exact ih trivial
  | binary _ _ ih _ => exact ih trivial
  | cast _ _ ih _ => exact ih trivial
  | applied _ _ _ ih _ => exact ih trivial
  | unary meant =>
      refine ⟨_, _, rfl, ?_⟩
      unfold Grammar.unaryOperation? at meant
      split at meant
      · rename_i named
        rw [named]
        exact Option.isSome_of_eq_some meant
      · cases meant
  | bool named | int named | float named | char named | name named | grouped named =>
      refine ⟨_, _, rfl, ?_⟩
      rw [named]
      trivial
  | _ => exact operand.elim

end McFront
