import McFront.Proofs.Parsing.Meets
import McFront.Proofs.Parsing.Reading

set_option autoImplicit false

namespace McFront

open McFront.Parser Parse

theorem TypeReading.shorter {depth : Nat} {type : Ty} {input rest : List Token}
    (reading : TypeReading depth input type rest) : rest.length < input.length := by
  induction reading with
  | scalar within named => simp
  | pointer within isStar pointee ih =>
      rw [List.length_cons]
      omega
  | grouped within opened inner closed ih =>
      rw [List.length_cons] at *
      omega

def Phrase.least : Phrase → Nat
  | .operations .. | .casts .. | .applications .. => 0
  | _ => 1

theorem Reading.shorter {analyzer : Analyzer} {depth : Nat} {phrase : Phrase}
    {input rest : List Token} (reading : Reading analyzer depth phrase input rest) :
    rest.length + phrase.least ≤ input.length := by
  induction reading with
  | castTo named within type built chain ih =>
      have typeShorter := type.shorter
      simp only [Phrase.least, List.length_cons] at *
      omega
  | _ =>
      simp only [Phrase.least, List.length_cons] at *
      omega

variable {analyzer : Analyzer} {depth budget : Nat} {input : List Token}

theorem type_meets (budget : Nat) (enough : input.length + 1 ≤ budget) :
    Meets (Grammar.type budget) analyzer depth input fun type rest =>
      TypeReading depth input type rest := by
  induction budget generalizing depth input with
  | zero => omega
  | succ budget ih =>
      rw [Grammar.type]
      apply meets_nested
      intro within
      apply meets_bind meets_peek
      rintro token _ ⟨rfl, last, shows⟩
      split
      · rename_i scalar named
        apply meets_bind (meets_shown shows (by simp [named]))
        rintro _ rest ⟨rfl, rfl⟩
        exact meets_pure (.scalar within named)
      · rename_i isStar
        apply meets_bind (meets_shown shows (by simp [isStar]))
        rintro _ typed ⟨rfl, rfl⟩
        rw [List.length_cons] at enough
        apply meets_bind (ih (by omega))
        intro type rest pointee
        exact meets_pure (.pointer within isStar pointee)
      · rename_i opened
        apply meets_bind (meets_shown shows (by simp [opened]))
        rintro _ typed ⟨rfl, rfl⟩
        rw [List.length_cons] at enough
        apply meets_bind (ih (by omega))
        intro type further inner
        apply meets_bind (meets_expect (by simp))
        rintro closing rest ⟨rfl, closed⟩
        exact meets_pure (.grouped within opened inner closed)
      · exact meets_unexpected

structure ExpressionsMeet (budget : Nat) : Prop where
  expression {analyzer : Analyzer} {depth : Nat} {input : List Token}
    (enough : 8 * input.length + 6 ≤ budget) :
    Meets (Grammar.expression budget) analyzer depth input fun expr rest =>
      Reading analyzer depth (.expression expr) input rest
  binary {analyzer : Analyzer} {depth : Nat} {input : List Token} (least : Nat)
    (enough : 8 * input.length + 5 ≤ budget) :
    Meets (Grammar.binary budget least) analyzer depth input fun expr rest =>
      Reading analyzer depth (.binary least expr) input rest
  operations {analyzer : Analyzer} {depth : Nat} {input : List Token} (least : Nat) (left : Expr)
    (enough : 8 * input.length + 1 ≤ budget) :
    MeetsDeeper (Grammar.operations budget least left) analyzer depth input fun expr rest =>
      Reading analyzer depth (.operations least left expr) input rest
  cast {analyzer : Analyzer} {depth : Nat} {input : List Token}
    (enough : 8 * input.length + 4 ≤ budget) :
    Meets (Grammar.cast budget) analyzer depth input fun expr rest =>
      Reading analyzer depth (.cast expr) input rest
  casts {analyzer : Analyzer} {depth : Nat} {input : List Token} (source : Expr)
    (enough : 8 * input.length + 1 ≤ budget) :
    MeetsDeeper (Grammar.casts budget source) analyzer depth input fun expr rest =>
      Reading analyzer depth (.casts source expr) input rest
  unary {analyzer : Analyzer} {depth : Nat} {input : List Token}
    (enough : 8 * input.length + 3 ≤ budget) :
    Meets (Grammar.unary budget) analyzer depth input fun expr rest =>
      Reading analyzer depth (.unary expr) input rest
  applications {analyzer : Analyzer} {depth : Nat} {input : List Token} (head : Expr)
    (enough : 8 * input.length + 1 ≤ budget) :
    Meets (Grammar.applications budget head) analyzer depth input fun expr rest =>
      Reading analyzer depth (.applications head expr) input rest
  arguments {analyzer : Analyzer} {depth : Nat} {input : List Token} (close : Punctuation)
    (what : String) (enough : 8 * input.length + 8 ≤ budget) :
    Meets (Grammar.arguments budget close what) analyzer depth input fun given rest =>
      Reading analyzer depth (.arguments close given) input rest
  expressions {analyzer : Analyzer} {depth : Nat} {input : List Token}
    (enough : 8 * input.length + 7 ≤ budget) :
    Meets (Grammar.expressions budget) analyzer depth input fun given rest =>
      Reading analyzer depth (.expressions given) input rest
  primary {analyzer : Analyzer} {depth : Nat} {input : List Token}
    (enough : 8 * input.length + 2 ≤ budget) :
    Meets (Grammar.primary budget) analyzer depth input fun expr rest =>
      Reading analyzer depth (.primary expr) input rest

section Step

variable (lower : ExpressionsMeet budget)
include lower

theorem expression_meets (enough : 8 * input.length + 6 ≤ budget + 1) :
    Meets (Grammar.expression (budget + 1)) analyzer depth input fun expr rest =>
      Reading analyzer depth (.expression expr) input rest := by
  rw [Grammar.expression]
  apply meets_nested
  intro within
  apply meets_bind (lower.binary _ (by omega))
  intro left further operand
  have shorter := operand.shorter
  apply meets_bind meets_peek
  rintro token _ ⟨rfl, last, shows⟩
  split
  · rename_i asked
    apply meets_bind (meets_shown shows (by simp [asked]))
    rintro _ branches ⟨rfl, rfl⟩
    simp only [List.length_cons, Phrase.least] at shorter
    apply meets_bind (lower.expression (by omega))
    intro first divided chosen
    have chosenShorter := chosen.shorter
    apply meets_bind (meets_expect (by simp))
    rintro colon other ⟨rfl, isColon⟩
    simp only [List.length_cons, Phrase.least] at chosenShorter
    apply meets_bind (lower.expression (by omega))
    intro second rest otherwise
    apply Meets.weaken meets_check
    rintro expr _ ⟨rfl, built⟩
    exact .conditional within operand asked chosen isColon otherwise built
  · rename_i assigned
    apply meets_bind (meets_shown shows (by simp [assigned]))
    rintro _ source ⟨rfl, rfl⟩
    simp only [List.length_cons, Phrase.least] at shorter
    apply meets_bind (lower.expression (by omega))
    intro value rest given
    apply Meets.weaken meets_check
    rintro expr _ ⟨rfl, built⟩
    exact .assignment within operand assigned given built
  · rename_i notAsked notAssigned
    exact meets_pure (.plain within operand (shows.next ⟨notAsked, notAssigned⟩))

theorem binary_meets (least : Nat) (enough : 8 * input.length + 5 ≤ budget + 1) :
    Meets (Grammar.binary (budget + 1) least) analyzer depth input fun expr rest =>
      Reading analyzer depth (.binary least expr) input rest := by
  rw [Grammar.binary]
  apply meets_keeping_depth
  apply meets_bind (lower.cast (by omega))
  intro left further operand
  have shorter := operand.shorter
  simp only [Phrase.least] at shorter
  apply MeetsDeeper.weaken (lower.operations least left (by omega))
  intro expr rest chain
  exact .binary operand chain

theorem operations_meet (least : Nat) (left : Expr) (enough : 8 * input.length + 1 ≤ budget + 1) :
    MeetsDeeper (Grammar.operations (budget + 1) least left) analyzer depth input
      fun expr rest => Reading analyzer depth (.operations least left expr) input rest := by
  rw [Grammar.operations]
  apply meets_bind meets_peek
  rintro token _ ⟨rfl, last, shows⟩
  split
  · rename_i none
    exact Meets.deeper (meets_pure (.joined (shows.next none)))
  · rename_i operation meant
    obtain ⟨operator, named⟩ : ∃ operator, token.kind = .operator operator := by
      unfold Grammar.binaryOperation? at meant
      split at meant
      · exact ⟨_, ‹_›⟩
      · cases meant
    apply leads_deepen
    intro within
    apply meets_bind (meets_shown shows (by simp [named]))
    rintro _ operands ⟨rfl, rfl⟩
    rw [List.length_cons] at enough
    have met : token.operator = .ok operator := by simp only [Token.operator, named]
    apply meets_bind (meets_demand met)
    rintro _ _ ⟨rfl, rfl⟩
    apply meets_bind (lower.binary (operator.precedence + 1) (by omega))
    intro right further operand
    have shorter := operand.shorter
    simp only [Phrase.least] at shorter
    apply meets_bind meets_check
    rintro whole _ ⟨rfl, built⟩
    apply MeetsDeeper.weaken (lower.operations least whole (by omega))
    intro expr rest chain
    exact .operation named meant within operand built chain

theorem cast_meets (enough : 8 * input.length + 4 ≤ budget + 1) :
    Meets (Grammar.cast (budget + 1)) analyzer depth input fun expr rest =>
      Reading analyzer depth (.cast expr) input rest := by
  rw [Grammar.cast]
  apply meets_keeping_depth
  apply meets_bind (lower.unary (by omega))
  intro source further operand
  have shorter := operand.shorter
  simp only [Phrase.least] at shorter
  apply MeetsDeeper.weaken (lower.casts source (by omega))
  intro expr rest chain
  exact .cast operand chain

theorem casts_meet (source : Expr) (enough : 8 * input.length + 1 ≤ budget + 1) :
    MeetsDeeper (Grammar.casts (budget + 1) source) analyzer depth input fun expr rest =>
      Reading analyzer depth (.casts source expr) input rest := by
  rw [Grammar.casts]
  apply meets_bind meets_peek
  rintro token _ ⟨rfl, last, shows⟩
  split
  · rename_i named
    apply leads_deepen
    intro within
    apply meets_bind (meets_shown shows (by simp [named]))
    rintro _ typed ⟨rfl, rfl⟩
    rw [List.length_cons] at enough
    apply meets_bind (type_meets budget (by omega))
    intro target further type
    have shorter := type.shorter
    apply meets_bind meets_check
    rintro whole _ ⟨rfl, built⟩
    apply MeetsDeeper.weaken (lower.casts whole (by omega))
    intro expr rest chain
    exact .castTo named within type built chain
  · rename_i notNamed
    exact Meets.deeper (meets_pure (.uncast (shows.next notNamed)))

theorem unary_meets (enough : 8 * input.length + 3 ≤ budget + 1) :
    Meets (Grammar.unary (budget + 1)) analyzer depth input fun expr rest =>
      Reading analyzer depth (.unary expr) input rest := by
  rw [Grammar.unary]
  apply meets_bind meets_peek
  rintro token _ ⟨rfl, last, shows⟩
  split
  · rename_i operation meant
    have proper : token.kind ≠ .endOfInput := by
      intro ended
      simp [Grammar.unaryOperation?, ended] at meant
    apply meets_bind (meets_shown shows proper)
    rintro _ operands ⟨rfl, rfl⟩
    rw [List.length_cons] at enough
    have operand : Meets (nested (Grammar.unary budget)) analyzer depth operands
        fun operand rest => depth < nestingLimit ∧
          Reading analyzer (depth + 1) (.unary operand) operands rest := by
      apply meets_nested
      intro within
      apply Meets.weaken (lower.unary (by omega))
      intro operand rest inner
      exact ⟨within, inner⟩
    apply meets_bind operand
    rintro operand rest ⟨within, inner⟩
    apply Meets.weaken meets_check
    rintro expr _ ⟨rfl, built⟩
    exact .unary meant within inner built
  · rename_i none
    apply meets_bind (lower.primary (by omega))
    intro head further operand
    have shorter := operand.shorter
    simp only [Phrase.least] at shorter
    apply Meets.weaken (lower.applications head (by omega))
    intro expr rest chain
    exact .applied (shows.next none) operand chain

theorem applications_meet (head : Expr) (enough : 8 * input.length + 1 ≤ budget + 1) :
    Meets (Grammar.applications (budget + 1) head) analyzer depth input fun expr rest =>
      Reading analyzer depth (.applications head expr) input rest := by
  rw [Grammar.applications]
  apply meets_bind meets_peek
  rintro token _ ⟨rfl, last, shows⟩
  split
  · rename_i opened
    apply meets_bind (meets_shown shows (by simp [opened]))
    rintro _ inner ⟨rfl, rfl⟩
    rw [List.length_cons] at enough
    apply meets_bind (lower.arguments _ _ (by omega))
    intro given further inner
    have shorter := inner.shorter
    apply meets_bind meets_check
    rintro whole _ ⟨rfl, built⟩
    apply Meets.weaken (lower.applications whole (by omega))
    intro expr rest chain
    exact .call opened inner built chain
  · rename_i opened
    apply meets_bind (meets_shown shows (by simp [opened]))
    rintro _ inner ⟨rfl, rfl⟩
    rw [List.length_cons] at enough
    apply meets_bind (lower.arguments _ _ (by omega))
    intro given further inner
    have shorter := inner.shorter
    apply meets_bind meets_check
    rintro whole _ ⟨rfl, built⟩
    apply Meets.weaken (lower.applications whole (by omega))
    intro expr rest chain
    exact .index opened inner built chain
  · rename_i notCalled notIndexed
    exact meets_pure (.unapplied (shows.next ⟨notCalled, notIndexed⟩))

theorem arguments_meet (close : Punctuation) (what : String)
    (enough : 8 * input.length + 8 ≤ budget + 1) :
    Meets (Grammar.arguments (budget + 1) close what) analyzer depth input fun given rest =>
      Reading analyzer depth (.arguments close given) input rest := by
  rw [Grammar.arguments]
  apply meets_bind (meets_sees (by simp))
  rintro seen _ ⟨rfl, closes⟩
  cases seen with
  | true =>
      show Meets (expect (.punctuation close) what >>= fun _ => pure []) analyzer depth input _
      apply meets_bind (meets_expect (by simp))
      rintro closing rest ⟨rfl, closed⟩
      exact meets_pure (.noArguments closed)
  | false =>
      apply meets_bind (lower.expressions (by omega))
      intro given further inner
      apply meets_bind (meets_expect (by simp))
      rintro closing rest ⟨rfl, closed⟩
      exact meets_pure (.arguments (by simpa using closes) inner closed)

theorem expressions_meet (enough : 8 * input.length + 7 ≤ budget + 1) :
    Meets (Grammar.expressions (budget + 1)) analyzer depth input fun given rest =>
      Reading analyzer depth (.expressions given) input rest := by
  rw [Grammar.expressions]
  apply meets_bind (lower.expression (by omega))
  intro first further head
  have shorter := head.shorter
  apply meets_bind (meets_takes (by simp))
  rintro taken others (⟨rfl, comma, rfl, divided⟩ | ⟨rfl, rfl, stop⟩)
  · simp only [List.length_cons, Phrase.least] at shorter
    apply meets_bind (lower.expressions (by omega))
    intro given rest tail
    exact meets_pure (.moreExpressions head divided tail)
  · exact meets_pure (.oneExpression head stop)

theorem primary_meets (enough : 8 * input.length + 2 ≤ budget + 1) :
    Meets (Grammar.primary (budget + 1)) analyzer depth input fun expr rest =>
      Reading analyzer depth (.primary expr) input rest := by
  rw [Grammar.primary]
  apply meets_bind meets_peek
  rintro token _ ⟨rfl, last, shows⟩
  split
  · rename_i opened
    apply meets_bind (meets_shown shows (by simp [opened]))
    rintro _ inner ⟨rfl, rfl⟩
    rw [List.length_cons] at enough
    apply meets_bind (lower.expression (by omega))
    intro expr further inner
    apply meets_bind (meets_expect (by simp))
    rintro closing rest ⟨rfl, closed⟩
    exact meets_pure (.grouped opened inner closed)
  · rename_i value named
    apply meets_bind (meets_shown shows (by simp [named]))
    rintro _ rest ⟨rfl, rfl⟩
    exact meets_pure (.bool named)
  · rename_i radix value named
    apply meets_bind (meets_shown shows (by simp [named]))
    rintro _ rest ⟨rfl, rfl⟩
    exact meets_pure (.int named)
  · rename_i value named
    apply meets_bind (meets_shown shows (by simp [named]))
    rintro _ rest ⟨rfl, rfl⟩
    exact meets_pure (.float named)
  · rename_i value named
    apply meets_bind (meets_shown shows (by simp [named]))
    rintro _ rest ⟨rfl, rfl⟩
    exact meets_pure (.char named)
  · rename_i name named
    apply meets_bind (meets_shown shows (by simp [named]))
    rintro _ rest ⟨rfl, rfl⟩
    apply Meets.weaken (meets_consult fun analyzer => analyzer.name name token.location)
    rintro expr _ ⟨rfl, found⟩
    exact .name named found
  · exact meets_unexpected

end Step

theorem expressions_run (budget : Nat) : ExpressionsMeet budget := by
  induction budget with
  | zero => constructor <;> intros <;> omega
  | succ budget lower =>
      exact {
        expression := expression_meets lower
        binary := binary_meets lower
        operations := operations_meet lower
        cast := cast_meets lower
        casts := casts_meet lower
        unary := unary_meets lower
        applications := applications_meet lower
        arguments := arguments_meet lower
        expressions := expressions_meet lower
        primary := primary_meets lower }

end McFront
