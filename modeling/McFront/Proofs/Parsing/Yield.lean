import McFront.Proofs.Parsing.Reading
import McFront.Proofs.Tree.Leaves
import McFront.Proofs.Typing.Rules

set_option autoImplicit false

namespace McFront

open McFront.Expr (Wraps)

inductive Yields (analyzer : Analyzer) : Token → Expr → Prop where
  | bool {token : Token} {value : Bool} (named : token.kind = .boolean value) :
      Yields analyzer token (.bool value .bool token.location)
  | int {token : Token} {radix : Radix} {value : Nat} (named : token.kind = .integer radix value) :
      Yields analyzer token (.int value .int token.location)
  | float {token : Token} {value : Binary64} (named : token.kind = .float value) :
      Yields analyzer token (.float value .float token.location)
  | char {token : Token} {value : Char} (named : token.kind = .character value) :
      Yields analyzer token (.char value .char token.location)
  | name {token : Token} {name : String} {e : Expr} (named : token.kind = .identifier name)
      (found : analyzer.name name token.location = .ok e) : Yields analyzer token e

def Token.Silent (token : Token) : Prop :=
  match token.kind with
  | .punctuation _ | .operator _ | .keyword _ | .scalar _ => True
  | _ => False

theorem silent_of_punctuation {token : Token} {mark : Punctuation}
    (named : token.kind = .punctuation mark) : token.Silent := by
  simp only [Token.Silent, named]

theorem silent_of_operator {token : Token} {operator : Operator}
    (named : token.kind = .operator operator) : token.Silent := by
  simp only [Token.Silent, named]

theorem silent_of_keyword {token : Token} {word : Keyword} (named : token.kind = .keyword word) :
    token.Silent := by
  simp only [Token.Silent, named]

theorem silent_of_scalar {token : Token} {scalar : Scalar} (named : token.kind = .scalar scalar) :
    token.Silent := by
  simp only [Token.Silent, named]

inductive YieldsAll (analyzer : Analyzer) (rest : List Token) : List Token → List Expr → Prop where
  | done : YieldsAll analyzer rest rest []
  | leaf {token : Token} {e : Expr} {input : List Token} {leaves : List Expr}
      (yields : Yields analyzer token e) (others : YieldsAll analyzer rest input leaves) :
      YieldsAll analyzer rest (token :: input) (e :: leaves)
  | silent {token : Token} {input : List Token} {leaves : List Expr} (silent : token.Silent)
      (others : YieldsAll analyzer rest input leaves) :
      YieldsAll analyzer rest (token :: input) leaves

variable {analyzer : Analyzer} {input mid rest : List Token} {token : Token}
  {leaves others : List Expr}

theorem YieldsAll.append (first : YieldsAll analyzer mid input leaves)
    (second : YieldsAll analyzer rest mid others) :
    YieldsAll analyzer rest input (leaves ++ others) := by
  induction first with
  | done => exact second
  | leaf yields _ ih => exact .leaf yields ih
  | silent silent _ ih => exact .silent silent ih

theorem YieldsAll.behind (first : YieldsAll analyzer (token :: rest) input leaves)
    (silent : token.Silent) : YieldsAll analyzer rest input leaves := by
  have appended := first.append (.silent silent .done)
  rwa [List.append_nil] at appended

theorem Expr.Wraps.leaf_nodes {e operand : Expr} (wraps : Wraps e operand) :
    operand.leafNodes = e.leafNodes := by
  induction wraps with
  | same => rfl
  | converted within fits ih => exact ih

theorem leaf_nodes_of_wraps {given passed : List Expr} (wraps : List.Forall₂ Wraps given passed) :
    (Expr.nodesOf passed).filter Expr.isLeaf = given.flatMap Expr.leafNodes := by
  induction wraps with
  | nil => rfl
  | cons first others ih =>
      rw [Expr.nodesOf, List.filter_append, ih, List.flatMap_cons, ← first.leaf_nodes]
      rfl

namespace Rule

variable {e operand left right target value condition first second source callee base : Expr}
  {given : List Expr} {place : Location}

theorem unary_leaves {operation : UnaryOp} (built : Rule.unary operation operand place = .ok e) :
    e.leafNodes = operand.leafNodes := by
  obtain ⟨inner, type, rfl, wraps, _⟩ := unary_ok built
  rw [← wraps.leaf_nodes]
  rfl

theorem binary_leaves {operation : BinaryOp}
    (built : Rule.binary operation left right place = .ok e) :
    e.leafNodes = left.leafNodes ++ right.leafNodes := by
  obtain ⟨one, other, type, rfl, wraps, wrapsToo, _⟩ := binary_ok built
  rw [← wraps.leaf_nodes, ← wrapsToo.leaf_nodes]
  exact List.filter_append ..

theorem assign_leaves (built : Rule.assign target value place = .ok e) :
    e.leafNodes = target.leafNodes ++ value.leafNodes := by
  obtain ⟨inner, rfl, wraps, _⟩ := assign_ok built
  rw [← wraps.leaf_nodes]
  exact List.filter_append ..

theorem conditional_leaves (built : Rule.conditional condition first second place = .ok e) :
    e.leafNodes = condition.leafNodes ++ first.leafNodes ++ second.leafNodes := by
  obtain ⟨tested, one, other, type, rfl, wraps, wrapsOne, wrapsOther, _⟩ := conditional_ok built
  rw [← wraps.leaf_nodes, ← wrapsOne.leaf_nodes, ← wrapsOther.leaf_nodes]
  unfold Expr.leafNodes
  rw [← List.filter_append, ← List.filter_append]
  rfl

theorem cast_leaves {type : Ty} (built : Rule.cast source type place = .ok e) :
    e.leafNodes = source.leafNodes := by
  obtain ⟨inner, rfl, wraps, _⟩ := cast_ok built
  rw [← wraps.leaf_nodes]
  rfl

theorem call_leaves (built : Rule.call callee given place = .ok e) :
    e.leafNodes = callee.leafNodes ++ given.flatMap Expr.leafNodes := by
  obtain ⟨function, passed, type, rfl, wraps, wrapsAll, _⟩ := call_ok built
  rw [← wraps.leaf_nodes, ← leaf_nodes_of_wraps wrapsAll]
  exact List.filter_append ..

theorem index_leaves (built : Rule.index base given place = .ok e) :
    e.leafNodes = base.leafNodes ++ given.flatMap Expr.leafNodes := by
  obtain ⟨offset, pointer, distance, type, rfl, rfl, wraps, wrapsToo, _⟩ := index_ok built
  rw [← wraps.leaf_nodes, List.flatMap_singleton, ← wrapsToo.leaf_nodes]
  exact List.filter_append ..

end Rule

theorem TypeReading.yields {depth : Nat} {type : Ty} (reading : TypeReading depth input type rest)
    (analyzer : Analyzer) : YieldsAll analyzer rest input [] := by
  induction reading with
  | scalar within named => exact .silent (silent_of_scalar named) .done
  | pointer within isStar pointee ih => exact .silent (silent_of_operator isStar) ih
  | grouped within opened inner closed ih =>
      exact .silent (silent_of_punctuation opened) (ih.behind (silent_of_punctuation closed))

namespace Phrase

def before : Phrase → List Expr
  | .operations _ left _ => left.leafNodes
  | .casts source _ => source.leafNodes
  | .applications head _ => head.leafNodes
  | _ => []

def leafNodes : Phrase → List Expr
  | .expression e | .binary _ e | .operations _ _ e | .cast e | .casts _ e | .unary e
  | .applications _ e | .primary e => e.leafNodes
  | .arguments _ given | .expressions given => given.flatMap Expr.leafNodes

end Phrase

theorem Yields.leaf_nodes {e : Expr} (yields : Yields analyzer token e) : e.leafNodes = [e] := by
  cases yields with
  | name named found =>
      unfold Analyzer.name at found
      split at found <;> cases found
      rfl
  | _ => rfl

-- From these tokens on to the rest, leaves are read that complete the first ones to the others.
def Completes (analyzer : Analyzer) (rest input : List Token) (first whole : List Expr) : Prop :=
  ∃ leaves, whole = first ++ leaves ∧ YieldsAll analyzer rest input leaves

namespace Completes

variable {head part whole further : List Expr}

theorem done : Completes analyzer rest rest head head := ⟨[], (List.append_nil _).symm, .done⟩

theorem of_none (yields : YieldsAll analyzer rest input []) : Completes analyzer rest input [] [] :=
  ⟨[], rfl, yields⟩

theorem of_leaf {e : Expr} (yields : Yields analyzer token e) :
    Completes analyzer rest (token :: rest) [] e.leafNodes :=
  ⟨[e], yields.leaf_nodes, .leaf yields .done⟩

theorem silent (silent : token.Silent) (others : Completes analyzer rest input head whole) :
    Completes analyzer rest (token :: input) head whole := by
  obtain ⟨leaves, isWhole, yields⟩ := others
  exact ⟨leaves, isWhole, .silent silent yields⟩

theorem behind (first : Completes analyzer (token :: rest) input head whole)
    (silent : token.Silent) : Completes analyzer rest input head whole := by
  obtain ⟨leaves, isWhole, yields⟩ := first
  exact ⟨leaves, isWhole, yields.behind silent⟩

theorem trans (first : Completes analyzer mid input head whole)
    (second : Completes analyzer rest mid whole further) :
    Completes analyzer rest input head further := by
  obtain ⟨leaves, rfl, yields⟩ := first
  obtain ⟨others, rfl, yieldsToo⟩ := second
  exact ⟨leaves ++ others, List.append_assoc .., yields.append yieldsToo⟩

theorem after (first : Completes analyzer rest input [] part) (head : List Expr) :
    Completes analyzer rest input head (head ++ part) := by
  obtain ⟨leaves, isPart, yields⟩ := first
  exact ⟨leaves, congrArg (head ++ ·) isPart, yields⟩

theorem chain (first : Completes analyzer mid input [] part) (built : whole = head ++ part)
    (second : Completes analyzer rest mid whole further) :
    Completes analyzer rest input head further := by
  subst built
  exact (first.after head).trans second

theorem join (first : Completes analyzer mid input [] head)
    (second : Completes analyzer rest mid [] part) :
    Completes analyzer rest input [] (head ++ part) :=
  first.trans (second.after head)

end Completes

theorem Reading.yields {depth : Nat} {phrase : Phrase}
    (reading : Reading analyzer depth phrase input rest) :
    Completes analyzer rest input phrase.before phrase.leafNodes := by
  induction reading with
  | plain within operand stop ih => exact ih
  | conditional within tested asked chosen divided otherwise built condition first second =>
      rw [Phrase.leafNodes, Rule.conditional_leaves built]
      have toChoice := (condition.behind (silent_of_operator asked)).join first
      exact (toChoice.behind (silent_of_punctuation divided)).join second
  | assignment within place assigned given built target value =>
      rw [Phrase.leafNodes, Rule.assign_leaves built]
      exact (target.behind (silent_of_operator assigned)).join value
  | binary operand chain left whole => exact left.trans whole
  | joined stop => exact .done
  | operation named meant within operand built chain right whole =>
      exact .silent (silent_of_operator named) (right.chain (Rule.binary_leaves built) whole)
  | cast operand chain source whole => exact source.trans whole
  | uncast stop => exact .done
  | castTo named within type built chain whole =>
      have bare := Completes.of_none (type.yields analyzer)
      have made := (Rule.cast_leaves built).trans (List.append_nil _).symm
      exact .silent (silent_of_keyword named) (bare.chain made whole)
  | @unary depth token operation operand expr input rest meant within inner built ih =>
      have silent : token.Silent := by
        unfold Grammar.unaryOperation? at meant
        split at meant
        · rename_i named
          exact silent_of_operator named
        · cases meant
      rw [Phrase.leafNodes, Rule.unary_leaves built]
      exact .silent silent ih
  | applied stop operand chain head whole => exact head.trans whole
  | unapplied stop => exact .done
  | call opened inner built chain given whole =>
      exact .silent (silent_of_punctuation opened) (given.chain (Rule.call_leaves built) whole)
  | index opened inner built chain given whole =>
      exact .silent (silent_of_punctuation opened) (given.chain (Rule.index_leaves built) whole)
  | noArguments closed => exact .silent (silent_of_punctuation closed) .done
  | arguments filled inner closed ih => exact ih.behind (silent_of_punctuation closed)
  | oneExpression only stop ih =>
      rw [Phrase.leafNodes, List.flatMap_singleton]
      exact ih
  | moreExpressions head divided tail first others =>
      rw [Phrase.leafNodes, List.flatMap_cons]
      exact (first.behind (silent_of_punctuation divided)).join others
  | bool named => exact .of_leaf (.bool named)
  | int named => exact .of_leaf (.int named)
  | float named => exact .of_leaf (.float named)
  | char named => exact .of_leaf (.char named)
  | name named found => exact .of_leaf (.name named found)
  | grouped opened inner closed ih =>
      exact .silent (silent_of_punctuation opened) (ih.behind (silent_of_punctuation closed))

theorem Reading.expression_yields {depth : Nat} {e : Expr}
    (reading : Reading analyzer depth (.expression e) input rest) :
    YieldsAll analyzer rest input e.leafNodes := by
  obtain ⟨leaves, isExpr, yields⟩ := reading.yields
  have same : e.leafNodes = leaves := isExpr
  rwa [same]

end McFront
