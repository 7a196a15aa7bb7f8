import McFront.Proofs.Scoping.Resolution
import McFront.Proofs.Typing.Heights

/-
The limit of nesting bounds the trees. A phrase that starts one level deeper may build less high by
what the chains of one level can add: an operation, a cast and an application put at most three
nodes each on what they extend. Operations and casts are counted by the depth, applications come
down in the type of what they are applied to, and types are as high as the limit allows.
-/
set_option autoImplicit false

namespace McFront

open McFront.Parser (nestingLimit)

def heightBound (limit : Nat) : Nat := (9 * limit + 6) * limit + limit + 7

variable {before mid after analyzer : Analyzer} {depth : Nat} {input rest : List Token}
  {declaration program : Declaration}

def heightBelow (depth : Nat) : Nat := (9 * nestingLimit + 6) * (nestingLimit - depth)

theorem height_below_succ (within : depth < nestingLimit) :
    heightBelow depth = heightBelow (depth + 1) + (9 * nestingLimit + 6) := by
  have deeper : nestingLimit - depth = nestingLimit - (depth + 1) + 1 := by omega
  rw [heightBelow, heightBelow, deeper, Nat.mul_succ]

theorem height_below_le (depth : Nat) : heightBelow depth ≤ heightBelow 0 :=
  Nat.mul_le_mul_left _ (Nat.sub_le_sub_left (Nat.zero_le depth) nestingLimit)

theorem height_below_deeper (within : depth < nestingLimit) :
    heightBelow (depth + 1) + (9 * nestingLimit + 6) ≤ heightBelow 0 := by
  rw [← height_below_succ within]
  exact height_below_le depth

theorem TypeReading.height {type : Ty} (reading : TypeReading depth input type rest) :
    type.height + depth ≤ nestingLimit := by
  induction reading with
  | @scalar depth _ scalar _ within named =>
      have one : (Ty.ofScalar scalar).height = 1 := by cases scalar <;> rfl
      omega
  | @pointer depth _ type _ _ within isStar pointee ih =>
      have above : (Ty.pointer type).height = type.height + 1 := rfl
      omega
  | grouped within opened inner closed ih => omega

theorem TypeReading.low {type : Ty} (reading : TypeReading depth input type rest) :
    type.height ≤ nestingLimit := (Nat.le_add_right ..).trans reading.height

def Phrase.Low : Phrase → Prop
  | .expression e | .binary _ e | .operations _ _ e | .cast e | .casts _ e | .unary e
  | .applications _ e | .primary e => e.Low nestingLimit
  | .arguments _ given | .expressions given => ∀ e ∈ given, e.Low nestingLimit

def Phrase.Keeps : Phrase → Prop
  | .operations _ source e | .casts source e | .applications source e =>
      ∀ node ∈ source.nodes, node ∈ e.nodes
  | _ => True

theorem Reading.keeps {phrase : Phrase} (reading : Reading analyzer depth phrase input rest) :
    phrase.Keeps := by
  induction reading with
  | joined | uncast | unapplied => exact fun _ => id
  | operation named meant within operand built chain right whole =>
      exact fun node inside =>
        whole node ((Rule.binary_over built).nodes _ (.head _) node inside)
  | castTo named within type built chain whole =>
      exact fun node inside => whole node ((Rule.cast_over built).nodes _ (.head _) node inside)
  | call opened inner built chain given whole =>
      exact fun node inside =>
        whole node ((Rule.call_over built).1.nodes _ (.head _) node inside)
  | index opened inner built chain given whole =>
      exact fun node inside =>
        whole node ((Rule.index_over built).1.nodes _ (.head _) node inside)
  | _ => trivial

-- How high a phrase builds that starts at a depth. Each operation and each cast of a chain takes a
-- level, so the levels that are left count them; an application takes none.
def Phrase.Within (depth : Nat) : Phrase → Prop
  | .expression e | .primary e => e.height ≤ heightBelow depth + 3
  | .binary _ e => e.height ≤ heightBelow depth + 9 * nestingLimit + 6
  | .operations _ left e => ∀ bound, left.height ≤ bound → heightBelow depth ≤ bound →
      e.height ≤ bound + 3 * (nestingLimit - depth)
  | .cast e => e.height ≤ heightBelow depth + 6 * nestingLimit + 6
  | .casts source e => e.height ≤ source.height + 3 * (nestingLimit - depth)
  | .unary e => e.height ≤ heightBelow depth + 3 * nestingLimit + 6
  | .applications head e => ∀ bound, head.height ≤ bound → heightBelow depth + 3 ≤ bound →
      e.height + 3 * e.type.object.height ≤ bound + 3 * head.type.object.height
  | .arguments _ given | .expressions given => ∀ e ∈ given, e.height ≤ heightBelow depth + 3

-- One more application is paid for by the type that it comes down in.
theorem applications_within {head whole e : Expr} {given : List Expr}
    (above : whole.Over (head :: given))
    (falls : whole.type.object.height < head.type.object.height)
    (areGiven : (Phrase.expressions given).Within depth)
    (chain : (Phrase.applications whole e).Within depth) :
    (Phrase.applications head e).Within depth := by
  intro bound isHead atLeast
  have applied : whole.height ≤ bound + 3 := by
    apply above.height
    rw [List.forall_mem_cons]
    exact ⟨isHead, fun argument among => (areGiven argument among).trans atLeast⟩
  have ended := chain (bound + 3) applied (by omega)
  omega

theorem Reading.height {phrase : Phrase} (reading : Reading analyzer depth phrase input rest)
    (low : phrase.Low) : phrase.Within depth := by
  induction reading with
  | @plain depth e _ _ within operand stop ih =>
      have below := height_below_succ within
      have inner : e.height ≤ _ := ih low
      show e.height ≤ _
      omega
  | @conditional depth _ _ condition first second e _ _ _ _ within tested asked chosen divided
      otherwise built isCondition isFirst isSecond =>
      have below := height_below_succ within
      have above := Rule.conditional_over built
      have parts := above.low low
      simp only [List.forall_mem_cons] at parts
      have one : condition.height ≤ _ := isCondition parts.1
      have two : first.height ≤ _ := isFirst parts.2.1
      have three : second.height ≤ _ := isSecond parts.2.2.1
      apply above.height
      simp only [List.forall_mem_cons]
      exact ⟨by omega, by omega, by omega, List.forall_mem_nil _⟩
  | @assignment depth _ target value e _ _ _ within place assigned given built isTarget isValue =>
      have below := height_below_succ within
      have above := Rule.assign_over built
      have parts := above.low low
      simp only [List.forall_mem_cons] at parts
      have one : target.height ≤ _ := isTarget parts.1
      have two : value.height ≤ _ := isValue parts.2.1
      apply above.height
      simp only [List.forall_mem_cons]
      exact ⟨by omega, by omega, List.forall_mem_nil _⟩
  | @binary depth least left e _ _ _ operand chain isLeft isWhole =>
      have first : left.height ≤ _ := isLeft (Expr.Low.part low chain.keeps)
      have whole := isWhole low _ first (by omega)
      show e.height ≤ _
      omega
  | joined stop => exact fun bound isLeft _ => by omega
  | @operation depth least _ operator _ left right whole e _ _ _ named meant within operand built
      chain isRight isWhole =>
      have below := height_below_succ within
      have above := Rule.binary_over built
      have parts := above.low (.part low chain.keeps)
      simp only [List.forall_mem_cons] at parts
      have other : right.height ≤ _ := isRight parts.2.1
      intro bound isLeft atLeast
      have joined : whole.height ≤ bound + 3 := by
        apply above.height
        simp only [List.forall_mem_cons]
        exact ⟨isLeft, by omega, List.forall_mem_nil _⟩
      have ended := isWhole low (bound + 3) joined (by omega)
      omega
  | @cast depth source e _ _ _ operand chain isSource isWhole =>
      have first : source.height ≤ _ := isSource (Expr.Low.part low chain.keeps)
      have whole : e.height ≤ _ := isWhole low
      show e.height ≤ _
      omega
  | uncast stop => exact Nat.le_add_right _ _
  | @castTo depth _ target source whole e _ _ _ named within type built chain isWhole =>
      have first : whole.height ≤ source.height + 3 :=
        (Rule.cast_over built).height _ (List.forall_mem_singleton.mpr (Nat.le_refl _))
      have ended : e.height ≤ _ := isWhole low
      show e.height ≤ _
      omega
  | @unary depth _ _ operand e _ _ meant within inner built ih =>
      have below := height_below_succ within
      have above := Rule.unary_over built
      have first : operand.height ≤ _ := ih (above.low low _ (.head _))
      have whole := above.height _ (List.forall_mem_singleton.mpr first)
      show e.height ≤ _
      omega
  | @applied depth head e _ _ _ stop operand chain isHead isWhole =>
      have isLow : head.Low nestingLimit := .part low chain.keeps
      have first : head.height ≤ _ := isHead isLow
      have whole := isWhole low _ first (Nat.le_refl _)
      have highest := isLow head head.mem_nodes_self
      have object := head.type.height_object
      show e.height ≤ _
      omega
  | unapplied stop => exact fun bound isHead _ => by omega
  | call opened inner built chain areGiven isWhole =>
      obtain ⟨above, falls⟩ := Rule.call_over built
      have parts := above.low (.part low chain.keeps)
      rw [List.forall_mem_cons] at parts
      exact applications_within above falls (areGiven parts.2) (isWhole low)
  | index opened inner built chain areGiven isWhole =>
      obtain ⟨above, falls⟩ := Rule.index_over built
      have parts := above.low (.part low chain.keeps)
      rw [List.forall_mem_cons] at parts
      exact applications_within above falls (areGiven parts.2) (isWhole low)
  | noArguments closed => exact List.forall_mem_nil _
  | arguments filled inner closed ih => exact ih low
  | oneExpression only stop ih =>
      rw [Phrase.Low, List.forall_mem_singleton] at low
      exact List.forall_mem_singleton.mpr (ih low)
  | moreExpressions head divided tail first others =>
      rw [Phrase.Low, List.forall_mem_cons] at low
      exact List.forall_mem_cons.mpr ⟨first low.1, others low.2⟩
  | bool | int | float | char => exact Nat.le_add_left 1 _
  | name named found =>
      unfold Analyzer.name at found
      split at found <;> cases found
      exact Nat.le_add_left 1 _
  | grouped opened inner closed ih => exact ih low

theorem ConditionReading.height {condition : Expr}
    (reading : ConditionReading analyzer depth condition input rest)
    (low : condition.Low nestingLimit) : condition.height ≤ heightBelow depth + 5 := by
  cases reading with
  | @condition _ _ e _ _ _ opened inner closed tested =>
      have carries := Expr.require_truth_carries tested
      have first : e.height ≤ _ := inner.height (low.part carries.nodes)
      have whole := carries.height
      omega

theorem ObjectReading.height (reading : ObjectReading before depth declaration input after rest)
    (low : ∀ node ∈ declaration.nodes, node.type.height ≤ nestingLimit + 1) :
    declaration.height ≤ heightBelow depth + 6 := by
  cases reading with
  | object introduced isKind isName divided isType value closed built =>
      obtain ⟨_, _, initialized, rfl, _⟩ := object_gains built
      cases initialized with
      | missing isVar => exact Nat.le_add_left 1 _
      | @given e _ required =>
          cases value with
          | given announced inner =>
              have carries := Expr.require_type_carries required
              have first : e.height ≤ _ := inner.height fun node inside =>
                low node (List.mem_append_left _ (carries.nodes node inside))
              have whole := carries.height
              rw [Declaration.height, Option.toList_some, Expr.heightOf, Expr.heightOf]
              omega

def Sentence.Within (depth : Nat) : Sentence → Prop
  | .statement stmt => stmt.height ≤ heightBelow 0 + (nestingLimit - depth)
  | .block stmt => stmt.height ≤ heightBelow 0 + (nestingLimit - depth) + 1
  | .statements stmts => ∀ stmt ∈ stmts, stmt.height ≤ heightBelow 0 + (nestingLimit - depth)

theorem SentenceReading.height {sentence : Sentence}
    (reading : SentenceReading before depth sentence input after rest)
    (low : ∀ node ∈ sentence.nodes, node.type.height ≤ nestingLimit + 1) :
    sentence.Within depth := by
  induction reading with
  | @block _ _ depth stmt _ _ within inner ih =>
      have inside : stmt.height ≤ _ := ih low
      show stmt.height ≤ _
      omega
  | @when _ _ depth _ condition body _ _ _ within named tested inner stop ih =>
      have below := height_below_deeper within
      obtain ⟨isCondition, isBody⟩ := List.forall_mem_append.mp low
      have first := tested.height isCondition
      have inside : body.height ≤ _ := ih isBody
      show max condition.height body.height + 1 ≤ _
      omega
  | @ifElse _ _ _ depth _ _ condition first second _ _ _ _ within named tested chosen divided
      otherwise isFirst isSecond =>
      have below := height_below_deeper within
      obtain ⟨lowFirst, lowSecond⟩ := List.forall_mem_append.mp low
      obtain ⟨lowCondition, lowFirst⟩ := List.forall_mem_append.mp lowFirst
      have one := tested.height lowCondition
      have two : first.height ≤ _ := isFirst lowFirst
      have three : second.height ≤ _ := isSecond lowSecond
      show max condition.height (max first.height second.height) + 1 ≤ _
      omega
  | @whileLoop _ _ depth _ condition body _ _ _ within named tested inner ih =>
      have below := height_below_deeper within
      obtain ⟨isCondition, isBody⟩ := List.forall_mem_append.mp low
      have first := tested.height isCondition
      have inside : body.height ≤ _ := ih isBody
      show max condition.height body.height + 1 ≤ _
      omega
  | @breakLoop _ depth _ _ _ _ within named closed built =>
      obtain ⟨rfl, _⟩ := in_loop_ok built
      show 1 ≤ _
      omega
  | @continueLoop _ depth _ _ _ _ within named closed built =>
      obtain ⟨rfl, _⟩ := in_loop_ok built
      show 1 ≤ _
      omega
  | @returnValue _ depth _ _ _ _ _ within named inner built =>
      have below := height_below_deeper within
      obtain ⟨value, source, result, _, rfl, required, inner, _⟩ := inner.returned built
      have carries := Expr.require_type_carries required
      have first : source.height ≤ _ :=
        inner.height fun node inside => low node (carries.nodes node inside)
      have whole := carries.height
      show value.height + 1 ≤ _
      omega
  | @declare _ _ depth declaration _ _ within inner =>
      have below := height_below_deeper within
      have inside := inner.height low
      show declaration.height + 1 ≤ _
      omega
  | @evaluate _ depth _ e _ _ within inner closed =>
      have below := height_below_deeper within
      have inside : e.height ≤ _ := inner.height low
      show e.height + 1 ≤ _
      omega
  | braces opened entered inner closed ih =>
      exact Nat.succ_le_succ (Stmt.height_of_le.mpr (ih low))
  | noStatements stop => exact List.forall_mem_nil _
  | moreStatements head tail first others =>
      obtain ⟨isFirst, areOthers⟩ := List.forall_mem_append.mp low
      exact List.forall_mem_cons.mpr ⟨first isFirst, others areOthers⟩

def Sentence.declared : Sentence → List Entity
  | .statement stmt | .block stmt => stmt.declared
  | .statements stmts => Stmt.declaredIn stmts

theorem ObjectReading.low (reading : ObjectReading before depth declaration input after rest) :
    ∀ entity ∈ declaration.declared, entity.Low nestingLimit := by
  cases reading with
  | object introduced isKind isName divided isType value closed built =>
      obtain ⟨_, given, _, rfl, _⟩ := object_gains built
      exact List.forall_mem_singleton.mpr (.inl isType.low)

theorem SentenceReading.low {sentence : Sentence}
    (reading : SentenceReading before depth sentence input after rest) :
    ∀ entity ∈ sentence.declared, entity.Low nestingLimit := by
  induction reading with
  | block within inner ih => exact ih
  | when within named tested inner stop ih | whileLoop within named tested inner ih => exact ih
  | ifElse within named tested chosen divided otherwise first second =>
      exact List.forall_mem_append.mpr ⟨first, second⟩
  | breakLoop within named closed built | continueLoop within named closed built =>
      obtain ⟨rfl, _⟩ := in_loop_ok built
      exact List.forall_mem_nil _
  | returnValue within named inner built =>
      obtain ⟨_, _, rfl, _⟩ := return_value_ok built
      exact List.forall_mem_nil _
  | declare within inner => exact inner.low
  | evaluate within inner closed => exact List.forall_mem_nil _
  | braces opened entered inner closed ih => exact ih
  | noStatements stop => exact List.forall_mem_nil _
  | moreStatements head tail first others => exact List.forall_mem_append.mpr ⟨first, others⟩

theorem ParametersReading.height {parameters : List Declaration}
    (reading : ParametersReading depth before parameters input after rest) :
    ∀ entity ∈ Declaration.declaredIn parameters, entity.type.height ≤ nestingLimit := by
  induction reading with
  | one isName divided isType built stop =>
      obtain ⟨rfl, _⟩ := parameter_gains built
      exact List.forall_mem_singleton.mpr isType.low
  | more isName divided isType built continued tail ih =>
      obtain ⟨rfl, _⟩ := parameter_gains built
      exact List.forall_mem_cons.mpr ⟨isType.low, ih⟩

theorem ParameterListReading.height {parameters : List Declaration}
    (reading : ParameterListReading depth before parameters input after rest) :
    ∀ entity ∈ Declaration.declaredIn parameters, entity.type.height ≤ nestingLimit := by
  cases reading with
  | empty opened closed => exact List.forall_mem_nil _
  | filled opened present inner closed => exact inner.height

theorem HeaderReading.low (reading : HeaderReading depth before declaration input after rest) :
    ∀ entity ∈ declaration.declared, entity.Low nestingLimit := by
  cases reading.prototyped with
  | @function _ _ parameters result entities _ _ _ _ _ _ taken isType listed gains =>
      have given := taken.height
      have returned := isType.low
      have highest : Ty.heightOf (entities.map Entity.type) ≤ nestingLimit := by
        rw [Ty.height_of_le, List.forall_mem_map]
        intro entity member
        rw [← listed_entities listed] at member
        exact given entity (Declaration.own_declared_in parameters entity member)
      rw [Declaration.declared, List.forall_mem_cons]
      refine ⟨.inr ⟨rfl, ?_⟩, fun entity member => .inl (given entity member)⟩
      show max (Ty.heightOf (entities.map Entity.type)) result.height + 1 ≤ _
      omega

theorem DeclarationReading.low
    (reading : DeclarationReading depth before declaration input after rest) :
    ∀ entity ∈ declaration.declared, entity.Low nestingLimit := by
  cases reading with
  | object inner => exact inner.low
  | prototype header closed => exact header.low
  | function header begins inner defined =>
      have prototype := header.low
      obtain ⟨_, parameters, _, rfl, _⟩ := header.gains
      cases defined
      rw [Declaration.declared, List.forall_mem_cons] at prototype
      rw [Declaration.declared, List.forall_mem_cons, List.forall_mem_append]
      exact ⟨prototype.1, prototype.2, inner.low⟩

theorem DeclarationsReading.low {declarations : List Declaration}
    (reading : DeclarationsReading depth before declarations input after) :
    ∀ entity ∈ Declaration.declaredIn declarations, entity.Low nestingLimit := by
  induction reading with
  | done => exact List.forall_mem_nil _
  | more head tail ih => exact List.forall_mem_append.mpr ⟨head.low, ih⟩

theorem height_of_parameters {parameters : List Declaration}
    (made : ∀ parameter ∈ parameters, parameter.IsParameter) :
    Declaration.heightOf parameters ≤ 1 := by
  induction parameters with
  | nil => exact Nat.zero_le 1
  | cons first parameters ih =>
      rw [List.forall_mem_cons] at made
      obtain ⟨⟨entity, rfl, _⟩, others⟩ := made
      exact max_le (Nat.le_refl 1) (ih others)

theorem DeclarationReading.height
    (reading : DeclarationReading depth before declaration input after rest)
    (low : ∀ node ∈ declaration.nodes, node.type.height ≤ nestingLimit + 1) :
    declaration.height ≤ heightBelow 0 + nestingLimit + 6 := by
  cases reading with
  | object inner =>
      have whole := inner.height low
      have below := height_below_le depth
      omega
  | prototype header closed =>
      obtain ⟨_, parameters, rfl, _, made, _⟩ := header.made
      have given := height_of_parameters made
      show Declaration.heightOf parameters + 1 ≤ _
      omega
  | @function _ _ _ _ _ body _ _ _ header begins inner defined =>
      obtain ⟨_, parameters, rfl, _, made, _⟩ := header.made
      have given := height_of_parameters made
      cases defined
      have inside : body.height ≤ _ := inner.height (List.forall_mem_append.mp low).2
      show max (Declaration.heightOf parameters) body.height + 1 ≤ _
      omega

theorem DeclarationsReading.height {declarations : List Declaration}
    (reading : DeclarationsReading depth before declarations input after)
    (low : ∀ node ∈ Declaration.nodesOf declarations, node.type.height ≤ nestingLimit + 1) :
    Declaration.heightOf declarations ≤ heightBelow 0 + nestingLimit + 6 := by
  induction reading with
  | done => exact Nat.zero_le _
  | more head tail ih =>
      obtain ⟨isFirst, areOthers⟩ := List.forall_mem_append.mp low
      exact max_le (head.height isFirst) (ih areOthers)

namespace ProgramReading

theorem declared_low (reading : ProgramReading program input) :
    ∀ entity ∈ program.declared, entity.Low nestingLimit := by
  cases reading with
  | program entered inner => exact inner.low

theorem fits (reading : ProgramReading program input) : ∀ node ∈ program.nodes, node.Fits := by
  cases reading with
  | program entered inner =>
      cases entered
      exact inner.fits (Analyzer.Sound.initial.entered .outermost)

theorem names_declared (reading : ProgramReading program input) :
    ∀ node ∈ program.nodes, ∀ entity ∈ node.entity?, entity ∈ program.declared := by
  intro node member entity named
  obtain ⟨name, isLink⟩ := Expr.link_of_entity named
  have used : (name, entity) ∈ program.nodes.filterMap Expr.link? :=
    List.mem_filterMap.mpr ⟨node, member, isLink⟩
  rw [← program.links_used [], List.mem_map] at used
  obtain ⟨use, isUse, same⟩ := used
  cases same
  have visible := Visible.mem_of_find (reading.lawful.found use isUse)
  exact (program.owned [] use isUse _ visible).resolve_left List.not_mem_nil

theorem nodes_low (reading : ProgramReading program input) :
    ∀ node ∈ program.nodes, node.type.height ≤ nestingLimit + 1 := by
  have fits := reading.fits
  have names : ∀ node ∈ program.nodes, ∀ entity ∈ node.entity?, entity.Low nestingLimit :=
    fun node member entity named =>
      reading.declared_low entity (reading.names_declared node member entity named)
  obtain ⟨es, isNodes, _⟩ := program.rooted
  rw [isNodes, Expr.forall_nodes_of] at fits names ⊢
  exact fun e member => e.low_of_fits (fits e member) (names e member)

theorem height (reading : ProgramReading program input) :
    program.height ≤ heightBound nestingLimit := by
  have low := reading.nodes_low
  cases reading with
  | program entered inner => exact Nat.succ_le_succ (inner.height low)

theorem types_low (reading : ProgramReading program input) :
    ∀ type ∈ program.types, type.height ≤ nestingLimit + 1 := by
  intro type member
  rcases List.mem_append.mp member with isEntity | isNode
  · obtain ⟨entity, among, rfl⟩ := List.mem_map.mp isEntity
    have isDeclared : entity ∈ program.declared := by
      rcases List.mem_append.mp among with isDeclared | isName
      · exact isDeclared
      · obtain ⟨node, isNode, named⟩ := List.mem_filterMap.mp isName
        exact reading.names_declared node isNode entity named
    exact (reading.declared_low entity isDeclared).height
  · obtain ⟨node, among, rfl⟩ := List.mem_map.mp isNode
    exact reading.nodes_low node among

end ProgramReading

theorem program_height_bounded (text : String) (interner : Interner) (program : Declaration)
    (accepted : (compile text interner).1 = .ok program) :
    (∀ type ∈ program.types, type.height ≤ heightBound nestingLimit) ∧
      (∀ node ∈ program.nodes, node.height ≤ heightBound nestingLimit) ∧
      ∀ stmt ∈ program.statements, stmt.height ≤ heightBound nestingLimit := by
  obtain ⟨_, _, reading⟩ := compile_reads accepted
  have whole := reading.height
  refine ⟨?_, ?_, ?_⟩
  · intro type member
    exact (reading.types_low type member).trans (by unfold heightBound; omega)
  · exact (program.rooted.weaken whole).height
  · exact fun stmt member => (program.height_statement stmt member).trans whole

theorem indexed_height_bounded :
    ∃ program,
      (compile "def f(p: **int) -> int \x7b return p[0][1] as float as int; \x7d" .empty).1 =
        .ok program ∧ program.height = 14 ∧
      (∀ type ∈ program.types, type.height ≤ heightBound nestingLimit) ∧
        (∀ node ∈ program.nodes, node.height ≤ heightBound nestingLimit) ∧
        ∀ stmt ∈ program.statements, stmt.height ≤ heightBound nestingLimit := by
  obtain ⟨program, accepted, high⟩ := exists_of_measured (show
    (compile "def f(p: **int) -> int \x7b return p[0][1] as float as int; \x7d"
      .empty).1.toOption.map Declaration.height = some 14 by decide +kernel)
  exact ⟨program, accepted, high, program_height_bounded _ .empty program accepted⟩

end McFront
