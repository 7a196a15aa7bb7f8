import McFront.Proofs.Analysis.Gains
import McFront.Proofs.Parsing.Sentence
import McFront.Proofs.Scoping.Law

set_option autoImplicit false

namespace McFront

variable {before inside mid after analyzer : Analyzer} {entity : Entity} {entities : List Entity}
  {declaration : Declaration} {depth : Nat} {input rest : List Token}

theorem GainsAll.with_context (gains : GainsAll entities before after)
    (function : Option Declaration) (loops : Nat) :
    GainsAll entities { before with function, loops } { after with function, loops } := by
  induction gains with
  | nil => exact .nil
  | cons first rest ih =>
      refine .cons ?_ ih
      cases first with
      | gain fresh => exact .gain fresh

theorem leave_entered {kind : ScopeKind} (gains : GainsAll entities (before.entered kind) after) :
    after.leaveScope = before := by
  obtain ⟨⟨scopes⟩, function, loops⟩ := before
  exact gains.same_frame.leave

theorem GainsAll.leave_loop (gains : GainsAll entities before.enterLoop after) :
    GainsAll entities before after.leaveLoop := by
  have same := gains.same_frame
  have left : after.leaveLoop =
      { after with function := before.function, loops := before.loops } := by
    have isFunction : after.function = before.function := same.function
    have isLoops : after.loops = before.loops + 1 := same.loops
    simp only [Analyzer.leaveLoop, isFunction, isLoops, Nat.add_sub_cancel]
  rw [left]
  exact gains.with_context before.function before.loops

theorem ObjectReading.gains (reading : ObjectReading before depth declaration input after rest) :
    ∃ entity value, declaration = .object entity value ∧ Gains entity before after := by
  cases reading with
  | object _ _ _ _ _ _ _ built =>
      obtain ⟨_, value, _, isObject, gains⟩ := object_gains built
      exact ⟨_, value, isObject, gains⟩

theorem ReturnReading.returned {place : Location} {value : Option Expr} {stmt : Stmt}
    (reading : ReturnReading analyzer depth value input rest)
    (built : analyzer.returnValue value place = .ok stmt) :
    ∃ given source result semicolon, stmt = .returnValue given ∧
      source.requireType result = .ok given ∧
      Reading analyzer depth (.expression source) input (semicolon :: rest) ∧
      semicolon.kind = .punctuation .semicolon := by
  obtain ⟨given, result, isReturn, _, source, isValue, required⟩ := return_value_ok built
  cases reading with
  | missing closed => cases isValue
  | given filled inner closed =>
      cases isValue
      exact ⟨given, source, result, _, isReturn, required, inner, closed⟩

def Sentence.Frames (before after : Analyzer) : Sentence → Prop
  | .statement stmt => GainsAll stmt.own before after
  | .block _ => after = before
  | .statements stmts => GainsAll (Stmt.ownOf stmts) before after

theorem SentenceReading.frames {sentence : Sentence}
    (reading : SentenceReading before depth sentence input after rest) :
    sentence.Frames before after := by
  induction reading with
  | @block before after depth stmt input rest within inner ih =>
      cases inner with
      | braces opened entered inner closed =>
          obtain rfl := ih
          exact .nil
  | when within named tested inner stop ih => exact ih
  | ifElse within named tested chosen divided otherwise first second => exact first.append second
  | whileLoop within named tested inner ih => exact GainsAll.leave_loop ih
  | breakLoop within named closed built =>
      obtain ⟨rfl, _⟩ := in_loop_ok built
      exact .nil
  | continueLoop within named closed built =>
      obtain ⟨rfl, _⟩ := in_loop_ok built
      exact .nil
  | returnValue within named inner built =>
      obtain ⟨value, result, rfl, _⟩ := return_value_ok built
      exact .nil
  | declare within inner =>
      obtain ⟨entity, value, rfl, gains⟩ := inner.gains
      exact .one gains
  | evaluate within inner closed => exact .nil
  | braces opened entered inner closed ih =>
      rw [enter_block] at entered
      obtain ⟨shared, _, filled⟩ := declare_all_gains _ entered
      exact leave_entered (filled.append ih)
  | noStatements stop => exact .nil
  | moreStatements head tail first others => exact first.append others

theorem ParametersReading.gains {parameters : List Declaration}
    (reading : ParametersReading depth before parameters input after rest) :
    ∃ entities, parameters.mapM Declaration.entity? = some entities ∧
      GainsAll entities before after := by
  induction reading with
  | one isName divided isType built stop =>
      obtain ⟨rfl, gains⟩ := parameter_gains built
      exact ⟨_, rfl, .one gains⟩
  | more isName divided isType built continued tail ih =>
      obtain ⟨rfl, gains⟩ := parameter_gains built
      obtain ⟨entities, listed, others⟩ := ih
      exact ⟨_ :: entities, by simp [List.mapM_cons, listed, Declaration.entity?], .cons gains others⟩

theorem ParameterListReading.gains {parameters : List Declaration}
    (reading : ParameterListReading depth before parameters input after rest) :
    ∃ entities, parameters.mapM Declaration.entity? = some entities ∧
      GainsAll entities before after := by
  cases reading with
  | empty opened closed => exact ⟨[], rfl, .nil⟩
  | filled opened present inner closed => exact inner.gains

inductive Prototyped (depth : Nat) (before : Analyzer) : Declaration → Analyzer → Prop where
  | function {name : String} {place : Location} {parameters : List Declaration} {result : Ty}
      {entities : List Entity} {filled after : Analyzer} {input rest typed left : List Token}
      (taken : ParameterListReading depth (before.entered .parameters) parameters input filled rest)
      (isType : TypeReading depth typed result left)
      (listed : parameters.mapM Declaration.entity? = some entities)
      (gains : Gains ⟨.func, name, .function (entities.map Entity.type) result, place⟩ before
        after) :
      Prototyped depth before
        (.prototype ⟨.func, name, .function (entities.map Entity.type) result, place⟩ parameters)
        after

theorem HeaderReading.prototyped
    (reading : HeaderReading depth before declaration input after rest) :
    Prototyped depth before declaration after := by
  cases reading with
  | header introduced isName entered taken divided isType built =>
      rw [enter_parameters] at entered
      cases entered
      obtain ⟨_, _, filled⟩ := taken.gains
      rw [leave_entered filled] at built
      obtain ⟨entities, listed, rfl, gains⟩ := function_gains built
      exact .function taken isType listed gains

theorem HeaderReading.gains (reading : HeaderReading depth before declaration input after rest) :
    ∃ entity parameters entities, declaration = .prototype entity parameters ∧
      parameters.mapM Declaration.entity? = some entities ∧ Gains entity before after := by
  cases reading.prototyped with
  | function taken isType listed gains => exact ⟨_, _, _, rfl, listed, gains⟩

structure Analyzer.Idle (analyzer : Analyzer) : Prop where
  function : analyzer.function = none
  loops : analyzer.loops = 0

theorem Analyzer.Idle.same_frame (idle : before.Idle) (same : SameFrame before after) :
    after.Idle :=
  ⟨same.function.trans idle.function, same.loops.trans idle.loops⟩

theorem DeclarationReading.gains
    (reading : DeclarationReading depth before declaration input after rest)
    (idle : before.Idle) :
    ∃ entity, declaration.entity? = some entity ∧ Gains entity before after := by
  cases reading with
  | object inner =>
      obtain ⟨entity, value, rfl, gains⟩ := inner.gains
      exact ⟨entity, rfl, gains⟩
  | prototype header closed =>
      obtain ⟨entity, parameters, _, rfl, _, gains⟩ := header.gains
      exact ⟨entity, rfl, gains⟩
  | @function declared begun after _ _ _ _ _ _ header begins inner defined =>
      obtain ⟨entity, parameters, _, rfl, _, gains⟩ := header.gains
      obtain ⟨_, rfl⟩ := begin_function_ran begins
      cases defined
      refine ⟨entity, rfl, ?_⟩
      have same := gains.same_frame
      have kept : after = _ := inner.frames
      have left : after.endFunction = declared := by
        have isFunction : declared.function = none := same.function.trans idle.function
        have isLoops : declared.loops = 0 := same.loops.trans idle.loops
        obtain ⟨scopes, function, loops⟩ := declared
        simp only at isFunction isLoops
        rw [kept, isFunction, isLoops]
        rfl
      rw [left]
      exact gains

end McFront
