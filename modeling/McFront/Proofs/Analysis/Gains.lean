import McFront.Analysis.Production
import McFront.Proofs.Parsing.Ensures
import McFront.Proofs.Typing.Operands

set_option autoImplicit false

namespace McFront

inductive Gains (entity : Entity) : Analyzer → Analyzer → Prop where
  | gain {scope : Scope Entity} {outer : List (Scope Entity)} {function : Option Declaration}
      {loops : Nat} (fresh : scope.get? entity.name = none) :
      Gains entity ⟨⟨scope :: outer⟩, function, loops⟩
        ⟨⟨⟨scope.kind, (entity.name, entity) :: scope.entries⟩ :: outer⟩, function, loops⟩

inductive GainsAll : List Entity → Analyzer → Analyzer → Prop where
  | nil {analyzer : Analyzer} : GainsAll [] analyzer analyzer
  | cons {entity : Entity} {others : List Entity} {before mid after : Analyzer}
      (first : Gains entity before mid) (rest : GainsAll others mid after) :
      GainsAll (entity :: others) before after

structure SameFrame (before after : Analyzer) : Prop where
  kinds : after.scopes.scopes.map Scope.kind = before.scopes.scopes.map Scope.kind
  outer : after.scopes.scopes.tail = before.scopes.scopes.tail
  function : after.function = before.function
  loops : after.loops = before.loops

variable {before mid after analyzer : Analyzer} {entity : Entity} {entities others : List Entity}
  {declaration : Declaration}

theorem GainsAll.one (gains : Gains entity before after) : GainsAll [entity] before after :=
  .cons gains .nil

theorem GainsAll.append (first : GainsAll entities before mid)
    (second : GainsAll others mid after) : GainsAll (entities ++ others) before after := by
  induction first with
  | nil => exact second
  | cons gain _ ih => exact .cons gain (ih second)

theorem SameFrame.trans (first : SameFrame before mid) (second : SameFrame mid after) :
    SameFrame before after :=
  ⟨second.kinds.trans first.kinds, second.outer.trans first.outer,
    second.function.trans first.function, second.loops.trans first.loops⟩

theorem Gains.same_frame (gains : Gains entity before after) : SameFrame before after := by
  cases gains
  exact ⟨rfl, rfl, rfl, rfl⟩

theorem GainsAll.same_frame (gains : GainsAll entities before after) : SameFrame before after := by
  induction gains with
  | nil => exact ⟨rfl, rfl, rfl, rfl⟩
  | cons gain _ ih => exact gain.same_frame.trans ih

theorem SameFrame.opened (same : SameFrame before after) (opened : before.scopes.scopes ≠ []) :
    after.scopes.scopes ≠ [] := by
  intro empty
  have kinds := same.kinds
  rw [empty, List.map_nil, eq_comm, List.map_eq_nil_iff] at kinds
  exact opened kinds

theorem SameFrame.leave {scope : Scope Entity} {outer : List (Scope Entity)}
    {function : Option Declaration} {loops : Nat}
    (same : SameFrame ⟨⟨scope :: outer⟩, function, loops⟩ after) :
    after.leaveScope = ⟨⟨outer⟩, function, loops⟩ := by
  obtain ⟨⟨scopes⟩, function', loops'⟩ := after
  obtain ⟨_, isOuter, isFunction, isLoops⟩ := same
  simp only [List.tail_cons] at isOuter isFunction isLoops
  simp only [Analyzer.leaveScope, ScopeChain.leave, isOuter, isFunction, isLoops]

theorem declare_gains (ran : Analysis.declare declaration before = .ok () after) :
    ∃ entity, declaration.entity? = some entity ∧ Gains entity before after := by
  obtain ⟨⟨scopes⟩, function, loops⟩ := before
  unfold Analysis.declare at ran
  cases named : declaration.entity? with
  | none => simp [named] at ran
  | some entity =>
      refine ⟨entity, rfl, ?_⟩
      simp only [named, ScopeChain.declare] at ran
      cases scopes with
      | nil => simp at ran
      | cons scope outer =>
          simp only [Scope.declare] at ran
          cases held : scope.get? entity.name with
          | some existing => simp [held] at ran
          | none =>
              simp only [held, EStateM.Result.ok.injEq, true_and] at ran
              subst ran
              exact .gain held

theorem declare_ensures (named : declaration.entity? = some entity)
    (opened : before.scopes.scopes ≠ []) :
    Ensures (Analysis.declare declaration) before fun _ after => SameFrame before after := by
  obtain ⟨⟨scopes⟩, function, loops⟩ := before
  cases scopes with
  | nil => exact absurd rfl opened
  | cons scope outer =>
      cases held : scope.get? entity.name with
      | some existing =>
          simp [Ensures, Analysis.declare, named, ScopeChain.declare, Scope.declare, held]
      | none =>
          simp only [Ensures, Analysis.declare, named, ScopeChain.declare, Scope.declare, held]
          exact (Gains.gain held).same_frame

theorem declared_gains {made : Declaration} (named : made.entity? = some entity)
    (ran : (do Analysis.declare made; pure made : Analysis Declaration) before =
      .ok declaration after) : declaration = made ∧ Gains entity before after := by
  obtain ⟨_, _, step, ran⟩ := bind_ran ran
  cases ran
  obtain ⟨other, namedToo, gains⟩ := declare_gains step
  cases named.symm.trans namedToo
  exact ⟨rfl, gains⟩

theorem declared_ensures (named : declaration.entity? = some entity)
    (opened : before.scopes.scopes ≠ []) :
    Ensures (do Analysis.declare declaration; pure declaration : Analysis Declaration) before
      fun _ _ => True :=
  ensures_bind (declare_ensures named opened) fun _ _ _ => ensures_pure trivial

theorem declare_all_gains (declarations : List Declaration)
    (ran : declarations.forM Analysis.declare before = .ok () after) :
    ∃ entities, declarations.mapM Declaration.entity? = some entities ∧
      GainsAll entities before after := by
  induction declarations generalizing before with
  | nil =>
      cases ran
      exact ⟨[], rfl, .nil⟩
  | cons first declarations ih =>
      change (Analysis.declare first >>= fun _ => declarations.forM Analysis.declare) before =
        .ok () after at ran
      simp only [bind, EStateM.bind] at ran
      cases step : Analysis.declare first before with
      | error fault mid => simp [step] at ran
      | ok _ mid =>
          simp only [step] at ran
          obtain ⟨entity, named, gain⟩ := declare_gains step
          obtain ⟨entities, others, gains⟩ := ih ran
          refine ⟨entity :: entities, ?_, .cons gain gains⟩
          simp [List.mapM_cons, named, others]

theorem declare_all_ensures (declarations : List Declaration)
    (named : ∀ declaration ∈ declarations, declaration.entity?.isSome)
    (opened : before.scopes.scopes ≠ []) :
    Ensures (declarations.forM Analysis.declare) before fun _ after => SameFrame before after := by
  induction declarations generalizing before with
  | nil => exact ensures_pure (GainsAll.nil.same_frame)
  | cons first declarations ih =>
      obtain ⟨entity, isEntity⟩ := Option.isSome_iff_exists.mp (named first (by simp))
      show Ensures (Analysis.declare first >>= fun _ => declarations.forM Analysis.declare) before _
      apply ensures_bind (declare_ensures isEntity opened)
      intro _ mid one
      refine ensures_weaken (ih (fun other member => named other (by simp [member]))
        (one.opened opened)) ?_
      intro _ after rest
      exact one.trans rest

theorem listed_iff {declarations : List Declaration} :
    declarations.mapM Declaration.entity? = some entities ↔
      declarations.map Declaration.entity? = entities.map some := by
  induction declarations generalizing entities with
  | nil => cases entities <;> simp
  | cons first declarations ih =>
      rw [List.mapM_cons, List.map_cons]
      cases named : first.entity? with
      | none => cases entities <;> simp
      | some entity =>
          cases entities with
          | nil => cases others : declarations.mapM Declaration.entity? <;> simp
          | cons other others =>
              rw [List.map_cons, List.cons.injEq, ← ih]
              cases declarations.mapM Declaration.entity? <;> simp

theorem mem_listed {declarations : List Declaration}
    (listed : declarations.mapM Declaration.entity? = some entities) (member : entity ∈ entities) :
    ∃ declaration ∈ declarations, declaration.entity? = some entity := by
  have isEntity : some entity ∈ entities.map some := List.mem_map_of_mem member
  rw [← listed_iff.mp listed] at isEntity
  exact List.mem_map.mp isEntity

theorem listed_named {declarations : List Declaration}
    (listed : declarations.mapM Declaration.entity? = some entities) :
    ∀ declaration ∈ declarations, declaration.entity?.isSome := by
  intro declaration member
  have isEntity := List.mem_map_of_mem (f := Declaration.entity?) member
  rw [listed_iff.mp listed, List.mem_map] at isEntity
  obtain ⟨entity, _, named⟩ := isEntity
  rw [← named]
  rfl

theorem listed_entities {declarations : List Declaration}
    (listed : declarations.mapM Declaration.entity? = some entities) :
    declarations.filterMap Declaration.entity? = entities :=
  calc
    declarations.filterMap Declaration.entity?
        = (declarations.map Declaration.entity?).filterMap id := by rw [List.filterMap_map]; rfl
    _ = (entities.map some).filterMap id := by rw [listed_iff.mp listed]
    _ = entities := by rw [List.filterMap_map]; exact List.filterMap_some

namespace Analyzer

def entered (analyzer : Analyzer) (kind : ScopeKind) : Analyzer :=
  { analyzer with scopes := analyzer.scopes.enter kind }

def shared (analyzer : Analyzer) : List Declaration :=
  if analyzer.scopes.current?.map Scope.kind = some .outermost then
    (analyzer.function.map Declaration.parameters).getD []
  else []

end Analyzer

theorem enter_outermost (analyzer : Analyzer) :
    Analysis.enter .outermost analyzer = .ok () (analyzer.entered .outermost) := rfl

theorem enter_parameters (analyzer : Analyzer) :
    Analysis.enter .parameters analyzer = .ok () (analyzer.entered .parameters) := rfl

theorem enter_block (analyzer : Analyzer) :
    Analysis.enter .block analyzer =
      analyzer.shared.forM Analysis.declare (analyzer.entered .block) := by
  have parent : (analyzer.scopes.enter .block).parentKind? =
      analyzer.scopes.current?.map Scope.kind := by
    cases scopes : analyzer.scopes.scopes with
    | nil => simp [ScopeChain.enter, ScopeChain.parentKind?, ScopeChain.current?, scopes]
    | cons scope outer =>
        simp [ScopeChain.enter, ScopeChain.parentKind?, ScopeChain.current?, scopes]
  show (if ScopeKind.block = .block ∧
      (analyzer.scopes.enter .block).parentKind? = some .outermost then _ else _ : Analysis Unit)
    (analyzer.entered .block) = _
  unfold Analyzer.shared
  rw [parent]
  by_cases outermost : analyzer.scopes.current?.map Scope.kind = some .outermost
  · rw [if_pos ⟨rfl, outermost⟩, if_pos outermost]
    cases active : analyzer.function with
    | none => simp [Analyzer.entered, active]
    | some function => simp [Analyzer.entered, active]
  · rw [if_neg outermost, if_neg fun both => outermost both.2]
    rfl

variable {kind : Kind} {name : String} {type : Ty} {initial : Option Expr} {place : Location}

inductive Initialized (kind : Kind) (type : Ty) : Option Expr → Option Expr → Prop where
  | missing (isVar : kind = .var) : Initialized kind type none none
  | given {value held : Expr} (required : value.requireType type = .ok held) :
      Initialized kind type (some value) (some held)

theorem initializer_ok {held : Option Expr}
    (checked : Analysis.initializer kind name type initial place = .ok held) :
    Initialized kind type initial held := by
  unfold Analysis.initializer at checked
  cases initial with
  | some value =>
      obtain ⟨held, required, made⟩ := bind_checked checked
      cases made
      exact .given required
  | none =>
      by_cases isVar : kind = .var
      · rw [if_pos isVar] at checked
        cases checked
        exact .missing isVar
      · rw [if_neg isVar] at checked
        cases checked

theorem object_gains
    (ran : Analysis.object kind name type initial place before = .ok declaration after) :
    (kind = .var ∨ kind = .const ∨ kind = .val) ∧
      ∃ held, Initialized kind type initial held ∧
        declaration = .object ⟨kind, name, type, place⟩ held ∧
        Gains ⟨kind, name, type, place⟩ before after := by
  obtain ⟨value, mid, given, rest⟩ := bind_ran ran
  obtain ⟨checked, rfl⟩ := check_ran given
  have initialized := initializer_ok checked
  cases kind with
  | var | const | val => exact ⟨by simp, value, initialized, declared_gains rfl rest⟩
  | program | param | func => cases rest

theorem object_ensures (isObject : kind = .var ∨ kind = .const ∨ kind = .val)
    (opened : before.scopes.scopes ≠ []) :
    Ensures (Analysis.object kind name type initial place) before fun _ _ => True := by
  apply ensures_bind_check
  intro value _
  rcases isObject with rfl | rfl | rfl <;> exact declared_ensures rfl opened

theorem parameter_gains
    (ran : Analysis.parameter name type place before = .ok declaration after) :
    declaration = .object ⟨.param, name, type, place⟩ none ∧
      Gains ⟨.param, name, type, place⟩ before after :=
  declared_gains rfl ran

theorem parameter_ensures (opened : before.scopes.scopes ≠ []) :
    Ensures (Analysis.parameter name type place) before fun _ _ => True :=
  declared_ensures rfl opened

theorem function_gains {parameters : List Declaration} {result : Ty}
    (ran : Analysis.function name parameters result place before = .ok declaration after) :
    ∃ entities, parameters.mapM Declaration.entity? = some entities ∧
      declaration =
        .prototype ⟨.func, name, .function (entities.map Entity.type) result, place⟩ parameters ∧
      Gains ⟨.func, name, .function (entities.map Entity.type) result, place⟩ before after := by
  unfold Analysis.function at ran
  cases listed : parameters.mapM Declaration.entity? with
  | none =>
      rw [listed] at ran
      cases ran
  | some entities =>
      rw [listed] at ran
      obtain ⟨rfl, gains⟩ := declared_gains rfl ran
      exact ⟨entities, rfl, rfl, gains⟩

theorem function_ensures {parameters : List Declaration} {result : Ty}
    (listed : parameters.mapM Declaration.entity? = some entities)
    (opened : before.scopes.scopes ≠ []) :
    Ensures (Analysis.function name parameters result place) before fun _ _ => True := by
  unfold Analysis.function
  rw [listed]
  exact declared_ensures rfl opened

theorem begin_function_ran (ran : Analysis.beginFunction declaration before = .ok () after) :
    before.function = none ∧ after = { before with function := some declaration, loops := 0 } := by
  unfold Analysis.beginFunction at ran
  obtain ⟨_, _, got, ran⟩ := bind_ran ran
  cases got
  cases active : before.function with
  | some other =>
      rw [active] at ran
      cases ran
  | none =>
      rw [active] at ran
      cases ran
      exact ⟨rfl, rfl⟩

theorem begin_function_failed {fault : Fault}
    (failed : Analysis.beginFunction declaration before = .error fault after) : after = before := by
  unfold Analysis.beginFunction at failed
  obtain ⟨_, _, got, failed⟩ | got := bind_failed failed
  · cases got
    cases active : before.function with
    | some other =>
        rw [active] at failed
        cases failed
        rfl
    | none =>
        rw [active] at failed
        cases failed
  · cases got

theorem begin_function_ensures (idle : before.function = none) :
    Ensures (Analysis.beginFunction declaration) before fun _ _ => True := by
  refine ensures_bind (ensures_ok rfl ⟨rfl, rfl⟩ : Ensures get before fun found after =>
    found = before ∧ after = before) ?_
  intro _ _ ensured
  obtain ⟨rfl, rfl⟩ := ensured
  rw [idle]
  exact trivial

theorem in_loop_ok {word : String} {jump stmt : Stmt}
    (built : analyzer.inLoop word jump place = .ok stmt) : stmt = jump ∧ analyzer.loops ≠ 0 := by
  unfold Analyzer.inLoop at built
  split at built <;> cases built
  exact ⟨rfl, ‹_›⟩

theorem return_value_ok {value : Option Expr} {stmt : Stmt}
    (built : analyzer.returnValue value place = .ok stmt) :
    ∃ given result, stmt = .returnValue given ∧
      analyzer.function.bind Declaration.result? = some result ∧
      ∃ source, value = some source ∧ source.requireType result = .ok given := by
  unfold Analyzer.returnValue at built
  cases active : analyzer.function.bind Declaration.result? with
  | none =>
      rw [active] at built
      cases built
  | some result =>
      rw [active] at built
      cases value with
      | none => cases built
      | some source =>
          cases typed : source.requireType result with
          | error error => simp [typed, bind, Except.bind] at built
          | ok given =>
              simp only [typed, bind, Except.bind, pure, Except.pure, Except.ok.injEq] at built
              exact ⟨given, result, built.symm, rfl, source, rfl, typed⟩

end McFront
