import Mathlib.Data.List.Nodup
import McFront.Proofs.Parsing.Spelling
import McFront.Proofs.Scoping.Owned

set_option autoImplicit false

namespace McFront

variable {before inside mid after analyzer : Analyzer} {depth : Nat} {input rest : List Token}
  {entities : List Entity} {declaration : Declaration} {name : String}

def Analyzer.visible (analyzer : Analyzer) : Visible :=
  analyzer.scopes.scopes.map fun scope => scope.entries.map Prod.snd

theorem Scope.Sound.find {scope : Scope Entity} (sound : scope.Sound) (name : String) :
    (scope.entries.map Prod.snd).find? (fun entity => entity.name = name) = scope.get? name := by
  have named := sound.named
  unfold Scope.get?
  revert named
  induction scope.entries with
  | nil => exact fun _ => rfl
  | cons entry entries ih =>
      intro named
      obtain ⟨key, entity⟩ := entry
      rw [List.forall_mem_cons] at named
      obtain ⟨isName, others⟩ := named
      have isKey : key = entity.name := isName
      subst isKey
      rw [List.map_cons, List.find?_cons, List.lookup_cons, ih others]
      by_cases same : entity.name = name
      · simp [same]
      · have differ : name ≠ entity.name := fun other => same other.symm
        simp [same, beq_eq_false_iff_ne.mpr differ]

theorem Analyzer.Sound.find (sound : analyzer.Sound) (name : String) :
    analyzer.visible.find? name = analyzer.lookup name := by
  have scopes := sound.scopes
  unfold Analyzer.visible Visible.find? Analyzer.lookup ScopeChain.lookup
  revert scopes
  induction analyzer.scopes.scopes with
  | nil => exact fun _ => rfl
  | cons scope outer ih =>
      intro scopes
      rw [List.forall_mem_cons] at scopes
      rw [List.map_cons, List.findSome?_cons, List.findSome?_cons, scopes.1.find name,
        ih scopes.2]

theorem Analyzer.Sound.distinct (sound : analyzer.Sound) :
    ∀ scope ∈ analyzer.visible, (scope.map Entity.name).Nodup := by
  intro scope member
  obtain ⟨inner, among, rfl⟩ := List.mem_map.mp member
  have same : (inner.entries.map Prod.snd).map Entity.name = inner.entries.map Prod.fst := by
    rw [List.map_map]
    exact List.map_congr_left fun entry held => ((sound.scopes inner among).named entry held).symm
  rw [same]
  exact (sound.scopes inner among).distinct

theorem GainsAll.visible (gains : GainsAll entities before after) :
    after.visible = before.visible.declaring entities := by
  induction gains with
  | @nil analyzer =>
      cases analyzer.visible <;> rfl
  | @cons entity others before mid after first rest ih =>
      have gained : mid.visible = before.visible.declaring [entity] := by
        cases first with
        | gain fresh => rfl
      rw [ih, gained, Visible.declaring_append, List.singleton_append]

def Analyzer.Inner (analyzer : Analyzer) : Prop :=
  analyzer.scopes.current?.map Scope.kind ≠ some .outermost

theorem SameFrame.current (same : SameFrame before after) :
    after.scopes.current?.map Scope.kind = before.scopes.current?.map Scope.kind := by
  unfold ScopeChain.current?
  rw [← List.head?_map, ← List.head?_map, same.kinds]

theorem Analyzer.Inner.same_frame (inner : before.Inner) (same : SameFrame before after) :
    after.Inner := by
  unfold Analyzer.Inner
  rw [same.current]
  exact inner

theorem Analyzer.Inner.shared (inner : analyzer.Inner) : analyzer.shared = [] :=
  if_neg inner

structure Lawful (uses : List Use) (scopes : List (List Entity)) : Prop where
  found : ∀ use ∈ uses, use.visible.find? use.name = some use.entity
  distinct : ∀ scope ∈ scopes, (scope.map Entity.name).Nodup

namespace Lawful

variable {uses more : List Use} {scopes further : List (List Entity)}

theorem nil : Lawful [] [] := ⟨nofun, nofun⟩

theorem append (first : Lawful uses scopes) (second : Lawful more further) :
    Lawful (uses ++ more) (scopes ++ further) :=
  ⟨List.forall_mem_append.mpr ⟨first.found, second.found⟩,
    List.forall_mem_append.mpr ⟨first.distinct, second.distinct⟩⟩

theorem scope {own : List Entity} (distinct : (own.map Entity.name).Nodup)
    (lawful : Lawful uses scopes) : Lawful uses (own :: scopes) :=
  ⟨lawful.found, List.forall_mem_cons.mpr ⟨distinct, lawful.distinct⟩⟩

end Lawful

theorem YieldsAll.found {exprs : List Expr} (yields : YieldsAll analyzer rest input exprs) :
    ∀ link ∈ exprs.filterMap Expr.link?, analyzer.lookup link.1 = some link.2 := by
  induction yields with
  | done => nofun
  | @leaf token e input leaves yields others ih =>
      intro link member
      obtain ⟨leaf, among, isLink⟩ := List.mem_filterMap.mp member
      rcases List.mem_cons.mp among with rfl | among
      · cases yields with
        | name named found =>
            unfold Analyzer.name at found
            split at found
            · rename_i held
              cases found
              cases isLink
              exact held
            · cases found
        | bool | int | float | char => cases isLink
      · exact ih link (List.mem_filterMap.mpr ⟨leaf, among, isLink⟩)
  | silent silent others ih => exact ih

theorem Reading.lawful {e : Expr} (reading : Reading analyzer depth (.expression e) input rest)
    (sound : analyzer.Sound) : Lawful (e.uses analyzer.visible) [] := by
  refine ⟨?_, nofun⟩
  intro use member
  obtain ⟨link, isLink, rfl⟩ := List.mem_map.mp member
  rw [e.links_eq] at isLink
  rw [sound.find]
  exact reading.expression_yields.found link isLink

theorem Expr.Wraps.uses {e operand : Expr} (wraps : Expr.Wraps e operand) (visible : Visible) :
    operand.uses visible = e.uses visible := by
  rw [Expr.uses, Expr.uses, operand.links_eq, e.links_eq, wraps.leaf_nodes]

theorem ConditionReading.lawful {condition : Expr}
    (reading : ConditionReading analyzer depth condition input rest) (sound : analyzer.Sound) :
    Lawful (condition.uses analyzer.visible) [] := by
  cases reading with
  | condition opened inner closed tested =>
      rw [(Expr.require_truth_ok tested).1.uses]
      exact inner.lawful sound

theorem ObjectReading.lawful (reading : ObjectReading before depth declaration input after rest)
    (sound : before.Sound) : Lawful (declaration.uses before.visible) declaration.scopes := by
  cases reading with
  | object introduced isKind isName divided isType value closed built =>
      obtain ⟨_, _, initialized, rfl, _⟩ := object_gains built
      cases initialized with
      | missing isVar => exact .nil
      | given required =>
          cases value with
          | given announced inner =>
              rw [Declaration.uses, Option.toList_some, List.flatMap_singleton,
                (Expr.require_type_ok required).1.uses]
              exact inner.lawful sound

def Sentence.Lawful (before : Analyzer) : Sentence → Prop
  | .statement stmt => before.Inner → McFront.Lawful (stmt.uses before.visible) stmt.scopes
  | .block stmt => ∃ stmts, stmt = .block stmts ∧
      McFront.Lawful
        (Stmt.usesOf ((before.shared.filterMap Declaration.entity?).reverse :: before.visible) stmts)
        ((before.shared.filterMap Declaration.entity? ++ Stmt.ownOf stmts) :: Stmt.scopesOf stmts)
  | .statements stmts =>
      before.Inner → McFront.Lawful (Stmt.usesOf before.visible stmts) (Stmt.scopesOf stmts)

theorem enter_block_visible (entered : Analysis.enter .block before = .ok () inside) :
    inside.visible = (before.shared.filterMap Declaration.entity?).reverse :: before.visible ∧
      inside.Inner := by
  rw [enter_block] at entered
  obtain ⟨entities, listed, gains⟩ := declare_all_gains _ entered
  have opened : (before.entered .block).Inner := by
    simp [Analyzer.Inner, Analyzer.entered, ScopeChain.enter, ScopeChain.current?, Scope.empty]
  refine ⟨?_, opened.same_frame gains.same_frame⟩
  rw [gains.visible, listed_entities listed]
  show (entities.reverse ++ []) :: before.visible = _
  rw [List.append_nil]

theorem SentenceReading.lawful {sentence : Sentence}
    (reading : SentenceReading before depth sentence input after rest) (sound : before.Sound) :
    sentence.Lawful before := by
  induction reading with
  | block within inner ih =>
      intro isInner
      obtain ⟨stmts, rfl, lawful⟩ := ih sound
      rw [isInner.shared] at lawful
      exact lawful
  | when within named tested inner stop ih =>
      exact fun isInner => (tested.lawful sound).append (ih sound isInner)
  | ifElse within named tested chosen divided otherwise first second =>
      intro isInner
      have gains : GainsAll _ _ _ := chosen.frames
      have left := second (chosen.keeps sound) (isInner.same_frame gains.same_frame)
      rw [gains.visible] at left
      exact ((tested.lawful sound).append (first sound isInner)).append left
  | whileLoop within named tested inner ih =>
      intro isInner
      have body := ih ⟨sound.scopes, sound.given⟩ isInner
      exact (tested.lawful sound).append body
  | breakLoop within named closed built =>
      obtain ⟨rfl, _⟩ := in_loop_ok built
      exact fun _ => .nil
  | continueLoop within named closed built =>
      obtain ⟨rfl, _⟩ := in_loop_ok built
      exact fun _ => .nil
  | returnValue within named inner built =>
      intro isInner
      obtain ⟨value, source, result, _, rfl, required, inner, _⟩ := inner.returned built
      rw [Stmt.uses, (Expr.require_type_ok required).1.uses]
      exact inner.lawful sound
  | declare within inner => exact fun _ => inner.lawful sound
  | evaluate within inner closed => exact fun _ => inner.lawful sound
  | @braces before inside after _ _ _ stmts _ _ opened entered inner closed ih =>
      have within := sound.enter_block entered
      obtain ⟨visible, isInner⟩ := enter_block_visible entered
      have gains : GainsAll (Stmt.ownOf stmts) inside after := inner.frames
      have lawful := ih within isInner
      rw [visible] at lawful
      refine ⟨stmts, rfl, .scope ?_ lawful⟩
      have distinct := (inner.keeps within).distinct
      rw [gains.visible, visible] at distinct
      have whole := distinct _ (List.mem_cons_self ..)
      rwa [← List.reverse_append, List.map_reverse, List.nodup_reverse] at whole
  | noStatements stop => exact fun _ => .nil
  | moreStatements head tail first others =>
      intro isInner
      have gains : GainsAll _ _ _ := head.frames
      have left := others (head.keeps sound) (isInner.same_frame gains.same_frame)
      rw [gains.visible] at left
      exact (first sound isInner).append left

theorem uses_of_parameters {parameters : List Declaration} (visible : Visible)
    (made : ∀ parameter ∈ parameters, parameter.IsParameter) :
    Declaration.usesOf visible parameters = [] := by
  induction parameters generalizing visible with
  | nil => rfl
  | cons first parameters ih =>
      rw [List.forall_mem_cons] at made
      obtain ⟨⟨entity, rfl, _⟩, others⟩ := made
      rw [Declaration.usesOf, ih _ others]
      rfl

theorem ParameterListReading.distinct {parameters : List Declaration}
    (reading : ParameterListReading depth before parameters input after rest)
    (sound : before.Sound) {outer : Visible} (opened : before.visible = [] :: outer) :
    ((parameters.filterMap Declaration.entity?).map Entity.name).Nodup := by
  obtain ⟨entities, listed, gains⟩ := reading.gains
  have distinct := (gains.sound (plain_of_listed reading.made listed) sound).distinct
  rw [gains.visible, opened] at distinct
  have whole := distinct _ (List.mem_cons_self ..)
  rwa [List.append_nil, List.map_reverse, List.nodup_reverse, ← listed_entities listed] at whole

theorem HeaderReading.distinct (reading : HeaderReading depth before declaration input after rest)
    (sound : before.Sound) :
    ((declaration.parameters.filterMap Declaration.entity?).map Entity.name).Nodup := by
  cases reading.prototyped with
  | function taken isType listed gains => exact taken.distinct (sound.entered .parameters) rfl

def Analyzer.Outer (analyzer : Analyzer) : Prop :=
  analyzer.scopes.current?.map Scope.kind = some .outermost

theorem Analyzer.Outer.same_frame (outer : before.Outer) (same : SameFrame before after) :
    after.Outer := same.current.trans outer

theorem DeclarationReading.lawful
    (reading : DeclarationReading depth before declaration input after rest)
    (sound : before.Sound) (outer : before.Outer) :
    Lawful (declaration.uses before.visible) declaration.scopes := by
  cases reading with
  | object inner => exact inner.lawful sound
  | prototype header closed =>
      have distinct := header.distinct sound
      obtain ⟨entity, parameters, rfl, _, made, _⟩ := header.made
      rw [Declaration.uses, uses_of_parameters _ made]
      exact .scope distinct .nil
  | @function declared begun _ _ _ _ _ _ _ header begins inner defined =>
      have within := header.begun begins sound
      obtain ⟨entity, parameters, rfl, _, made, gains⟩ := header.made
      obtain ⟨_, rfl⟩ := begin_function_ran begins
      cases defined
      obtain ⟨stmts, rfl, lawful⟩ := inner.lawful within
      have isOuter := outer.same_frame gains.same_frame
      have shared : Analyzer.shared { declared with
          function := some (.prototype entity parameters), loops := 0 } = parameters :=
        if_pos isOuter
      have visible : declared.visible = before.visible.declaring [entity] :=
        (GainsAll.one gains).visible
      rw [shared] at lawful
      change Lawful (Stmt.usesOf
        ((parameters.filterMap Declaration.entity?).reverse :: declared.visible) stmts) _ at lawful
      rw [visible] at lawful
      rw [Declaration.uses, uses_of_parameters _ made, List.nil_append]
      exact lawful

theorem DeclarationsReading.lawful {declarations : List Declaration}
    (reading : DeclarationsReading depth before declarations input after) (sound : before.Sound)
    (outer : before.Outer) (idle : before.Idle) :
    Lawful (Declaration.usesOf before.visible declarations) (Declaration.scopesOf declarations) ∧
      after.Sound ∧ GainsAll (declarations.filterMap Declaration.entity?) before after := by
  induction reading with
  | done => exact ⟨.nil, sound, .nil⟩
  | more head tail ih =>
      obtain ⟨entity, named, gain⟩ := head.gains idle
      have same := gain.same_frame
      obtain ⟨lawful, ended, gains⟩ :=
        ih (head.keeps sound) (outer.same_frame same) (idle.same_frame same)
      rw [(GainsAll.one gain).visible] at lawful
      refine ⟨(head.lawful sound outer).append ?_, ended, ?_⟩
      · rw [named]
        exact lawful
      · rw [List.filterMap_cons_some named]
        exact .cons gain gains

theorem ProgramReading.lawful {program : Declaration} (reading : ProgramReading program input) :
    Lawful (program.uses []) program.scopes := by
  cases reading with
  | @program _ _ declarations _ entered inner =>
      cases entered
      have opened : (Analyzer.initial.entered .outermost).Sound :=
        Analyzer.Sound.initial.entered .outermost
      obtain ⟨lawful, ended, gains⟩ := inner.lawful opened rfl ⟨rfl, rfl⟩
      refine .scope ?_ lawful
      have distinct := ended.distinct
      rw [gains.visible] at distinct
      have whole := distinct _ (List.mem_cons_self ..)
      change (((declarations.filterMap Declaration.entity?).reverse ++ []).map
        Entity.name).Nodup at whole
      rwa [List.append_nil, List.map_reverse, List.nodup_reverse] at whole

theorem ProgramReading.places {program : Declaration} {cursor : Cursor}
    (reading : ProgramReading program cursor.outlook.tokens) :
    (program.declared.map Entity.location).Nodup := by
  obtain ⟨gathered, _⟩ := reading.spells.gathered
  have tokens : (cursor.outlook.tokens.map Token.location).Nodup := by
    apply cursor.outlook_ordered.2.imp
    intro place _ earlier same
    subst same
    exact place.before_irrefl earlier
  have leaves : (program.leaves.map Leaf.location).Sublist
      (cursor.outlook.tokens.map Token.location) := by
    rw [← gathered]
    exact leaf_places cursor.outlook.tokens
  have declared := program.declared_leaves.map Leaf.location
  rw [List.map_map] at declared
  exact tokens.sublist (declared.trans leaves)

theorem program_names_resolve (text : String) (interner : Interner) (program : Declaration)
    (accepted : (compile text interner).1 = .ok program) :
    (program.uses []).map Use.link = program.nodes.filterMap Expr.link? ∧
      (∀ use ∈ program.uses [], use.visible.find? use.name = some use.entity ∧
        use.entity ∈ program.declared) ∧
      (program.declared.map Entity.location).Nodup ∧
      ∀ scope ∈ program.scopes, (scope.map Entity.name).Nodup := by
  obtain ⟨_, _, reading⟩ := compile_reads accepted
  have lawful := reading.lawful
  refine ⟨program.links_used [], ?_, reading.places, lawful.distinct⟩
  intro use member
  have found := lawful.found use member
  refine ⟨found, ?_⟩
  rcases program.owned [] use member _ (Visible.mem_of_find found) with before | isDeclared
  · cases before
  · exact isDeclared

theorem shadowed_names_resolve :
    ∃ program,
      (compile "def f(x: bool) -> int \x7b \x7b var x: int = 1; return x; \x7d return f(x); \x7d"
        .empty).1 = .ok program ∧
      (program.uses []).map (fun use => (use.name, use.entity.location.column)) =
        [("x", 31), ("f", 5), ("x", 7)] ∧
      (∀ use ∈ program.uses [], use.visible.find? use.name = some use.entity ∧
        use.entity ∈ program.declared) ∧
      ∀ scope ∈ program.scopes, (scope.map Entity.name).Nodup := by
  obtain ⟨program, accepted, places⟩ := exists_of_measured (show
    (compile "def f(x: bool) -> int \x7b \x7b var x: int = 1; return x; \x7d return f(x); \x7d"
        .empty).1.toOption.map
      (fun program => (program.uses []).map fun use => (use.name, use.entity.location.column)) =
        some [("x", 31), ("f", 5), ("x", 7)] by decide +kernel)
  obtain ⟨_, resolved, _, distinct⟩ := program_names_resolve _ .empty program accepted
  exact ⟨program, accepted, places, resolved, distinct⟩

end McFront
