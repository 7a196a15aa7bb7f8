import McFront.Proofs.Relocation.Rules
import McFront.Tree.Definition

set_option autoImplicit false

namespace McFront

variable {pair : Accord} {view : View}

theorem both_or_neither {α β : Type} {related : α → β → Prop} {a : Option α} {b : Option β}
    (alike : Option.Rel related a b) :
    a = none ∧ b = none ∨ ∃ x y, a = some x ∧ b = some y ∧ related x y := by
  cases alike with
  | none => exact .inl ⟨rfl, rfl⟩
  | some holds => exact .inr ⟨_, _, rfl, rfl, holds⟩

namespace Declaration.Matches

variable {declaration declaration' : Declaration}

theorem entity (alike : declaration.Matches view declaration') :
    Option.Rel (Entity.Matches view view.places.own) declaration.entity? declaration'.entity? := by
  obtain ⟨known, alike⟩ := alike
  cases known with
  | object known =>
      cases alike with
      | object named _ => exact .some ⟨known, named⟩
  | prototype known _ =>
      cases alike with
      | prototype named _ => exact .some ⟨known, named⟩
  | function known _ =>
      cases alike with
      | function named _ _ => exact .some ⟨known, named⟩
  | program =>
      cases alike
      exact .none

theorem parameters (alike : declaration.Matches view declaration') :
    List.Forall₂ (Declaration.Matches view) declaration.parameters declaration'.parameters := by
  obtain ⟨known, alike⟩ := alike
  cases known with
  | object _ | program =>
      cases alike
      exact .nil
  | prototype _ known =>
      cases alike with
      | prototype _ given => exact Declaration.Matches.all_iff.mpr ⟨known, given⟩
  | function _ known =>
      cases alike with
      | function _ given _ => exact Declaration.Matches.all_iff.mpr ⟨known, given⟩

theorem result (alike : declaration.Matches view declaration') :
    declaration.result? = declaration'.result? := by
  obtain ⟨known, alike⟩ := alike
  cases known with
  | object _ | program =>
      cases alike
      rfl
  | prototype _ _ =>
      cases alike with
      | prototype named _ => simp only [Declaration.result?, ← named.type, Entity.renamed]
  | function _ _ =>
      cases alike with
      | function named _ _ => simp only [Declaration.result?, ← named.type, Entity.renamed]

theorem define {body body' : Stmt} (alike : declaration.Matches view declaration')
    (inner : body.Matches view body') :
    (∃ function function', declaration.define body = .ok function ∧
      declaration'.define body' = .ok function' ∧ function.Matches view function') ∨
    ∃ broken broken', declaration.define body = .error broken ∧
      declaration'.define body' = .error broken' := by
  obtain ⟨known, alike⟩ := alike
  cases known with
  | prototype known known' =>
      cases alike with
      | prototype named given =>
          exact .inl ⟨_, _, rfl, rfl, .function known known', Alike.function named given inner⟩
  | object _ | program | function _ _ =>
      cases alike
      exact .inr ⟨_, _, rfl, rfl⟩

end Declaration.Matches

theorem Scope.Matches.get {scope scope' : Scope Entity} {name : String}
    (alike : scope.Matches view scope') (known : name ∈ view.known) :
    Option.Rel (Entity.Matches view view.places.linked) (scope.get? name)
      (scope'.get? (view.rename name)) := by
  have entries := alike.entries
  unfold Scope.get?
  generalize scope.entries = held, scope'.entries = held' at entries
  induction entries with
  | nil => exact .none
  | @cons entry other _ _ same _ ih =>
      obtain ⟨key, entity⟩ := entry
      obtain ⟨key', entity'⟩ := other
      obtain ⟨keyKnown, isKey, link⟩ := same
      simp only at isKey
      have found : (name == key) = (view.rename name == key') := by
        rw [← isKey, Bool.eq_iff_iff, beq_iff_eq, beq_iff_eq]
        exact (view.distinct.eq_iff known keyKnown).symm
      rw [List.lookup_cons, List.lookup_cons, found]
      cases view.rename name == key' with
      | true => exact .some link
      | false => exact ih

theorem Scope.Matches.declaring {scope scope' : Scope Entity} {entity entity' : Entity}
    (alike : scope.Matches view scope') (link : entity.Matches view view.places.linked entity') :
    Scope.Matches view { scope with entries := (entity.name, entity) :: scope.entries }
      { scope' with entries := (entity'.name, entity') :: scope'.entries } :=
  ⟨alike.kind, .cons ⟨link.known, link.name, link⟩ alike.entries⟩

namespace Analyzer.Matches

variable {analyzer analyzer' : Analyzer}

theorem initial : Analyzer.initial.Matches view Analyzer.initial := ⟨.nil, .none, rfl⟩

theorem lookup {name : String} (alike : analyzer.Matches view analyzer')
    (known : name ∈ view.known) :
    Option.Rel (Entity.Matches view view.places.linked) (analyzer.lookup name)
      (analyzer'.lookup (view.rename name)) := by
  have scopes := alike.scopes
  unfold Analyzer.lookup ScopeChain.lookup
  generalize analyzer.scopes.scopes = opened, analyzer'.scopes.scopes = opened' at scopes
  induction scopes with
  | nil => exact .none
  | cons scope _ ih =>
      rw [List.findSome?_cons, List.findSome?_cons]
      rcases both_or_neither (scope.get known) with ⟨none, none'⟩ | ⟨_, _, found, found', link⟩
      · rw [none, none']
        exact ih
      · rw [found, found']
        exact .some link

theorem leaveScope (alike : analyzer.Matches view analyzer') :
    analyzer.leaveScope.Matches view analyzer'.leaveScope := by
  have scopes := alike.scopes
  refine ⟨?_, alike.function, alike.loops⟩
  unfold Analyzer.leaveScope ScopeChain.leave
  generalize analyzer.scopes.scopes = opened, analyzer'.scopes.scopes = opened' at scopes
  cases scopes with
  | nil => exact .nil
  | cons _ outer => exact outer

theorem endFunction (alike : analyzer.Matches view analyzer') :
    analyzer.endFunction.Matches view analyzer'.endFunction :=
  ⟨alike.scopes, .none, rfl⟩

theorem enterLoop (alike : analyzer.Matches view analyzer') :
    analyzer.enterLoop.Matches view analyzer'.enterLoop :=
  ⟨alike.scopes, alike.function, congrArg (· + 1) alike.loops⟩

theorem leaveLoop (alike : analyzer.Matches view analyzer') :
    analyzer.leaveLoop.Matches view analyzer'.leaveLoop :=
  ⟨alike.scopes, alike.function, congrArg (· - 1) alike.loops⟩

theorem entered (alike : analyzer.Matches view analyzer') (kind : ScopeKind) :
    Analyzer.Matches view { analyzer with scopes := analyzer.scopes.enter kind }
      { analyzer' with scopes := analyzer'.scopes.enter kind } :=
  ⟨.cons ⟨rfl, .nil⟩ alike.scopes, alike.function, alike.loops⟩

theorem parentKind (alike : analyzer.Matches view analyzer') :
    analyzer.scopes.parentKind? = analyzer'.scopes.parentKind? := by
  have scopes := alike.scopes
  unfold ScopeChain.parentKind?
  generalize analyzer.scopes.scopes = opened, analyzer'.scopes.scopes = opened' at scopes
  match scopes with
  | .nil => rfl
  | .cons _ .nil => rfl
  | .cons _ (.cons scope _) => exact congrArg some scope.kind

theorem name {name : String} {place place' : Location} (alike : analyzer.Matches view analyzer')
    (known : name ∈ view.known) (own : view.places.own place place') :
    view.Checks (Expr.Matches view) (analyzer.name name place)
      (analyzer'.name (view.rename name) place') := by
  unfold Analyzer.name
  rcases both_or_neither (alike.lookup known) with ⟨none, none'⟩ | ⟨_, _, found, found', link⟩
  · rw [none, none']
    exact .error (.raise nofun .unknownSymbol own)
  · rw [found, found']
    exact .ok (Rule.name_alike link own)

theorem inLoop {word : String} {jump : Stmt} {place place' : Location}
    (alike : analyzer.Matches view analyzer') (self : jump.Matches view jump)
    (own : view.places.own place place') :
    view.Checks (Stmt.Matches view) (analyzer.inLoop word jump place)
      (analyzer'.inLoop word jump place') := by
  unfold Analyzer.inLoop
  rw [alike.loops]
  split
  · exact .error (.raise nofun .same own)
  · exact .ok self

theorem returnValue {value value' : Option Expr} {place place' : Location}
    (alike : analyzer.Matches view analyzer') (given : Option.Rel (Expr.Matches view) value value')
    (own : view.places.own place place') :
    view.Checks (Stmt.Matches view) (analyzer.returnValue value place)
      (analyzer'.returnValue value' place') := by
  have results : analyzer.function.bind Declaration.result? =
      analyzer'.function.bind Declaration.result? := by
    rcases both_or_neither alike.function with ⟨none, none'⟩ | ⟨_, _, found, found', active⟩
    · rw [none, none']
    · rw [found, found']
      exact active.result
  unfold Analyzer.returnValue
  rw [results]
  split
  · exact .error (.raise nofun .same own)
  · cases given with
    | none => exact .error (.raise nofun .same own)
    | some given => exact (given.requireType _).bind fun _ _ given => .ok (.returnValue given)

end Analyzer.Matches

namespace Analysis

variable {declaration declaration' : Declaration} {place place' : Location}

abbrev Keeps (pair : Accord) {α β : Type} (related : α → β → Prop) (first : Analysis α)
    (second : Analysis β) : Prop :=
  pair.InStep (Analyzer.Matches pair.view) related first second

theorem declare_keeps (alike : declaration.Matches pair.view declaration') :
    Keeps pair (fun _ _ => True) (declare declaration) (declare declaration') := by
  intro analyzer analyzer' state
  unfold declare
  rcases both_or_neither alike.entity with ⟨none, none'⟩ | ⟨entity, entity', named, named', same⟩
  · rw [none, none']
    exact .breach
  · have looked : pair.view.rename entity.name = entity'.name := same.name
    simp only [named, named', ← looked]
    obtain ⟨⟨scopes⟩, function, loops⟩ := analyzer
    obtain ⟨⟨scopes'⟩, function', loops'⟩ := analyzer'
    obtain ⟨isScopes, isFunction, isLoops⟩ := state
    cases scopes <;> cases scopes' <;> cases isScopes
    · exact .breach
    · rename_i scope outer
      simp only [ScopeChain.declare, Scope.declare]
      rcases both_or_neither (scope.get same.known) with ⟨fresh, fresh'⟩ | ⟨_, _, held, held', _⟩
      · simp only [fresh, fresh']
        rw [looked]
        exact .ok trivial ⟨.cons (scope.declaring same.linked) outer, isFunction, isLoops⟩
      · simp only [held, held']
        exact .blamed (.raise nofun .redeclaration same.alike.location)

theorem declare_all_keeps {declarations declarations' : List Declaration}
    (alike : List.Forall₂ (Declaration.Matches pair.view) declarations declarations') :
    Keeps pair (fun _ _ => True) (declarations.forM declare) (declarations'.forM declare) := by
  induction alike with
  | nil => exact in_step_pure trivial
  | cons first _ ih => exact in_step_bind (declare_keeps first) fun _ _ _ => ih

theorem enter_keeps (kind : ScopeKind) :
    Keeps pair (fun _ _ => True) (enter kind) (enter kind) := by
  apply in_step_bind (in_step_modify fun _ _ state => state.entered kind)
  intro _ _ _
  apply in_step_bind in_step_get
  intro analyzer analyzer' state
  rw [state.parentKind]
  refine in_step_ite ?_ (in_step_pure trivial)
  rcases both_or_neither state.function with ⟨none, none'⟩ | ⟨_, _, active, active', function⟩
  · rw [none, none']
    exact in_step_pure trivial
  · rw [active, active']
    exact declare_all_keeps function.parameters

theorem begin_function_keeps (alike : declaration.Matches pair.view declaration') :
    Keeps pair (fun _ _ => True) (beginFunction declaration) (beginFunction declaration') := by
  apply in_step_bind in_step_get
  intro analyzer analyzer' state
  rcases both_or_neither state.function with ⟨none, none'⟩ | ⟨_, _, active, active', _⟩
  · rw [none, none']
    exact in_step_set ⟨state.scopes, .some alike, rfl⟩
  · rw [active, active']
    exact in_step_breach

theorem initializer_checks (kind : Kind) (name : String) (type : Ty)
    {initial initial' : Option Expr} (given : Option.Rel (Expr.Matches view) initial initial')
    (own : view.places.own place place') :
    view.Checks (Option.Rel (Expr.Matches view)) (initializer kind name type initial place)
      (initializer kind (view.rename name) type initial' place') := by
  cases given with
  | some given => exact (given.requireType type).bind fun _ _ given => .ok (.some given)
  | none =>
      by_cases isVar : kind = .var
      · simp only [initializer, if_pos isVar]
        exact .ok .none
      · simp only [initializer, if_neg isVar]
        exact .error (.raise nofun .missingInitializer own)

theorem declared_keeps (alike : declaration.Matches pair.view declaration') :
    Keeps pair (Declaration.Matches pair.view) (do declare declaration; pure declaration)
      (do declare declaration'; pure declaration') :=
  in_step_bind (declare_keeps alike) fun _ _ _ => in_step_pure alike

theorem named_entity {named named' : String × Location} (kind : Kind) (type : Ty)
    (alike : Parse.NamedAlike view named named') :
    Entity.Matches view view.places.own ⟨kind, named.1, type, named.2⟩
      ⟨kind, named'.1, type, named'.2⟩ :=
  ⟨alike.known, rfl, alike.name, rfl, alike.location⟩

theorem object_keeps (kind : Kind) {named named' : String × Location} (type : Ty)
    {initial initial' : Option Expr} (alike : Parse.NamedAlike pair.view named named')
    (given : Option.Rel (Expr.Matches pair.view) initial initial') :
    Keeps pair (Declaration.Matches pair.view) (object kind named.1 type initial named.2)
      (object kind named'.1 type initial' named'.2) := by
  have checks := initializer_checks kind named.1 type given alike.location
  rw [alike.name] at checks
  apply in_step_bind (in_step_check checks)
  intro value value' given
  have alike (kind : Kind) : Declaration.Matches pair.view
      (.object ⟨kind, named.1, type, named.2⟩ value)
      (.object ⟨kind, named'.1, type, named'.2⟩ value') :=
    .object (named_entity kind type alike) given
  cases kind with
  | var | const | val => exact declared_keeps (alike _)
  | program | param | func => exact in_step_breach

theorem parameter_keeps {named named' : String × Location} (type : Ty)
    (alike : Parse.NamedAlike pair.view named named') :
    Keeps pair (Declaration.Matches pair.view) (parameter named.1 type named.2)
      (parameter named'.1 type named'.2) :=
  declared_keeps (.object (named_entity .param type alike) .none)

theorem listed_types {parameters parameters' : List Declaration}
    (given : List.Forall₂ (Declaration.Matches view) parameters parameters') :
    (parameters.mapM Declaration.entity?).map (List.map Entity.type) =
      (parameters'.mapM Declaration.entity?).map (List.map Entity.type) := by
  induction given with
  | nil => rfl
  | @cons first other others others' alike _ ih =>
      rw [List.mapM_cons, List.mapM_cons]
      rcases both_or_neither alike.entity with ⟨none, none'⟩ | ⟨_, _, named, named', same⟩
      · rw [none, none']
        rfl
      · rw [named, named']
        cases listed : others.mapM Declaration.entity? <;>
          cases listed' : others'.mapM Declaration.entity? <;> rw [listed, listed'] at ih <;>
          simp_all [same.type]

theorem function_keeps {named named' : String × Location}
    {parameters parameters' : List Declaration} (result : Ty)
    (alike : Parse.NamedAlike pair.view named named')
    (given : List.Forall₂ (Declaration.Matches pair.view) parameters parameters') :
    Keeps pair (Declaration.Matches pair.view) (function named.1 parameters result named.2)
      (function named'.1 parameters' result named'.2) := by
  have types := listed_types given
  unfold function
  cases listed : parameters.mapM Declaration.entity? <;>
    cases listed' : parameters'.mapM Declaration.entity? <;> rw [listed, listed'] at types
  · exact in_step_breach
  · cases types
  · cases types
  · simp only [Option.map_some, Option.some.injEq] at types
    simp only [types]
    exact declared_keeps (.prototype (named_entity .func _ alike) given)

end Analysis

end McFront
