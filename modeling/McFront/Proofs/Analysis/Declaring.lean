import McFront.Proofs.Analysis.Gains
import McFront.Proofs.Typing.Acceptance

set_option autoImplicit false

namespace McFront

inductive Request where
  | object (kind : Kind) (name : String) (type : Ty) (initial : Option Expr) (place : Location)
  | parameter (name : String) (type : Ty) (place : Location)
  | function (name : String) (parameters : List Declaration) (result : Ty) (place : Location)
  | declare (declaration : Declaration)

namespace Request

def run : Request → Analysis Declaration
  | object kind name type initial place => Analysis.object kind name type initial place
  | parameter name type place => Analysis.parameter name type place
  | function name parameters result place => Analysis.function name parameters result place
  | declare declaration => do
      Analysis.declare declaration
      return declaration

def named? : Request → Option (String × Location)
  | object _ name _ _ place | parameter name _ place | function name _ _ place => some (name, place)
  | declare declaration => declaration.entity?.map fun entity => (entity.name, entity.location)

-- What makes a request good in some state, whatever names that state holds.
def Admissible : Request → Prop
  | object kind _ type initial _ => (kind = .var ∨ kind = .const ∨ kind = .val) ∧
      (initial = none → kind = .var) ∧ ∀ value ∈ initial, value.type.object = type
  | parameter .. => True
  | function _ parameters _ _ => ∀ parameter ∈ parameters, parameter.entity?.isSome
  | declare declaration => declaration.entity?.isSome

def plan : Request → Except Fault Declaration
  | object kind name type initial place =>
      match Analysis.initializer kind name type initial place with
      | .error error => .error (.error error)
      | .ok value =>
          if kind = .var ∨ kind = .const ∨ kind = .val then
            .ok (.object ⟨kind, name, type, place⟩ value)
          else .error (.breach (.notAnObject kind.name))
  | parameter name type place => .ok (.object ⟨.param, name, type, place⟩ none)
  | function name parameters result place =>
      match parameters.mapM Declaration.entity? with
      | none => .error (.breach .untypedParameter)
      | some entities =>
          .ok (.prototype ⟨.func, name, .function (entities.map Entity.type) result, place⟩
            parameters)
  | declare declaration =>
      if declaration.entity?.isSome then .ok declaration else .error (.breach .programInScope)

-- The request in two stages: checks that read no state, then the one step that may change it.
def staged (request : Request) : Analysis Declaration :=
  match request.plan with
  | .ok declaration => do
      Analysis.declare declaration
      return declaration
  | .error fault => fun analyzer => .error fault analyzer

variable {request : Request} {declaration : Declaration} {entity existing : Entity} {fault : Fault}
  {scope : Scope Entity} {outer : List (Scope Entity)} {function : Option Declaration} {loops : Nat}

theorem run_staged (request : Request) : request.run = request.staged := by
  funext analyzer
  cases request with
  | object kind name type initial place =>
      rw [run, staged, plan, Analysis.object]
      cases Analysis.initializer kind name type initial place with
      | error error => rfl
      | ok value => cases kind <;> rfl
  | parameter name type place => rfl
  | function name parameters result place =>
      rw [run, staged, plan, Analysis.function]
      cases parameters.mapM Declaration.entity? <;> rfl
  | declare declaration =>
      rw [run, staged, plan]
      cases named : declaration.entity? with
      | some entity => rfl
      | none => simp [Analysis.declare, named, bind, EStateM.bind]

theorem initializer_iff {kind : Kind} {name : String} {type : Ty} {initial : Option Expr}
    {place : Location} :
    (∃ value, Analysis.initializer kind name type initial place = .ok value) ↔
      (initial = none → kind = .var) ∧ ∀ value ∈ initial, value.type.object = type := by
  cases initial with
  | none => by_cases isVar : kind = .var <;> simp [Analysis.initializer, isVar]
  | some source =>
      simp only [Analysis.initializer, bind_checked_iff, Expr.require_type_iff, pure_checked_iff]
      constructor
      · rintro ⟨_, held, ⟨isType, valued⟩, rfl⟩
        simpa using isType
      · rintro ⟨_, alike⟩
        exact ⟨_, _, ⟨alike source rfl, source.valued_loaded⟩, rfl⟩

theorem listed_of_named {declarations : List Declaration}
    (named : ∀ declaration ∈ declarations, declaration.entity?.isSome) :
    ∃ entities, declarations.mapM Declaration.entity? = some entities := by
  induction declarations with
  | nil => exact ⟨[], rfl⟩
  | cons first declarations ih =>
      rw [List.forall_mem_cons] at named
      obtain ⟨entity, isEntity⟩ := Option.isSome_iff_exists.mp named.1
      obtain ⟨entities, listed⟩ := ih named.2
      exact ⟨entity :: entities, by simp [List.mapM_cons, isEntity, listed]⟩

theorem admissible_of_plan (planned : request.plan = .ok declaration) : request.Admissible := by
  cases request with
  | object kind name type initial place =>
      rw [plan] at planned
      split at planned
      · cases planned
      · rename_i value given
        split at planned
        · exact ⟨‹_›, initializer_iff.mp ⟨value, given⟩⟩
        · cases planned
  | parameter name type place => exact trivial
  | function name parameters result place =>
      rw [plan] at planned
      split at planned
      · cases planned
      · exact listed_named ‹_›
  | declare asked =>
      rw [plan] at planned
      split at planned
      · assumption
      · cases planned

theorem plan_of_admissible (admissible : request.Admissible) :
    ∃ declaration entity, request.plan = .ok declaration ∧ declaration.entity? = some entity ∧
      request.named? = some (entity.name, entity.location) := by
  cases request with
  | object kind name type initial place =>
      obtain ⟨value, given⟩ := initializer_iff.mpr admissible.2
      rw [plan, given]
      exact ⟨_, _, if_pos admissible.1, rfl, rfl⟩
  | parameter name type place => exact ⟨_, _, rfl, rfl, rfl⟩
  | function name parameters result place =>
      obtain ⟨entities, listed⟩ := listed_of_named admissible
      rw [plan, listed]
      exact ⟨_, _, rfl, rfl, rfl⟩
  | declare asked =>
      obtain ⟨entity, named⟩ := Option.isSome_iff_exists.mp admissible
      exact ⟨asked, entity, if_pos admissible, named, by rw [named?, named]; rfl⟩

theorem declare_fresh (named : declaration.entity? = some entity)
    (fresh : scope.get? entity.name = none) :
    Analysis.declare declaration ⟨⟨scope :: outer⟩, function, loops⟩ =
      .ok () ⟨⟨⟨scope.kind, (entity.name, entity) :: scope.entries⟩ :: outer⟩, function, loops⟩ := by
  simp [Analysis.declare, named, ScopeChain.declare, Scope.declare, fresh]

theorem declare_held (named : declaration.entity? = some entity)
    (held : scope.get? entity.name = some existing) :
    Analysis.declare declaration ⟨⟨scope :: outer⟩, function, loops⟩ =
      .error (.error ((Complaint.redeclaration entity.name).raise entity.location))
        ⟨⟨scope :: outer⟩, function, loops⟩ := by
  simp [Analysis.declare, named, ScopeChain.declare, Scope.declare, held]

inductive Answered (request : Request) (scope : Scope Entity) (outer : List (Scope Entity))
    (function : Option Declaration) (loops : Nat) :
    EStateM.Result Fault Analyzer Declaration → Prop where
  | refused {fault : Fault} (bad : ¬ request.Admissible) :
      Answered request scope outer function loops
        (.error fault ⟨⟨scope :: outer⟩, function, loops⟩)
  | held {name : String} {place : Location} {existing : Entity} (good : request.Admissible)
      (named : request.named? = some (name, place)) (known : scope.get? name = some existing) :
      Answered request scope outer function loops
        (.error (.error ((Complaint.redeclaration name).raise place))
          ⟨⟨scope :: outer⟩, function, loops⟩)
  | declared {declaration : Declaration} {entity : Entity} (good : request.Admissible)
      (named : request.named? = some (entity.name, entity.location))
      (bound : declaration.entity? = some entity) (fresh : scope.get? entity.name = none) :
      Answered request scope outer function loops
        (.ok declaration
          ⟨⟨⟨scope.kind, (entity.name, entity) :: scope.entries⟩ :: outer⟩, function, loops⟩)

theorem answered (request : Request) (scope : Scope Entity) (outer : List (Scope Entity))
    (function : Option Declaration) (loops : Nat) :
    request.Answered scope outer function loops
      (request.run ⟨⟨scope :: outer⟩, function, loops⟩) := by
  rw [run_staged, staged]
  by_cases good : request.Admissible
  · obtain ⟨declaration, entity, planned, bound, named⟩ := plan_of_admissible good
    rw [planned]
    simp only [bind, EStateM.bind]
    cases known : scope.get? entity.name with
    | some existing =>
        rw [declare_held bound known]
        exact .held good named known
    | none =>
        rw [declare_fresh bound known]
        exact .declared good named bound known
  · cases planned : request.plan with
    | ok declaration => exact absurd (admissible_of_plan planned) good
    | error fault => exact .refused good

section Answers

variable {after : Analyzer} {name : String} {place : Location}

theorem refused_unchanged
    (ran : request.run ⟨⟨scope :: outer⟩, function, loops⟩ = .error fault after) :
    after = ⟨⟨scope :: outer⟩, function, loops⟩ := by
  have answered := request.answered scope outer function loops
  rw [ran] at answered
  cases answered <;> rfl

theorem declared_bound
    (ran : request.run ⟨⟨scope :: outer⟩, function, loops⟩ = .ok declaration after) :
    request.Admissible ∧ ∃ entity, declaration.entity? = some entity ∧
      request.named? = some (entity.name, entity.location) ∧ scope.get? entity.name = none ∧
        after =
          ⟨⟨⟨scope.kind, (entity.name, entity) :: scope.entries⟩ :: outer⟩, function, loops⟩ := by
  have answered := request.answered scope outer function loops
  rw [ran] at answered
  cases answered with
  | declared good named bound fresh => exact ⟨good, _, bound, named, fresh, rfl⟩

theorem free_declared (good : request.Admissible)
    (free : ∀ name place, request.named? = some (name, place) → scope.get? name = none) :
    ∃ declaration after,
      request.run ⟨⟨scope :: outer⟩, function, loops⟩ = .ok declaration after := by
  have answered := request.answered scope outer function loops
  cases ran : request.run ⟨⟨scope :: outer⟩, function, loops⟩ with
  | ok declaration after => exact ⟨declaration, after, rfl⟩
  | error fault after =>
      rw [ran] at answered
      cases answered with
      | refused bad => exact absurd good bad
      | held _ named known =>
          rw [free _ _ named] at known
          cases known

theorem held_refused (good : request.Admissible) (asked : request.named? = some (name, place))
    (known : scope.get? name = some existing) :
    request.run ⟨⟨scope :: outer⟩, function, loops⟩ =
      .error (.error ((Complaint.redeclaration name).raise place))
        ⟨⟨scope :: outer⟩, function, loops⟩ := by
  have answered := request.answered scope outer function loops
  cases ran : request.run ⟨⟨scope :: outer⟩, function, loops⟩ with
  | ok declaration after =>
      obtain ⟨_, _, _, named, fresh, _⟩ := declared_bound ran
      cases named.symm.trans asked
      rw [fresh] at known
      cases known
  | error fault after =>
      rw [ran] at answered
      cases answered with
      | refused bad => exact absurd good bad
      | held _ named held =>
          cases named.symm.trans asked
          rfl

end Answers

end Request

theorem Analyzer.lookup_added {scope : Scope Entity} {outer : List (Scope Entity)}
    {function : Option Declaration} {loops : Nat} {name other : String} {entity : Entity} :
    lookup ⟨⟨⟨scope.kind, (name, entity) :: scope.entries⟩ :: outer⟩, function, loops⟩ other =
      if other = name then some entity
      else lookup ⟨⟨scope :: outer⟩, function, loops⟩ other := by
  simp only [lookup, ScopeChain.lookup, List.findSome?_cons, Scope.get?, List.lookup_cons]
  by_cases same : other = name
  · simp [same]
  · simp only [beq_false_of_ne same, if_neg same]

theorem declaring_atomic (request : Request) (scope : Scope Entity) (outer : List (Scope Entity))
    (function : Option Declaration) (loops : Nat) :
    let before : Analyzer := ⟨⟨scope :: outer⟩, function, loops⟩
    (∀ fault after, request.run before = .error fault after → after = before) ∧
    (∀ declaration after, request.run before = .ok declaration after →
      ∃ entity, declaration.entity? = some entity ∧
        request.named? = some (entity.name, entity.location) ∧
        after =
          ⟨⟨⟨scope.kind, (entity.name, entity) :: scope.entries⟩ :: outer⟩, function, loops⟩ ∧
        ∀ name, after.lookup name =
          if name = entity.name then some entity else before.lookup name) ∧
    ((∃ declaration after, request.run before = .ok declaration after) ↔
      request.Admissible ∧
        ∀ name place, request.named? = some (name, place) → scope.get? name = none) ∧
    (request.Admissible → ∀ name place existing, request.named? = some (name, place) →
      scope.get? name = some existing →
      request.run before = .error (.error ((Complaint.redeclaration name).raise place)) before) := by
  intro before
  refine ⟨fun _ _ => Request.refused_unchanged, fun declaration after ran => ?_, ⟨?_, ?_⟩,
    fun good _ _ _ => Request.held_refused good⟩
  · obtain ⟨_, entity, bound, named, _, rfl⟩ := Request.declared_bound ran
    exact ⟨entity, bound, named, rfl, fun name => Analyzer.lookup_added⟩
  · rintro ⟨declaration, after, ran⟩
    obtain ⟨good, entity, _, named, fresh, _⟩ := Request.declared_bound ran
    refine ⟨good, fun name place asked => ?_⟩
    cases named.symm.trans asked
    exact fresh
  · rintro ⟨good, free⟩
    exact Request.free_declared good free

theorem inner_object_declared :
    let place : Location := ⟨2, 5⟩
    let inner : Entity := ⟨.var, "y", .int, ⟨2, 1⟩⟩
    let before : Analyzer :=
      ⟨⟨[⟨.block, [("y", inner)]⟩, ⟨.outermost, [("x", ⟨.var, "x", .bool, .first⟩)]⟩]⟩, none, 0⟩
    (∃ declaration after,
      (Request.object .var "x" .int none place).run before = .ok declaration after ∧
        after.lookup "x" = some ⟨.var, "x", .int, place⟩ ∧ after.lookup "y" = some inner) ∧
    (Request.object .var "y" .int none place).run before =
      .error (.error ((Complaint.redeclaration "y").raise place)) before ∧
    ∃ fault, (Request.object .const "z" .int none place).run before = .error fault before := by
  intro place inner before
  have atomic := fun request => declaring_atomic request ⟨.block, [("y", inner)]⟩
    [⟨.outermost, [("x", ⟨.var, "x", .bool, .first⟩)]⟩] none 0
  refine ⟨?_, ?_, ?_⟩
  · obtain ⟨_, gained, taken, _⟩ := atomic (.object .var "x" .int none place)
    have good : (Request.object .var "x" .int none place).Admissible :=
      ⟨.inl rfl, fun _ => rfl, nofun⟩
    obtain ⟨declaration, after, ran⟩ := taken.mpr ⟨good, fun name place' asked => by
      cases asked
      rfl⟩
    obtain ⟨entity, bound, _, _, found⟩ := gained declaration after ran
    cases ran
    cases bound
    exact ⟨_, _, rfl, found "x", found "y"⟩
  · obtain ⟨_, _, _, refused⟩ := atomic (.object .var "y" .int none place)
    exact refused ⟨.inl rfl, fun _ => rfl, nofun⟩ "y" place inner rfl rfl
  · obtain ⟨kept, _, taken, _⟩ := atomic (.object .const "z" .int none place)
    cases ran : (Request.object .const "z" .int none place).run before with
    | ok declaration after =>
        obtain ⟨⟨_, needed, _⟩, _⟩ := taken.mp ⟨declaration, after, ran⟩
        cases needed rfl
    | error fault after => exact ⟨fault, by rw [kept fault after ran]⟩

end McFront
