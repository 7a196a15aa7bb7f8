import McFront.Proofs.Parsing.Frame
import McFront.Proofs.Typing.Rules

set_option autoImplicit false

namespace McFront

structure Scope.Sound (scope : Scope Entity) : Prop where
  named : ∀ entry ∈ scope.entries, entry.1 = entry.2.name
  distinct : (scope.entries.map Prod.fst).Nodup
  plain : ∀ entry ∈ scope.entries, entry.2.type.Plain

structure Analyzer.Sound (analyzer : Analyzer) : Prop where
  scopes : ∀ scope ∈ analyzer.scopes.scopes, scope.Sound
  given : ∀ function ∈ analyzer.function, ∀ parameter ∈ function.parameters,
    ∀ entity ∈ parameter.entity?, entity.type.Plain

variable {before inside mid after analyzer : Analyzer} {entity : Entity} {entities : List Entity}
  {declaration : Declaration} {depth : Nat} {input rest : List Token} {name : String}

theorem Scope.Sound.get {scope : Scope Entity} (sound : scope.Sound)
    (found : scope.get? name = some entity) : entity.name = name ∧ entity.type.Plain := by
  obtain ⟨first, others, split, _⟩ := List.lookup_eq_some_iff.mp found
  have member : (name, entity) ∈ scope.entries := by simp [split]
  exact ⟨(sound.named _ member).symm, sound.plain _ member⟩

theorem Scope.Sound.declare {scope : Scope Entity} (sound : scope.Sound)
    (fresh : scope.get? entity.name = none) (plain : entity.type.Plain) :
    Scope.Sound ⟨scope.kind, (entity.name, entity) :: scope.entries⟩ := by
  refine ⟨?_, ?_, ?_⟩
  · intro entry member
    rcases List.mem_cons.mp member with rfl | member
    · rfl
    · exact sound.named entry member
  · rw [List.map_cons, List.nodup_cons]
    refine ⟨?_, sound.distinct⟩
    intro held
    obtain ⟨entry, member, same⟩ := List.mem_map.mp held
    have absent := List.lookup_eq_none_iff.mp fresh entry member
    simp [same] at absent
  · intro entry member
    rcases List.mem_cons.mp member with rfl | member
    · exact plain
    · exact sound.plain entry member

theorem Gains.sound (gains : Gains entity before after) (plain : entity.type.Plain)
    (sound : before.Sound) : after.Sound := by
  cases gains with
  | gain fresh =>
      refine ⟨?_, sound.given⟩
      intro scope member
      rcases List.mem_cons.mp member with rfl | member
      · exact (sound.scopes _ (by simp)).declare fresh plain
      · exact sound.scopes scope (List.mem_cons_of_mem _ member)

theorem GainsAll.sound (gains : GainsAll entities before after)
    (plain : ∀ entity ∈ entities, entity.type.Plain) (sound : before.Sound) : after.Sound := by
  induction gains with
  | nil => exact sound
  | cons first rest ih =>
      have mid := first.sound (plain _ (by simp)) sound
      exact ih (fun entity member => plain entity (List.mem_cons_of_mem _ member)) mid

namespace Analyzer.Sound

theorem initial : Analyzer.initial.Sound := ⟨nofun, nofun⟩

theorem entered (sound : analyzer.Sound) (kind : ScopeKind) : (analyzer.entered kind).Sound := by
  refine ⟨?_, sound.given⟩
  intro scope member
  rcases List.mem_cons.mp member with rfl | member
  · exact ⟨nofun, .nil, nofun⟩
  · exact sound.scopes scope member

theorem left (sound : analyzer.Sound) : analyzer.leaveScope.Sound :=
  ⟨fun scope member => sound.scopes scope (List.mem_of_mem_tail member), sound.given⟩

theorem lookup (sound : analyzer.Sound) (found : analyzer.lookup name = some entity) :
    entity.name = name ∧ entity.type.Plain := by
  obtain ⟨scope, member, held⟩ := List.exists_of_findSome?_eq_some found
  exact (sound.scopes scope member).get held

theorem shared (sound : analyzer.Sound) : ∀ parameter ∈ analyzer.shared,
    ∀ entity ∈ parameter.entity?, entity.type.Plain := by
  unfold Analyzer.shared
  split
  · cases active : analyzer.function with
    | none => nofun
    | some function => exact sound.given function active
  · nofun

theorem enter_block (sound : before.Sound) (entered : Analysis.enter .block before = .ok () inside) :
    inside.Sound := by
  rw [McFront.enter_block] at entered
  obtain ⟨entities, listed, gains⟩ := declare_all_gains _ entered
  refine gains.sound ?_ (sound.entered .block)
  intro entity member
  obtain ⟨parameter, among, named⟩ := mem_listed listed member
  exact sound.shared parameter among entity named

end Analyzer.Sound

theorem TypeReading.plain {type : Ty} (reading : TypeReading depth input type rest) :
    type.Plain := by
  induction reading with
  | scalar within named => exact Ty.plain_of_scalar _
  | pointer within isStar pointee ih => exact .pointer ih
  | grouped within opened inner closed ih => exact ih

theorem ObjectReading.keeps (reading : ObjectReading before depth declaration input after rest)
    (sound : before.Sound) : after.Sound := by
  cases reading with
  | object _ _ _ _ isType _ _ built =>
      obtain ⟨_, _, _, _, gains⟩ := object_gains built
      exact gains.sound isType.plain sound

theorem SentenceReading.keeps {sentence : Sentence}
    (reading : SentenceReading before depth sentence input after rest) (sound : before.Sound) :
    after.Sound := by
  induction reading with
  | block within inner ih => exact ih sound
  | when within named tested inner stop ih => exact ih sound
  | ifElse within named tested chosen divided otherwise first second => exact second (first sound)
  | whileLoop within named tested inner ih =>
      have left := ih ⟨sound.scopes, sound.given⟩
      exact ⟨left.scopes, left.given⟩
  | declare within inner => exact inner.keeps sound
  | braces opened entered inner closed ih => exact (ih (sound.enter_block entered)).left
  | moreStatements head tail first others => exact others (first sound)
  | _ => exact sound

def Declaration.IsParameter (declaration : Declaration) : Prop :=
  ∃ entity, declaration = .object entity none ∧ entity.type.Plain

theorem ParametersReading.made {parameters : List Declaration}
    (reading : ParametersReading depth before parameters input after rest) :
    ∀ parameter ∈ parameters, parameter.IsParameter := by
  induction reading with
  | one isName divided isType built stop =>
      obtain ⟨rfl, _⟩ := parameter_gains built
      intro parameter member
      cases List.mem_singleton.mp member
      exact ⟨_, rfl, isType.plain⟩
  | more isName divided isType built continued tail ih =>
      obtain ⟨rfl, _⟩ := parameter_gains built
      intro parameter member
      rcases List.mem_cons.mp member with rfl | member
      · exact ⟨_, rfl, isType.plain⟩
      · exact ih parameter member

theorem ParameterListReading.made {parameters : List Declaration}
    (reading : ParameterListReading depth before parameters input after rest) :
    ∀ parameter ∈ parameters, parameter.IsParameter := by
  cases reading with
  | empty opened closed => nofun
  | filled opened present inner closed => exact inner.made

theorem plain_of_listed {parameters : List Declaration}
    (made : ∀ parameter ∈ parameters, parameter.IsParameter)
    (listed : parameters.mapM Declaration.entity? = some entities) :
    ∀ entity ∈ entities, entity.type.Plain := by
  intro entity member
  obtain ⟨parameter, among, named⟩ := mem_listed listed member
  obtain ⟨other, rfl, plain⟩ := made parameter among
  cases named
  exact plain

theorem HeaderReading.made (reading : HeaderReading depth before declaration input after rest) :
    ∃ entity parameters, declaration = .prototype entity parameters ∧ entity.type.Plain ∧
      (∀ parameter ∈ parameters, parameter.IsParameter) ∧ Gains entity before after := by
  cases reading.prototyped with
  | function taken isType listed gains =>
      refine ⟨_, _, rfl, .function ?_ isType.plain, taken.made, gains⟩
      intro type member
      obtain ⟨entity, among, rfl⟩ := List.mem_map.mp member
      exact plain_of_listed taken.made listed entity among

theorem HeaderReading.keeps (reading : HeaderReading depth before declaration input after rest)
    (sound : before.Sound) : after.Sound := by
  obtain ⟨_, _, _, plain, _, gains⟩ := reading.made
  exact gains.sound plain sound

theorem HeaderReading.begun {begun : Analyzer}
    (reading : HeaderReading depth before declaration input mid rest)
    (begins : Analysis.beginFunction declaration mid = .ok () begun) (sound : before.Sound) :
    begun.Sound := by
  have declared := reading.keeps sound
  obtain ⟨_, _, rfl, _, made, _⟩ := reading.made
  obtain ⟨_, rfl⟩ := begin_function_ran begins
  refine ⟨declared.scopes, ?_⟩
  intro function active parameter member entity isEntity
  cases active
  obtain ⟨other, rfl, plain⟩ := made parameter member
  cases isEntity
  exact plain

theorem DeclarationReading.keeps
    (reading : DeclarationReading depth before declaration input after rest)
    (sound : before.Sound) : after.Sound := by
  cases reading with
  | object inner => exact inner.keeps sound
  | prototype header closed => exact header.keeps sound
  | function header begins inner defined =>
      exact ⟨(inner.keeps (header.begun begins sound)).scopes, nofun⟩

end McFront
