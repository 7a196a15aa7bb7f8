import McFront.Proofs.Typing.Keeping

set_option autoImplicit false

namespace McFront

open McFront.Expr (Wraps)

theorem Conversion.Fits.plain {tag : Conversion} {source target : Ty}
    (fits : tag.Fits source target) (flat : source.Flat) : target.Plain := by
  cases tag with
  | value =>
      obtain rfl : source = .reference target := fits
      exact flat
  | bool =>
      obtain ⟨_, _, rfl⟩ := fits
      exact .bool
  | char =>
      obtain ⟨_, rfl⟩ := fits
      exact .char
  | int | trunc =>
      obtain ⟨_, rfl⟩ := fits
      exact .int
  | ext =>
      obtain ⟨_, rfl⟩ := fits
      exact .float

namespace Expr

def Fits : Expr → Prop
  | .bool _ type _ => type = .bool
  | .int _ type _ => type = .int
  | .float _ type _ => type = .float
  | .char _ type _ => type = .char
  | .name _ entity type _ =>
      match entity.kind with
      | .var | .param => type = .reference entity.type
      | _ => type = entity.type
  | .unary operation operand type _ => operation.Fits operand.type type
  | .binary operation left right type _ => operation.group.Fits left.type right.type type
  | .call callee arguments type _ => callee.type = .function (arguments.map Expr.type) type
  | .index base offset type _ =>
      offset.type = .int ∧ ∃ element, base.type = .pointer element ∧ type = .reference element
  | .cast source type _ => source.type = type
  | .assign target value type _ => target.type = .reference value.type ∧ type = target.type
  | .conditional condition first second type _ =>
      condition.type = .bool ∧ first.type = type ∧ second.type = type
  | .conversion tag source type _ => tag.Fits source.type type

structure Sound (e : Expr) : Prop where
  fits : ∀ node ∈ e.nodes, node.Fits
  flat : e.type.Flat

theorem Wraps.fits {e operand : Expr} (wraps : Wraps e operand)
    (fits : ∀ node ∈ e.nodes, node.Fits) : ∀ node ∈ operand.nodes, node.Fits := by
  induction wraps with
  | same => exact fits
  | converted within ends ih =>
      rw [Expr.converted, nodes, List.forall_mem_cons]
      exact ⟨ends, ih⟩

theorem Wraps.flat {e operand : Expr} (wraps : Wraps e operand) (flat : e.type.Flat) :
    operand.type.Flat := by
  induction wraps with
  | same => exact flat
  | converted within ends ih => exact (ends.plain ih).flat

theorem Sound.wraps {e operand : Expr} (sound : e.Sound) (wraps : Wraps e operand) :
    operand.Sound := ⟨wraps.fits sound.fits, wraps.flat sound.flat⟩

theorem wraps_all_fits {given passed : List Expr} (wraps : List.Forall₂ Wraps given passed)
    (fits : ∀ e ∈ given, ∀ node ∈ e.nodes, node.Fits) :
    ∀ e ∈ passed, ∀ node ∈ e.nodes, node.Fits := by
  induction wraps with
  | nil => exact fits
  | cons first others ih =>
      rw [List.forall_mem_cons] at fits ⊢
      exact ⟨first.fits fits.1, ih fits.2⟩

end Expr

namespace Rule

variable {e operand left right target value condition first second source callee base : Expr}
  {given : List Expr} {place : Location}

theorem unary_sound {operation : UnaryOp} (built : Rule.unary operation operand place = .ok e)
    (sound : operand.Sound) : e.Sound := by
  obtain ⟨inner, type, rfl, wraps, typed⟩ := unary_ok built
  obtain ⟨fits, flat⟩ := typed sound.flat
  refine ⟨?_, flat⟩
  rw [Expr.nodes, List.forall_mem_cons]
  exact ⟨fits, wraps.fits sound.fits⟩

theorem binary_sound {operation : BinaryOp}
    (built : Rule.binary operation left right place = .ok e) (isLeft : left.Sound)
    (isRight : right.Sound) : e.Sound := by
  obtain ⟨one, other, type, rfl, wraps, wrapsToo, fits, flat⟩ := binary_ok built
  refine ⟨?_, flat⟩
  rw [Expr.nodes, List.forall_mem_cons, List.forall_mem_append]
  exact ⟨fits, wraps.fits isLeft.fits, wrapsToo.fits isRight.fits⟩

theorem assign_sound (built : Rule.assign target value place = .ok e) (isTarget : target.Sound)
    (isValue : value.Sound) : e.Sound := by
  obtain ⟨inner, rfl, wraps, isPlace⟩ := assign_ok built
  refine ⟨?_, isTarget.flat⟩
  rw [Expr.nodes, List.forall_mem_cons, List.forall_mem_append]
  exact ⟨⟨isPlace, rfl⟩, isTarget.fits, wraps.fits isValue.fits⟩

theorem conditional_sound (built : Rule.conditional condition first second place = .ok e)
    (isCondition : condition.Sound) (isFirst : first.Sound) (isSecond : second.Sound) :
    e.Sound := by
  obtain ⟨tested, one, other, type, rfl, wraps, wrapsOne, wrapsOther, isBool, isOne, isOther,
    flat⟩ := conditional_ok built
  refine ⟨?_, flat isFirst.flat isSecond.flat⟩
  rw [Expr.nodes, List.forall_mem_cons, List.forall_mem_append, List.forall_mem_append]
  exact ⟨⟨isBool, isOne, isOther⟩, ⟨wraps.fits isCondition.fits, wrapsOne.fits isFirst.fits⟩,
    wrapsOther.fits isSecond.fits⟩

theorem cast_sound {type : Ty} (built : Rule.cast source type place = .ok e)
    (isSource : source.Sound) (plain : type.Plain) : e.Sound := by
  obtain ⟨inner, rfl, wraps, isType⟩ := cast_ok built
  refine ⟨?_, plain.flat⟩
  rw [Expr.nodes, List.forall_mem_cons]
  exact ⟨isType, wraps.fits isSource.fits⟩

theorem call_sound (built : Rule.call callee given place = .ok e) (isCallee : callee.Sound)
    (areGiven : ∀ argument ∈ given, argument.Sound) : e.Sound := by
  obtain ⟨function, passed, type, rfl, wraps, wrapsAll, isFunction, flat⟩ := call_ok built
  refine ⟨?_, flat isCallee.flat⟩
  rw [Expr.nodes, List.forall_mem_cons, List.forall_mem_append]
  refine ⟨isFunction, wraps.fits isCallee.fits, ?_⟩
  rw [Expr.forall_nodes_of]
  exact Expr.wraps_all_fits wrapsAll fun argument member => (areGiven argument member).fits

theorem index_sound (built : Rule.index base given place = .ok e) (isBase : base.Sound)
    (areGiven : ∀ argument ∈ given, argument.Sound) : e.Sound := by
  obtain ⟨offset, pointer, distance, type, rfl, rfl, wraps, wrapsToo, isInt, typed⟩ := index_ok built
  obtain ⟨element, flat⟩ := typed isBase.flat
  refine ⟨?_, flat⟩
  rw [Expr.nodes, List.forall_mem_cons, List.forall_mem_append]
  exact ⟨⟨isInt, element⟩, wraps.fits isBase.fits,
    wrapsToo.fits (areGiven offset (by simp)).fits⟩

theorem name_sound {spelled : String} {entity : Entity} (plain : entity.type.Plain) :
    (Rule.name spelled entity place).Sound := by
  have typed := type_name spelled entity place plain
  have flat : (Rule.name spelled entity place).type.Flat := by
    rw [typed]
    split
    · exact plain
    · exact plain
    · exact plain.flat
  refine ⟨?_, flat⟩
  obtain ⟨kind, name, type, location⟩ := entity
  cases kind <;> exact List.forall_mem_singleton.mpr typed

end Rule

variable {before after : Analyzer} {depth : Nat} {input : List Token}

theorem Rule.keeps_sound : Rule.Keeps Expr.Sound Expr.Fits where
  bool _ _ := ⟨List.forall_mem_singleton.mpr rfl, Ty.Plain.bool⟩
  int _ _ := ⟨List.forall_mem_singleton.mpr rfl, Ty.Plain.int⟩
  float _ _ := ⟨List.forall_mem_singleton.mpr rfl, Ty.Plain.float⟩
  char _ _ := ⟨List.forall_mem_singleton.mpr rfl, Ty.Plain.char⟩
  name _ _ plain := Rule.name_sound plain
  unary := Rule.unary_sound
  binary := Rule.binary_sound
  assign := Rule.assign_sound
  conditional := Rule.conditional_sound
  cast := Rule.cast_sound
  call := Rule.call_sound
  index := Rule.index_sound
  wraps wraps sound := sound.wraps wraps
  everywhere := Expr.Sound.fits

theorem DeclarationsReading.fits {declarations : List Declaration}
    (reading : DeclarationsReading depth before declarations input after) (sound : before.Sound) :
    ∀ node ∈ Declaration.nodesOf declarations, node.Fits :=
  reading.everywhere Rule.keeps_sound sound

theorem program_well_typed (text : String) (interner : Interner) (program : Declaration)
    (accepted : (compile text interner).1 = .ok program) :
    ∀ node ∈ program.nodes, node.Fits := by
  obtain ⟨_, _, reading⟩ := compile_reads accepted
  cases reading with
  | program entered inner =>
      cases entered
      exact inner.fits (Analyzer.Sound.initial.entered .outermost)

theorem widening_well_typed :
    ∃ program, (compile "def f(x: int) -> float \x7b return x as float + 1.5; \x7d" .empty).1 =
        .ok program ∧
      program.nodes.length = 6 ∧ ∀ node ∈ program.nodes, node.Fits := by
  obtain ⟨program, accepted, long⟩ := exists_of_measured (show
    (compile "def f(x: int) -> float \x7b return x as float + 1.5; \x7d" .empty).1.toOption.map
      (fun program => program.nodes.length) = some 6 by decide +kernel)
  exact ⟨program, accepted, long, program_well_typed _ .empty program accepted⟩

end McFront
