import McFront.Proofs.Parsing.Nesting

set_option autoImplicit false

namespace McFront

open McFront.Expr (Wraps)

theorem UnaryOp.Fits.plain {operation : UnaryOp} {operand type : Ty}
    (fits : operation.Fits operand type) (flat : operand.Flat) :
    operation = .deref ∨ type.Plain := by
  cases operation with
  | pos | neg =>
      obtain ⟨rfl | rfl, rfl⟩ := fits
      · exact .inr .int
      · exact .inr .float
  | cmp =>
      obtain ⟨_, rfl⟩ := fits
      exact .inr .int
  | not =>
      obtain ⟨_, rfl⟩ := fits
      exact .inr .bool
  | addr =>
      obtain ⟨object, rfl, rfl⟩ := fits
      exact .inr (.pointer flat)
  | deref => exact .inl rfl

theorem BinaryOp.Group.Fits.plain {group : BinaryOp.Group} {left right type : Ty}
    (fits : group.Fits left right type) : type.Plain := by
  cases group with
  | arithmetic =>
      obtain ⟨rfl | rfl, _⟩ := fits
      · exact .int
      · exact .float
  | bitwise =>
      obtain ⟨_, _, rfl⟩ := fits
      exact .int
  | logical | equality | ordering =>
      obtain ⟨_, _, rfl⟩ := fits
      exact .bool

namespace Expr

def place? : Expr → Option Expr
  | .assign target _ _ _ => some target
  | .unary .addr operand _ _ => some operand
  | _ => none

def ends : Expr → List Expr
  | .assign target _ _ _ => target.ends
  | .conditional _ first second _ _ => first.ends ++ second.ends
  | e => [e]

inductive IsPlace : Expr → Prop where
  | name {spelled : String} {entity : Entity} {type : Ty} {place : Location}
      (isPlace : entity.kind = .var ∨ entity.kind = .param) :
      IsPlace (.name spelled entity type place)
  | deref {operand : Expr} {type : Ty} {place : Location} :
      IsPlace (.unary .deref operand type place)
  | index {base offset : Expr} {type : Ty} {place : Location} :
      IsPlace (.index base offset type place)

def Written : Expr → Prop
  | .name _ entity _ _ => entity.type.Plain
  | .cast _ type _ => type.Plain
  | _ => True

-- An expression that passes on places only, if it is a place.
def Settles (e : Expr) : Prop := e.type.isReference = true → ∀ part ∈ e.ends, part.IsPlace

structure Held (e : Expr) : Prop where
  sound : e.Sound
  settles : e.Settles
  places : ∀ node ∈ e.nodes, ∀ place ∈ node.place?, ∀ part ∈ place.ends, part.IsPlace

variable {e operand : Expr}

theorem place_child (fits : e.Fits) :
    ∀ place ∈ e.place?, place ∈ e.children ∧ place.type.isReference = true := by
  intro place changed
  cases e with
  | assign target value type location =>
      cases changed
      refine ⟨.head _, ?_⟩
      rw [fits.1]
      rfl
  | unary operation operand type location =>
      cases operation with
      | addr =>
          cases changed
          obtain ⟨object, isPlace, _⟩ := fits
          refine ⟨.head _, ?_⟩
          rw [isPlace]
          rfl
      | pos | neg | cmp | not | deref => cases changed
  | _ => cases changed

theorem settles_of_children (fits : e.Fits) (written : e.Written)
    (flat : ∀ child ∈ e.children, child.type.Flat) (settle : ∀ child ∈ e.children, child.Settles) :
    e.Settles := by
  intro isPlace
  cases e with
  | bool | int | float | char =>
      cases fits
      cases isPlace
  | name spelled entity type location =>
      obtain ⟨kind, name, object, declared⟩ := entity
      cases kind with
      | var => exact List.forall_mem_singleton.mpr (.name (.inl rfl))
      | param => exact List.forall_mem_singleton.mpr (.name (.inr rfl))
      | program | const | val | func =>
          cases fits
          exact absurd isPlace (Ty.Plain.not_reference written)
  | unary operation operand type location =>
      rcases UnaryOp.Fits.plain fits (flat operand (.head _)) with rfl | plain
      · exact List.forall_mem_singleton.mpr .deref
      · exact absurd isPlace plain.not_reference
  | binary operation left right type location =>
      have plain : type.Plain := BinaryOp.Group.Fits.plain fits
      exact absurd isPlace plain.not_reference
  | call callee arguments type location =>
      have isFunction : callee.type = .function (arguments.map Expr.type) type := fits
      have flatCallee := flat callee (.head _)
      unfold Ty.Flat at flatCallee
      rw [isFunction] at flatCallee
      cases flatCallee with
      | function _ returned => exact absurd isPlace returned.not_reference
  | index => exact List.forall_mem_singleton.mpr .index
  | cast source type location => exact absurd isPlace (Ty.Plain.not_reference written)
  | assign target value type location =>
      obtain ⟨_, rfl⟩ := fits
      exact settle target (.head _) isPlace
  | conditional condition first second type location =>
      obtain ⟨_, isFirst, isSecond⟩ := fits
      have one := settle first (.tail _ (.head _))
      have other := settle second (.tail _ (.tail _ (.head _)))
      unfold Settles at one other
      rw [isFirst] at one
      rw [isSecond] at other
      exact List.forall_mem_append.mpr ⟨one isPlace, other isPlace⟩
  | conversion tag source type location =>
      have plain : type.Plain := Conversion.Fits.plain fits (flat source (.head _))
      exact absurd isPlace plain.not_reference

theorem Held.of_children (sound : e.Sound) (written : e.Written)
    (held : ∀ child ∈ e.children, child.Held) : e.Held := by
  have fits := sound.fits e e.mem_nodes_self
  refine ⟨sound, ?_, ?_⟩
  · exact settles_of_children fits written (fun child among => (held child among).sound.flat)
      fun child among => (held child among).settles
  · intro node member place changed
    rcases mem_nodes.mp member with rfl | ⟨child, among, inside⟩
    · obtain ⟨isChild, isPlace⟩ := place_child fits place changed
      exact (held place isChild).settles isPlace
    · exact (held child among).places node inside place changed

theorem Held.wraps (held : e.Held) (wraps : Wraps e operand) : operand.Held := by
  induction wraps with
  | same => exact held
  | converted within ends ih =>
      exact .of_children (held.sound.wraps (.converted within ends)) trivial
        (List.forall_mem_singleton.mpr ih)

theorem Held.wraps_all {given passed : List Expr} (held : ∀ e ∈ given, e.Held)
    (wraps : List.Forall₂ Wraps given passed) : ∀ e ∈ passed, e.Held := by
  intro e member
  obtain ⟨source, among, wrapped⟩ := exists_of_forall₂ wraps e member
  exact (held source among).wraps wrapped

end Expr

namespace Rule

open McFront.Expr

theorem keeps_held : Rule.Keeps Expr.Held fun node =>
    ∀ place ∈ node.place?, ∀ part ∈ place.ends, part.IsPlace where
  bool value place := .of_children (keeps_sound.bool value place) trivial (List.forall_mem_nil _)
  int value place := .of_children (keeps_sound.int value place) trivial (List.forall_mem_nil _)
  float value place := .of_children (keeps_sound.float value place) trivial (List.forall_mem_nil _)
  char value place := .of_children (keeps_sound.char value place) trivial (List.forall_mem_nil _)
  name _ place plain := .of_children (name_sound plain) plain (List.forall_mem_nil _)
  unary built held := by
    have sound := unary_sound built held.sound
    obtain ⟨inner, type, rfl, wraps, _⟩ := unary_ok built
    exact .of_children sound trivial (List.forall_mem_singleton.mpr (held.wraps wraps))
  binary built left right := by
    have sound := binary_sound built left.sound right.sound
    obtain ⟨one, other, type, rfl, wraps, wrapsToo, _⟩ := binary_ok built
    refine .of_children sound trivial ?_
    simpa [children] using ⟨left.wraps wraps, right.wraps wrapsToo⟩
  assign built target value := by
    have sound := assign_sound built target.sound value.sound
    obtain ⟨source, rfl, wraps, _⟩ := assign_ok built
    refine .of_children sound trivial ?_
    simpa [children] using ⟨target, value.wraps wraps⟩
  conditional built condition first second := by
    have sound := conditional_sound built condition.sound first.sound second.sound
    obtain ⟨tested, one, other, type, rfl, wraps, wrapsOne, wrapsOther, _⟩ := conditional_ok built
    refine .of_children sound trivial ?_
    simpa [children] using
      ⟨condition.wraps wraps, first.wraps wrapsOne, second.wraps wrapsOther⟩
  cast built source plain := by
    have sound := cast_sound built source.sound plain
    obtain ⟨inner, rfl, wraps, _⟩ := cast_ok built
    exact .of_children sound plain (List.forall_mem_singleton.mpr (source.wraps wraps))
  call built callee given := by
    have sound := call_sound built callee.sound fun argument member => (given argument member).sound
    obtain ⟨function, passed, type, rfl, wraps, wrapsAll, _⟩ := call_ok built
    exact .of_children sound trivial
      (List.forall_mem_cons.mpr ⟨callee.wraps wraps, Held.wraps_all given wrapsAll⟩)
  index built base given := by
    have sound := index_sound built base.sound fun argument member => (given argument member).sound
    obtain ⟨offset, pointer, distance, type, rfl, rfl, wraps, wrapsToo, _⟩ := index_ok built
    refine .of_children sound trivial ?_
    have isOffset := given offset (.head _)
    simpa [children] using ⟨base.wraps wraps, isOffset.wraps wrapsToo⟩
  wraps wraps held := held.wraps wraps
  everywhere := Held.places

end Rule

namespace Expr

theorem mem_nodes_of_end (e : Expr) : ∀ part ∈ e.ends, part ∈ e.nodes := by
  intro part member
  fun_induction ends e with
  | case1 target value type location ih =>
      exact mem_nodes.mpr (.inr ⟨target, .head _, ih member⟩)
  | case2 condition first second type location ihFirst ihSecond =>
      rcases List.mem_append.mp member with isFirst | isSecond
      · exact mem_nodes.mpr (.inr ⟨first, .tail _ (.head _), ihFirst isFirst⟩)
      · exact mem_nodes.mpr (.inr ⟨second, .tail _ (.tail _ (.head _)), ihSecond isSecond⟩)
  | case3 =>
      cases List.mem_singleton.mp member
      exact mem_nodes_self _

theorem nodes_within (e : Expr) : ∀ node ∈ e.nodes, ∀ part ∈ node.nodes, part ∈ e.nodes := by
  intro node member part inside
  rcases mem_nodes.mp member with rfl | ⟨child, among, isInside⟩
  · exact inside
  · have smaller := height_child among
    exact mem_nodes.mpr (.inr ⟨child, among, child.nodes_within node isInside part inside⟩)
termination_by e.height

end Expr

theorem Declaration.nodes_within (declaration : Declaration) :
    ∀ node ∈ declaration.nodes, ∀ part ∈ node.nodes, part ∈ declaration.nodes := by
  obtain ⟨es, isNodes, _⟩ := declaration.rooted
  intro node member part inside
  rw [isNodes, Expr.mem_nodes_of] at member ⊢
  obtain ⟨e, among, isInside⟩ := member
  exact ⟨e, among, e.nodes_within node isInside part inside⟩

theorem program_changes_places (text : String) (interner : Interner) (program : Declaration)
    (accepted : (compile text interner).1 = .ok program) :
    ∀ node ∈ program.nodes, ∀ place ∈ node.place?, ∀ part ∈ place.ends,
      part.IsPlace ∧ ∀ entity ∈ part.entity?, entity ∈ program.declared := by
  obtain ⟨_, _, reading⟩ := compile_reads accepted
  intro node member place changed part isEnd
  have isPlace := reading.everywhere Rule.keeps_held node member place changed part isEnd
  refine ⟨isPlace, ?_⟩
  obtain ⟨isChild, _⟩ := Expr.place_child (reading.fits node member) place changed
  have inside : part ∈ node.nodes :=
    Expr.mem_nodes.mpr (.inr ⟨place, isChild, place.mem_nodes_of_end part isEnd⟩)
  exact reading.names_declared part (program.nodes_within node member part inside)

theorem assigned_choice_changes_places :
    ∃ program, (compile
      "def f(p: *int, c: bool) -> int \x7b var x: int; return (c ? x : p[1]) = *(&x); \x7d"
        .empty).1 = .ok program ∧
      (program.nodes.filterMap Expr.place?).map (fun place => place.ends.length) = [2, 1] ∧
      ∀ node ∈ program.nodes, ∀ place ∈ node.place?, ∀ part ∈ place.ends,
        part.IsPlace ∧ ∀ entity ∈ part.entity?, entity ∈ program.declared := by
  obtain ⟨program, accepted, changed⟩ := exists_of_measured (show (compile
      "def f(p: *int, c: bool) -> int \x7b var x: int; return (c ? x : p[1]) = *(&x); \x7d"
        .empty).1.toOption.map (fun program =>
          (program.nodes.filterMap Expr.place?).map fun place => place.ends.length) = some [2, 1]
    by decide +kernel)
  exact ⟨program, accepted, changed, program_changes_places _ .empty program accepted⟩

end McFront
