import McFront.Proofs.Tree.Height
import McFront.Proofs.Typing.WellTyped

set_option autoImplicit false

namespace McFront

theorem exists_of_forall₂ {α β : Type} {related : α → β → Prop} {lefts : List α} {rights : List β}
    (all : List.Forall₂ related lefts rights) :
    ∀ right ∈ rights, ∃ left ∈ lefts, related left right := by
  induction all with
  | nil => nofun
  | cons first others ih =>
      rw [List.forall_mem_cons]
      refine ⟨⟨_, List.mem_cons_self, first⟩, ?_⟩
      intro right member
      obtain ⟨left, among, isRelated⟩ := ih right member
      exact ⟨left, List.mem_cons_of_mem _ among, isRelated⟩

namespace Expr

structure Carries (steps : Nat) (source operand : Expr) : Prop where
  height : operand.height ≤ source.height + steps
  nodes : ∀ node ∈ source.nodes, node ∈ operand.nodes

-- A node over parts that hold the operands, each inside two conversions at most.
structure Over (operands : List Expr) (e : Expr) : Prop where
  height : ∀ bound, (∀ operand ∈ operands, operand.height ≤ bound) → e.height ≤ bound + 3
  nodes : ∀ operand ∈ operands, ∀ node ∈ operand.nodes, node ∈ e.nodes

variable {e source operand : Expr} {operands : List Expr} {category : Category} {target : Ty}
  {steps more : Nat}

namespace Carries

theorem same (e : Expr) : Carries 0 e e := ⟨Nat.le_refl _, fun _ => id⟩

theorem converted {tag : Conversion} (carries : Carries steps source operand) :
    Carries (steps + 1) source (operand.converted tag target) := by
  refine ⟨Nat.succ_le_succ carries.height, ?_⟩
  intro node member
  exact List.mem_cons_of_mem _ (carries.nodes node member)

theorem weaken (carries : Carries steps source operand) (atMost : steps ≤ more) :
    Carries more source operand :=
  ⟨carries.height.trans (Nat.add_le_add_left atMost _), carries.nodes⟩

end Carries

theorem loaded_carries (e : Expr) : Carries 1 e e.loaded := by
  unfold loaded
  split
  · exact (Carries.same e).converted
  · exact (Carries.same e).weaken (Nat.zero_le 1)

theorem require_carries (required : e.require category = .ok operand) : Carries 2 e operand := by
  unfold require at required
  split at required <;> cases required
  exact e.loaded_carries.weaken (Nat.le_succ 1)

theorem require_place_carries (required : e.requirePlace = .ok operand) : Carries 2 e operand := by
  obtain ⟨rfl, _⟩ := require_place_ok required
  exact (Carries.same _).weaken (Nat.zero_le 2)

theorem require_truth_carries (required : e.requireTruth = .ok operand) : Carries 2 e operand := by
  unfold requireTruth at required
  split at required
  · cases required
    exact e.loaded_carries.weaken (Nat.le_succ 1)
  · split at required <;> cases required
    exact e.loaded_carries.converted

theorem require_type_carries (required : e.requireType target = .ok operand) :
    Carries 2 e operand := by
  unfold requireType at required
  split at required <;> cases required
  exact e.loaded_carries.weaken (Nat.le_succ 1)

theorem convert_to_carries (converted : e.convertTo target = .ok operand) :
    Carries 2 e operand := by
  unfold convertTo at converted
  split at converted
  · cases converted
    exact (Carries.same _).weaken (Nat.zero_le 2)
  · have carries : Carries 1 e (if target.isReference = true then e else e.loaded) := by
      split
      · exact (Carries.same e).weaken (Nat.zero_le 1)
      · exact e.loaded_carries
    simp only at converted
    generalize (if target.isReference = true then e else e.loaded) = value at converted carries
    split at converted
    · cases converted
      exact carries.weaken (Nat.le_succ 1)
    · split at converted <;> cases converted
      exact carries.converted

theorem unary_carries {operation : UnaryOp} (required : operation.require e = .ok operand) :
    Carries 2 e operand := by
  cases operation with
  | pos | neg | cmp | deref => exact require_carries required
  | not => exact require_truth_carries required
  | addr => exact require_place_carries required

theorem binary_carries {group : BinaryOp.Group} (required : group.require e = .ok operand) :
    Carries 2 e operand := by
  cases group with
  | arithmetic | bitwise | equality | ordering => exact require_carries required
  | logical => exact require_truth_carries required

theorem over_of_carries (carried : List.Forall₂ (Carries 2) operands e.children) :
    e.Over operands := by
  constructor
  · intro bound within
    rw [height_eq, Nat.succ_le_succ_iff, height_of_le]
    intro child member
    obtain ⟨operand, among, carries⟩ := exists_of_forall₂ carried child member
    have := within operand among
    exact carries.height.trans (by omega)
  · intro operand among node inside
    obtain ⟨child, member, carries⟩ := exists_of_forall₂ carried.flip operand among
    exact mem_nodes.mpr (.inr ⟨child, member, carries.nodes node inside⟩)

end Expr

namespace Rule

open McFront.Expr

variable {e operand left right target value condition first second source callee base : Expr}
  {given passed : List Expr} {place : Location}

theorem unary_over {operation : UnaryOp} (built : Rule.unary operation operand place = .ok e) :
    e.Over [operand] := by
  rw [unary_eq] at built
  obtain ⟨inner, required, built⟩ := bind_checked built
  cases built
  exact over_of_carries (.cons (unary_carries required) .nil)

theorem binary_over {operation : BinaryOp}
    (built : Rule.binary operation left right place = .ok e) : e.Over [left, right] := by
  obtain ⟨one, other, required, requiredToo, _, rfl⟩ := binary_ran built
  exact over_of_carries
    (.cons (binary_carries required) (.cons (binary_carries requiredToo) .nil))

theorem assign_over (built : Rule.assign target value place = .ok e) :
    e.Over [target, value] := by
  obtain ⟨object, source, _, required, rfl⟩ := assign_ran built
  have kept : Carries 2 target target := (Carries.same target).weaken (Nat.zero_le 2)
  exact over_of_carries (.cons kept (.cons (require_type_carries required) .nil))

theorem conditional_over (built : Rule.conditional condition first second place = .ok e) :
    e.Over [condition, first, second] := by
  obtain ⟨tested, type, one, other, required, _, converted, convertedToo, rfl⟩ :=
    conditional_ran built
  exact over_of_carries (.cons (require_truth_carries required)
    (.cons (convert_to_carries converted) (.cons (convert_to_carries convertedToo) .nil)))

theorem cast_over {type : Ty} (built : Rule.cast source type place = .ok e) :
    e.Over [source] := by
  obtain ⟨inner, converted, built⟩ := bind_checked built
  cases built
  exact over_of_carries (.cons (convert_to_carries converted) .nil)

theorem arguments_carried {types : List Ty} (given passed : List Expr)
    (built : Rule.arguments types given = .ok passed) (alike : given.length = types.length) :
    List.Forall₂ (Carries 2) given passed := by
  induction types generalizing given passed with
  | nil =>
      obtain rfl := List.length_eq_zero_iff.mp alike
      cases built
      exact .nil
  | cons type types ih =>
      cases given with
      | nil => cases alike
      | cons argument given =>
          obtain ⟨first, required, built⟩ := bind_checked built
          obtain ⟨others, requiredToo, built⟩ := bind_checked built
          cases built
          exact .cons (require_type_carries required)
            (ih given others requiredToo (Nat.succ.inj alike))

theorem call_over (built : Rule.call callee given place = .ok e) :
    e.Over (callee :: given) ∧ e.type.object.height < callee.type.object.height := by
  obtain ⟨function, parameters, passed, result, required, isFunction, alike, checked, rfl⟩ :=
    call_ran built
  obtain ⟨_, isObject, _⟩ := require_function required
  have carried := arguments_carried given passed checked alike
  refine ⟨over_of_carries (.cons (require_carries required) carried), ?_⟩
  rw [← isObject, isFunction]
  exact Nat.lt_succ_of_le (le_max_of_le_right result.height_object)

theorem index_over (built : Rule.index base given place = .ok e) :
    e.Over (base :: given) ∧ e.type.object.height < base.type.object.height := by
  obtain ⟨offset, pointer, distance, pointee, rfl, required, isPointer, requiredToo, rfl⟩ :=
    index_ran built
  obtain ⟨_, isObject, _⟩ := require_pointer required
  refine ⟨over_of_carries
    (.cons (require_carries required) (.cons (require_carries requiredToo) .nil)), ?_⟩
  rw [← isObject, isPointer]
  exact Nat.lt_succ_of_le pointee.height_object_reference_to

end Rule

def Entity.Low (limit : Nat) (entity : Entity) : Prop :=
  entity.type.height ≤ limit ∨ entity.kind = .func ∧ entity.type.height ≤ limit + 1

theorem Entity.Low.height {limit : Nat} {entity : Entity} (low : entity.Low limit) :
    entity.type.height ≤ limit + 1 := by
  rcases low with low | ⟨_, low⟩ <;> omega

namespace Expr

variable {limit : Nat} {e : Expr}

-- What fits operands of such types has a type of such a height, too. A place counts one more than
-- its object, and so does a pointer to it.
theorem Fits.low (fits : e.Fits) (names : ∀ entity ∈ e.entity?, entity.Low limit)
    (children : ∀ child ∈ e.children, child.type.height ≤ limit + 1) :
    e.type.height ≤ limit + 1 := by
  have one : 1 ≤ limit + 1 := Nat.le_add_left 1 limit
  cases e with
  | bool | int | float | char =>
      cases fits
      exact one
  | name spelled entity type place =>
      have low : entity.Low limit := names entity rfl
      obtain ⟨kind, name, object, declared⟩ := entity
      cases kind with
      | var | param =>
          cases fits
          rcases low with low | ⟨isFunction, _⟩
          · exact Nat.succ_le_succ low
          · cases isFunction
      | program | const | val | func =>
          cases fits
          exact low.height
  | unary operation operand type place =>
      have inner := children operand (.head _)
      cases operation with
      | pos | neg =>
          obtain ⟨_, rfl⟩ := fits
          exact inner
      | cmp | not =>
          obtain ⟨_, rfl⟩ := fits
          exact one
      | addr =>
          obtain ⟨object, isPlace, rfl⟩ := fits
          rw [isPlace] at inner
          exact inner
      | deref =>
          obtain ⟨pointee, isPointer, rfl⟩ := fits
          rw [isPointer] at inner
          exact inner
  | binary operation left right type place =>
      have leftLow := children left (.head _)
      change operation.group.Fits left.type right.type type at fits
      cases group : operation.group with
      | arithmetic =>
          rw [group] at fits
          obtain ⟨_, rfl, _⟩ := fits
          exact leftLow
      | bitwise | logical | equality | ordering =>
          rw [group] at fits
          obtain ⟨_, _, rfl⟩ := fits
          exact one
  | call callee arguments type place =>
      have inner := children callee (.head _)
      rw [show callee.type = .function (arguments.map Expr.type) type from fits, Ty.height] at inner
      exact le_trans (le_trans (le_max_right ..) (Nat.le_succ _)) inner
  | index base offset type place =>
      have inner := children base (.head _)
      obtain ⟨_, element, isPointer, rfl⟩ := fits
      rw [isPointer] at inner
      exact inner
  | cast source type place =>
      obtain rfl : source.type = type := fits
      exact children source (.head _)
  | assign target value type place =>
      obtain ⟨_, rfl⟩ := fits
      exact children target (.head _)
  | conditional condition first second type place =>
      obtain ⟨_, rfl, _⟩ := fits
      exact children first (.tail _ (.head _))
  | conversion tag source type place =>
      have inner := children source (.head _)
      cases tag with
      | value =>
          rw [show source.type = .reference type from fits] at inner
          exact le_trans (Nat.le_succ _) inner
      | bool =>
          obtain ⟨_, _, rfl⟩ := fits
          exact one
      | char | int | ext | trunc =>
          obtain ⟨_, rfl⟩ := fits
          exact one

def Low (limit : Nat) (e : Expr) : Prop := ∀ node ∈ e.nodes, node.type.height ≤ limit + 1

theorem Low.part {part : Expr} (low : e.Low limit) (inside : ∀ node ∈ part.nodes, node ∈ e.nodes) :
    part.Low limit := fun node member => low node (inside node member)

theorem Over.low {operands : List Expr} (above : e.Over operands) (low : e.Low limit) :
    ∀ operand ∈ operands, operand.Low limit :=
  fun operand among => low.part (above.nodes operand among)

theorem low_of_fits (e : Expr) (fits : ∀ node ∈ e.nodes, node.Fits)
    (names : ∀ node ∈ e.nodes, ∀ entity ∈ node.entity?, entity.Low limit) : e.Low limit := by
  have below : ∀ child ∈ e.children, child.Low limit := by
    intro child among
    have inside : ∀ node ∈ child.nodes, node ∈ e.nodes :=
      fun node member => mem_nodes.mpr (.inr ⟨child, among, member⟩)
    have smaller := height_child among
    exact low_of_fits child (fun node member => fits node (inside node member))
      fun node member => names node (inside node member)
  intro node member
  rcases mem_nodes.mp member with rfl | ⟨child, among, isInside⟩
  · exact (fits node member).low (names node member)
      fun child among => below child among child child.mem_nodes_self
  · exact below child among node isInside
termination_by e.height

end Expr
end McFront
