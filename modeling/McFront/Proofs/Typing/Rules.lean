import Mathlib.Data.List.Forall2
import McFront.Proofs.Typing.Operands

set_option autoImplicit false

namespace McFront

namespace Ty

inductive Plain : Ty → Prop where
  | bool : Plain .bool
  | char : Plain .char
  | int : Plain .int
  | float : Plain .float
  | pointer {pointee : Ty} (plain : Plain pointee) : Plain (.pointer pointee)
  | function {parameters : List Ty} {result : Ty} (plain : ∀ type ∈ parameters, Plain type)
      (returned : Plain result) : Plain (.function parameters result)

-- Types with a reference outermost at most, as expressions have them.
def Flat (type : Ty) : Prop := type.object.Plain

variable {type : Ty}

theorem Plain.object (plain : type.Plain) : type.object = type := by
  cases plain <;> rfl

theorem Plain.flat (plain : type.Plain) : type.Flat := by
  unfold Flat
  rwa [plain.object]

theorem Plain.not_reference (plain : type.Plain) : type.isReference ≠ true := by
  cases plain <;> nofun

theorem Plain.reference_to (plain : type.Plain) : type.referenceTo = .reference type := by
  cases plain <;> rfl

theorem Plain.pointed {pointee : Ty} (plain : Plain (.pointer pointee)) : pointee.Plain := by
  cases plain with
  | pointer plain => exact plain

theorem plain_of_scalar (scalar : Scalar) : (Ty.ofScalar scalar).Plain := by
  cases scalar <;> constructor

theorem flat_of_number (isNumber : type = .int ∨ type = .float) : type.Flat := by
  rcases isNumber with rfl | rfl
  · exact Plain.int.flat
  · exact Plain.float.flat

theorem flat_common {left right type : Ty} (found : Ty.common? left right = some type)
    (isLeft : left.Flat) (isRight : right.Flat) : type.Flat := by
  unfold Ty.common? at found
  split at found
  · cases found
    exact isLeft
  · split at found
    · cases found
      exact isRight
    · split at found
      · cases found
        exact isLeft
      · cases found

end Ty

def UnaryOp.Fits : UnaryOp → Ty → Ty → Prop
  | .pos, operand, type | .neg, operand, type => (operand = .int ∨ operand = .float) ∧ type = operand
  | .cmp, operand, type => operand = .int ∧ type = .int
  | .not, operand, type => operand = .bool ∧ type = .bool
  | .addr, operand, type => ∃ object, operand = .reference object ∧ type = .pointer object
  | .deref, operand, type => ∃ pointee, operand = .pointer pointee ∧ type = .reference pointee

def BinaryOp.Group.Fits : BinaryOp.Group → Ty → Ty → Ty → Prop
  | .arithmetic, left, right, type => (type = .int ∨ type = .float) ∧ left = type ∧ right = type
  | .bitwise, left, right, type => left = .int ∧ right = .int ∧ type = .int
  | .logical, left, right, type => left = .bool ∧ right = .bool ∧ type = .bool
  | .equality, left, right, type => left = right ∧ left.isScalar = true ∧ type = .bool
  | .ordering, left, right, type => left = right ∧ left.isNumeric = true ∧ type = .bool

def UnaryOp.require : UnaryOp → Expr → Checked Expr
  | .pos | .neg => Expr.require .arithmetic
  | .cmp => Expr.require .integer
  | .not => Expr.requireTruth
  | .addr => Expr.requirePlace
  | .deref => Expr.require .pointer

def UnaryOp.gives : UnaryOp → Ty → Ty
  | .pos, operand | .neg, operand => operand
  | .cmp, _ => .int
  | .not, _ => .bool
  | .addr, operand => .pointer operand.object
  | .deref, operand => .referenceTo (operand.pointee?.getD operand)

def BinaryOp.Group.require : BinaryOp.Group → Expr → Checked Expr
  | .arithmetic => Expr.require .arithmetic
  | .bitwise => Expr.require .integer
  | .logical => Expr.requireTruth
  | .equality => Expr.require .scalar
  | .ordering => Expr.require .numeric

def BinaryOp.Group.gives : BinaryOp.Group → Ty → Ty
  | .arithmetic, operand => operand
  | .bitwise, _ => .int
  | .logical, _ | .equality, _ | .ordering, _ => .bool

open McFront.Expr (Wraps)

theorem UnaryOp.require_wraps {operation : UnaryOp} {operand inner : Expr}
    (required : operation.require operand = .ok inner) : Wraps operand inner := by
  cases operation with
  | pos | neg | cmp | deref => exact (Expr.require_ok required).1
  | not => exact (Expr.require_truth_ok required).1
  | addr =>
      obtain ⟨rfl, _⟩ := Expr.require_place_ok required
      exact .same

-- Only what makes a place, or is one, needs the operand to be without references below its own.
theorem UnaryOp.require_fits {operation : UnaryOp} {operand inner : Expr}
    (required : operation.require operand = .ok inner) (flat : operand.type.Flat) :
    operation.Fits inner.type (operation.gives inner.type) ∧
      (operation.gives inner.type).Flat := by
  cases operation with
  | pos | neg =>
      obtain ⟨_, isNumber⟩ := Expr.require_arithmetic required
      exact ⟨⟨isNumber, rfl⟩, Ty.flat_of_number isNumber⟩
  | cmp => exact ⟨⟨(Expr.require_integer required).2, rfl⟩, Ty.Plain.int.flat⟩
  | not => exact ⟨⟨(Expr.require_truth_ok required).2, rfl⟩, Ty.Plain.bool.flat⟩
  | addr =>
      obtain ⟨rfl, object, isPlace⟩ := Expr.require_place_ok required
      unfold Ty.Flat at flat
      rw [isPlace] at flat ⊢
      exact ⟨⟨object, rfl, rfl⟩, (Ty.Plain.pointer flat).flat⟩
  | deref =>
      obtain ⟨_, isObject, pointee, isPointer⟩ := Expr.require_pointer required
      unfold Ty.Flat at flat
      rw [← isObject, isPointer] at flat
      rw [isPointer]
      change UnaryOp.Fits .deref (.pointer pointee) pointee.referenceTo ∧ pointee.referenceTo.Flat
      rw [flat.pointed.reference_to]
      exact ⟨⟨pointee, rfl, rfl⟩, flat.pointed⟩

theorem BinaryOp.Group.require_wraps {group : BinaryOp.Group} {operand inner : Expr}
    (required : group.require operand = .ok inner) : Wraps operand inner := by
  cases group with
  | arithmetic | bitwise | equality | ordering => exact (Expr.require_ok required).1
  | logical => exact (Expr.require_truth_ok required).1

theorem BinaryOp.Group.require_fits {group : BinaryOp.Group} {operand inner : Expr}
    (required : group.require operand = .ok inner) :
    group.Fits inner.type inner.type (group.gives inner.type) ∧ (group.gives inner.type).Flat := by
  cases group with
  | arithmetic =>
      obtain ⟨_, isNumber⟩ := Expr.require_arithmetic required
      exact ⟨⟨isNumber, rfl, rfl⟩, Ty.flat_of_number isNumber⟩
  | bitwise =>
      obtain ⟨_, isInt⟩ := Expr.require_integer required
      exact ⟨⟨isInt, isInt, rfl⟩, Ty.Plain.int.flat⟩
  | logical =>
      obtain ⟨_, isBool⟩ := Expr.require_truth_ok required
      exact ⟨⟨isBool, isBool, rfl⟩, Ty.Plain.bool.flat⟩
  | equality | ordering =>
      obtain ⟨_, _, accepted⟩ := Expr.require_ok required
      exact ⟨⟨rfl, accepted, rfl⟩, Ty.Plain.bool.flat⟩

namespace Rule

open McFront.Expr

variable {e operand left right target value condition first second source callee base : Expr}
  {given passed : List Expr} {place : Location}

theorem unary_eq (operation : UnaryOp) (operand : Expr) (place : Location) :
    Rule.unary operation operand place = do
      let inner ← operation.require operand
      return .unary operation inner (operation.gives inner.type) place := by
  cases operation <;> rfl

theorem unary_ok {operation : UnaryOp} (built : Rule.unary operation operand place = .ok e) :
    ∃ inner type, e = .unary operation inner type place ∧ Wraps operand inner ∧
      (operand.type.Flat → operation.Fits inner.type type ∧ type.Flat) := by
  rw [unary_eq] at built
  obtain ⟨inner, required, built⟩ := bind_checked built
  cases built
  exact ⟨inner, _, rfl, UnaryOp.require_wraps required, UnaryOp.require_fits required⟩

theorem same_type_ok {type : Ty} (same : Rule.sameType left right = .ok type) :
    left.type = type ∧ right.type = type := by
  unfold Rule.sameType at same
  split at same
  · rename_i alike
    cases same
    exact ⟨rfl, alike.symm⟩
  · cases same

-- Operands of one type only need no comparison, so all operations can be read as comparing types.
theorem binary_eq (operation : BinaryOp) (left right : Expr) (place : Location) :
    Rule.binary operation left right place = do
      let one ← operation.group.require left
      let other ← operation.group.require right
      let type ← sameType one other
      return .binary operation one other (operation.group.gives type) place := by
  have alike {one other : Expr} {type : Ty} (isType : one.type = type) (same : other.type = type) :
      sameType one other = .ok one.type := if_pos (isType.trans same.symm)
  unfold Rule.binary
  cases operation.group with
  | arithmetic | equality | ordering => rfl
  | bitwise =>
      refine bind_checked_congr fun one required => ?_
      refine bind_checked_congr fun other requiredToo => ?_
      rw [alike (require_integer required).2 (require_integer requiredToo).2]
      rfl
  | logical =>
      refine bind_checked_congr fun one required => ?_
      refine bind_checked_congr fun other requiredToo => ?_
      rw [alike (require_truth_ok required).2 (require_truth_ok requiredToo).2]
      rfl

theorem binary_ran {operation : BinaryOp} (built : Rule.binary operation left right place = .ok e) :
    ∃ one other, operation.group.require left = .ok one ∧
      operation.group.require right = .ok other ∧ other.type = one.type ∧
        e = .binary operation one other (operation.group.gives one.type) place := by
  rw [binary_eq] at built
  obtain ⟨one, required, built⟩ := bind_checked built
  obtain ⟨other, requiredToo, built⟩ := bind_checked built
  obtain ⟨type, same, built⟩ := bind_checked built
  cases built
  obtain ⟨rfl, alike⟩ := same_type_ok same
  exact ⟨one, other, required, requiredToo, alike, rfl⟩

theorem binary_ok {operation : BinaryOp} (built : Rule.binary operation left right place = .ok e) :
    ∃ one other type, e = .binary operation one other type place ∧ Wraps left one ∧
      Wraps right other ∧ operation.group.Fits one.type other.type type ∧ type.Flat := by
  obtain ⟨one, other, required, requiredToo, alike, rfl⟩ := binary_ran built
  obtain ⟨fits, flat⟩ := BinaryOp.Group.require_fits required
  exact ⟨one, other, _, rfl, BinaryOp.Group.require_wraps required,
    BinaryOp.Group.require_wraps requiredToo, alike ▸ fits, flat⟩

theorem assign_ran (built : Rule.assign target value place = .ok e) :
    ∃ object source, target.type = .reference object ∧ value.requireType object = .ok source ∧
      e = .assign target source target.type place := by
  obtain ⟨inner, required, built⟩ := bind_checked built
  obtain ⟨source, requiredToo, built⟩ := bind_checked built
  cases built
  obtain ⟨rfl, object, isPlace⟩ := require_place_ok required
  rw [isPlace] at requiredToo
  exact ⟨object, source, isPlace, requiredToo, rfl⟩

theorem assign_ok (built : Rule.assign target value place = .ok e) :
    ∃ source, e = .assign target source target.type place ∧ Wraps value source ∧
      target.type = .reference source.type := by
  obtain ⟨object, source, isPlace, required, rfl⟩ := assign_ran built
  obtain ⟨wraps, isType⟩ := require_type_ok required
  exact ⟨source, rfl, wraps, by rw [isType, isPlace]⟩

theorem conditional_ran (built : Rule.conditional condition first second place = .ok e) :
    ∃ tested type one other, condition.requireTruth = .ok tested ∧
      first.type.common? second.type = some type ∧ first.convertTo type = .ok one ∧
        second.convertTo type = .ok other ∧ e = .conditional tested one other type place := by
  obtain ⟨tested, required, built⟩ := bind_checked built
  cases common : first.type.common? second.type with
  | none =>
      rw [common] at built
      cases built
  | some type =>
      rw [common] at built
      obtain ⟨one, converted, built⟩ := bind_checked built
      obtain ⟨other, convertedToo, built⟩ := bind_checked built
      cases built
      exact ⟨tested, type, one, other, required, rfl, converted, convertedToo, rfl⟩

theorem conditional_ok (built : Rule.conditional condition first second place = .ok e) :
    ∃ tested one other type, e = .conditional tested one other type place ∧
      Wraps condition tested ∧ Wraps first one ∧ Wraps second other ∧ tested.type = .bool ∧
        one.type = type ∧ other.type = type ∧ (first.type.Flat → second.type.Flat → type.Flat) := by
  obtain ⟨tested, type, one, other, required, common, converted, convertedToo, rfl⟩ :=
    conditional_ran built
  obtain ⟨wraps, isBool⟩ := require_truth_ok required
  obtain ⟨wrapsOne, isOne⟩ := convert_to_ok converted
  obtain ⟨wrapsOther, isOther⟩ := convert_to_ok convertedToo
  exact ⟨tested, one, other, type, rfl, wraps, wrapsOne, wrapsOther, isBool, isOne, isOther,
    Ty.flat_common common⟩

theorem cast_ok {type : Ty} (built : Rule.cast source type place = .ok e) :
    ∃ inner, e = .cast inner type place ∧ Wraps source inner ∧ inner.type = type := by
  obtain ⟨inner, converted, built⟩ := bind_checked built
  cases built
  obtain ⟨wraps, isType⟩ := convert_to_ok converted
  exact ⟨inner, rfl, wraps, isType⟩

theorem arguments_ok {types : List Ty} (given passed : List Expr)
    (built : Rule.arguments types given = .ok passed) (alike : given.length = types.length) :
    List.Forall₂ Wraps given passed ∧ passed.map Expr.type = types := by
  induction types generalizing given passed with
  | nil =>
      cases given with
      | nil =>
          cases built
          exact ⟨.nil, rfl⟩
      | cons argument given => simp at alike
  | cons type types ih =>
      cases given with
      | nil => simp at alike
      | cons argument given =>
          obtain ⟨first, required, built⟩ := bind_checked built
          obtain ⟨others, requiredToo, built⟩ := bind_checked built
          cases built
          obtain ⟨wraps, isType⟩ := require_type_ok required
          obtain ⟨wrapsToo, areTypes⟩ := ih given others requiredToo (by simpa using alike)
          exact ⟨.cons wraps wrapsToo, by rw [List.map_cons, isType, areTypes]⟩

theorem call_ran (built : Rule.call callee given place = .ok e) :
    ∃ function parameters passed result, callee.require .function = .ok function ∧
      function.type = .function parameters result ∧ given.length = parameters.length ∧
        Rule.arguments parameters given = .ok passed ∧ e = .call function passed result place := by
  obtain ⟨function, required, built⟩ := bind_checked built
  obtain ⟨_, _, parameters, result, isFunction⟩ := require_function required
  rw [isFunction] at built
  change (if given.length ≠ parameters.length then
      .error ((Complaint.argumentCount parameters.length given.length).raise place)
    else Rule.arguments parameters given >>= fun passed =>
      pure (.call function passed result place)) = .ok e at built
  by_cases alike : given.length = parameters.length
  · rw [if_neg (not_not_intro alike)] at built
    obtain ⟨passed, checked, built⟩ := bind_checked built
    cases built
    exact ⟨function, parameters, passed, result, required, isFunction, alike, checked, rfl⟩
  · rw [if_pos alike] at built
    cases built

theorem call_ok (built : Rule.call callee given place = .ok e) :
    ∃ function passed type, e = .call function passed type place ∧ Wraps callee function ∧
      List.Forall₂ Wraps given passed ∧ function.type = .function (passed.map Expr.type) type ∧
        (callee.type.Flat → type.Flat) := by
  obtain ⟨function, parameters, passed, result, required, isFunction, alike, checked, rfl⟩ :=
    call_ran built
  obtain ⟨wraps, isObject, _⟩ := require_function required
  obtain ⟨wrapsAll, areTypes⟩ := arguments_ok given passed checked alike
  refine ⟨function, passed, result, rfl, wraps, wrapsAll, by rw [areTypes, isFunction], ?_⟩
  intro flat
  unfold Ty.Flat at flat
  rw [← isObject, isFunction] at flat
  cases flat with
  | function _ returned => exact returned.flat

theorem index_ran (built : Rule.index base given place = .ok e) :
    ∃ offset pointer distance pointee, given = [offset] ∧ base.require .pointer = .ok pointer ∧
      pointer.type = .pointer pointee ∧ offset.require .integer = .ok distance ∧
        e = .index pointer distance pointee.referenceTo place := by
  obtain ⟨pointer, required, built⟩ := bind_checked built
  obtain ⟨_, _, pointee, isPointer⟩ := require_pointer required
  match given with
  | [offset] =>
      obtain ⟨distance, requiredToo, built⟩ := bind_checked built
      cases built
      rw [isPointer]
      exact ⟨offset, pointer, distance, pointee, rfl, required, isPointer, requiredToo, rfl⟩
  | [] => cases built
  | _ :: _ :: _ => cases built

theorem index_ok (built : Rule.index base given place = .ok e) :
    ∃ offset pointer distance type, given = [offset] ∧ e = .index pointer distance type place ∧
      Wraps base pointer ∧ Wraps offset distance ∧ distance.type = .int ∧
        (base.type.Flat → (∃ element, pointer.type = .pointer element ∧ type = .reference element) ∧
          type.Flat) := by
  obtain ⟨offset, pointer, distance, pointee, rfl, required, isPointer, requiredToo, rfl⟩ :=
    index_ran built
  obtain ⟨wraps, isObject, _⟩ := require_pointer required
  obtain ⟨wrapsToo, isInt⟩ := require_integer requiredToo
  refine ⟨offset, pointer, distance, _, rfl, rfl, wraps, wrapsToo, isInt, ?_⟩
  intro flat
  unfold Ty.Flat at flat
  rw [← isObject, isPointer] at flat
  rw [flat.pointed.reference_to]
  exact ⟨⟨pointee, isPointer, rfl⟩, flat.pointed⟩

theorem type_name (spelled : String) (entity : Entity) (place : Location)
    (plain : entity.type.Plain) :
    (Rule.name spelled entity place).type =
      match entity.kind with
      | .var | .param => .reference entity.type
      | _ => entity.type := by
  unfold Rule.name
  rw [plain.reference_to]
  cases entity.kind <;> rfl

end Rule
end McFront
