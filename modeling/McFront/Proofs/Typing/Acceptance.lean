import McFront.Analysis.Production
import McFront.Proofs.Typing.Rules

set_option autoImplicit false

namespace McFront

theorem bind_checked_iff {α β : Type} {checked : Checked α} {next : α → Checked β} {b : β} :
    (checked >>= next) = .ok b ↔ ∃ a, checked = .ok a ∧ next a = .ok b := by
  constructor
  · exact bind_checked
  · rintro ⟨a, rfl, given⟩
    exact given

theorem pure_checked_iff {α : Type} {a b : α} : (pure a : Checked α) = .ok b ↔ b = a := by
  constructor
  · rintro ⟨⟩
    rfl
  · rintro rfl
    rfl

namespace Ty

def Calculable (type : Ty) : Prop := type = .int ∨ type = .float

def Ordered (type : Ty) : Prop := type ∈ [Ty.bool, .char, .int, .float]

def Comparable (type : Ty) : Prop := type.Ordered ∨ ∃ pointee, type = .pointer pointee

variable {type : Ty}

theorem is_reference_iff : type.isReference = true ↔ ∃ object, type = .reference object := by
  cases type <;> simp [isReference]

theorem Plain.testable (plain : type.Plain) : (type.isScalar || type.isFunction) = true := by
  cases plain <;> rfl

end Ty

namespace Category

variable {type : Ty}

theorem accepts_arithmetic : arithmetic.accepts type = true ↔ type.Calculable := by
  cases type <;> simp [accepts, Ty.isArithmetic, Ty.Calculable]

theorem accepts_numeric : numeric.accepts type = true ↔ type.Ordered := by
  cases type <;> simp [accepts, Ty.isNumeric, Ty.Ordered]

theorem accepts_scalar : scalar.accepts type = true ↔ type.Comparable := by
  cases type <;>
    simp [accepts, Ty.isScalar, Ty.isNumeric, Ty.isPointer, Ty.Comparable, Ty.Ordered]

theorem accepts_integer : integer.accepts type = true ↔ type = .int := decide_eq_true_iff

theorem accepts_function : function.accepts type = true ↔
    ∃ parameters result, type = .function parameters result := by
  cases type <;> simp [accepts, Ty.isFunction]

theorem accepts_pointer : pointer.accepts type = true ↔ ∃ pointee, type = .pointer pointee := by
  cases type <;> simp [accepts, Ty.isPointer]

end Category

namespace Expr

inductive Valued : Expr → Expr → Prop where
  | place {e : Expr} {object : Ty} (isPlace : e.type = .reference object) :
      Valued e (.conversion .value e object e.location)
  | value {e : Expr} (noPlace : e.type.isReference = false) : Valued e e

inductive Tested : Expr → Expr → Prop where
  | bool {e value : Expr} (valued : Valued e value) (isBool : value.type = .bool) : Tested e value
  | compared {e value : Expr} (valued : Valued e value) (notBool : value.type ≠ .bool) :
      Tested e (.conversion .bool value .bool e.location)

variable {e value operand : Expr} {category : Category} {target : Ty}

theorem location_loaded (e : Expr) : e.loaded.location = e.location := by
  unfold loaded
  split <;> rfl

theorem valued_iff : Valued e value ↔ value = e.loaded := by
  unfold loaded
  constructor
  · intro valued
    cases valued with
    | place isPlace =>
        simp only [isPlace]
        rfl
    | value noPlace =>
        split
        · rename_i isPlace
          rw [isPlace] at noPlace
          cases noPlace
        · rfl
  · rintro rfl
    split
    · rename_i isPlace
      exact .place isPlace
    · rename_i noPlace
      refine .value (Bool.eq_false_iff.mpr fun isReference => ?_)
      obtain ⟨object, isPlace⟩ := Ty.is_reference_iff.mp isReference
      exact noPlace object isPlace

theorem valued_loaded (e : Expr) : Valued e e.loaded := valued_iff.mpr rfl

theorem Valued.type (valued : Valued e value) : value.type = e.type.object := by
  rw [valued_iff.mp valued, type_loaded]

theorem require_iff : e.require category = .ok operand ↔
    category.accepts e.type.object = true ∧ Valued e operand := by
  rw [valued_iff, ← type_loaded, require]
  by_cases accepted : category.accepts e.loaded.type = true
  · simp [accepted, eq_comm]
  · simp [accepted, reject]

theorem require_place_iff :
    e.requirePlace = .ok operand ↔ e.type.isReference = true ∧ operand = e := by
  rw [requirePlace]
  by_cases isPlace : e.type.isReference = true
  · simp [isPlace, eq_comm]
  · simp [isPlace, reject]

theorem require_type_iff :
    e.requireType target = .ok operand ↔ e.type.object = target ∧ Valued e operand := by
  rw [valued_iff, ← type_loaded, requireType]
  by_cases isType : e.loaded.type = target
  · simp [isType, eq_comm]
  · simp [isType, reject]

theorem require_truth_iff (flat : e.type.Flat) :
    e.requireTruth = .ok operand ↔ Tested e operand := by
  have testable : (e.loaded.type.isScalar || e.loaded.type.isFunction) = true := by
    rw [type_loaded]
    exact flat.testable
  rw [requireTruth]
  constructor
  · intro required
    by_cases isBool : e.loaded.type = .bool
    · rw [if_pos isBool] at required
      cases required
      exact .bool (valued_loaded e) isBool
    · rw [if_neg isBool, if_pos testable] at required
      cases required
      have tested := Tested.compared (valued_loaded e) isBool
      rwa [← location_loaded] at tested
  · intro tested
    cases tested with
    | bool valued isBool =>
        obtain rfl := valued_iff.mp valued
        rw [if_pos isBool]
    | compared valued notBool =>
        obtain rfl := valued_iff.mp valued
        rw [if_neg notBool, if_pos testable, ← location_loaded]
        rfl

theorem tested_total (e : Expr) : ∃ tested, Tested e tested := by
  by_cases isBool : e.loaded.type = .bool
  · exact ⟨_, .bool (valued_loaded e) isBool⟩
  · exact ⟨_, .compared (valued_loaded e) isBool⟩

theorem valued_all (given : List Expr) : ∃ passed, List.Forall₂ Valued given passed :=
  ⟨given.map loaded,
    List.forall₂_map_right_iff.mpr (List.forall₂_same.mpr fun e _ => valued_loaded e)⟩

end Expr

open McFront.Expr (Valued Tested)

def UnaryOp.Types (operation : UnaryOp) (operand type : Ty) : Prop :=
  match operation with
  | .pos | .neg => operand.object.Calculable ∧ type = operand.object
  | .cmp => operand.object = .int ∧ type = .int
  | .not => type = .bool
  | .addr => ∃ object, operand = .reference object ∧ type = .pointer object
  | .deref => ∃ pointee, operand.object = .pointer pointee ∧ type = .reference pointee

def BinaryOp.Types (operation : BinaryOp) (left right type : Ty) : Prop :=
  match operation with
  | .add | .sub | .mul | .quo | .rem => left.Calculable ∧ right = left ∧ type = left
  | .bitAnd | .bitOr | .bitXor | .shl | .shr => left = .int ∧ right = .int ∧ type = .int
  | .logicalAnd | .logicalOr => type = .bool
  | .eq | .ne => left.Comparable ∧ right = left ∧ type = .bool
  | .lt | .gt | .le | .ge => left.Ordered ∧ right = left ∧ type = .bool

def UnaryOp.Takes : UnaryOp → Expr → Expr → Prop
  | .not => Tested
  | .addr => fun operand held => held = operand
  | .pos | .neg | .cmp | .deref => Valued

def BinaryOp.Takes : BinaryOp → Expr → Expr → Prop
  | .logicalAnd | .logicalOr => Tested
  | _ => Valued

-- A check that succeeds just where the rule has a type, and then gives just what the rule makes of
-- that type.
structure Follows {α : Type} (checked : Checked α) (types : Ty → Prop) (makes : Ty → α → Prop) :
    Prop where
  accepts : (∃ a, checked = .ok a) ↔ ∃ type, types type
  gives : ∀ a, checked = .ok a ↔ ∃ type, types type ∧ makes type a

theorem follows_of_gives {α : Type} {checked : Checked α} {types : Ty → Prop}
    {makes : Ty → α → Prop} (gives : ∀ a, checked = .ok a ↔ ∃ type, types type ∧ makes type a)
    (made : ∀ type, types type → ∃ a, makes type a) : Follows checked types makes := by
  refine ⟨⟨?_, ?_⟩, gives⟩
  · rintro ⟨a, accepted⟩
    obtain ⟨type, typed, _⟩ := (gives a).mp accepted
    exact ⟨type, typed⟩
  · rintro ⟨type, typed⟩
    obtain ⟨a, makes⟩ := made type typed
    exact ⟨a, (gives a).mpr ⟨type, typed, makes⟩⟩

namespace Rule

variable {operand left right target value callee base e : Expr} {given passed : List Expr}

theorem unary_takes (operation : UnaryOp) (operand : Expr) :
    ∃ held, operation.Takes operand held := by
  cases operation with
  | not => exact operand.tested_total
  | addr => exact ⟨operand, rfl⟩
  | pos | neg | cmp | deref => exact ⟨_, operand.valued_loaded⟩

theorem points_at {held : Expr} {pointee : Ty} (flat : operand.type.Flat)
    (isPointer : operand.type.object = .pointer pointee) (valued : Valued operand held) :
    Ty.referenceTo (held.type.pointee?.getD held.type) = .reference pointee := by
  have plain : (Ty.pointer pointee).Plain := isPointer ▸ flat
  rw [valued.type, isPointer]
  exact plain.pointed.reference_to

theorem unary_follows (operation : UnaryOp) (place : Location) (flat : operand.type.Flat) :
    Follows (Rule.unary operation operand place) (operation.Types operand.type)
      fun type e => ∃ held, operation.Takes operand held ∧
        e = .unary operation held type place := by
  obtain ⟨taken, takes⟩ := unary_takes operation operand
  refine follows_of_gives (fun e => ?_) fun type _ => ⟨_, taken, takes, rfl⟩
  cases operation with
  | pos | neg =>
      simp only [Rule.unary, bind_checked_iff, Expr.require_iff, Category.accepts_arithmetic,
        pure_checked_iff]
      constructor
      · rintro ⟨held, ⟨number, valued⟩, rfl⟩
        exact ⟨_, ⟨number, valued.type⟩, held, valued, rfl⟩
      · rintro ⟨_, ⟨number, rfl⟩, held, valued, rfl⟩
        exact ⟨held, ⟨number, valued⟩, by rw [Valued.type valued]⟩
  | cmp =>
      simp only [Rule.unary, bind_checked_iff, Expr.require_iff, Category.accepts_integer,
        pure_checked_iff]
      constructor
      · rintro ⟨held, ⟨isInt, valued⟩, rfl⟩
        exact ⟨_, ⟨isInt, rfl⟩, held, valued, rfl⟩
      · rintro ⟨_, ⟨isInt, rfl⟩, held, valued, rfl⟩
        exact ⟨held, ⟨isInt, valued⟩, rfl⟩
  | not =>
      simp only [Rule.unary, bind_checked_iff, Expr.require_truth_iff flat, pure_checked_iff]
      constructor
      · rintro ⟨held, tested, rfl⟩
        exact ⟨_, rfl, held, tested, rfl⟩
      · rintro ⟨_, rfl, held, tested, rfl⟩
        exact ⟨held, tested, rfl⟩
  | addr =>
      simp only [Rule.unary, bind_checked_iff, Expr.require_place_iff, Ty.is_reference_iff,
        pure_checked_iff]
      constructor
      · rintro ⟨held, ⟨⟨object, isPlace⟩, rfl⟩, rfl⟩
        exact ⟨_, ⟨object, isPlace, rfl⟩, held, rfl, by rw [isPlace]; rfl⟩
      · rintro ⟨_, ⟨object, isPlace, rfl⟩, held, rfl, rfl⟩
        exact ⟨held, ⟨⟨object, isPlace⟩, rfl⟩, by rw [isPlace]; rfl⟩
  | deref =>
      simp only [Rule.unary, bind_checked_iff, Expr.require_iff, Category.accepts_pointer,
        pure_checked_iff]
      constructor
      · rintro ⟨held, ⟨⟨pointee, isPointer⟩, valued⟩, rfl⟩
        rw [points_at flat isPointer valued]
        exact ⟨_, ⟨pointee, isPointer, rfl⟩, held, valued, rfl⟩
      · rintro ⟨_, ⟨pointee, isPointer, rfl⟩, held, valued, rfl⟩
        exact ⟨held, ⟨⟨pointee, isPointer⟩, valued⟩, by rw [points_at flat isPointer valued]⟩

theorem same_type_iff {type : Ty} : Rule.sameType left right = .ok type ↔
    right.type = left.type ∧ type = left.type := by
  constructor
  · intro same
    obtain ⟨rfl, alike⟩ := same_type_ok same
    exact ⟨alike, rfl⟩
  · rintro ⟨alike, rfl⟩
    rw [sameType, if_pos alike.symm]

theorem binary_takes (operation : BinaryOp) (operand : Expr) :
    ∃ held, operation.Takes operand held := by
  cases operation with
  | logicalAnd | logicalOr => exact operand.tested_total
  | _ => exact ⟨_, operand.valued_loaded⟩

theorem alike_gives {category : Category} {next : Expr → Expr → Ty → Expr} :
    (do
      let left ← left.require category
      let right ← right.require category
      let type ← sameType left right
      return next left right type : Checked Expr) = .ok e ↔
    (category.accepts left.type.object = true ∧ right.type.object = left.type.object) ∧
      ∃ one other, Valued left one ∧ Valued right other ∧ e = next one other left.type.object := by
  simp only [bind_checked_iff, Expr.require_iff, same_type_iff, pure_checked_iff]
  constructor
  · rintro ⟨one, ⟨accepted, valued⟩, other, ⟨_, valuedToo⟩, _, ⟨alike, rfl⟩, rfl⟩
    rw [valuedToo.type, valued.type] at alike
    rw [valued.type]
    exact ⟨⟨accepted, alike⟩, one, other, valued, valuedToo, rfl⟩
  · rintro ⟨⟨accepted, alike⟩, one, other, valued, valuedToo, rfl⟩
    have same : other.type = one.type := by rw [valuedToo.type, valued.type, alike]
    refine ⟨one, ⟨accepted, valued⟩, other, ⟨by rwa [alike], valuedToo⟩, _, ⟨same, rfl⟩, ?_⟩
    rw [valued.type]

theorem binary_follows (operation : BinaryOp) (place : Location) (isLeft : left.type.Flat)
    (isRight : right.type.Flat) :
    Follows (Rule.binary operation left right place)
      (operation.Types left.type.object right.type.object)
      fun type e => ∃ one other, operation.Takes left one ∧ operation.Takes right other ∧
        e = .binary operation one other type place := by
  obtain ⟨one, takes⟩ := binary_takes operation left
  obtain ⟨other, takesToo⟩ := binary_takes operation right
  refine follows_of_gives (fun e => ?_) fun type _ => ⟨_, one, other, takes, takesToo, rfl⟩
  cases operation with
  | add | sub | mul | quo | rem =>
      simp only [Rule.binary, BinaryOp.group, alike_gives, Category.accepts_arithmetic]
      constructor
      · rintro ⟨⟨number, alike⟩, held⟩
        exact ⟨_, ⟨number, alike, rfl⟩, held⟩
      · rintro ⟨_, ⟨number, alike, rfl⟩, held⟩
        exact ⟨⟨number, alike⟩, held⟩
  | bitAnd | bitOr | bitXor | shl | shr =>
      simp only [Rule.binary, BinaryOp.group, bind_checked_iff, Expr.require_iff,
        Category.accepts_integer, pure_checked_iff]
      constructor
      · rintro ⟨one, ⟨isInt, valued⟩, other, ⟨isIntToo, valuedToo⟩, rfl⟩
        exact ⟨_, ⟨isInt, isIntToo, rfl⟩, one, other, valued, valuedToo, rfl⟩
      · rintro ⟨_, ⟨isInt, isIntToo, rfl⟩, one, other, valued, valuedToo, rfl⟩
        exact ⟨one, ⟨isInt, valued⟩, other, ⟨isIntToo, valuedToo⟩, rfl⟩
  | logicalAnd | logicalOr =>
      simp only [Rule.binary, BinaryOp.group, bind_checked_iff, Expr.require_truth_iff isLeft,
        Expr.require_truth_iff isRight, pure_checked_iff]
      constructor
      · rintro ⟨one, tested, other, testedToo, rfl⟩
        exact ⟨_, rfl, one, other, tested, testedToo, rfl⟩
      · rintro ⟨_, rfl, one, other, tested, testedToo, rfl⟩
        exact ⟨one, tested, other, testedToo, rfl⟩
  | eq | ne =>
      simp only [Rule.binary, BinaryOp.group, alike_gives, Category.accepts_scalar]
      constructor
      · rintro ⟨⟨isScalar, alike⟩, held⟩
        exact ⟨_, ⟨isScalar, alike, rfl⟩, held⟩
      · rintro ⟨_, ⟨isScalar, alike, rfl⟩, held⟩
        exact ⟨⟨isScalar, alike⟩, held⟩
  | lt | gt | le | ge =>
      simp only [Rule.binary, BinaryOp.group, alike_gives, Category.accepts_numeric]
      constructor
      · rintro ⟨⟨isNumeric, alike⟩, held⟩
        exact ⟨_, ⟨isNumeric, alike, rfl⟩, held⟩
      · rintro ⟨_, ⟨isNumeric, alike, rfl⟩, held⟩
        exact ⟨⟨isNumeric, alike⟩, held⟩

theorem assign_follows (target value : Expr) (place : Location) :
    Follows (Rule.assign target value place)
      (fun type => target.type = .reference value.type.object ∧ type = target.type)
      fun type e => ∃ held, Valued value held ∧ e = .assign target held type place := by
  refine follows_of_gives (fun e => ?_) fun type _ => ⟨_, _, value.valued_loaded, rfl⟩
  simp only [Rule.assign, bind_checked_iff, Expr.require_place_iff, Ty.is_reference_iff,
    Expr.require_type_iff, pure_checked_iff]
  constructor
  · rintro ⟨target, ⟨⟨object, isPlace⟩, rfl⟩, held, ⟨alike, valued⟩, rfl⟩
    refine ⟨_, ⟨?_, rfl⟩, held, valued, rfl⟩
    rw [alike, isPlace]
    rfl
  · rintro ⟨_, ⟨isPlace, rfl⟩, held, valued, rfl⟩
    refine ⟨target, ⟨⟨_, isPlace⟩, rfl⟩, held, ⟨?_, valued⟩, rfl⟩
    rw [isPlace]
    rfl

theorem arguments_give {types : List Ty} (alike : given.length = types.length) :
    Rule.arguments types given = .ok passed ↔
      types = given.map (·.type.object) ∧ List.Forall₂ Valued given passed := by
  induction types generalizing given passed with
  | nil =>
      obtain rfl := List.length_eq_zero_iff.mp alike
      simp [Rule.arguments, List.forall₂_nil_left_iff, eq_comm]
  | cons type types ih =>
      cases given with
      | nil => cases alike
      | cons argument given =>
          simp only [Rule.arguments, bind_checked_iff, Expr.require_type_iff, pure_checked_iff,
            ih (Nat.succ.inj alike), List.map_cons, List.cons.injEq]
          constructor
          · rintro ⟨first, ⟨isType, valued⟩, others, ⟨areTypes, valuedAll⟩, rfl⟩
            exact ⟨⟨isType.symm, areTypes⟩, .cons valued valuedAll⟩
          · rintro ⟨⟨isType, areTypes⟩, valued⟩
            cases valued with
            | cons valued valuedAll =>
                exact ⟨_, ⟨isType.symm, valued⟩, _, ⟨areTypes, valuedAll⟩, rfl⟩

theorem call_follows (callee : Expr) (given : List Expr) (place : Location) :
    Follows (Rule.call callee given place)
      (fun type => callee.type.object = .function (given.map (·.type.object)) type)
      fun type e => ∃ function passed, Valued callee function ∧
        List.Forall₂ Valued given passed ∧ e = .call function passed type place := by
  obtain ⟨all, areValued⟩ := Expr.valued_all given
  refine follows_of_gives (fun e => ⟨?_, ?_⟩)
    fun type _ => ⟨_, _, all, callee.valued_loaded, areValued, rfl⟩
  · intro built
    obtain ⟨function, parameters, passed, result, required, isFunction, alike, checked, rfl⟩ :=
      call_ran built
    obtain ⟨_, valued⟩ := Expr.require_iff.mp required
    obtain ⟨rfl, valuedAll⟩ := (arguments_give alike).mp checked
    exact ⟨result, by rw [← valued.type, isFunction], function, passed, valued, valuedAll, rfl⟩
  · rintro ⟨result, isFunction, function, passed, valued, valuedAll, rfl⟩
    have accepted := Category.accepts_function.mpr ⟨_, _, isFunction⟩
    have alike : given.length = (given.map (·.type.object)).length := (List.length_map _).symm
    have checked := (arguments_give alike).mpr ⟨rfl, valuedAll⟩
    rw [Rule.call, bind_checked_iff]
    refine ⟨function, Expr.require_iff.mpr ⟨accepted, valued⟩, ?_⟩
    simp only [valued.type, isFunction, Ty.signature?, Option.getD_some, ← alike, ne_eq,
      not_true_eq_false, if_false, checked]
    rfl

theorem index_follows (given : List Expr) (place : Location) (flat : base.type.Flat) :
    Follows (Rule.index base given place)
      (fun type => ∃ pointee, base.type.object = .pointer pointee ∧
        given.map (·.type.object) = [.int] ∧ type = .reference pointee)
      fun type e => ∃ pointer distance, Valued base pointer ∧
        List.Forall₂ Valued given [distance] ∧ e = .index pointer distance type place := by
  refine follows_of_gives (fun e => ⟨?_, ?_⟩) ?_
  · intro built
    obtain ⟨offset, pointer, distance, pointee, rfl, required, isPointer, requiredToo, rfl⟩ :=
      index_ran built
    obtain ⟨_, valued⟩ := Expr.require_iff.mp required
    obtain ⟨accepted, valuedToo⟩ := Expr.require_iff.mp requiredToo
    have isInt := Category.accepts_integer.mp accepted
    rw [valued.type] at isPointer
    have plain : (Ty.pointer pointee).Plain := isPointer ▸ flat
    rw [plain.pointed.reference_to]
    exact ⟨_, ⟨pointee, isPointer, by rw [← isInt]; rfl, rfl⟩, pointer, distance, valued,
      .cons valuedToo .nil, rfl⟩
  · rintro ⟨_, ⟨pointee, isPointer, areInt, rfl⟩, pointer, distance, valued, valuedAll, rfl⟩
    cases valuedAll with
    | cons valuedToo others =>
        cases others
        have isInt := List.head_eq_of_cons_eq areInt
        have required := Expr.require_iff.mpr ⟨Category.accepts_pointer.mpr ⟨_, isPointer⟩, valued⟩
        have requiredToo := Expr.require_iff.mpr ⟨Category.accepts_integer.mpr isInt, valuedToo⟩
        rw [← points_at flat isPointer valued]
        exact bind_checked_iff.mpr
          ⟨pointer, required, bind_checked_iff.mpr ⟨distance, requiredToo, rfl⟩⟩
  · rintro _ ⟨pointee, isPointer, areInt, rfl⟩
    obtain ⟨offset, rfl, _⟩ := List.map_eq_singleton_iff.mp areInt
    exact ⟨_, _, _, base.valued_loaded, .cons offset.valued_loaded .nil, rfl⟩

end Rule

theorem return_follows {analyzer : Analyzer} {function : Declaration} {result : Ty}
    (inside : analyzer.function = some function) (returns : function.result? = some result)
    (value : Option Expr) (place : Location) :
    Follows (analyzer.returnValue value place)
      (fun type => type = result ∧ value.map (·.type.object) = some type)
      fun _ stmt => ∃ given held, value = some given ∧ Valued given held ∧
        stmt = .returnValue held := by
  have known : analyzer.function.bind Declaration.result? = some result := by
    rw [inside]
    exact returns
  refine follows_of_gives (fun stmt => ?_) ?_
  · simp only [Analyzer.returnValue, known]
    cases value with
    | none => simp
    | some given =>
        simp only [bind_checked_iff, Expr.require_type_iff, pure_checked_iff]
        constructor
        · rintro ⟨held, ⟨isResult, valued⟩, rfl⟩
          exact ⟨result, ⟨rfl, congrArg some isResult⟩, given, held, rfl, valued, rfl⟩
        · rintro ⟨_, ⟨rfl, isResult⟩, _, held, ⟨⟩, valued, rfl⟩
          exact ⟨held, ⟨Option.some.inj isResult, valued⟩, rfl⟩
  · rintro _ ⟨rfl, isResult⟩
    obtain ⟨given, rfl, _⟩ := Option.map_eq_some_iff.mp isResult
    exact ⟨_, given, _, rfl, given.valued_loaded, rfl⟩

theorem rules_follow_types (place : Location) :
    (∀ (operation : UnaryOp) (operand : Expr), operand.type.Flat →
      Follows (Rule.unary operation operand place) (operation.Types operand.type)
        fun type e => ∃ held, operation.Takes operand held ∧
          e = .unary operation held type place) ∧
    (∀ (operation : BinaryOp) (left right : Expr), left.type.Flat → right.type.Flat →
      Follows (Rule.binary operation left right place)
        (operation.Types left.type.object right.type.object)
        fun type e => ∃ one other, operation.Takes left one ∧ operation.Takes right other ∧
          e = .binary operation one other type place) ∧
    (∀ target value : Expr,
      Follows (Rule.assign target value place)
        (fun type => target.type = .reference value.type.object ∧ type = target.type)
        fun type e => ∃ held, Valued value held ∧ e = .assign target held type place) ∧
    (∀ (callee : Expr) (given : List Expr),
      Follows (Rule.call callee given place)
        (fun type => callee.type.object = .function (given.map (·.type.object)) type)
        fun type e => ∃ function passed, Valued callee function ∧
          List.Forall₂ Valued given passed ∧ e = .call function passed type place) ∧
    (∀ (base : Expr) (given : List Expr), base.type.Flat →
      Follows (Rule.index base given place)
        (fun type => ∃ pointee, base.type.object = .pointer pointee ∧
          given.map (·.type.object) = [.int] ∧ type = .reference pointee)
        fun type e => ∃ pointer distance, Valued base pointer ∧
          List.Forall₂ Valued given [distance] ∧ e = .index pointer distance type place) ∧
    ∀ (analyzer : Analyzer) (function : Declaration) (result : Ty) (value : Option Expr),
      analyzer.function = some function → function.result? = some result →
        Follows (analyzer.returnValue value place)
          (fun type => type = result ∧ value.map (·.type.object) = some type)
          fun _ stmt => ∃ given held, value = some given ∧ Valued given held ∧
            stmt = .returnValue held := by
  refine ⟨?unary, ?binary, ?assign, ?call, ?index, ?returned⟩
  case unary => exact fun operation _ flat => Rule.unary_follows operation place flat
  case binary =>
    exact fun operation _ _ isLeft isRight => Rule.binary_follows operation place isLeft isRight
  case assign => exact fun target value => Rule.assign_follows target value place
  case call => exact fun callee given => Rule.call_follows callee given place
  case index => exact fun _ given flat => Rule.index_follows given place flat
  case returned =>
    exact fun _ _ _ value inside returns => return_follows inside returns value place

theorem pointer_rules_follow_types :
    ∃ (p : Expr) (analyzer : Analyzer) (function : Declaration),
      p.type = .reference (.pointer .int) ∧ p.type.Flat ∧ analyzer.function = some function ∧
        function.result? = some (.pointer .int) ∧
        (∃ e, Rule.unary .deref p .first = .ok e) ∧
        (¬ ∃ e, Rule.binary .add p p .first = .ok e) ∧
        (∃ e, Rule.index p [.int 1 .int .first] .first = .ok e) ∧
        ∃ stmt, analyzer.returnValue (some p) .first = .ok stmt := by
  obtain ⟨p, isPlace, flat⟩ : ∃ p : Expr, p.type = .reference (.pointer .int) ∧ p.type.Flat :=
    ⟨.name "p" ⟨.var, "p", .pointer .int, .first⟩ (.reference (.pointer .int)) .first, rfl,
      .pointer .int⟩
  have isPointer : p.type.object = .pointer .int := by
    rw [isPlace]
    rfl
  obtain ⟨unary, binary, _, _, index, returned⟩ := rules_follow_types .first
  refine ⟨p, { Analyzer.initial with
      function := some (.prototype ⟨.func, "f", .function [] (.pointer .int), .first⟩ []) },
    _, isPlace, flat, rfl, rfl, ?_, ?_, ?_, ?_⟩
  · exact (unary .deref p flat).accepts.mpr ⟨_, .int, isPointer, rfl⟩
  · intro added
    obtain ⟨_, number, _⟩ := (binary .add p p flat flat).accepts.mp added
    rw [isPointer] at number
    rcases number with number | number <;> cases number
  · exact (index p _ flat).accepts.mpr ⟨_, .int, isPointer, rfl, rfl⟩
  · exact (returned _ _ _ (some p) rfl rfl).accepts.mpr ⟨_, rfl, congrArg some isPointer⟩

end McFront
