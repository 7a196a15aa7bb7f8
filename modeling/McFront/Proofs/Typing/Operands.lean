import McFront.Typing.Rule

set_option autoImplicit false

namespace McFront

theorem bind_checked {α β : Type} {checked : Checked α} {next : α → Checked β} {b : β}
    (given : (checked >>= next) = .ok b) : ∃ a, checked = .ok a ∧ next a = .ok b := by
  cases checked with
  | error error => cases given
  | ok a => exact ⟨a, rfl, given⟩

theorem bind_checked_congr {α β : Type} {checked : Checked α} {next next' : α → Checked β}
    (same : ∀ a, checked = .ok a → next a = next' a) : (checked >>= next) = (checked >>= next') := by
  cases checked with
  | error error => rfl
  | ok a => exact same a rfl

def Conversion.Fits : Conversion → Ty → Ty → Prop
  | .value, source, target => source = .reference target
  | .bool, source, target =>
      (source.isScalar || source.isFunction) = true ∧ source ≠ .bool ∧ target = .bool
  | .char, source, target => source = .int ∧ target = .char
  | .int, source, target => (source = .bool ∨ source = .char) ∧ target = .int
  | .ext, source, target => source = .int ∧ target = .float
  | .trunc, source, target => source = .float ∧ target = .int

namespace Expr

inductive Wraps (e : Expr) : Expr → Prop where
  | same : Wraps e e
  | converted {inner : Expr} {tag : Conversion} {type : Ty} (within : Wraps e inner)
      (fits : tag.Fits inner.type type) : Wraps e (inner.converted tag type)

variable {e operand : Expr} {category : Category} {type target : Ty}

theorem type_converted (e : Expr) (tag : Conversion) (type : Ty) :
    (e.converted tag type).type = type := rfl

theorem type_loaded (e : Expr) : e.loaded.type = e.type.object := by
  unfold loaded Ty.object
  split <;> simp_all [type_converted]

theorem loaded_wraps (e : Expr) : Wraps e e.loaded := by
  unfold loaded
  split
  · rename_i object isReference
    exact .converted .same isReference
  · exact .same

theorem require_ok (required : e.require category = .ok operand) :
    Wraps e operand ∧ operand.type = e.type.object ∧ category.accepts operand.type = true := by
  unfold require at required
  split at required
  · rename_i accepted
    cases required
    exact ⟨loaded_wraps e, type_loaded e, accepted⟩
  · cases required

theorem require_arithmetic (required : e.require .arithmetic = .ok operand) :
    Wraps e operand ∧ (operand.type = .int ∨ operand.type = .float) := by
  obtain ⟨wraps, _, accepted⟩ := require_ok required
  refine ⟨wraps, ?_⟩
  change operand.type.isArithmetic = true at accepted
  cases isType : operand.type <;> simp [isType, Ty.isArithmetic] at accepted ⊢

theorem require_integer (required : e.require .integer = .ok operand) :
    Wraps e operand ∧ operand.type = .int := by
  obtain ⟨wraps, _, accepted⟩ := require_ok required
  exact ⟨wraps, of_decide_eq_true accepted⟩

theorem require_pointer (required : e.require .pointer = .ok operand) :
    Wraps e operand ∧ operand.type = e.type.object ∧ ∃ pointee, operand.type = .pointer pointee := by
  obtain ⟨wraps, isObject, accepted⟩ := require_ok required
  refine ⟨wraps, isObject, ?_⟩
  change operand.type.isPointer = true at accepted
  cases isType : operand.type <;> simp [isType, Ty.isPointer] at accepted ⊢

theorem require_function (required : e.require .function = .ok operand) :
    Wraps e operand ∧ operand.type = e.type.object ∧
      ∃ parameters result, operand.type = .function parameters result := by
  obtain ⟨wraps, isObject, accepted⟩ := require_ok required
  refine ⟨wraps, isObject, ?_⟩
  change operand.type.isFunction = true at accepted
  cases isType : operand.type <;> simp [isType, Ty.isFunction] at accepted ⊢

theorem require_place_ok (required : e.requirePlace = .ok operand) :
    operand = e ∧ ∃ object, e.type = .reference object := by
  unfold requirePlace at required
  split at required
  · rename_i isPlace
    cases required
    refine ⟨rfl, ?_⟩
    cases isType : e.type <;> simp [isType, Ty.isReference] at isPlace ⊢
  · cases required

theorem require_truth_ok (required : e.requireTruth = .ok operand) :
    Wraps e operand ∧ operand.type = .bool := by
  unfold requireTruth at required
  split at required
  · rename_i isBool
    cases required
    exact ⟨loaded_wraps e, isBool⟩
  · rename_i notBool
    split at required
    · rename_i tested
      cases required
      exact ⟨.converted (loaded_wraps e) ⟨tested, notBool, rfl⟩, rfl⟩
    · cases required

theorem require_type_ok (required : e.requireType type = .ok operand) :
    Wraps e operand ∧ operand.type = type := by
  unfold requireType at required
  split at required
  · rename_i isType
    cases required
    exact ⟨loaded_wraps e, isType⟩
  · cases required

end Expr

theorem Conversion.between_fits {source target : Ty} {tag : Conversion}
    (found : Conversion.between? source target = some tag) (differ : source ≠ target) :
    tag.Fits source target := by
  unfold Conversion.between? at found
  split at found
  · split at found
    · rename_i tested
      cases found
      exact ⟨tested, differ, rfl⟩
    · cases found
  all_goals cases found
  · exact ⟨rfl, rfl⟩
  · exact ⟨rfl, rfl⟩
  · exact ⟨.inl rfl, rfl⟩
  · exact ⟨.inr rfl, rfl⟩
  · exact ⟨rfl, rfl⟩

theorem Expr.convert_to_ok {e operand : Expr} {target : Ty}
    (converted : e.convertTo target = .ok operand) : Wraps e operand ∧ operand.type = target := by
  unfold Expr.convertTo at converted
  split at converted
  · rename_i same
    cases converted
    exact ⟨.same, same⟩
  · have wraps : Wraps e (if target.isReference = true then e else e.loaded) := by
      split
      · exact .same
      · exact loaded_wraps e
    simp only at converted
    generalize (if target.isReference = true then e else e.loaded) = value at converted wraps
    split at converted
    · rename_i same
      cases converted
      exact ⟨wraps, same⟩
    · rename_i differ
      split at converted
      · rename_i tag found
        cases converted
        exact ⟨.converted wraps (Conversion.between_fits found differ), rfl⟩
      · cases converted

end McFront
