import McFront.Analysis.Production
import McFront.Proofs.Relocation.InStep
import McFront.Proofs.Typing.Rules

set_option autoImplicit false

namespace McFront

variable {view : View}

namespace Expr.Matches

variable {e e' : Expr}

theorem reject {α β : Type} {related : α → β → Prop} {complaint : Complaint}
    (alike : e.Matches view e') (proper : complaint.kind ≠ .lexical) :
    view.Checks related (e.reject complaint) (e'.reject complaint) :=
  .error (.raise proper .same alike.location)

theorem converted (alike : e.Matches view e') (tag : Conversion) (type : Ty) :
    (e.converted tag type).Matches view (e'.converted tag type) :=
  .conversion alike alike.location

theorem loaded (alike : e.Matches view e') : e.loaded.Matches view e'.loaded := by
  unfold Expr.loaded
  rw [alike.type]
  split
  · exact alike.converted _ _
  · exact alike

theorem require (alike : e.Matches view e') (category : Category) :
    view.Checks (Expr.Matches view) (e.require category) (e'.require category) := by
  unfold Expr.require
  rw [alike.loaded.type]
  split
  · exact .ok alike.loaded
  · exact alike.loaded.reject nofun

theorem requirePlace (alike : e.Matches view e') :
    view.Checks (Expr.Matches view) e.requirePlace e'.requirePlace := by
  unfold Expr.requirePlace
  rw [alike.type]
  split
  · exact .ok alike
  · exact alike.reject nofun

theorem requireTruth (alike : e.Matches view e') :
    view.Checks (Expr.Matches view) e.requireTruth e'.requireTruth := by
  unfold Expr.requireTruth
  rw [alike.loaded.type]
  split
  · exact .ok alike.loaded
  · split
    · exact .ok (alike.loaded.converted _ _)
    · exact alike.loaded.reject nofun

theorem requireType (alike : e.Matches view e') (type : Ty) :
    view.Checks (Expr.Matches view) (e.requireType type) (e'.requireType type) := by
  unfold Expr.requireType
  rw [alike.loaded.type]
  split
  · exact .ok alike.loaded
  · exact alike.loaded.reject nofun

theorem convertTo (alike : e.Matches view e') (target : Ty) :
    view.Checks (Expr.Matches view) (e.convertTo target) (e'.convertTo target) := by
  have value : Matches view (if target.isReference then e else e.loaded)
      (if target.isReference then e' else e'.loaded) := by
    split
    · exact alike
    · exact alike.loaded
  unfold Expr.convertTo
  simp only [alike.type]
  generalize (if target.isReference then e else e.loaded) = one at value ⊢
  generalize (if target.isReference then e' else e'.loaded) = other at value ⊢
  rw [value.type]
  split
  · exact .ok alike
  · split
    · exact .ok value
    · split
      · exact .ok (value.converted _ _)
      · exact value.reject nofun

theorem requireUnary (alike : e.Matches view e') (operation : UnaryOp) :
    view.Checks (Expr.Matches view) (operation.require e) (operation.require e') := by
  cases operation with
  | pos | neg | cmp | deref => exact alike.require _
  | not => exact alike.requireTruth
  | addr => exact alike.requirePlace

theorem requireBinary (alike : e.Matches view e') (group : BinaryOp.Group) :
    view.Checks (Expr.Matches view) (group.require e) (group.require e') := by
  cases group with
  | arithmetic | bitwise | equality | ordering => exact alike.require _
  | logical => exact alike.requireTruth

end Expr.Matches

namespace Rule

variable {e e' left left' right right' : Expr} {place place' : Location}

theorem unary_checks {operand operand' : Expr} (operation : UnaryOp)
    (alike : operand.Matches view operand') (own : view.places.own place place') :
    view.Checks (Expr.Matches view) (unary operation operand place)
      (unary operation operand' place') := by
  rw [unary_eq, unary_eq]
  refine (alike.requireUnary operation).bind fun _ _ alike => ?_
  rw [alike.type]
  exact .ok (.unary alike own)

theorem same_type_checks (one : left.Matches view left') (other : right.Matches view right') :
    view.Checks Eq (sameType left right) (sameType left' right') := by
  unfold sameType
  rw [one.type, other.type]
  split
  · exact .ok rfl
  · exact other.reject nofun

theorem binary_checks (operation : BinaryOp) (one : left.Matches view left')
    (other : right.Matches view right') (own : view.places.own place place') :
    view.Checks (Expr.Matches view) (binary operation left right place)
      (binary operation left' right' place') := by
  rw [binary_eq, binary_eq]
  refine (one.requireBinary _).bind fun _ _ one => ?_
  refine (other.requireBinary _).bind fun _ _ other => ?_
  refine (same_type_checks one other).bind fun _ _ same => ?_
  obtain rfl := same
  exact .ok (.binary one other own)

theorem assign_checks {target target' value value' : Expr} (assigned : target.Matches view target')
    (given : value.Matches view value') (own : view.places.own place place') :
    view.Checks (Expr.Matches view) (assign target value place) (assign target' value' place') := by
  refine assigned.requirePlace.bind fun _ _ assigned => ?_
  rw [assigned.type]
  exact (given.requireType _).bind fun _ _ given => .ok (.assign assigned given own)

theorem conditional_checks {condition condition' first first' second second' : Expr}
    (tested : condition.Matches view condition') (chosen : first.Matches view first')
    (otherwise : second.Matches view second') (own : view.places.own place place') :
    view.Checks (Expr.Matches view) (conditional condition first second place)
      (conditional condition' first' second' place') := by
  refine tested.requireTruth.bind fun _ _ tested => ?_
  rw [chosen.type, otherwise.type]
  split
  · exact otherwise.reject nofun
  · refine (chosen.convertTo _).bind fun _ _ chosen => ?_
    exact (otherwise.convertTo _).bind fun _ _ otherwise =>
      .ok (.conditional tested chosen otherwise own)

theorem cast_checks {source source' : Expr} (target : Ty) (alike : source.Matches view source')
    (own : view.places.own place place') :
    view.Checks (Expr.Matches view) (cast source target place) (cast source' target place') :=
  (alike.convertTo target).bind fun _ _ alike => .ok (.cast alike own)

theorem arguments_checks {given given' : List Expr} (types : List Ty)
    (alike : List.Forall₂ (Expr.Matches view) given given') :
    view.Checks (List.Forall₂ (Expr.Matches view)) (arguments types given)
      (arguments types given') := by
  induction types generalizing given given' with
  | nil => exact .ok .nil
  | cons type types ih =>
      cases alike with
      | nil => exact .ok .nil
      | cons first others =>
          refine (first.requireType type).bind fun _ _ first => ?_
          exact (ih others).bind fun _ _ others => .ok (.cons first others)

theorem call_checks {callee callee' : Expr} {given given' : List Expr}
    (called : callee.Matches view callee') (alike : List.Forall₂ (Expr.Matches view) given given')
    (own : view.places.own place place') :
    view.Checks (Expr.Matches view) (call callee given place) (call callee' given' place') := by
  refine (called.require .function).bind fun function function' called => ?_
  rw [called.type]
  obtain ⟨parameters, result⟩ := function'.type.signature?.getD ([], function'.type)
  simp only [alike.length_eq]
  split
  · exact .error (.raise nofun .same own)
  · exact (arguments_checks parameters alike).bind fun _ _ alike =>
      .ok (.call called (Expr.Matches.all alike) own)

theorem index_checks {base base' : Expr} {given given' : List Expr}
    (pointer : base.Matches view base') (alike : List.Forall₂ (Expr.Matches view) given given')
    (own : view.places.own place place') :
    view.Checks (Expr.Matches view) (index base given place) (index base' given' place') := by
  refine (pointer.require .pointer).bind fun _ _ pointer => ?_
  rw [pointer.type]
  match alike with
  | .cons first .nil =>
      exact (first.require .integer).bind fun _ _ first => .ok (.index pointer first own)
  | .nil => exact .error (.raise nofun .same own)
  | .cons _ (.cons _ others) =>
      simp only [List.length_cons, others.length_eq]
      exact .error (.raise nofun .same own)

theorem name_alike {spelled : String} {entity entity' : Entity}
    (link : entity.Matches view view.places.linked entity') (own : view.places.own place place') :
    (name spelled entity place).Matches view (name (view.rename spelled) entity' place') := by
  unfold name
  rw [link.kind, link.type]
  exact .name link.alike own

end Rule

end McFront
