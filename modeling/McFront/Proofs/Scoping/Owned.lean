import McFront.Proofs.Scoping.Law
import McFront.Proofs.Tree.Leaves

set_option autoImplicit false

namespace McFront

variable {visible : Visible} {entity : Entity} {own others : List Entity}

theorem Visible.declaring_append (visible : Visible) (own others : List Entity) :
    (visible.declaring own).declaring others = visible.declaring (own ++ others) := by
  cases visible with
  | nil => rfl
  | cons scope outer =>
      simp only [Visible.declaring, List.reverse_append, List.append_assoc]

theorem Visible.mem_declaring (member : entity ∈ (visible.declaring own).flatten) :
    entity ∈ visible.flatten ∨ entity ∈ own := by
  cases visible with
  | nil => cases member
  | cons scope outer =>
      simp only [Visible.declaring, List.flatten_cons, List.mem_append, List.mem_reverse] at *
      rcases member with (isOwn | before) | further
      · exact .inr isOwn
      · exact .inl (.inl before)
      · exact .inl (.inr further)

theorem Visible.mem_of_find {name : String} (found : visible.find? name = some entity) :
    entity ∈ visible.flatten := by
  obtain ⟨scope, member, held⟩ := List.exists_of_findSome?_eq_some found
  exact List.mem_flatten.mpr ⟨scope, member, List.mem_of_find?_eq_some held⟩

theorem Expr.links_used (visible : Visible) (e : Expr) :
    (e.uses visible).map Use.link = e.nodes.filterMap Expr.link? := by
  rw [Expr.uses, List.map_map]
  exact List.map_id _

mutual
theorem Stmt.links_used (visible : Visible) (stmt : Stmt) :
    (stmt.uses visible).map Use.link = stmt.nodes.filterMap Expr.link? := by
  cases stmt with
  | block stmts => exact Stmt.links_used_in ([] :: visible) stmts
  | when condition body | whileLoop condition body =>
      rw [Stmt.uses, Stmt.nodes, List.map_append, List.filterMap_append, condition.links_used,
        Stmt.links_used visible body]
  | ifElse condition first second =>
      rw [Stmt.uses, Stmt.nodes, List.map_append, List.map_append, List.filterMap_append,
        List.filterMap_append, condition.links_used, Stmt.links_used visible first,
        Stmt.links_used _ second]
  | breakLoop | continueLoop => rfl
  | returnValue value => exact value.links_used visible
  | declare declaration => exact Declaration.links_used visible declaration
  | evaluate e => exact e.links_used visible
theorem Stmt.links_used_in (visible : Visible) (stmts : List Stmt) :
    (Stmt.usesOf visible stmts).map Use.link =
      (Stmt.nodesOf stmts).filterMap Expr.link? := by
  cases stmts with
  | nil => rfl
  | cons stmt stmts =>
      rw [Stmt.usesOf, Stmt.nodesOf, List.map_append, List.filterMap_append,
        Stmt.links_used visible stmt, Stmt.links_used_in _ stmts]
theorem Declaration.links_used (visible : Visible) (declaration : Declaration) :
    (declaration.uses visible).map Use.link = declaration.nodes.filterMap Expr.link? := by
  cases declaration with
  | object entity initial =>
      cases initial with
      | none => rfl
      | some e =>
          rw [Declaration.uses, Declaration.nodes, Option.toList_some, List.flatMap_singleton,
            Expr.nodesOf, Expr.nodesOf, List.append_nil]
          exact e.links_used visible
  | prototype entity parameters => exact Declaration.links_used_in visible parameters
  | function entity parameters body =>
      have given := Declaration.links_used_in visible parameters
      cases body with
      | block stmts =>
          rw [Declaration.uses, Declaration.nodes, List.map_append, List.filterMap_append, given,
            Stmt.links_used_in _ stmts, Stmt.nodes]
      | _ =>
          rw [Declaration.uses, Declaration.nodes, List.map_append, List.filterMap_append, given]
          · exact congrArg _ (Stmt.links_used _ _)
          · nofun
  | program declarations => exact Declaration.links_used_in ([] :: visible) declarations
theorem Declaration.links_used_in (visible : Visible) (declarations : List Declaration) :
    (Declaration.usesOf visible declarations).map Use.link =
      (Declaration.nodesOf declarations).filterMap Expr.link? := by
  cases declarations with
  | nil => rfl
  | cons declaration declarations =>
      rw [Declaration.usesOf, Declaration.nodesOf, List.map_append, List.filterMap_append,
        Declaration.links_used visible declaration, Declaration.links_used_in _ declarations]
end

def Owned (visible : Visible) (declared : List Entity) (uses : List Use) : Prop :=
  ∀ use ∈ uses, ∀ entity ∈ use.visible.flatten, entity ∈ visible.flatten ∨ entity ∈ declared

namespace Owned

variable {declared further : List Entity} {uses more : List Use}

theorem nil : Owned visible declared [] := nofun

theorem weaken (owned : Owned visible declared uses)
    (among : ∀ entity ∈ declared, entity ∈ further) : Owned visible further uses := by
  intro use member entity within
  rcases owned use member entity within with before | isDeclared
  · exact .inl before
  · exact .inr (among entity isDeclared)

theorem left (owned : Owned visible declared uses) : Owned visible (declared ++ further) uses :=
  owned.weaken fun _ isDeclared => List.mem_append_left _ isDeclared

theorem both (first : Owned visible declared uses) (second : Owned visible declared more) :
    Owned visible declared (uses ++ more) :=
  List.forall_mem_append.mpr ⟨first, second⟩

theorem after (owned : Owned (visible.declaring own) further uses)
    (declares : ∀ entity ∈ own, entity ∈ declared) :
    Owned visible (declared ++ further) uses := by
  intro use member entity within
  rcases owned use member entity within with before | isDeclared
  · rcases Visible.mem_declaring before with before | isOwn
    · exact .inl before
    · exact .inr (List.mem_append_left _ (declares entity isOwn))
  · exact .inr (List.mem_append_right _ isDeclared)

theorem of_expr (e : Expr) : Owned visible declared (e.uses visible) := by
  intro use member entity within
  obtain ⟨_, _, rfl⟩ := List.mem_map.mp member
  exact .inl within

end Owned

theorem Declaration.own_declared (declaration : Declaration) :
    ∀ entity ∈ declaration.entity?.toList, entity ∈ declaration.declared := by
  intro entity member
  cases declaration with
  | program declarations => cases member
  | _ =>
      obtain rfl := List.mem_singleton.mp member
      simp [Declaration.declared]

theorem Declaration.own_declared_in (declarations : List Declaration) :
    ∀ entity ∈ declarations.filterMap Declaration.entity?,
      entity ∈ Declaration.declaredIn declarations := by
  intro entity member
  obtain ⟨declaration, among, named⟩ := List.mem_filterMap.mp member
  induction declarations with
  | nil => cases among
  | cons first declarations ih =>
      rw [Declaration.declaredIn, List.mem_append]
      rcases List.mem_cons.mp among with rfl | among
      · exact .inl (declaration.own_declared entity (by simp [named]))
      · exact .inr (ih (List.mem_filterMap.mpr ⟨declaration, among, named⟩) among)

mutual
theorem Stmt.own_declared (stmt : Stmt) : ∀ entity ∈ stmt.own, entity ∈ stmt.declared := by
  intro entity member
  cases stmt with
  | when condition body | whileLoop condition body => exact Stmt.own_declared body entity member
  | ifElse condition first second =>
      rw [Stmt.declared, List.mem_append]
      rcases List.mem_append.mp member with isFirst | isSecond
      · exact .inl (Stmt.own_declared first entity isFirst)
      · exact .inr (Stmt.own_declared second entity isSecond)
  | declare declaration => exact declaration.own_declared entity member
  | block | breakLoop | continueLoop | returnValue | evaluate => cases member
end

mutual
theorem Stmt.owned (visible : Visible) (stmt : Stmt) :
    Owned visible stmt.declared (stmt.uses visible) := by
  cases stmt with
  | block stmts => exact Stmt.owned_in ([] :: visible) stmts
  | when condition body | whileLoop condition body =>
      exact (Owned.of_expr condition).both (Stmt.owned visible body)
  | ifElse condition first second =>
      have chosen := (Owned.of_expr condition).both (Stmt.owned visible first)
      exact chosen.left.both ((Stmt.owned _ second).after first.own_declared)
  | breakLoop | continueLoop => exact .nil
  | returnValue value => exact .of_expr value
  | declare declaration => exact Declaration.owned visible declaration
  | evaluate e => exact .of_expr e
theorem Stmt.owned_in (visible : Visible) (stmts : List Stmt) :
    Owned visible (Stmt.declaredIn stmts) (Stmt.usesOf visible stmts) := by
  cases stmts with
  | nil => exact .nil
  | cons stmt stmts =>
      exact (Stmt.owned visible stmt).left.both ((Stmt.owned_in _ stmts).after stmt.own_declared)
theorem Declaration.owned (visible : Visible) (declaration : Declaration) :
    Owned visible declaration.declared (declaration.uses visible) := by
  cases declaration with
  | object entity initial =>
      intro use member other within
      obtain ⟨e, _, used⟩ := List.mem_flatMap.mp member
      exact Owned.of_expr e use used other within
  | prototype entity parameters =>
      have given := Declaration.owned_in visible parameters
      exact given.weaken fun _ isDeclared => List.mem_cons_of_mem _ isDeclared
  | function entity parameters body =>
      have given : Owned visible (Declaration.function entity parameters body).declared
          (Declaration.usesOf visible parameters) :=
        (Declaration.owned_in visible parameters).weaken fun _ isDeclared =>
          List.mem_cons_of_mem _ (List.mem_append_left _ isDeclared)
      cases body with
      | block stmts =>
          have inside := Stmt.owned_in
            ((parameters.filterMap Declaration.entity?).reverse :: visible.declaring [entity]) stmts
          apply given.both
          intro use member other within
          rw [Declaration.declared, Stmt.declared, List.mem_cons, List.mem_append]
          rcases inside use member other within with before | isDeclared
          · rcases List.mem_append.mp before with isGiven | before
            · have among := Declaration.own_declared_in parameters other (List.mem_reverse.mp isGiven)
              exact .inr (.inr (.inl among))
            · rcases Visible.mem_declaring before with before | isFunction
              · exact .inl before
              · exact .inr (.inl (List.mem_singleton.mp isFunction))
          · exact .inr (.inr (.inr isDeclared))
      | _ =>
          rw [Declaration.uses]
          · apply given.both
            refine Owned.weaken (Owned.after (Stmt.owned (visible.declaring [entity]) _)
              fun _ isFunction => isFunction) ?_
            intro other isDeclared
            rw [Declaration.declared, List.mem_cons, List.mem_append]
            rcases List.mem_cons.mp isDeclared with isFunction | isDeclared
            · exact .inl isFunction
            · exact .inr (.inr isDeclared)
          · nofun
  | program declarations => exact Declaration.owned_in ([] :: visible) declarations
theorem Declaration.owned_in (visible : Visible) (declarations : List Declaration) :
    Owned visible (Declaration.declaredIn declarations)
      (Declaration.usesOf visible declarations) := by
  cases declarations with
  | nil => exact .nil
  | cons declaration declarations =>
      exact (Declaration.owned visible declaration).left.both
        ((Declaration.owned_in _ declarations).after declaration.own_declared)
end

mutual
theorem Stmt.declared_leaves (stmt : Stmt) :
    (stmt.declared.map Entity.leaf).Sublist stmt.leaves := by
  cases stmt with
  | block stmts => exact Stmt.declared_leaves_in stmts
  | when condition body | whileLoop condition body =>
      exact (Stmt.declared_leaves body).trans (List.sublist_append_right ..)
  | ifElse condition first second =>
      rw [Stmt.declared, Stmt.leaves, List.map_append, List.append_assoc]
      have both := (Stmt.declared_leaves first).append (Stmt.declared_leaves second)
      exact both.trans (List.sublist_append_right ..)
  | declare declaration => exact Declaration.declared_leaves declaration
  | breakLoop | continueLoop | returnValue | evaluate => exact List.nil_sublist _
theorem Stmt.declared_leaves_in (stmts : List Stmt) :
    ((Stmt.declaredIn stmts).map Entity.leaf).Sublist (Stmt.leavesOf stmts) := by
  cases stmts with
  | nil => exact List.nil_sublist _
  | cons stmt stmts =>
      rw [Stmt.declaredIn, List.map_append]
      exact (Stmt.declared_leaves stmt).append (Stmt.declared_leaves_in stmts)
theorem Declaration.declared_leaves (declaration : Declaration) :
    (declaration.declared.map Entity.leaf).Sublist declaration.leaves := by
  cases declaration with
  | object entity initial => exact (List.nil_sublist _).cons_cons _
  | prototype entity parameters => exact (Declaration.declared_leaves_in parameters).cons_cons _
  | function entity parameters body =>
      rw [Declaration.declared, List.map_cons, List.map_append]
      have inside := (Declaration.declared_leaves_in parameters).append (Stmt.declared_leaves body)
      exact inside.cons_cons _
  | program declarations => exact Declaration.declared_leaves_in declarations
theorem Declaration.declared_leaves_in (declarations : List Declaration) :
    ((Declaration.declaredIn declarations).map Entity.leaf).Sublist
      (Declaration.leavesOf declarations) := by
  cases declarations with
  | nil => exact List.nil_sublist _
  | cons declaration declarations =>
      rw [Declaration.declaredIn, List.map_append]
      exact (Declaration.declared_leaves declaration).append
        (Declaration.declared_leaves_in declarations)
end

end McFront
