import McFront.Proofs.Analysis.Declaring
import McFront.Proofs.Parsing.Achieves
import McFront.Proofs.Text.Run
import McFront.Proofs.Tree.TypeText

set_option autoImplicit false

namespace McFront

def CompileError.Opposes (error : CompileError) (wanted found : String) : Prop :=
  error.message = (Complaint.typeMismatch wanted found).message ∨
    error.message = (Complaint.noCommonType wanted found).message

def DifferentTypes (wanted found : String) : Prop :=
  ∃ a b : Ty, a ≠ b ∧ wanted = a.text ∧ found = b.text

theorem Ty.text_injective : Function.Injective text := fun a b same =>
  (text_unique a b (congrArg (· ++ []) (congrArg String.toList same))).1

theorem DifferentTypes.texts_differ {wanted found : String}
    (different : DifferentTypes wanted found) : wanted ≠ found := by
  obtain ⟨a, b, differ, rfl, rfl⟩ := different
  exact fun same => differ (Ty.text_injective same)

namespace Complaint

def Tells : Complaint → Prop
  | typeMismatch wanted found | noCommonType wanted found => DifferentTypes wanted found
  | _ => True

variable {complaint : Complaint} {wanted found : String} {a b : Ty}

theorem type_mismatch_text (wanted found : String) :
    (typeMismatch wanted found).message.toList =
      "type mismatch: expected '".toList ++ (wanted.toList ++ '\'' ::
        (", found ".toList ++ '\'' :: (found.toList ++ ['\'']))) := by
  show ("type mismatch: expected '" ++ wanted ++ "', found '" ++ found ++ "'").toList = _
  simp [String.toList_append]

theorem no_common_type_text (wanted found : String) :
    (noCommonType wanted found).message.toList =
      "no common type for '".toList ++ (wanted.toList ++ '\'' ::
        (" and ".toList ++ '\'' :: (found.toList ++ ['\'']))) := by
  show ("no common type for '" ++ wanted ++ "' and '" ++ found ++ "'").toList = _
  simp [String.toList_append]

theorem quoted_unique {between : List Char}
    (same : a.text.toList ++ '\'' :: (between ++ '\'' :: (b.text.toList ++ ['\''])) =
      wanted.toList ++ '\'' :: (between ++ '\'' :: (found.toList ++ ['\'']))) :
    wanted = a.text ∧ found = b.text := by
  have unquoted : '\'' ∉ wanted.toList := by
    have counts := congrArg (List.count '\'') same
    simp only [List.count_append, List.count_cons_self, List.count_nil,
      List.count_eq_zero_of_not_mem a.text_unquoted,
      List.count_eq_zero_of_not_mem b.text_unquoted] at counts
    exact List.count_eq_zero.mp (by omega)
  obtain ⟨first, others⟩ := before_unique a.text_unquoted unquoted same
  have second := List.tail_eq_of_cons_eq (List.append_cancel_left others)
  exact ⟨String.toList_inj.mp first.symm,
    String.toList_inj.mp (List.append_cancel_right second).symm⟩

-- The first letters of a message tell which complaints it may be of, where they are not names.
theorem tells_of_message (tells : complaint.Tells)
    (same : complaint.message = (typeMismatch wanted found).message ∨
      complaint.message = (noCommonType wanted found).message) : DifferentTypes wanted found := by
  rw [← String.toList_inj, ← String.toList_inj, type_mismatch_text, no_common_type_text] at same
  cases complaint with
  | typeMismatch one other =>
      obtain ⟨a, b, differ, rfl, rfl⟩ := tells
      rw [type_mismatch_text] at same
      rcases same with same | same
      · obtain ⟨rfl, rfl⟩ := quoted_unique (List.append_cancel_left same)
        exact ⟨a, b, differ, rfl, rfl⟩
      · simp at same
  | noCommonType one other =>
      obtain ⟨a, b, differ, rfl, rfl⟩ := tells
      rw [no_common_type_text] at same
      rcases same with same | same
      · simp at same
      · obtain ⟨rfl, rfl⟩ := quoted_unique (List.append_cancel_left same)
        exact ⟨a, b, differ, rfl, rfl⟩
  | missingInitializer kind name =>
      -- Here the first letters may be any, but the last one is no quote.
      unfold message at same
      rcases same with same | same <;>
        simpa [text_of_text, List.getLast?_append, List.getLast?_cons] using
          congrArg List.getLast? same
  | _ =>
      unfold message at same
      rcases same with same | same <;> simp [text_of_text] at same

end Complaint

inductive CompileError.Told : CompileError → Prop where
  | raise {complaint : Complaint} {place : Location} (tells : complaint.Tells) :
      Told (complaint.raise place)

theorem CompileError.Told.opposed {error : CompileError} {wanted found : String} (told : error.Told)
    (opposes : error.Opposes wanted found) : DifferentTypes wanted found := by
  cases told with
  | raise tells => exact Complaint.tells_of_message tells opposes

def Telling {α : Type} (checked : Checked α) : Prop :=
  ∀ error, checked = .error error → error.Told

section Checks

variable {α β : Type} {checked : Checked α} {next : α → Checked β}

theorem telling_ok (a : α) : Telling (.ok a : Checked α) := by
  intro error failed
  cases failed

theorem telling_raise {complaint : Complaint} {place : Location} (tells : complaint.Tells) :
    Telling (.error (complaint.raise place) : Checked α) := by
  rintro _ ⟨⟩
  exact .raise tells

theorem telling_mismatch {a b : Ty} {place : Location} (differ : a ≠ b) :
    Telling (.error ((Complaint.typeMismatch a.text b.text).raise place) : Checked α) := by
  have tells : (Complaint.typeMismatch a.text b.text).Tells := ⟨a, b, differ, rfl, rfl⟩
  exact telling_raise tells

theorem telling_bind (first : Telling checked) (second : ∀ a, Telling (next a)) :
    Telling (checked >>= next) := by
  intro error failed
  cases ran : checked with
  | ok a =>
      rw [ran] at failed
      exact second a error failed
  | error found =>
      rw [ran] at failed
      cases failed
      exact first _ ran

theorem telling_then {f : α → β} (first : Telling checked) :
    Telling (checked >>= fun a => .ok (f a)) := telling_bind first fun a => telling_ok (f a)

theorem telling_ite {choice : Prop} [Decidable choice] {one other : Checked α}
    (first : Telling one) (second : ¬ choice → Telling other) :
    Telling (if choice then one else other) := by
  by_cases holds : choice
  · rwa [if_pos holds]
  · rw [if_neg holds]
    exact second holds

end Checks

namespace Expr

theorem require_telling (category : Category) (e : Expr) : Telling (e.require category) :=
  telling_ite (telling_ok _) fun _ => telling_raise trivial

theorem require_place_telling (e : Expr) : Telling e.requirePlace :=
  telling_ite (telling_ok _) fun _ => telling_raise trivial

theorem require_truth_telling (e : Expr) : Telling e.requireTruth :=
  telling_ite (telling_ok _) fun _ => telling_ite (telling_ok _) fun _ => telling_raise trivial

theorem require_type_telling (type : Ty) (e : Expr) : Telling (e.requireType type) :=
  telling_ite (telling_ok _) fun differ => telling_mismatch (Ne.symm differ)

theorem convert_telling (target : Ty) (e : Expr) : Telling (e.convertTo target) := by
  refine telling_ite (telling_ok _) fun _ => telling_ite (telling_ok _) fun _ => ?_
  split
  · exact telling_ok _
  · exact telling_raise trivial

theorem unary_require_telling (operation : UnaryOp) (e : Expr) :
    Telling (operation.require e) := by
  cases operation with
  | pos | neg | cmp | deref => exact e.require_telling _
  | not => exact e.require_truth_telling
  | addr => exact e.require_place_telling

theorem binary_require_telling (group : BinaryOp.Group) (e : Expr) :
    Telling (group.require e) := by
  cases group with
  | arithmetic | bitwise | equality | ordering => exact e.require_telling _
  | logical => exact e.require_truth_telling

end Expr

namespace Rule

theorem unary_telling (operation : UnaryOp) (operand : Expr) (place : Location) :
    Telling (unary operation operand place) := by
  rw [unary_eq]
  exact telling_then (operand.unary_require_telling operation)

theorem same_type_telling (left right : Expr) : Telling (sameType left right) :=
  telling_ite (telling_ok _) fun differ => telling_mismatch differ

theorem binary_telling (operation : BinaryOp) (left right : Expr) (place : Location) :
    Telling (binary operation left right place) := by
  rw [binary_eq]
  refine telling_bind (left.binary_require_telling _) fun left => ?_
  refine telling_bind (right.binary_require_telling _) fun right => ?_
  exact telling_then (same_type_telling left right)

theorem assign_telling (target value : Expr) (place : Location) :
    Telling (assign target value place) :=
  telling_bind target.require_place_telling fun _ => telling_then (value.require_type_telling _)

theorem conditional_telling (condition first second : Expr) (place : Location) :
    Telling (conditional condition first second place) := by
  refine telling_bind condition.require_truth_telling fun condition => ?_
  cases common : first.type.common? second.type with
  | some type =>
      exact telling_bind (first.convert_telling type) fun _ =>
        telling_then (second.convert_telling type)
  | none =>
      have differ : first.type ≠ second.type := by
        intro same
        simp [Ty.common?, same] at common
      have tells : (Complaint.noCommonType first.type.text second.type.text).Tells :=
        ⟨first.type, second.type, differ, rfl, rfl⟩
      exact telling_raise tells

theorem cast_telling (source : Expr) (target : Ty) (place : Location) :
    Telling (cast source target place) := telling_then (source.convert_telling target)

theorem arguments_telling (types : List Ty) (given : List Expr) :
    Telling (arguments types given) := by
  induction types generalizing given with
  | nil => exact telling_ok _
  | cons type types ih =>
      cases given with
      | nil => exact telling_ok _
      | cons argument given =>
          exact telling_bind (argument.require_type_telling type) fun _ => telling_then (ih given)

theorem call_telling (callee : Expr) (given : List Expr) (place : Location) :
    Telling (call callee given place) := by
  refine telling_bind (callee.require_telling _) fun callee => ?_
  generalize callee.type.signature?.getD ([], callee.type) = signature
  exact telling_ite (telling_raise trivial) fun _ => telling_then (arguments_telling _ given)

theorem index_telling (base : Expr) (given : List Expr) (place : Location) :
    Telling (index base given place) := by
  refine telling_bind (base.require_telling _) fun base => ?_
  split
  · exact telling_then (Expr.require_telling _ _)
  · exact telling_raise trivial

end Rule

namespace Analyzer

theorem name_telling (analyzer : Analyzer) (name : String) (place : Location) :
    Telling (analyzer.name name place) := by
  unfold Analyzer.name
  split
  · exact telling_ok _
  · exact telling_raise trivial

theorem in_loop_telling (analyzer : Analyzer) (word : String) (jump : Stmt) (place : Location) :
    Telling (analyzer.inLoop word jump place) := by
  unfold inLoop
  split
  · exact telling_raise trivial
  · exact telling_ok _

theorem return_telling (analyzer : Analyzer) (value : Option Expr) (place : Location) :
    Telling (analyzer.returnValue value place) := by
  unfold returnValue
  split
  · exact telling_raise trivial
  · cases value with
    | none => exact telling_raise trivial
    | some value => exact telling_then (value.require_type_telling _)

end Analyzer

section Runs

variable {σ α β : Type} {sound : σ → Prop} {program other : EStateM Fault σ α}

def Tells (sound : σ → Prop) (program : EStateM Fault σ α) : Prop :=
  ∀ start, sound start → Achieves CompileError.Told program start fun _ after => sound after

theorem tells_pure (a : α) : Tells sound (pure a : EStateM Fault σ α) := fun _ holds => holds

theorem tells_get : Tells sound (get : EStateM Fault σ σ) := fun _ holds => holds

theorem tells_breach (broken : Breach) : Tells sound (breach broken : EStateM Fault σ α) :=
  fun _ _ => trivial

theorem tells_check {checked : Checked α} (telling : Telling checked) :
    Tells sound (check checked : EStateM Fault σ α) := by
  intro start holds
  cases checked with
  | ok a => exact holds
  | error error => exact telling error rfl

theorem tells_bind {next : α → EStateM Fault σ β} (first : Tells sound program)
    (second : ∀ a, Tells sound (next a)) : Tells sound (program >>= next) :=
  fun start holds => achieves_bind (first start holds) fun a after => second a after

theorem tells_map (f : α → β) (tells : Tells sound program) : Tells sound (f <$> program) := by
  rw [← bind_pure_comp]
  exact tells_bind tells fun a => tells_pure (f a)

theorem tells_ite {choice : Prop} [Decidable choice] (first : Tells sound program)
    (second : Tells sound other) : Tells sound (if choice then program else other) := by
  by_cases holds : choice
  · rwa [if_pos holds]
  · rwa [if_neg holds]

end Runs

-- What an analyzer fails with does not hang on the state it is in.
def Analyzer.Any (_ : Analyzer) : Prop := True

namespace Analysis

theorem declare_tells (declaration : Declaration) : Tells Analyzer.Any (declare declaration) := by
  intro before holds
  unfold Achieves
  split
  · trivial
  · rename_i failed
    unfold declare at failed
    split at failed
    · cases failed
    · split at failed <;> cases failed
      exact .raise trivial
  · trivial

theorem declare_all_tells (declarations : List Declaration) :
    Tells Analyzer.Any (declarations.forM declare) := by
  induction declarations with
  | nil => exact tells_pure ()
  | cons first declarations ih => exact tells_bind (declare_tells first) fun _ => ih

theorem enter_tells (kind : ScopeKind) : Tells Analyzer.Any (enter kind) := by
  intro before holds
  cases kind with
  | outermost | parameters => trivial
  | block =>
      have filled := declare_all_tells before.shared (before.entered .block) trivial
      unfold Achieves at *
      rwa [enter_block]

theorem initializer_telling (kind : Kind) (name : String) (type : Ty)
    (initial : Option Expr) (place : Location) :
    Telling (initializer kind name type initial place) := by
  cases initial with
  | none => exact telling_ite (telling_ok _) fun _ => telling_raise trivial
  | some value => exact telling_then (value.require_type_telling type)

theorem declares_tells (declaration : Declaration) : Tells Analyzer.Any (do
    declare declaration
    return declaration : Analysis Declaration) :=
  tells_bind (declare_tells _) fun _ => tells_pure _

theorem object_tells (kind : Kind) (name : String) (type : Ty) (initial : Option Expr)
    (place : Location) : Tells Analyzer.Any (object kind name type initial place) := by
  refine tells_bind (tells_check (initializer_telling kind name type initial place)) fun _ => ?_
  cases kind with
  | var | const | val => exact declares_tells _
  | program | param | func => exact tells_breach _

theorem parameter_tells (name : String) (type : Ty) (place : Location) :
    Tells Analyzer.Any (parameter name type place) := declares_tells _

theorem function_tells (name : String) (parameters : List Declaration) (result : Ty)
    (place : Location) : Tells Analyzer.Any (function name parameters result place) := by
  unfold function
  cases parameters.mapM Declaration.entity? with
  | none => exact tells_breach _
  | some entities => exact declares_tells _

theorem begin_function_tells (declaration : Declaration) :
    Tells Analyzer.Any (beginFunction declaration) := by
  refine tells_bind tells_get fun analyzer => ?_
  cases analyzer.function with
  | some outer => exact tells_breach _
  | none => exact fun _ _ => trivial

end Analysis

open Analysis

theorem Request.run_tells (request : Request) : Tells Analyzer.Any request.run := by
  cases request with
  | object kind name type initial place => exact object_tells kind name type initial place
  | parameter name type place => exact parameter_tells name type place
  | function name parameters result place => exact function_tells name parameters result place
  | declare declaration => exact declares_tells declaration

inductive Production where
  | unary (operation : UnaryOp) (operand : Expr) (place : Location)
  | binary (operation : BinaryOp) (left right : Expr) (place : Location)
  | assign (target value : Expr) (place : Location)
  | conditional (condition first second : Expr) (place : Location)
  | cast (source : Expr) (target : Ty) (place : Location)
  | call (callee : Expr) (given : List Expr) (place : Location)
  | index (base : Expr) (given : List Expr) (place : Location)
  | name (name : String) (place : Location)
  | convert (source : Expr) (target : Ty)
  | require (category : Category) (operand : Expr)
  | requirePlace (operand : Expr)
  | requireTruth (operand : Expr)
  | breakLoop (place : Location)
  | continueLoop (place : Location)
  | returnValue (value : Option Expr) (place : Location)
  | request (request : Request)
  | enter (kind : ScopeKind)

namespace Production

def only {α : Type} (checked : Analyzer → Checked α) : Analysis Unit := do
  let _ ← check (checked (← get))

def run : Production → Analysis Unit
  | unary operation operand place => only fun _ => Rule.unary operation operand place
  | binary operation left right place => only fun _ => Rule.binary operation left right place
  | assign target value place => only fun _ => Rule.assign target value place
  | conditional condition first second place =>
      only fun _ => Rule.conditional condition first second place
  | cast source target place => only fun _ => Rule.cast source target place
  | call callee given place => only fun _ => Rule.call callee given place
  | index base given place => only fun _ => Rule.index base given place
  | name spelled place => only fun analyzer => analyzer.name spelled place
  | convert source target => only fun _ => source.convertTo target
  | require category operand => only fun _ => operand.require category
  | requirePlace operand => only fun _ => operand.requirePlace
  | requireTruth operand => only fun _ => operand.requireTruth
  | breakLoop place => only fun analyzer => analyzer.breakLoop place
  | continueLoop place => only fun analyzer => analyzer.continueLoop place
  | returnValue value place => only fun analyzer => analyzer.returnValue value place
  | request asked => do
      let _ ← asked.run
  | enter kind => Analysis.enter kind

theorem only_tells {α : Type} {checked : Analyzer → Checked α}
    (telling : ∀ analyzer, Telling (checked analyzer)) : Tells Analyzer.Any (only checked) :=
  tells_bind tells_get fun analyzer =>
    tells_bind (tells_check (telling analyzer)) fun _ => tells_pure ()

theorem run_tells (production : Production) : Tells Analyzer.Any production.run := by
  cases production with
  | unary operation operand place => exact only_tells fun _ => Rule.unary_telling _ _ _
  | binary operation left right place => exact only_tells fun _ => Rule.binary_telling _ _ _ _
  | assign target value place => exact only_tells fun _ => Rule.assign_telling _ _ _
  | conditional condition first second place =>
      exact only_tells fun _ => Rule.conditional_telling _ _ _ _
  | cast source target place => exact only_tells fun _ => Rule.cast_telling _ _ _
  | call callee given place => exact only_tells fun _ => Rule.call_telling _ _ _
  | index base given place => exact only_tells fun _ => Rule.index_telling _ _ _
  | name spelled place => exact only_tells fun analyzer => analyzer.name_telling _ _
  | convert source target => exact only_tells fun _ => source.convert_telling target
  | require category operand => exact only_tells fun _ => operand.require_telling category
  | requirePlace operand => exact only_tells fun _ => operand.require_place_telling
  | requireTruth operand => exact only_tells fun _ => operand.require_truth_telling
  | breakLoop place | continueLoop place =>
      exact only_tells fun analyzer => analyzer.in_loop_telling _ _ _
  | returnValue value place => exact only_tells fun analyzer => analyzer.return_telling _ _
  | request asked => exact tells_bind asked.run_tells fun _ => tells_pure ()
  | enter kind => exact enter_tells kind

theorem run_told {production : Production} {before after : Analyzer} {error : CompileError}
    (failed : production.run before = .error (.error error) after) : error.Told := by
  have tells := production.run_tells before trivial
  unfold Achieves at tells
  rwa [failed] at tells

end Production

end McFront
