import McFront.Proofs.Parsing.Frame
import McFront.Proofs.Parsing.Stance

set_option autoImplicit false

namespace McFront

section Endings

variable {σ α β : Type}

def ending (program : EStateM Fault σ α) (start : σ) : σ :=
  match program start with
  | .ok _ after | .error _ after => after

def Ends (relation : σ → σ → Prop) (program : EStateM Fault σ α) : Prop :=
  ∀ start, relation start (ending program start)

class Chains (relation : σ → σ → Prop) : Prop where
  refl (state : σ) : relation state state
  trans {before mid after : σ} (first : relation before mid) (second : relation mid after) :
    relation before after

variable {relation weaker : σ → σ → Prop} {program other : EStateM Fault σ α}

theorem ending_bind (program : EStateM Fault σ α) (next : α → EStateM Fault σ β) (start : σ) :
    ending (program >>= next) start =
      match program start with
      | .ok a mid => ending (next a) mid
      | .error _ after => after := by
  show ending (EStateM.bind program next) start = _
  unfold ending EStateM.bind
  cases program start <;> rfl

theorem ending_bind_pure (program : EStateM Fault σ α) (f : α → β) (start : σ) :
    ending (program >>= fun a => pure (f a)) start = ending program start := by
  rw [ending_bind]
  unfold ending
  cases program start <;> rfl

theorem Ends.weaken (ends : Ends relation program)
    (implies : ∀ {before after : σ}, relation before after → weaker before after) :
    Ends weaker program := fun start => implies (ends start)

section Rules

variable [Chains relation]

theorem ends_pure (a : α) : Ends relation (pure a : EStateM Fault σ α) := fun start =>
  Chains.refl start

theorem ends_get : Ends relation (get : EStateM Fault σ σ) := fun start => Chains.refl start

theorem ends_check (checked : Checked α) : Ends relation (check checked : EStateM Fault σ α) := by
  cases checked with
  | ok a => exact ends_pure a
  | error error => exact fun start => Chains.refl start

theorem ends_breach (broken : Breach) : Ends relation (breach broken : EStateM Fault σ α) :=
  fun start => Chains.refl start

theorem ends_bind {next : α → EStateM Fault σ β} (first : Ends relation program)
    (second : ∀ a, Ends relation (next a)) : Ends relation (program >>= next) := by
  intro start
  have step := first start
  rw [ending_bind]
  unfold ending at step
  cases ran : program start with
  | ok a mid =>
      rw [ran] at step
      exact Chains.trans step (second a mid)
  | error fault after =>
      rw [ran] at step
      exact step

theorem ends_map (f : α → β) (ends : Ends relation program) :
    Ends relation (f <$> program) := by
  rw [← bind_pure_comp]
  exact ends_bind ends fun a => ends_pure (f a)

end Rules

theorem ends_ite {choice : Prop} [Decidable choice] (first : Ends relation program)
    (second : Ends relation other) : Ends relation (if choice then program else other) := by
  by_cases holds : choice
  · rwa [if_pos holds]
  · rwa [if_neg holds]

end Endings

def Gaining (before after : Analyzer) : Prop := ∃ entities, GainsAll entities before after

def GainingIdle (before after : Analyzer) : Prop := before.Idle → Gaining before after

instance : Chains Gaining where
  refl _ := ⟨[], .nil⟩
  trans := by
    rintro before mid after ⟨_, first⟩ ⟨_, second⟩
    exact ⟨_, first.append second⟩

theorem Gaining.idle {before after : Analyzer} (gaining : Gaining before after)
    (idle : before.Idle) : after.Idle := by
  obtain ⟨_, gains⟩ := gaining
  exact idle.same_frame gains.same_frame

instance : Chains GainingIdle where
  refl analyzer := fun _ => Chains.refl analyzer
  trans := by
    intro before mid after first second idle
    have gaining := first idle
    exact Chains.trans gaining (second (gaining.idle idle))

instance : Chains (Eq : Analyzer → Analyzer → Prop) := ⟨fun _ => rfl, Eq.trans⟩

namespace Analysis

theorem declare_ends (declaration : Declaration) : Ends Gaining (declare declaration) := by
  intro before
  unfold ending
  cases ran : declare declaration before with
  | ok _ after =>
      obtain ⟨entity, _, gains⟩ := declare_gains ran
      exact ⟨[entity], .one gains⟩
  | error fault after =>
      have same : after = before := by
        unfold declare at ran
        split at ran
        · cases ran
          rfl
        · split at ran <;> cases ran <;> rfl
      rw [same]
      exact Chains.refl before

theorem declare_all_ends (declarations : List Declaration) :
    Ends Gaining (declarations.forM declare) := by
  induction declarations with
  | nil => exact ends_pure ()
  | cons first declarations ih =>
      exact ends_bind (declare_ends first) fun _ => ih

theorem enter_ends (kind : ScopeKind) (before : Analyzer) :
    Gaining (before.entered kind) (ending (enter kind) before) := by
  cases kind with
  | outermost => exact Chains.refl _
  | parameters => exact Chains.refl _
  | block =>
      have filled := declare_all_ends before.shared (before.entered .block)
      unfold ending at *
      rwa [enter_block]

theorem object_ends (kind : Kind) (name : String) (type : Ty) (initial : Option Expr)
    (place : Location) : Ends Gaining (object kind name type initial place) := by
  refine ends_bind (ends_check _) fun initial => ?_
  have declares (declaration : Declaration) : Ends Gaining (do
      declare declaration
      return declaration : Analysis Declaration) :=
    ends_bind (declare_ends _) fun _ => ends_pure _
  cases kind with
  | var | const | val => exact declares _
  | program | param | func => exact ends_breach _

theorem parameter_ends (name : String) (type : Ty) (place : Location) :
    Ends Gaining (parameter name type place) :=
  ends_bind (declare_ends _) fun _ => ends_pure _

theorem function_ends (name : String) (parameters : List Declaration) (result : Ty)
    (place : Location) : Ends Gaining (function name parameters result place) := by
  unfold function
  cases parameters.mapM Declaration.entity? with
  | none => exact ends_breach _
  | some entities =>
      exact ends_bind (declare_ends _) fun _ => ends_pure _

end Analysis

structure Level (relation : Analyzer → Analyzer → Prop) (before after : Parser) : Prop where
  analysis : relation before.analyzer after.analyzer
  depth : after.depth = before.depth

def SameAnalysis (before after : Parser) : Prop := before.analyzer = after.analyzer

theorem Level.gaining_idle {before after : Parser} (level : Level Gaining before after) :
    Level GainingIdle before after := ⟨fun _ => level.analysis, level.depth⟩

instance {relation : Analyzer → Analyzer → Prop} [Chains relation] : Chains (Level relation) where
  refl parser := ⟨Chains.refl parser.analyzer, rfl⟩
  trans first second :=
    ⟨Chains.trans first.analysis second.analysis, second.depth.trans first.depth⟩

-- Relations between parsers that look at the analysis and the depth only.
class Lasting (relation : Parser → Parser → Prop) : Prop extends Chains relation where
  of_same {before after : Parser} (same : Level Eq before after) : relation before after

instance {relation : Analyzer → Analyzer → Prop} [Chains relation] : Lasting (Level relation) where
  of_same := by
    intro before after same
    refine ⟨?_, same.depth⟩
    rw [← same.analysis]
    exact Chains.refl before.analyzer

instance : Lasting SameAnalysis where
  refl _ := rfl
  trans := Eq.trans
  of_same same := same.analysis

def Fault.Barred : Fault → Prop
  | .breach _ => True
  | .error found => ∃ place, found = (Complaint.nestingTooDeep Parser.nestingLimit).raise place

namespace Parse

variable {α β : Type} {relation : Parser → Parser → Prop} {phrase : Parse α}

theorem ends_after [Lasting relation] {next : α → Parse β}
    (first : Ends (Level Eq) phrase) (second : ∀ a, Ends relation (next a)) :
    Ends relation (phrase >>= next) :=
  ends_bind (first.weaken Lasting.of_same) second

theorem peek_ends : Ends (Level Eq) peek := by
  intro start
  unfold ending peek
  cases start.pending <;> exact Chains.refl start

theorem draw_ends : Ends (Level Eq) draw := by
  intro start
  unfold ending draw
  rcases start.lexer.next with ⟨_ | _, lexer⟩ <;> exact ⟨rfl, rfl⟩

theorem draw_many_ends (count : Nat) : Ends (Level Eq) (drawMany count) := by
  induction count with
  | zero => exact ends_pure ()
  | succ count ih => exact ends_after draw_ends fun _ => ih

theorem lookahead_ends (places : Nat) : Ends (Level Eq) (lookahead places) := by
  refine ends_bind ends_get fun parser => ?_
  refine ends_bind (draw_many_ends _) fun _ => ?_
  refine ends_bind ends_get fun parser => ?_
  cases parser.pending[places]? with
  | some token => exact ends_pure token
  | none => exact ends_breach _

theorem accept_ends : Ends (Level Eq) accept := by
  intro start
  unfold ending
  cases found : start.pending with
  | nil =>
      rw [accept_none found]
      exact Chains.refl start
  | cons token pending =>
      cases pending with
      | cons next pending =>
          rw [accept_more found]
          exact ⟨rfl, rfl⟩
      | nil =>
          have drawn : Ends (Level Eq) (draw >>= fun _ => pure token) :=
            ends_after draw_ends fun _ => ends_pure token
          have left := drawn { start with pending := [] }
          rw [accept_last found]
          exact ⟨left.analysis, left.depth⟩

theorem sees_ends (kind : Token.Kind) : Ends (Level Eq) (sees kind) :=
  ends_after peek_ends fun _ => ends_pure _

theorem takes_ends (kind : Token.Kind) : Ends (Level Eq) (takes kind) := by
  refine ends_after (sees_ends kind) fun seen => ?_
  refine ends_ite ?_ (ends_pure false)
  exact ends_after accept_ends fun _ => ends_pure true

theorem reject_ends [Lasting relation] (complaint : Complaint) (place : Location) :
    Ends relation (reject complaint place : Parse α) :=
  ends_check _

theorem unexpected_ends (what : String) : Ends (Level Eq) (unexpected what : Parse α) :=
  ends_after peek_ends fun _ => reject_ends _ _

theorem expect_ends (kind : Token.Kind) (what : String) : Ends (Level Eq) (expect kind what) :=
  ends_after (sees_ends kind) fun _ =>
    ends_ite accept_ends (unexpected_ends what)

theorem demand_ends (value : Except Breach α) : Ends (Level Eq) (demand value) := by
  cases value with
  | ok a => exact ends_pure a
  | error broken => exact ends_breach broken

theorem expect_name_ends : Ends (Level Eq) expectName := by
  refine ends_after peek_ends fun token => ?_
  refine ends_ite ?_ (unexpected_ends _)
  refine ends_after accept_ends fun token => ?_
  exact ends_after (demand_ends _) fun name => ends_pure _

section Releasing

variable {between : Analyzer → Analyzer → Prop}

theorem analyze_ends {step : Analysis α} (ends : Ends between step) :
    Ends (Level between) (analyze step) := by
  intro start
  have left := ends start.analyzer
  unfold ending analyze at *
  cases ran : step start.analyzer <;> rw [ran] at left <;> exact ⟨left, rfl⟩

theorem ending_releasing (phrase : Parse α) (release : Parser → Parser) (start : Parser) :
    ending (releasing phrase release) start = release (ending phrase start) := by
  unfold ending releasing
  cases phrase start <;> rfl

theorem deepen_ran (start : Parser) :
    deepen start = .ok () { start with depth := start.depth + 1 } ∨
      ∃ fault, deepen start = .error fault start ∧ fault.Barred := by
  by_cases deep : Parser.nestingLimit ≤ start.depth
  · refine .inr ?_
    rw [deepen_deep deep]
    simp only [bind, EStateM.bind, peek]
    cases start.pending with
    | nil => exact ⟨_, rfl, trivial⟩
    | cons token pending => exact ⟨_, rfl, token.location, rfl⟩
  · exact .inl (deepen_shallow deep)

theorem deepen_ends : Ends SameAnalysis deepen := by
  intro start
  unfold ending
  rcases deepen_ran start with ran | ⟨fault, ran, _⟩ <;> rw [ran] <;> rfl

theorem keeping_depth_ends (ends : Ends SameAnalysis phrase) :
    Ends (Level Eq) (keepingDepth phrase) := by
  intro start
  show Level Eq start
    (ending (releasing phrase fun after => { after with depth := start.depth }) start)
  rw [ending_releasing]
  exact ⟨ends start, rfl⟩

theorem nested_ends [Chains between] (ends : Ends (Level between) phrase) :
    Ends (Level between) (nested phrase) := by
  intro start
  unfold nested
  rw [ending_bind]
  rcases deepen_ran start with ran | ⟨fault, ran, _⟩
  · rw [ran]
    have left := ends { start with depth := start.depth + 1 }
    simp only [ending_releasing]
    refine ⟨left.analysis, ?_⟩
    simp only [rise, left.depth, Nat.add_sub_cancel]
  · rw [ran]
    exact Chains.refl start

theorem in_scope_ends_at {kind : ScopeKind} {start : Parser}
    (ends : ∀ inside : Parser, Gaining (start.analyzer.entered kind) inside.analyzer →
      Level Gaining inside (ending phrase inside)) :
    Level Eq start (ending (inScope kind phrase) start) := by
  have entered := Analysis.enter_ends kind start.analyzer
  have closes (after : Parser) (depth : after.depth = start.depth)
      (gaining : Gaining (start.analyzer.entered kind) after.analyzer) :
      Level Eq start (change Analyzer.leaveScope after) := by
    obtain ⟨entities, gains⟩ := gaining
    exact ⟨(leave_entered gains).symm, depth⟩
  unfold inScope
  rw [ending_releasing, ending_bind]
  unfold ending at entered
  simp only [analyze]
  cases ran : Analysis.enter kind start.analyzer with
  | ok _ inside =>
      rw [ran] at entered
      have left := ends { start with analyzer := inside } entered
      exact closes _ left.depth (Chains.trans entered left.analysis)
  | error fault after =>
      rw [ran] at entered
      exact closes _ rfl entered

theorem in_scope_ends {kind : ScopeKind} (ends : Ends (Level Gaining) phrase) :
    Ends (Level Eq) (inScope kind phrase) := fun _ =>
  in_scope_ends_at fun inside _ => ends inside

theorem in_loop_ends (ends : Ends (Level Gaining) phrase) :
    Ends (Level Gaining) (Grammar.inLoop phrase) := by
  intro start
  show Level Gaining start
    (ending (releasing phrase (change Analyzer.leaveLoop)) (change Analyzer.enterLoop start))
  rw [ending_releasing]
  obtain ⟨⟨entities, gains⟩, depth⟩ := ends (change Analyzer.enterLoop start)
  exact ⟨⟨entities, gains.leave_loop⟩, depth⟩

end Releasing

end Parse
end McFront
