import McFront.Grammar.Parser

set_option autoImplicit false

namespace McFront

variable {σ α β : Type}

def Ensures (program : EStateM Fault σ α) (start : σ) (post : α → σ → Prop) : Prop :=
  match program start with
  | .ok a after => post a after
  | .error (.error _) _ => True
  | .error (.breach _) _ => False

theorem bind_ran {program : EStateM Fault σ α} {next : α → EStateM Fault σ β} {start after : σ}
    {b : β} (ran : (program >>= next) start = .ok b after) :
    ∃ a mid, program start = .ok a mid ∧ next a mid = .ok b after := by
  change EStateM.bind program next start = .ok b after at ran
  unfold EStateM.bind at ran
  split at ran
  · exact ⟨_, _, ‹_›, ran⟩
  · cases ran

theorem bind_failed {program : EStateM Fault σ α} {next : α → EStateM Fault σ β}
    {start after : σ} {fault : Fault} (failed : (program >>= next) start = .error fault after) :
    (∃ a mid, program start = .ok a mid ∧ next a mid = .error fault after) ∨
      program start = .error fault after := by
  change EStateM.bind program next start = .error fault after at failed
  unfold EStateM.bind at failed
  split at failed
  · exact .inl ⟨_, _, ‹_›, failed⟩
  · rename_i ran
    cases failed
    exact .inr ran

theorem check_ran {checked : Checked α} {start after : σ} {a : α}
    (ran : check checked start = .ok a after) : checked = .ok a ∧ after = start := by
  cases checked <;> cases ran
  exact ⟨rfl, rfl⟩

theorem ensures_ok {program : EStateM Fault σ α} {start after : σ} {a : α} {post : α → σ → Prop}
    (ran : program start = .ok a after) (holds : post a after) : Ensures program start post := by
  simpa only [Ensures, ran] using holds

theorem ensures_result {program : EStateM Fault σ α} {start after : σ} {a : α}
    {post : α → σ → Prop} (ensured : Ensures program start post)
    (ran : program start = .ok a after) : post a after := by
  simpa only [Ensures, ran] using ensured

theorem ensures_total {program : EStateM Fault σ α} {start : σ} {post : α → σ → Prop}
    (ensured : Ensures program start post) :
    (∃ a after, program start = .ok a after) ∨
      ∃ error after, program start = .error (.error error) after := by
  unfold Ensures at ensured
  cases ran : program start with
  | ok a after => exact .inl ⟨a, after, rfl⟩
  | error fault after =>
      rw [ran] at ensured
      cases fault with
      | error error => exact .inr ⟨error, after, rfl⟩
      | breach broken => exact ensured.elim

theorem ensures_ran {program : EStateM Fault σ α} {start : σ} {post : α → σ → Prop}
    (ensured : Ensures program start post) :
    Ensures program start fun a after => program start = .ok a after ∧ post a after := by
  unfold Ensures at *
  split <;> simp_all

theorem ensures_pure {a : α} {start : σ} {post : α → σ → Prop} (holds : post a start) :
    Ensures (pure a) start post := holds

theorem ensures_weaken {program : EStateM Fault σ α} {start : σ} {strong weak : α → σ → Prop}
    (ensured : Ensures program start strong)
    (implies : ∀ a after, strong a after → weak a after) : Ensures program start weak := by
  unfold Ensures at *
  split <;> simp_all only

theorem ensures_bind {program : EStateM Fault σ α} {next : α → EStateM Fault σ β} {start : σ}
    {mid : α → σ → Prop} {post : β → σ → Prop} (first : Ensures program start mid)
    (second : ∀ a after, mid a after → Ensures (next a) after post) :
    Ensures (program >>= next) start post := by
  unfold Ensures at first
  show Ensures (EStateM.bind program next) start post
  simp only [Ensures, EStateM.bind]
  split at first
  · rename_i a after ran
    simp only [ran]
    exact second a after first
  · rename_i ran
    simp only [ran]
  · exact first.elim

theorem ensures_check {checked : Checked α} {start : σ} {post : α → σ → Prop}
    (holds : ∀ a, checked = .ok a → post a start) : Ensures (check checked) start post := by
  cases checked with
  | ok a => exact holds a rfl
  | error error => exact trivial

theorem ensures_bind_check {checked : Checked α} {next : α → EStateM Fault σ β} {start : σ}
    {post : β → σ → Prop} (ensured : ∀ a, checked = .ok a → Ensures (next a) start post) :
    Ensures (check checked >>= next) start post := by
  cases checked with
  | ok a => exact ensured a rfl
  | error error => exact trivial

theorem ensures_carried {τ : Type} {program : EStateM Fault σ α} {inside : EStateM Fault τ α}
    {start : σ} {begun : τ} {post : α → σ → Prop} (carry : τ → σ)
    (runs : program start =
      match inside begun with
      | .ok a after => .ok a (carry after)
      | .error fault after => .error fault (carry after))
    (ensured : Ensures inside begun fun a after => post a (carry after)) :
    Ensures program start post := by
  unfold Ensures at *
  rw [runs]
  cases ran : inside begun with
  | ok a after =>
      rw [ran] at ensured
      exact ensured
  | error fault after =>
      rw [ran] at ensured
      cases fault with
      | error error => trivial
      | breach broken => exact ensured.elim

namespace Parse

theorem ensures_reject {complaint : Complaint} {place : Location} {start : Parser}
    {post : α → Parser → Prop} : Ensures (reject complaint place) start post := trivial

theorem ensures_analyze {step : Analysis α} {start : Parser} {post : α → Parser → Prop}
    (ensured : Ensures step start.analyzer fun a analyzer => post a { start with analyzer }) :
    Ensures (analyze step) start post := by
  refine ensures_carried (fun analyzer => { start with analyzer }) ?_ ensured
  unfold analyze
  cases step start.analyzer <;> rfl

theorem ensures_releasing {phrase : Parse α} {release : Parser → Parser} {start : Parser}
    {post : α → Parser → Prop}
    (ensured : Ensures phrase start fun a after => post a (release after)) :
    Ensures (releasing phrase release) start post := by
  refine ensures_carried release ?_ ensured
  unfold releasing
  cases phrase start <;> rfl

theorem ensures_in_scope {kind : ScopeKind} {phrase : Parse α} {start : Parser}
    {mid : Unit → Parser → Prop} {post : α → Parser → Prop}
    (entered : Ensures (analyze (Analysis.enter kind)) start mid)
    (ensured : ∀ inside, mid () inside →
      Ensures phrase inside fun a after => post a (change Analyzer.leaveScope after)) :
    Ensures (inScope kind phrase) start post :=
  ensures_releasing (ensures_bind entered fun _ inside holds => ensured inside holds)

theorem ensures_keeping_depth {phrase : Parse α} {start : Parser} {post : α → Parser → Prop}
    (ensured : Ensures phrase start fun a after => post a { after with depth := start.depth }) :
    Ensures (keepingDepth phrase) start post :=
  ensures_releasing ensured

end Parse
end McFront
