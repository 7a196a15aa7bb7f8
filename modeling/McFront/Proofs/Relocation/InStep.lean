import McFront.Grammar.Parser
import McFront.Proofs.Relocation.Renaming

set_option autoImplicit false

namespace McFront

inductive Places.Blames (places : Places) : CompileError → CompileError → Prop where
  | raise {complaint : Complaint} {a b : Location} (proper : complaint.kind ≠ .lexical)
      (place : places.own a b) : Blames places (complaint.raise a) (complaint.raise b)

-- Both errors are one complaint of what was read. Each is about its own place, in the names of its
-- own text.
inductive View.Blames (view : View) : CompileError → CompileError → Prop where
  | raise {complaint complaint' : Complaint} {a b : Location} (proper : complaint.kind ≠ .lexical)
      (same : complaint.Renamed view.rename complaint') (place : view.places.own a b) :
      Blames view (complaint.raise a) (complaint'.raise b)

theorem View.Blames.location {view : View} {e e' : CompileError} (blames : view.Blames e e') :
    view.places.own e.location e'.location := by
  cases blames with
  | raise _ _ place => exact place

inductive View.Checks (view : View) {α β : Type} (related : α → β → Prop) :
    Checked α → Checked β → Prop where
  | ok {a : α} {b : β} (alike : related a b) : Checks view related (.ok a) (.ok b)
  | error {e e' : CompileError} (blames : view.Blames e e') :
      Checks view related (.error e) (.error e')

inductive Draws (related : Token → Token → Prop) (failed : CompileError → CompileError → Prop)
    (left : Token → Lexer → Token → Lexer → Prop) :
    Checked Token × Lexer → Checked Token × Lexer → Prop where
  | token {a b : Token} {lexer lexer' : Lexer} (alike : related a b)
      (behind : left a lexer b lexer') : Draws related failed left (.ok a, lexer) (.ok b, lexer')
  | error {e e' : CompileError} {lexer lexer' : Lexer} (fails : failed e e') :
      Draws related failed left (.error e, lexer) (.error e', lexer')

-- Two streams of tokens that agree up to places, as far as they go: which of their errors
-- correspond, and at which lexers with which drawn tokens both may stand.
structure Pairing where
  places : Places
  failed : CompileError → CompileError → Prop
  streams : Lexer → List Token → Lexer → List Token → Prop
  draws : ∀ {lexer lexer' : Lexer} {pending pending' : List Token},
    streams lexer pending lexer' pending' →
      Draws (Token.Alike places) failed
        (fun a left b left' => streams left (pending ++ [a]) left' (pending' ++ [b]))
        lexer.next lexer'.next
  takes : ∀ {lexer lexer' : Lexer} {a b : Token} {pending pending' : List Token},
    streams lexer (a :: pending) lexer' (b :: pending') → streams lexer pending lexer' pending'

structure Accord where
  view : View
  failed : CompileError → CompileError → Prop
  streams : Lexer → List Token → Lexer → List Token → Prop
  draws : ∀ {lexer lexer' : Lexer} {pending pending' : List Token},
    streams lexer pending lexer' pending' →
      Draws (Token.Matches view) failed
        (fun a left b left' => streams left (pending ++ [a]) left' (pending' ++ [b]))
        lexer.next lexer'.next
  takes : ∀ {lexer lexer' : Lexer} {a b : Token} {pending pending' : List Token},
    streams lexer (a :: pending) lexer' (b :: pending') → streams lexer pending lexer' pending'

theorem Token.Alike.plain {places : Places} {a b : Token} (alike : a.Alike places b) :
    a.Matches (.plain places) b := by
  refine ⟨?_, alike.location⟩
  rw [alike.kind]
  cases b.kind with
  | identifier name => exact .name (Set.mem_univ name)
  | _ => exact .other (by simp)

def Pairing.accord (pair : Pairing) : Accord where
  view := .plain pair.places
  failed := pair.failed
  streams := pair.streams
  draws := by
    intro lexer lexer' _ _ streams
    have draws := pair.draws streams
    generalize lexer.next = drawn, lexer'.next = drawn' at draws
    cases draws with
    | token alike behind => exact .token alike.plain behind
    | error fails => exact .error fails
  takes := pair.takes

namespace Accord

inductive Ends (pair : Accord) {σ α β : Type} (together : σ → σ → Prop) (related : α → β → Prop) :
    EStateM.Result Fault σ α → EStateM.Result Fault σ β → Prop where
  | ok {a : α} {b : β} {state state' : σ} (alike : related a b) (left : together state state') :
      Ends pair together related (.ok a state) (.ok b state')
  | blamed {e e' : CompileError} {state state' : σ} (blames : pair.view.Blames e e') :
      Ends pair together related (.error (.error e) state) (.error (.error e') state')
  | failed {e e' : CompileError} {state state' : σ} (fails : pair.failed e e') :
      Ends pair together related (.error (.error e) state) (.error (.error e') state')
  | breach {broken broken' : Breach} {state state' : σ} :
      Ends pair together related (.error (.breach broken) state) (.error (.breach broken') state')

def InStep (pair : Accord) {σ α β : Type} (together : σ → σ → Prop) (related : α → β → Prop)
    (first : EStateM Fault σ α) (second : EStateM Fault σ β) : Prop :=
  ∀ state state', together state state' → pair.Ends together related (first state) (second state')

structure Together (pair : Accord) (parser parser' : Parser) : Prop where
  streams : pair.streams parser.lexer parser.pending parser'.lexer parser'.pending
  pending : List.Forall₂ (Token.Matches pair.view) parser.pending parser'.pending
  analyzer : parser.analyzer.Matches pair.view parser'.analyzer
  depth : parser.depth = parser'.depth

abbrev Keeps (pair : Accord) {α β : Type} (related : α → β → Prop) (first : Parse α)
    (second : Parse β) : Prop :=
  pair.InStep pair.Together related first second

end Accord

abbrev Pairing.Together (pair : Pairing) : Parser → Parser → Prop := pair.accord.Together

theorem View.Checks.bind {view : View} {α β γ δ : Type} {related : α → β → Prop}
    {after : γ → δ → Prop} {first : Checked α} {second : Checked β} {next : α → Checked γ}
    {next' : β → Checked δ} (checks : view.Checks related first second)
    (rest : ∀ a b, related a b → view.Checks after (next a) (next' b)) :
    view.Checks after (first >>= next) (second >>= next') := by
  cases checks with
  | ok alike => exact rest _ _ alike
  | error blames => exact .error blames

section Steps

variable {pair : Accord} {σ α β γ δ : Type} {together : σ → σ → Prop} {related : α → β → Prop}
  {after : γ → δ → Prop}

theorem in_step_pure {a : α} {b : β} (alike : related a b) :
    pair.InStep together related (pure a) (pure b) :=
  fun _ _ state => .ok alike state

theorem in_step_get : pair.InStep together together get get :=
  fun _ _ state => .ok state state

theorem in_step_breach {broken broken' : Breach} :
    pair.InStep together related (breach broken) (breach broken') :=
  fun _ _ _ => .breach

theorem in_step_check {first : Checked α} {second : Checked β}
    (checks : pair.view.Checks related first second) :
    pair.InStep together related (check first) (check second) := by
  intro state state' holds
  cases checks with
  | ok alike => exact .ok alike holds
  | error blames => exact .blamed blames

theorem in_step_modify {f g : σ → σ}
    (keeps : ∀ state state', together state state' → together (f state) (g state')) :
    pair.InStep together (fun _ _ => True) (modify f) (modify g) :=
  fun _ _ state => .ok trivial (keeps _ _ state)

theorem in_step_set {a b : σ} (alike : together a b) :
    pair.InStep together (fun _ _ => True) (set a) (set b) :=
  fun _ _ _ => .ok trivial alike

theorem in_step_bind {first : EStateM Fault σ α} {second : EStateM Fault σ β}
    {next : α → EStateM Fault σ γ} {next' : β → EStateM Fault σ δ}
    (one : pair.InStep together related first second)
    (rest : ∀ a b, related a b → pair.InStep together after (next a) (next' b)) :
    pair.InStep together after (first >>= next) (second >>= next') := by
  intro state state' holds
  show pair.Ends together after (EStateM.bind first next state) (EStateM.bind second next' state')
  have ends := one state state' holds
  unfold EStateM.bind
  generalize first state = ending, second state' = ending' at ends
  cases ends with
  | ok alike left => exact rest _ _ alike _ _ left
  | blamed blames => exact .blamed blames
  | failed fails => exact .failed fails
  | breach => exact .breach

theorem in_step_map {first : EStateM Fault σ α} {second : EStateM Fault σ β} {f : α → γ} {g : β → δ}
    (one : pair.InStep together related first second)
    (maps : ∀ a b, related a b → after (f a) (g b)) :
    pair.InStep together after (f <$> first) (g <$> second) := by
  rw [map_eq_pure_bind, map_eq_pure_bind]
  exact in_step_bind one fun a b alike => in_step_pure (maps a b alike)

theorem in_step_ite {choice : Prop} [Decidable choice] {first other : EStateM Fault σ α}
    {second other' : EStateM Fault σ β} (chosen : pair.InStep together related first second)
    (otherwise : pair.InStep together related other other') :
    pair.InStep together related (if choice then first else other)
      (if choice then second else other') := by
  by_cases holds : choice
  · rwa [if_pos holds, if_pos holds]
  · rwa [if_neg holds, if_neg holds]

end Steps

namespace Parse

variable {pair : Accord} {α β : Type} {related : α → β → Prop}

theorem peek_keeps : pair.Keeps (Token.Matches pair.view) peek peek := by
  intro parser parser' state
  have pending := state.pending
  unfold peek
  cases seen : parser.pending <;> cases seen' : parser'.pending <;> rw [seen, seen'] at pending
  · exact .breach
  · cases pending
  · cases pending
  · cases pending with
    | cons alike _ => exact .ok alike state

theorem draw_keeps : pair.Keeps (fun _ _ => True) draw draw := by
  intro parser parser' state
  have draws := pair.draws state.streams
  unfold draw
  cases drawn : parser.lexer.next
  cases drawn' : parser'.lexer.next
  rw [drawn, drawn'] at draws
  cases draws with
  | token alike behind =>
      have pending := List.rel_append state.pending (.cons alike .nil)
      exact .ok trivial ⟨behind, pending, state.analyzer, state.depth⟩
  | error fails => exact .failed fails

theorem draw_many_keeps (count : Nat) :
    pair.Keeps (fun _ _ => True) (drawMany count) (drawMany count) := by
  induction count with
  | zero => exact in_step_pure trivial
  | succ count ih => exact in_step_bind draw_keeps fun _ _ _ => ih

theorem lookahead_keeps (places : Nat) :
    pair.Keeps (Token.Matches pair.view) (lookahead places) (lookahead places) := by
  apply in_step_bind in_step_get
  intro parser parser' state
  rw [state.pending.length_eq]
  apply in_step_bind (draw_many_keeps _)
  intro _ _ _
  apply in_step_bind in_step_get
  intro parser parser' state
  by_cases within : places < parser.pending.length
  · have within' : places < parser'.pending.length := by rwa [← state.pending.length_eq]
    rw [List.getElem?_eq_getElem within, List.getElem?_eq_getElem within']
    exact in_step_pure (state.pending.get within within')
  · have beyond : ¬ places < parser'.pending.length := by rwa [← state.pending.length_eq]
    rw [List.getElem?_eq_none (Nat.le_of_not_lt within),
      List.getElem?_eq_none (Nat.le_of_not_lt beyond)]
    exact in_step_breach

theorem accept_keeps : pair.Keeps (Token.Matches pair.view) accept accept := by
  apply in_step_bind in_step_get
  intro parser parser' state
  have pending := state.pending
  have streams := state.streams
  cases seen : parser.pending <;> cases seen' : parser'.pending <;>
    rw [seen, seen'] at pending streams
  · exact in_step_breach
  · cases pending
  · cases pending
  · cases pending with
    | cons alike others =>
        apply in_step_bind (in_step_set ⟨pair.takes streams, others, state.analyzer, state.depth⟩)
        intro _ _ _
        cases others with
        | nil => exact in_step_bind draw_keeps fun _ _ _ => in_step_pure alike
        | cons _ _ => exact in_step_pure alike

theorem sees_keeps (kind : Token.Kind) [kind.Unnamed] :
    pair.Keeps Eq (sees kind) (sees kind) := by
  apply in_step_bind peek_keeps
  intro token token' alike
  exact in_step_pure (decide_eq_decide.mpr (alike.is kind))

theorem takes_keeps (kind : Token.Kind) [kind.Unnamed] :
    pair.Keeps Eq (takes kind) (takes kind) := by
  apply in_step_bind (sees_keeps kind)
  rintro seen _ rfl
  exact in_step_ite (in_step_bind accept_keeps fun _ _ _ => in_step_pure rfl) (in_step_pure rfl)

theorem reject_keeps {complaint complaint' : Complaint} {a b : Location}
    (proper : complaint.kind ≠ .lexical) (same : complaint.Renamed pair.view.rename complaint')
    (place : pair.view.places.own a b) :
    pair.Keeps related (reject complaint a) (reject complaint' b) :=
  in_step_check (.error (.raise proper same place))

theorem unexpected_keeps (what : String) :
    pair.Keeps related (unexpected what) (unexpected what) := by
  apply in_step_bind peek_keeps
  intro token token' alike
  unfold Token.display
  rw [alike.kind_renamed]
  exact reject_keeps nofun .expected alike.location

theorem expect_keeps (kind : Token.Kind) [kind.Unnamed] (what : String) :
    pair.Keeps (Token.Matches pair.view) (expect kind what) (expect kind what) := by
  apply in_step_bind (sees_keeps kind)
  rintro seen _ rfl
  exact in_step_ite accept_keeps (unexpected_keeps what)

theorem demand_keeps {value value' : Except Breach α} (same : value.toOption = value'.toOption) :
    pair.Keeps Eq (demand value) (demand value') := by
  cases value <;> cases value' <;> cases same
  · exact in_step_breach
  · exact in_step_pure rfl

structure NamedAlike (view : View) (a b : String × Location) : Prop where
  known : a.1 ∈ view.known
  name : view.rename a.1 = b.1
  location : view.places.own a.2 b.2

theorem symbol_keeps {token token' : Token} (alike : token.Matches pair.view token') :
    pair.Keeps (fun name other => name ∈ pair.view.known ∧ pair.view.rename name = other)
      (demand token.symbol) (demand token'.symbol) := by
  unfold Token.symbol
  rcases alike.kinds with ⟨name, known, named, named'⟩ | ⟨proper, same⟩
  · rw [named, named']
    exact in_step_pure ⟨known, rfl⟩
  · rw [same]
    split
    · exact absurd ‹_› (proper _)
    · exact in_step_breach

theorem expect_name_keeps : pair.Keeps (NamedAlike pair.view) expectName expectName := by
  apply in_step_bind peek_keeps
  intro token token' alike
  rw [alike.isName]
  refine in_step_ite ?_ (unexpected_keeps _)
  apply in_step_bind accept_keeps
  intro token token' alike
  apply in_step_bind (symbol_keeps alike)
  rintro name other ⟨known, same⟩
  exact in_step_pure ⟨known, same, alike.location⟩

variable {step : Analysis α} {step' : Analysis β} {phrase : Parse α} {phrase' : Parse β}

theorem analyze_keeps (keeps : pair.InStep (Analyzer.Matches pair.view) related step step') :
    pair.Keeps related (analyze step) (analyze step') := by
  intro parser parser' state
  have ends := keeps _ _ state.analyzer
  unfold analyze
  generalize step parser.analyzer = ending, step' parser'.analyzer = ending' at ends
  cases ends with
  | ok alike left => exact .ok alike ⟨state.streams, state.pending, left, state.depth⟩
  | blamed blames => exact .blamed blames
  | failed fails => exact .failed fails
  | breach => exact .breach

theorem releasing_keeps {release release' : Parser → Parser}
    (keeps : pair.Keeps related phrase phrase')
    (releases : ∀ parser parser', pair.Together parser parser' →
      pair.Together (release parser) (release' parser')) :
    pair.Keeps related (releasing phrase release) (releasing phrase' release') := by
  intro parser parser' state
  have ends := keeps _ _ state
  unfold releasing
  generalize phrase parser = ending, phrase' parser' = ending' at ends
  cases ends with
  | ok alike left => exact .ok alike (releases _ _ left)
  | blamed blames => exact .blamed blames
  | failed fails => exact .failed fails
  | breach => exact .breach

theorem change_together {f : Analyzer → Analyzer}
    (keeps : ∀ analyzer analyzer' : Analyzer, analyzer.Matches pair.view analyzer' →
      (f analyzer).Matches pair.view (f analyzer'))
    (parser parser' : Parser) (state : pair.Together parser parser') :
    pair.Together (change f parser) (change f parser') :=
  ⟨state.streams, state.pending, keeps _ _ state.analyzer, state.depth⟩

theorem deepen_keeps : pair.Keeps (fun _ _ => True) deepen deepen := by
  apply in_step_bind in_step_get
  intro parser parser' state
  rw [state.depth]
  apply in_step_ite
  · apply in_step_bind peek_keeps
    intro token token' alike
    exact reject_keeps nofun .same alike.location
  · exact in_step_set ⟨state.streams, state.pending, state.analyzer, rfl⟩

theorem keeping_depth_keeps (keeps : pair.Keeps related phrase phrase') :
    pair.Keeps related (keepingDepth phrase) (keepingDepth phrase') := by
  intro parser parser' state
  refine releasing_keeps keeps ?_ parser parser' state
  intro after after' left
  exact ⟨left.streams, left.pending, left.analyzer, state.depth⟩

theorem nested_keeps (keeps : pair.Keeps related phrase phrase') :
    pair.Keeps related (nested phrase) (nested phrase') := by
  apply in_step_bind deepen_keeps
  intro _ _ _
  apply releasing_keeps keeps
  intro after after' left
  exact ⟨left.streams, left.pending, left.analyzer, congrArg (· - 1) left.depth⟩

theorem out_of_budget_keeps : pair.Keeps related (outOfBudget : Parse α) (outOfBudget : Parse β) :=
  in_step_breach

end Parse

end McFront
