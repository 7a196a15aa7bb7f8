import McFront.Proofs.Parsing.Endings

set_option autoImplicit false

namespace McFront

def Parser.atDepth (parser : Parser) (depth : Nat) : Parser := { parser with depth }

namespace Parse

variable {α β : Type} {start : Parser}

def atDepth (depth : Nat) : EStateM.Result Fault Parser α → EStateM.Result Fault Parser α
  | .ok a after => .ok a (after.atDepth depth)
  | .error fault after => .error fault (after.atDepth depth)

-- From here the phrases end alike at every depth of the free one, or the limited one is barred.
def FreesAt (start : Parser) (limited free : Parse α) : Prop :=
  (∃ fault after, limited start = .error fault after ∧ fault.Barred) ∨
    ∀ depth, free (start.atDepth depth) = atDepth depth (limited start)

def Frees (limited free : Parse α) : Prop := ∀ start, FreesAt start limited free

variable {limited free : Parse α} {next further : α → Parse β}

theorem frees_at_bind (first : FreesAt start limited free)
    (second : ∀ a mid, limited start = .ok a mid → FreesAt mid (next a) (further a)) :
    FreesAt start (limited >>= next) (free >>= further) := by
  rcases first with ⟨fault, after, failed, barred⟩ | same
  · refine .inl ⟨fault, after, ?_, barred⟩
    simp only [bind, EStateM.bind, failed]
  · cases ran : limited start with
    | error fault after =>
        refine .inr fun depth => ?_
        simp only [bind, EStateM.bind, same depth, ran, atDepth]
    | ok a mid =>
        rcases second a mid ran with ⟨fault, after, failed, barred⟩ | goesOn
        · refine .inl ⟨fault, after, ?_, barred⟩
          simp only [bind, EStateM.bind, ran, failed]
        · refine .inr fun depth => ?_
          simp only [bind, EStateM.bind, same depth, ran, atDepth]
          exact goesOn depth

theorem frees_bind (first : Frees limited free) (second : ∀ a, Frees (next a) (further a)) :
    Frees (limited >>= next) (free >>= further) := fun start =>
  frees_at_bind (first start) fun a mid _ => second a mid

theorem frees_at_congr {other otherwise : Parse α} (limits : limited start = other start)
    (same : ∀ depth, free (start.atDepth depth) = otherwise (start.atDepth depth))
    (frees : FreesAt start other otherwise) : FreesAt start limited free := by
  unfold FreesAt at *
  rw [limits]
  simp only [same]
  exact frees

theorem frees_pure (a : α) : Frees (pure a) (pure a) := fun _ => .inr fun _ => rfl

theorem frees_check (checked : Checked α) : Frees (check checked) (check checked) := fun _ =>
  .inr fun _ => by cases checked <;> rfl

theorem frees_breach (broken : Breach) (free : Parse α) : Frees (breach broken) free := fun start =>
  .inl ⟨_, start, rfl, trivial⟩

theorem frees_ite {choice : Prop} [Decidable choice] {other otherwise : Parse α}
    (first : Frees limited free) (second : Frees other otherwise) :
    Frees (if choice then limited else other) (if choice then free else otherwise) := by
  by_cases holds : choice
  · rwa [if_pos holds, if_pos holds]
  · rwa [if_neg holds, if_neg holds]

theorem frees_at_deepen {next : Unit → Parse α}
    (frees : FreesAt (start.atDepth (start.depth + 1)) (next ()) free) :
    FreesAt start (deepen >>= next) free := by
  rcases deepen_ran start with ran | ⟨fault, ran, barred⟩
  · have unfolded : (deepen >>= next) start = next () (start.atDepth (start.depth + 1)) := by
      simp only [bind, EStateM.bind, ran]
      rfl
    unfold FreesAt
    rw [unfolded]
    exact frees
  · refine .inl ⟨fault, start, ?_, barred⟩
    simp only [bind, EStateM.bind, ran]

theorem frees_deepen {next : Unit → Parse α} (frees : Frees (next ()) free) :
    Frees (deepen >>= next) free := fun _ => frees_at_deepen (frees _)

theorem frees_at_releasing {release : Parser → Parser}
    (levels : ∀ parser depth, (release parser).atDepth depth = parser.atDepth depth)
    (frees : FreesAt start limited free) : FreesAt start (releasing limited release) free := by
  rcases frees with ⟨fault, after, failed, barred⟩ | same
  · refine .inl ⟨fault, release after, ?_, barred⟩
    simp only [releasing, failed]
  · refine .inr fun depth => ?_
    rw [same depth]
    simp only [releasing]
    cases limited start <;> simp only [atDepth, levels]

theorem frees_nested (frees : Frees limited free) : Frees (nested limited) free :=
  frees_deepen fun start => frees_at_releasing (fun _ _ => rfl) (frees start)

theorem frees_keeping_depth (frees : Frees limited free) : Frees (keepingDepth limited) free :=
  fun start => frees_at_releasing (fun _ _ => rfl) (frees start)

theorem peek_frees : Frees peek peek := fun ⟨_, pending, _, _⟩ =>
  .inr fun _ => by cases pending <;> rfl

theorem draw_frees : Frees draw draw := fun start => by
  refine .inr fun depth => ?_
  unfold draw Parser.atDepth
  rcases start.lexer.next with ⟨_ | _, lexer⟩ <;> rfl

theorem accept_frees : Frees accept accept := fun start => by
  cases found : start.pending with
  | nil => exact .inl ⟨_, start, accept_none found, trivial⟩
  | cons token pending =>
      cases pending with
      | cons next pending =>
          refine .inr fun depth => ?_
          have deeper : (start.atDepth depth).pending = token :: next :: pending := found
          rw [accept_more found, accept_more deeper]
          rfl
      | nil =>
          have drawn : Frees (draw >>= fun _ => pure token) (draw >>= fun _ => pure token) :=
            frees_bind draw_frees fun _ => frees_pure token
          rcases drawn { start with pending := [] } with ⟨fault, after, failed, barred⟩ | same
          · exact .inl ⟨fault, after, by rw [accept_last found, failed], barred⟩
          · refine .inr fun depth => ?_
            have deeper : (start.atDepth depth).pending = [token] := found
            rw [accept_last found, accept_last deeper]
            exact same depth

theorem sees_frees (kind : Token.Kind) : Frees (sees kind) (sees kind) :=
  frees_bind peek_frees fun _ => frees_pure _

theorem takes_frees (kind : Token.Kind) : Frees (takes kind) (takes kind) := by
  refine frees_bind (sees_frees kind) fun seen => frees_ite ?_ (frees_pure _)
  exact frees_bind accept_frees fun _ => frees_pure _

theorem unexpected_frees (what : String) : Frees (unexpected what : Parse α) (unexpected what) :=
  frees_bind peek_frees fun _ => frees_check _

theorem expect_frees (kind : Token.Kind) (what : String) :
    Frees (expect kind what) (expect kind what) :=
  frees_bind (sees_frees kind) fun _ => frees_ite accept_frees (unexpected_frees what)

theorem consult_frees (found : Analyzer → Checked α) :
    Frees (do check (found (← get).analyzer)) (do check (found (← get).analyzer)) := fun start => by
  refine .inr fun depth => ?_
  show check (found start.analyzer) (start.atDepth depth) =
    atDepth depth (check (found start.analyzer) start)
  cases found start.analyzer <;> rfl

end Parse
end McFront
