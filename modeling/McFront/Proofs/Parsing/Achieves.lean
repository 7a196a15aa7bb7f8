import McFront.Proofs.Parsing.Stance

set_option autoImplicit false

namespace McFront

section Runs

variable {σ α β : Type} {fails : CompileError → Prop}

def Achieves (fails : CompileError → Prop) (program : EStateM Fault σ α) (start : σ)
    (post : α → σ → Prop) : Prop :=
  match program start with
  | .ok a after => post a after
  | .error (.error error) _ => fails error
  | .error (.breach _) _ => True

theorem achieves_ok {program : EStateM Fault σ α} {start after : σ} {a : α} {post : α → σ → Prop}
    (ran : program start = .ok a after) (holds : post a after) :
    Achieves fails program start post := by
  simpa only [Achieves, ran] using holds

theorem achieves_pure {a : α} {start : σ} {post : α → σ → Prop} (holds : post a start) :
    Achieves fails (pure a) start post := holds

theorem achieves_of_ensures {program : EStateM Fault σ α} {start : σ} {post : α → σ → Prop}
    (ensured : Ensures program start post)
    (allowed : ∀ error after, program start = .error (.error error) after → fails error) :
    Achieves fails program start post := by
  unfold Ensures at ensured
  unfold Achieves
  split <;> simp_all only
  exact allowed _ _ rfl

theorem achieves_ran {program : EStateM Fault σ α} {start : σ} {post : α → σ → Prop}
    (achieves : Achieves fails program start post) :
    Achieves fails program start fun a after => program start = .ok a after ∧ post a after := by
  unfold Achieves at *
  split <;> simp_all

theorem achieves_allow {program : EStateM Fault σ α} {start : σ} {post : α → σ → Prop}
    {allowed : CompileError → Prop} (achieves : Achieves fails program start post)
    (implies : ∀ error, fails error → allowed error) : Achieves allowed program start post := by
  unfold Achieves at *
  split <;> simp_all only

theorem achieves_weaken {program : EStateM Fault σ α} {start : σ} {strong weak : α → σ → Prop}
    (achieves : Achieves fails program start strong)
    (implies : ∀ a after, strong a after → weak a after) : Achieves fails program start weak := by
  unfold Achieves at *
  split <;> simp_all only

theorem achieves_bind {program : EStateM Fault σ α} {next : α → EStateM Fault σ β} {start : σ}
    {mid : α → σ → Prop} {post : β → σ → Prop} (first : Achieves fails program start mid)
    (second : ∀ a after, mid a after → Achieves fails (next a) after post) :
    Achieves fails (program >>= next) start post := by
  unfold Achieves at first
  show Achieves fails (EStateM.bind program next) start post
  simp only [Achieves, EStateM.bind]
  cases ran : program start with
  | ok a after =>
      rw [ran] at first
      exact second a after first
  | error fault after =>
      rw [ran] at first
      cases fault <;> exact first

theorem achieves_bind_ran {program : EStateM Fault σ α} {next : α → EStateM Fault σ β}
    {start mid : σ} {a : α} {post : β → σ → Prop} (ran : program start = .ok a mid)
    (rest : Achieves fails (next a) mid post) : Achieves fails (program >>= next) start post :=
  achieves_bind (achieves_ok ran ⟨rfl, rfl⟩ : Achieves fails program start fun b after =>
    b = a ∧ after = mid) (by rintro _ _ ⟨rfl, rfl⟩; exact rest)

theorem achieves_check {checked : Checked α} {a : α} {start : σ} {post : α → σ → Prop}
    (built : checked = .ok a) (holds : post a start) :
    Achieves fails (check checked) start post := by
  rw [built]
  exact holds

abbrev Proceeds (last : Checked Token) (program : EStateM Fault σ α) (start : σ)
    (post : α → σ → Prop) : Prop :=
  Achieves (fun error => last = .error error) program start post

end Runs

namespace Parse

open McFront.Parser

variable {β : Type} {fails : CompileError → Prop} {parser : Parser} {analyzer : Analyzer}
  {depth : Nat} {outlook : Outlook} {input rest : List Token} {last : Checked Token}
  {token : Token} {post : β → Parser → Prop}

theorem achieves_out_of_budget : Achieves fails (outOfBudget : Parse β) parser post := trivial

theorem achieves_releasing {phrase : Parse β} {release : Parser → Parser}
    (achieves : Achieves fails phrase parser fun b after => post b (release after)) :
    Achieves fails (releasing phrase release) parser post := by
  unfold Achieves at achieves
  simp only [Achieves, releasing]
  cases ran : phrase parser with
  | ok b after =>
      rw [ran] at achieves
      exact achieves
  | error fault after =>
      rw [ran] at achieves
      cases fault <;> exact achieves

theorem achieves_bind_peek {next : Token → Parse β}
    (stands : parser.Stands analyzer depth ⟨input, last⟩)
    (achieves : ∀ token, Shows last input token → Achieves fails (next token) parser post) :
    Achieves fails (peek >>= next) parser post := by
  obtain ⟨token, pending, found, shows, _⟩ := stands.shows
  have ran : peek parser = .ok token parser := by simp only [peek, found]
  exact achieves_bind_ran ran (achieves token shows)

theorem achieves_bind_peek_token {next : Token → Parse β}
    (stands : parser.Stands analyzer depth ⟨token :: rest, last⟩)
    (achieves : token.isEnd = false → Achieves fails (next token) parser post) :
    Achieves fails (peek >>= next) parser post := by
  apply achieves_bind_peek stands
  intro _ shows
  cases shows with
  | token _ _ proper => exact achieves proper

theorem draw_fails {error : CompileError} {after : Parser}
    (failed : draw parser = .error (.error error) after) :
    parser.lexer.outlook.last = .error error := by
  unfold draw at failed
  cases drawn : parser.lexer.next with
  | mk result lexer =>
      rw [drawn] at failed
      cases result with
      | ok token => cases failed
      | error other =>
          cases failed
          rw [(Lexer.outlook_error drawn).1]

theorem accept_achieves (stands : parser.Stands analyzer depth ⟨token :: rest, last⟩) :
    Proceeds last accept parser fun taken after =>
      token = taken ∧ after.Stands analyzer depth ⟨rest, last⟩ := by
  apply achieves_of_ensures (accept_stands stands)
  intro error after failed
  obtain ⟨current, pending, found, shows, left⟩ := stands.shows
  cases shows
  have behind := left rest rfl
  cases pending with
  | cons next pending =>
      rw [accept_more found] at failed
      cases failed
  | nil =>
      rw [accept_last found] at failed
      change parser.lexer.outlook = _ at behind
      cases drew : draw { parser with pending := [] } with
      | ok _ _ => simp [bind, EStateM.bind, pure, EStateM.pure, drew] at failed
      | error fault left =>
          simp only [bind, EStateM.bind, drew] at failed
          cases failed
          have fails := draw_fails drew
          simpa only [behind] using fails

theorem pending_ahead (lexer : Lexer) (pending : List Token)
    (within : pending.length ≤ (outlookFrom lexer pending).tokens.length) :
    outlookFrom lexer pending = ⟨pending ++ lexer.outlook.tokens, lexer.outlook.last⟩ := by
  induction pending with
  | nil => rfl
  | cons token pending ih =>
      rw [outlookFrom] at within ⊢
      by_cases ended : token.isEnd = true
      · rw [if_pos ended] at within
        cases within
      · rw [if_neg ended] at within ⊢
        rw [ih (Nat.le_of_succ_le_succ within)]
        rfl

theorem draw_many_achieves (count : Nat) (stands : parser.Stands analyzer depth ⟨input, last⟩)
    (within : 0 < count → parser.pending.length + count ≤ input.length) :
    Proceeds last (drawMany count) parser fun _ after =>
      after.pending.length = parser.pending.length + count ∧
        after.Stands analyzer depth ⟨input, last⟩ := by
  induction count generalizing parser with
  | zero => exact achieves_pure ⟨rfl, stands⟩
  | succ count ih =>
      have within := within (Nat.succ_pos count)
      have seen := stands.outlook
      have ahead := pending_ahead parser.lexer parser.pending (by
        rw [seen]
        show parser.pending.length ≤ input.length
        omega)
      rw [seen] at ahead
      have drawn : Proceeds last draw parser _ := achieves_of_ensures (draw_stands stands) (by
        intro error after failed
        rw [← draw_fails failed]
        exact congrArg Outlook.last ahead)
      apply achieves_bind drawn
      rintro _ mid ⟨longer, stands⟩
      apply achieves_weaken (ih stands fun _ => by omega)
      rintro _ after ⟨longest, stands⟩
      exact ⟨by omega, stands⟩

theorem pending_get (lexer : Lexer) (pending : List Token) (index : Nat)
    (within : index < pending.length)
    (ahead : (outlookFrom lexer pending).tokens[index]? = some token) :
    pending[index]? = some token := by
  induction pending generalizing index with
  | nil => cases within
  | cons first pending ih =>
      rw [outlookFrom] at ahead
      by_cases ended : first.isEnd = true
      · rw [if_pos ended] at ahead
        cases ahead
      · rw [if_neg ended] at ahead
        cases index with
        | zero => exact ahead
        | succ index => exact ih index (Nat.lt_of_succ_lt_succ within) ahead

theorem achieves_bind_deepen {next : Unit → Parse β} (within : depth < nestingLimit)
    (stands : parser.Stands analyzer depth outlook)
    (achieves : ∀ deeper : Parser, deeper.Stands analyzer (depth + 1) outlook →
      Achieves fails (next ()) deeper post) : Achieves fails (deepen >>= next) parser post := by
  have shallow : ¬ nestingLimit ≤ parser.depth := by
    rw [stands.depth]
    omega
  apply achieves_bind_ran (deepen_shallow shallow)
  rw [stands.depth]
  exact achieves _ (stands.at_depth (depth + 1))

end Parse
end McFront
