import McFront.Proofs.Parsing.Achieves

set_option autoImplicit false

namespace McFront

open McFront.Parser Parse

variable {α β : Type} {before mid after : Analyzer} {depth : Nat} {input further rest : List Token}
  {token : Token} {kind : Token.Kind} {phrase : Parse α} {next : α → Parse β} {a : α} {b : β}

-- From every stance before these tokens the phrase goes on, and what it gives and where it leaves
-- the parser is as told. The first of the three is what follows the tokens.
def Goes (phrase : Parse α) (before : Analyzer) (depth : Nat) (input : List Token)
    (told : Checked Token → α → Parser → Prop) : Prop :=
  ∀ (parser : Parser) (last : Checked Token), parser.Stands before depth ⟨input, last⟩ →
    Proceeds last phrase parser (told last)

def Gives (phrase : Parse α) (before : Analyzer) (depth : Nat) (input : List Token) (a : α)
    (after : Analyzer) (rest : List Token) : Prop :=
  Goes phrase before depth input fun last b left => b = a ∧ left.Stands after depth ⟨rest, last⟩

def GivesDeeper (phrase : Parse α) (before : Analyzer) (depth : Nat) (input : List Token) (a : α)
    (after : Analyzer) (rest : List Token) : Prop :=
  Goes phrase before depth input fun last b left =>
    b = a ∧ ∃ deeper, left.Stands after deeper ⟨rest, last⟩

variable {told : Checked Token → β → Parser → Prop}

theorem gives_out_of_budget : Gives outOfBudget before depth input a after rest :=
  fun _ _ _ => achieves_out_of_budget

theorem deeper_out_of_budget : GivesDeeper outOfBudget before depth input a after rest :=
  fun _ _ _ => achieves_out_of_budget

theorem gives_pure (a : α) : Gives (pure a) before depth input a before input :=
  fun _ _ stands => achieves_pure ⟨rfl, stands⟩

theorem Gives.deeper (gives : Gives phrase before depth input a after rest) :
    GivesDeeper phrase before depth input a after rest := by
  intro parser last stands
  apply achieves_weaken (gives parser last stands)
  rintro _ left ⟨rfl, stands⟩
  exact ⟨rfl, depth, stands⟩

theorem gives_bind (first : Gives phrase before depth input a mid further)
    (second : Goes (next a) mid depth further told) :
    Goes (phrase >>= next) before depth input told := by
  intro parser last stands
  apply achieves_bind (first parser last stands)
  rintro _ left ⟨rfl, stands⟩
  exact second left last stands

theorem gives_map (f : α → β) (gives : Gives phrase before depth input a after rest) :
    Gives (f <$> phrase) before depth input (f a) after rest := by
  rw [map_eq_pure_bind]
  apply gives_bind gives
  exact gives_pure (f a)

theorem gives_check {checked : Checked α} (built : checked = .ok a) :
    Gives (check checked) before depth input a before input :=
  fun _ _ stands => achieves_check built ⟨rfl, stands⟩

theorem gives_consult (found : Analyzer → Checked α) (built : found before = .ok a) :
    Gives (do check (found (← get).analyzer)) before depth input a before input := by
  intro parser last stands
  rw [← stands.analyzer] at built
  exact achieves_check built ⟨rfl, stands⟩

theorem gives_demand {value : Except Breach α} (met : value = .ok a) :
    Gives (demand value) before depth input a before input := by
  rw [met]
  exact gives_pure a

theorem gives_analyze {step : Analysis α} (ran : step before = .ok a after) :
    Gives (analyze step) before depth input a after input := by
  intro parser last stands
  have ended : analyze step parser = .ok a { parser with analyzer := after } := by
    rw [analyze, stands.analyzer, ran]
  exact achieves_ok ended ⟨rfl, stands.with_analyzer after⟩

theorem gives_releasing {release : Analyzer → Analyzer}
    (gives : Gives phrase before depth input a after rest) :
    Gives (releasing phrase (change release)) before depth input a (release after) rest := by
  intro parser last stands
  apply achieves_releasing
  apply achieves_weaken (gives parser last stands)
  rintro _ left ⟨rfl, stands⟩
  exact ⟨rfl, stands.change release⟩

theorem gives_in_scope {kind : ScopeKind} (entered : Analysis.enter kind before = .ok () mid)
    (gives : Gives phrase mid depth input a after rest) :
    Gives (inScope kind phrase) before depth input a after.leaveScope rest :=
  gives_releasing (gives_bind (gives_analyze entered) gives)

theorem goes_deepen {next : Unit → Parse β} (within : depth < nestingLimit)
    (goes : Goes (next ()) before (depth + 1) input told) :
    Goes (deepen >>= next) before depth input told := by
  intro parser last stands
  apply achieves_bind_deepen within stands
  intro deeper stands
  exact goes deeper last stands

theorem gives_nested (within : depth < nestingLimit)
    (gives : Gives phrase before (depth + 1) input a after rest) :
    Gives (nested phrase) before depth input a after rest := by
  apply goes_deepen within
  intro parser last stands
  apply achieves_releasing
  apply achieves_weaken (gives parser last stands)
  rintro _ left ⟨rfl, stands⟩
  exact ⟨rfl, stands.rise⟩

theorem gives_keeping_depth (gives : GivesDeeper phrase before depth input a after rest) :
    Gives (keepingDepth phrase) before depth input a after rest := by
  intro parser last stands
  apply achieves_releasing
  apply achieves_weaken (gives parser last stands)
  rintro _ left ⟨rfl, _, left⟩
  rw [stands.depth]
  exact ⟨rfl, left.at_depth depth⟩

theorem gives_peek : Gives peek before depth (token :: rest) token before (token :: rest) := by
  intro parser last stands
  rw [← bind_pure peek]
  apply achieves_bind_peek_token stands
  intro _
  exact achieves_pure ⟨rfl, stands⟩

theorem gives_bind_peek {next : Token → Parse α}
    (gives : ∀ (last : Checked Token) (token : Token), Shows last input token →
      Gives (next token) before depth input a after rest) :
    Gives (peek >>= next) before depth input a after rest := by
  intro parser last stands
  apply achieves_bind_peek stands
  intro token shows
  exact gives last token shows parser last stands

theorem gives_accept : Gives accept before depth (token :: rest) token before rest := by
  intro parser last stands
  apply achieves_weaken (accept_achieves stands)
  rintro _ left ⟨rfl, stands⟩
  exact ⟨rfl, stands⟩

theorem gives_sees (isKind : token.kind = kind) :
    Gives (sees kind) before depth (token :: rest) true before (token :: rest) := by
  apply gives_bind gives_peek
  rw [isKind, decide_eq_true rfl]
  exact gives_pure true

theorem gives_sees_other (proper : kind ≠ .endOfInput) (stop : ¬ Starts kind input) :
    Gives (sees kind) before depth input false before input := by
  apply gives_bind_peek
  intro last token shows
  have other : ¬ token.kind = kind := (not_congr (shows.starts_iff proper)).mpr stop
  rw [decide_eq_false other]
  exact gives_pure false

theorem gives_takes (isKind : token.kind = kind) :
    Gives (takes kind) before depth (token :: rest) true before rest := by
  apply gives_bind (gives_sees isKind)
  apply gives_bind gives_accept
  exact gives_pure true

theorem gives_takes_other (proper : kind ≠ .endOfInput) (stop : ¬ Starts kind input) :
    Gives (takes kind) before depth input false before input :=
  gives_bind (gives_sees_other proper stop) (gives_pure false)

theorem gives_expect {what : String} (isKind : token.kind = kind) :
    Gives (expect kind what) before depth (token :: rest) token before rest :=
  gives_bind (gives_sees isKind) gives_accept

theorem gives_expect_name {name : String} (isName : token.kind = .identifier name) :
    Gives expectName before depth (token :: rest) (name, token.location) before rest := by
  have named : token.isName = true := by simp only [Token.isName, isName]
  have met : token.symbol = .ok name := by simp only [Token.symbol, isName]
  apply gives_bind gives_peek
  rw [if_pos named]
  apply gives_bind gives_accept
  apply gives_bind (gives_demand met)
  exact gives_pure (name, token.location)

theorem gives_third {first second third : Token} :
    Gives (lookahead 2) before depth (first :: second :: third :: rest) third before
      (first :: second :: third :: rest) := by
  intro parser last stands
  have within : 0 < 2 + 1 - parser.pending.length →
      parser.pending.length + (2 + 1 - parser.pending.length) ≤
        (first :: second :: third :: rest).length := by
    simp only [List.length_cons]
    omega
  show Proceeds last (drawMany (2 + 1 - parser.pending.length) >>= fun _ => get >>= _) parser _
  apply achieves_bind (draw_many_achieves _ stands within)
  rintro _ left ⟨long, stands⟩
  have found : left.pending[2]? = some third :=
    pending_get left.lexer left.pending 2 (by omega) (by rw [stands.outlook]; rfl)
  apply achieves_bind_ran (rfl : (get : Parse Parser) left = .ok left left)
  rw [found]
  exact achieves_pure ⟨rfl, stands⟩

end McFront
