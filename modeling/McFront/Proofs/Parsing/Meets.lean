import McFront.Proofs.Parsing.Stance

set_option autoImplicit false

namespace McFront

open McFront.Parser Parse

variable {α β : Type} {before analyzer : Analyzer} {depth : Nat} {input rest : List Token}
  {token : Token} {kind : Token.Kind} {what : String} {phrase : Parse α} {next : α → Parse β}

-- From every stance before these tokens the phrase keeps its contract, and what it gives and where
-- it leaves the parser is as told. The first of the three is what follows the tokens.
def Leads (phrase : Parse α) (before : Analyzer) (depth : Nat) (input : List Token)
    (told : Checked Token → α → Parser → Prop) : Prop :=
  ∀ (parser : Parser) (last : Checked Token), parser.Stands before depth ⟨input, last⟩ →
    Ensures phrase parser (told last)

def Meets (phrase : Parse α) (analyzer : Analyzer) (depth : Nat) (input : List Token)
    (reading : α → List Token → Prop) : Prop :=
  Leads phrase analyzer depth input fun last a after =>
    ∃ rest, reading a rest ∧ after.Stands analyzer depth ⟨rest, last⟩

def MeetsDeeper (phrase : Parse α) (analyzer : Analyzer) (depth : Nat) (input : List Token)
    (reading : α → List Token → Prop) : Prop :=
  Leads phrase analyzer depth input fun last a after =>
    ∃ rest deeper, reading a rest ∧ after.Stands analyzer deeper ⟨rest, last⟩

def MeetsFrom (phrase : Parse α) (before : Analyzer) (depth : Nat) (input : List Token)
    (reading : α → Analyzer → List Token → Prop) : Prop :=
  Leads phrase before depth input fun last a after =>
    ∃ analyzer rest, reading a analyzer rest ∧ after.Stands analyzer depth ⟨rest, last⟩

variable {told : Checked Token → β → Parser → Prop} {mid : α → List Token → Prop}
  {reading : β → List Token → Prop} {midway : α → Analyzer → List Token → Prop}
  {outcome : β → Analyzer → List Token → Prop}

theorem Leads.weaken {weak : Checked Token → β → Parser → Prop} {phrase : Parse β}
    (leads : Leads phrase before depth input told)
    (implies : ∀ last b after, told last b after → weak last b after) :
    Leads phrase before depth input weak :=
  fun parser last stands => ensures_weaken (leads parser last stands) (implies last)

theorem from_bind (first : MeetsFrom phrase before depth input midway)
    (second : ∀ a inside rest, midway a inside rest → Leads (next a) inside depth rest told) :
    Leads (phrase >>= next) before depth input told := by
  intro parser last stands
  apply ensures_bind (first parser last stands)
  rintro a after ⟨inside, rest, holds, stands⟩
  exact second a inside rest holds after last stands

theorem Meets.starting {wide : α → Analyzer → List Token → Prop}
    (meets : Meets phrase before depth input mid)
    (implies : ∀ a rest, mid a rest → wide a before rest) :
    MeetsFrom phrase before depth input wide := by
  apply Leads.weaken meets
  rintro last a after ⟨rest, holds, stands⟩
  exact ⟨before, rest, implies a rest holds, stands⟩

theorem meets_bind (first : Meets phrase before depth input mid)
    (second : ∀ a rest, mid a rest → Leads (next a) before depth rest told) :
    Leads (phrase >>= next) before depth input told := by
  have started : MeetsFrom phrase before depth input fun a inside rest =>
      before = inside ∧ mid a rest := first.starting fun _ _ holds => ⟨rfl, holds⟩
  apply from_bind started
  rintro a _ rest ⟨rfl, holds⟩
  exact second a rest holds

theorem meets_pure {b : β} (holds : reading b input) :
    Meets (pure b) analyzer depth input reading :=
  fun _ _ stands => ensures_pure ⟨input, holds, stands⟩

theorem from_pure {b : β} (holds : outcome b before input) :
    MeetsFrom (pure b) before depth input outcome :=
  fun _ _ stands => ensures_pure ⟨before, input, holds, stands⟩

theorem Meets.weaken {weak : α → List Token → Prop} (meets : Meets phrase analyzer depth input mid)
    (implies : ∀ a rest, mid a rest → weak a rest) : Meets phrase analyzer depth input weak := by
  apply Leads.weaken meets
  rintro last a after ⟨rest, holds, stands⟩
  exact ⟨rest, implies a rest holds, stands⟩

theorem Meets.deeper (meets : Meets phrase analyzer depth input mid) :
    MeetsDeeper phrase analyzer depth input mid := by
  apply Leads.weaken meets
  rintro last a after ⟨rest, holds, stands⟩
  exact ⟨rest, depth, holds, stands⟩

theorem MeetsDeeper.weaken {weak : α → List Token → Prop}
    (meets : MeetsDeeper phrase analyzer depth input mid)
    (implies : ∀ a rest, mid a rest → weak a rest) :
    MeetsDeeper phrase analyzer depth input weak := by
  apply Leads.weaken meets
  rintro last a after ⟨rest, deeper, holds, stands⟩
  exact ⟨rest, deeper, implies a rest holds, stands⟩

theorem MeetsFrom.weaken {weak : α → Analyzer → List Token → Prop}
    (meets : MeetsFrom phrase before depth input midway)
    (implies : ∀ a after rest, midway a after rest → weak a after rest) :
    MeetsFrom phrase before depth input weak := by
  apply Leads.weaken meets
  rintro last a after ⟨analyzer, rest, holds, stands⟩
  exact ⟨analyzer, rest, implies a analyzer rest holds, stands⟩

theorem meets_map {f : α → β} (meets : Meets phrase analyzer depth input mid)
    (implies : ∀ a rest, mid a rest → reading (f a) rest) :
    Meets (f <$> phrase) analyzer depth input reading := by
  rw [map_eq_pure_bind]
  apply meets_bind meets
  intro a rest holds
  exact meets_pure (implies a rest holds)

theorem meets_check {checked : Checked α} :
    Meets (check checked) analyzer depth input fun a rest => input = rest ∧ checked = .ok a :=
  fun _ _ stands => ensures_check fun _ built => ⟨input, ⟨rfl, built⟩, stands⟩

theorem meets_consult (found : Analyzer → Checked α) :
    Meets (do check (found (← get).analyzer)) analyzer depth input fun a rest =>
      input = rest ∧ found analyzer = .ok a := by
  intro parser last stands
  show Ensures (check (found parser.analyzer)) parser _
  rw [stands.analyzer]
  exact meets_check parser last stands

theorem meets_demand {value : Except Breach α} {a : α} (met : value = .ok a) :
    Meets (demand value) analyzer depth input fun b rest => input = rest ∧ a = b := by
  rw [met]
  exact meets_pure ⟨rfl, rfl⟩

theorem from_analyze {step : Analysis α} {ensured : α → Analyzer → Prop}
    (ensures : Ensures step before ensured) :
    MeetsFrom (analyze step) before depth input fun a after rest =>
      input = rest ∧ step before = .ok a after ∧ ensured a after := by
  intro parser last stands
  apply ensures_analyze
  rw [stands.analyzer]
  apply ensures_weaken (ensures_ran ensures)
  rintro a analyzer ⟨ran, holds⟩
  exact ⟨analyzer, input, ⟨rfl, ran, holds⟩, stands.with_analyzer analyzer⟩

theorem from_releasing {release : Analyzer → Analyzer}
    (meets : MeetsFrom phrase before depth input midway) :
    MeetsFrom (releasing phrase (change release)) before depth input fun a after rest =>
      ∃ inside, after = release inside ∧ midway a inside rest := by
  intro parser last stands
  apply ensures_releasing
  apply ensures_weaken (meets parser last stands)
  rintro a after ⟨inside, rest, holds, stands⟩
  exact ⟨release inside, rest, ⟨inside, rfl, holds⟩, stands.change release⟩

theorem from_in_scope {kind : ScopeKind} {entered : Unit → Analyzer → Prop}
    (ensures : Ensures (Analysis.enter kind) before entered)
    (meets : ∀ inside, entered () inside → MeetsFrom phrase inside depth input
      fun a after rest => midway a after.leaveScope rest) :
    MeetsFrom (inScope kind phrase) before depth input midway := by
  have inside : MeetsFrom (do analyze (Analysis.enter kind); phrase) before depth input
      fun a after rest => midway a after.leaveScope rest := by
    apply from_bind (from_analyze ensures)
    rintro _ inside _ ⟨rfl, _, holds⟩
    exact meets inside holds
  apply MeetsFrom.weaken (from_releasing inside)
  rintro a _ rest ⟨inside, rfl, holds⟩
  exact holds

theorem meets_peek :
    Meets peek analyzer depth input fun token rest =>
      input = rest ∧ ∃ last, Shows last input token := by
  intro parser last stands
  apply ensures_weaken (peek_stands stands)
  rintro token after ⟨shows, stands⟩
  exact ⟨input, ⟨rfl, last, shows⟩, stands⟩

theorem meets_lookahead (places : Nat) :
    Meets (lookahead places) analyzer depth input fun _ rest => input = rest := by
  intro parser last stands
  apply ensures_weaken (lookahead_stands places stands)
  intro token after stands
  exact ⟨input, rfl, stands⟩

theorem meets_accept :
    Meets accept analyzer depth (token :: rest) fun taken left => token = taken ∧ rest = left := by
  intro parser last stands
  apply ensures_weaken (accept_stands stands)
  rintro _ after ⟨rfl, stands⟩
  exact ⟨rest, ⟨rfl, rfl⟩, stands⟩

theorem meets_shown {last : Checked Token} (shows : Shows last input token)
    (proper : token.kind ≠ .endOfInput) :
    Meets accept analyzer depth input fun taken rest => token = taken ∧ input = token :: rest := by
  obtain ⟨rest, rfl⟩ := shows.proper proper
  apply Meets.weaken meets_accept
  rintro taken left ⟨rfl, rfl⟩
  exact ⟨rfl, rfl⟩

theorem meets_reject {complaint : Complaint} {place : Location} :
    Meets (reject complaint place) analyzer depth input mid := fun _ _ _ => ensures_reject

theorem meets_unexpected : Meets (unexpected what) analyzer depth input mid :=
  meets_bind meets_peek fun _ _ _ => meets_reject

theorem from_reject {complaint : Complaint} {place : Location} :
    MeetsFrom (reject complaint place) before depth input midway := fun _ _ _ => ensures_reject

theorem from_unexpected : MeetsFrom (unexpected what) before depth input midway :=
  meets_bind meets_peek fun _ _ _ => from_reject

theorem meets_sees (proper : kind ≠ .endOfInput) :
    Meets (sees kind) analyzer depth input fun seen rest =>
      input = rest ∧ (seen = true ↔ Starts kind input) := by
  apply meets_bind meets_peek
  rintro token _ ⟨rfl, last, shows⟩
  apply meets_pure
  rw [decide_eq_true_iff]
  exact ⟨rfl, shows.starts_iff proper⟩

theorem meets_takes (proper : kind ≠ .endOfInput) :
    Meets (takes kind) analyzer depth input fun taken left =>
      (taken = true ∧ ∃ token, input = token :: left ∧ token.kind = kind) ∨
        (taken = false ∧ input = left ∧ ¬ Starts kind input) := by
  apply meets_bind (meets_sees proper)
  rintro seen _ ⟨rfl, starts⟩
  cases seen with
  | false => exact meets_pure (.inr ⟨rfl, rfl, by simpa using starts⟩)
  | true =>
      obtain ⟨token, rest, rfl, isKind⟩ := starts.mp rfl
      apply meets_bind meets_accept
      rintro _ _ ⟨rfl, rfl⟩
      exact meets_pure (.inl ⟨rfl, token, rfl, isKind⟩)

theorem meets_expect (proper : kind ≠ .endOfInput) :
    Meets (expect kind what) analyzer depth input fun token rest =>
      input = token :: rest ∧ token.kind = kind := by
  apply meets_bind (meets_sees proper)
  rintro seen _ ⟨rfl, starts⟩
  cases seen with
  | false => exact meets_unexpected
  | true =>
      obtain ⟨token, rest, rfl, isKind⟩ := starts.mp rfl
      apply Meets.weaken meets_accept
      rintro _ _ ⟨rfl, rfl⟩
      exact ⟨rfl, isKind⟩

theorem meets_expect_name :
    Meets expectName analyzer depth input fun found rest =>
      ∃ token, input = token :: rest ∧ token.kind = .identifier found.1 ∧
        token.location = found.2 := by
  apply meets_bind meets_peek
  rintro token _ ⟨rfl, last, shows⟩
  cases isName : token.isName with
  | false => exact meets_unexpected
  | true =>
      obtain ⟨name, named⟩ : ∃ name, token.kind = .identifier name := by
        unfold Token.isName at isName
        split at isName
        · exact ⟨_, ‹_›⟩
        · cases isName
      obtain ⟨rest, rfl⟩ := shows.proper (by simp [named])
      have met : token.symbol = .ok name := by simp only [Token.symbol, named]
      apply meets_bind meets_accept
      rintro _ _ ⟨rfl, rfl⟩
      apply meets_bind (meets_demand met)
      rintro _ _ ⟨rfl, rfl⟩
      exact meets_pure ⟨token, rfl, named, rfl⟩

theorem leads_deepen {next : Unit → Parse β}
    (leads : depth < nestingLimit → Leads (next ()) before (depth + 1) input told) :
    Leads (deepen >>= next) before depth input told := by
  intro parser last stands
  apply ensures_bind (deepen_stands stands)
  rintro _ deeper ⟨within, stands⟩
  exact leads within deeper last stands

theorem leads_nested {phrase : Parse β}
    (leads : depth < nestingLimit → Leads phrase before (depth + 1) input fun last b after =>
      told last b (rise after)) :
    Leads (nested phrase) before depth input told := by
  apply leads_deepen
  intro within parser last stands
  exact ensures_releasing (leads within parser last stands)

theorem from_nested
    (meets : depth < nestingLimit → MeetsFrom phrase before (depth + 1) input midway) :
    MeetsFrom (nested phrase) before depth input midway := by
  apply leads_nested
  intro within
  apply Leads.weaken (meets within)
  rintro last a after ⟨analyzer, rest, holds, stands⟩
  exact ⟨analyzer, rest, holds, stands.rise⟩

theorem meets_nested
    (meets : depth < nestingLimit → Meets phrase analyzer (depth + 1) input mid) :
    Meets (nested phrase) analyzer depth input mid := by
  apply leads_nested
  intro within
  apply Leads.weaken (meets within)
  rintro last a after ⟨rest, holds, stands⟩
  exact ⟨rest, holds, stands.rise⟩

theorem meets_keeping_depth (meets : MeetsDeeper phrase analyzer depth input mid) :
    Meets (keepingDepth phrase) analyzer depth input mid := by
  intro parser last stands
  apply ensures_keeping_depth
  apply ensures_weaken (meets parser last stands)
  rintro a after ⟨rest, _, holds, left⟩
  rw [stands.depth]
  exact ⟨rest, holds, left.at_depth depth⟩

end McFront
