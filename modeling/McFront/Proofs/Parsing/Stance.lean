import McFront.Proofs.Lexing.Outlook
import McFront.Proofs.Parsing.Ensures

set_option autoImplicit false

namespace McFront

namespace Parser

def outlookFrom (lexer : Lexer) : List Token → Outlook
  | [] => lexer.outlook
  | token :: pending =>
      if token.isEnd then ⟨[], .ok token⟩ else .after token (outlookFrom lexer pending)

structure Stands (parser : Parser) (analyzer : Analyzer) (depth : Nat) (outlook : Outlook) :
    Prop where
  ready : parser.pending ≠ []
  analyzer : parser.analyzer = analyzer
  depth : parser.depth = depth
  outlook : outlookFrom parser.lexer parser.pending = outlook

-- The token that is current before these tokens: the first, or else the end of the input.
inductive Shows (last : Checked Token) : List Token → Token → Prop where
  | token (token : Token) (rest : List Token) (proper : token.isEnd = false) :
      Shows last (token :: rest) token
  | finish (token : Token) (ended : token.isEnd = true) (isLast : last = .ok token) :
      Shows last [] token

def Starts (kind : Token.Kind) (input : List Token) : Prop :=
  ∃ token rest, input = token :: rest ∧ token.kind = kind

variable {parser : Parser} {analyzer : Analyzer} {depth : Nat} {outlook : Outlook}
  {input rest : List Token} {last : Checked Token} {token : Token} {kind : Token.Kind}

theorem starts_cons : Starts kind (token :: rest) ↔ token.kind = kind := by
  constructor
  · rintro ⟨_, _, same, isKind⟩
    cases same
    exact isKind
  · exact fun isKind => ⟨token, rest, rfl, isKind⟩

theorem Shows.proper (shows : Shows last input token) (proper : token.kind ≠ .endOfInput) :
    ∃ rest, input = token :: rest := by
  cases shows with
  | token _ rest _ => exact ⟨rest, rfl⟩
  | finish _ ended _ => exact absurd ((Token.is_end_iff token).mp ended) proper

theorem Shows.ended (shows : Shows last input token) (ended : token.isEnd = true) :
    input = [] ∧ last = .ok token := by
  cases shows with
  | token _ rest proper => simp [ended] at proper
  | finish _ _ isLast => exact ⟨rfl, isLast⟩

theorem Shows.next {property : Token → Prop} (shows : Shows last input token)
    (holds : property token) : ∀ next ∈ input.head?, property next := by
  cases shows with
  | token _ rest _ =>
      intro next member
      cases member
      exact holds
  | finish _ _ _ => nofun

theorem Shows.current {property : Token → Prop} (shows : Shows last input token)
    (ended : ∀ finish : Token, finish.kind = .endOfInput → property finish)
    (holds : ∀ next ∈ input.head?, property next) : property token := by
  cases shows with
  | token _ rest _ => exact holds token rfl
  | finish _ isEnd _ => exact ended token ((Token.is_end_iff token).mp isEnd)

theorem Shows.starts_iff (shows : Shows last input token) (proper : kind ≠ .endOfInput) :
    token.kind = kind ↔ Starts kind input := by
  cases shows with
  | token _ rest _ =>
      constructor
      · intro same
        exact ⟨token, rest, rfl, same⟩
      · intro given
        obtain ⟨other, tail, same, isKind⟩ := given
        cases same
        exact isKind
  | finish _ ended _ =>
      rw [(Token.is_end_iff token).mp ended]
      constructor
      · intro same
        exact absurd same.symm proper
      · intro given
        obtain ⟨other, tail, same, _⟩ := given
        cases same

theorem outlook_from_draw {lexer after : Lexer} (drawn : lexer.next = (.ok token, after))
    (pending : List Token) :
    outlookFrom after (pending ++ [token]) = outlookFrom lexer pending := by
  induction pending with
  | nil =>
      rw [List.nil_append, outlookFrom, outlookFrom, outlookFrom]
      by_cases ended : token.isEnd = true
      · rw [if_pos ended, (Lexer.outlook_end drawn ended).1]
      · rw [if_neg ended, Lexer.outlook_token drawn (by simpa using ended)]
  | cons first pending ih => rw [List.cons_append, outlookFrom, outlookFrom, ih]

theorem Stands.at_depth (stands : parser.Stands analyzer depth outlook) (other : Nat) :
    Stands { parser with depth := other } analyzer other outlook :=
  ⟨stands.ready, stands.analyzer, rfl, stands.outlook⟩

theorem Stands.rise (stands : parser.Stands analyzer (depth + 1) outlook) :
    (Parse.rise parser).Stands analyzer depth outlook :=
  ⟨stands.ready, stands.analyzer, by simp [Parse.rise, stands.depth], stands.outlook⟩

theorem Stands.with_analyzer (stands : parser.Stands analyzer depth outlook) (other : Analyzer) :
    Stands { parser with analyzer := other } other depth outlook :=
  ⟨stands.ready, rfl, stands.depth, stands.outlook⟩

theorem Stands.change (stands : parser.Stands analyzer depth outlook)
    (f : Analyzer → Analyzer) : (Parse.change f parser).Stands (f analyzer) depth outlook := by
  unfold Parse.change
  rw [stands.analyzer]
  exact stands.with_analyzer (f analyzer)

theorem Stands.shows (stands : parser.Stands analyzer depth ⟨input, last⟩) :
    ∃ token pending, parser.pending = token :: pending ∧ Shows last input token ∧
      ∀ rest, input = token :: rest → outlookFrom parser.lexer pending = ⟨rest, last⟩ := by
  have seen := stands.outlook
  cases pendingEq : parser.pending with
  | nil => exact absurd pendingEq stands.ready
  | cons token pending =>
      rw [pendingEq, outlookFrom] at seen
      refine ⟨token, pending, rfl, ?_⟩
      by_cases ended : token.isEnd = true
      · rw [if_pos ended, Outlook.mk.injEq] at seen
        obtain ⟨rfl, rfl⟩ := seen
        exact ⟨.finish token ended rfl, nofun⟩
      · rw [if_neg ended, Outlook.after, Outlook.mk.injEq] at seen
        obtain ⟨rfl, rfl⟩ := seen
        refine ⟨.token token _ (by simpa using ended), ?_⟩
        intro rest same
        cases same
        rfl

end Parser

namespace Parse

open McFront.Parser

variable {α : Type} {parser : Parser} {analyzer : Analyzer} {depth : Nat} {outlook : Outlook}
  {input : List Token} {last : Checked Token}

theorem peek_stands (stands : parser.Stands analyzer depth ⟨input, last⟩) :
    Ensures peek parser fun token after =>
      Shows last input token ∧ after.Stands analyzer depth ⟨input, last⟩ := by
  obtain ⟨token, pending, found, shows, _⟩ := stands.shows
  have ran : peek parser = .ok token parser := by simp only [peek, found]
  exact ensures_ok ran ⟨shows, stands⟩

theorem draw_stands (stands : parser.Stands analyzer depth outlook) :
    Ensures draw parser fun _ after =>
      after.pending.length = parser.pending.length + 1 ∧ after.Stands analyzer depth outlook := by
  unfold Ensures draw
  cases drawn : parser.lexer.next with
  | mk result lexer =>
      cases result with
      | error error => trivial
      | ok token =>
          refine ⟨by simp, by simp, stands.analyzer, stands.depth, ?_⟩
          rw [outlook_from_draw drawn]
          exact stands.outlook

theorem draw_many_stands (count : Nat) (stands : parser.Stands analyzer depth outlook) :
    Ensures (drawMany count) parser fun _ after =>
      after.pending.length = parser.pending.length + count ∧
        after.Stands analyzer depth outlook := by
  induction count generalizing parser with
  | zero => exact ensures_pure ⟨rfl, stands⟩
  | succ count ih =>
      rw [drawMany]
      apply ensures_bind (draw_stands stands)
      intro _ mid ensured
      obtain ⟨longer, stands⟩ := ensured
      apply ensures_weaken (ih stands)
      intro _ after ensured
      obtain ⟨longest, stands⟩ := ensured
      exact ⟨by omega, stands⟩

theorem lookahead_stands (places : Nat) (stands : parser.Stands analyzer depth outlook) :
    Ensures (lookahead places) parser fun _ after => after.Stands analyzer depth outlook := by
  show Ensures (drawMany (places + 1 - parser.pending.length) >>= _) parser _
  apply ensures_bind (draw_many_stands _ stands)
  intro _ after ensured
  obtain ⟨long, stands⟩ := ensured
  have within : places < after.pending.length := by omega
  have found : after.pending[places]? = some after.pending[places] :=
    List.getElem?_eq_getElem within
  refine ensures_bind (ensures_ok rfl ⟨rfl, rfl⟩ : Ensures get after fun seen now =>
    seen = after ∧ now = after) ?_
  intro _ _ ensured
  obtain ⟨rfl, rfl⟩ := ensured
  simp only [found]
  exact ensures_pure stands

theorem peek_bind_none {next : Token → Parse α} (found : parser.pending = []) :
    (peek >>= next) parser = .error (.breach .emptyLookahead) parser := by
  simp only [bind, EStateM.bind, peek, found]

theorem peek_bind {next : Token → Parse α} {token : Token} {pending : List Token}
    (found : parser.pending = token :: pending) : (peek >>= next) parser = next token parser := by
  simp only [bind, EStateM.bind, peek, found]

theorem peek_ran {token : Token} {after : Parser} (ran : peek parser = .ok token after) :
    after = parser ∧ ∃ pending, parser.pending = token :: pending := by
  unfold peek at ran
  split at ran
  · cases ran
    exact ⟨rfl, _, ‹_›⟩
  · cases ran

theorem accept_eq : accept parser = (match parser.pending with
    | [] => breach .emptyLookahead
    | token :: pending => do
        set { parser with pending }
        if pending.isEmpty then draw
        return token : Parse Token) parser := rfl

theorem accept_none (found : parser.pending = []) :
    accept parser = .error (.breach .emptyLookahead) parser := by
  rw [accept_eq, found]
  rfl

theorem accept_more {token next : Token} {pending : List Token}
    (found : parser.pending = token :: next :: pending) :
    accept parser = .ok token { parser with pending := next :: pending } := by
  rw [accept_eq, found]
  rfl

theorem accept_last {token : Token} (found : parser.pending = [token]) :
    accept parser = (draw >>= fun _ => pure token : Parse Token) { parser with pending := [] } := by
  rw [accept_eq, found]
  rfl

theorem accept_current {token taken : Token} {pending : List Token} {after : Parser}
    (found : parser.pending = token :: pending) (ran : accept parser = .ok taken after) :
    taken = token := by
  cases pending with
  | cons next pending =>
      rw [accept_more found] at ran
      cases ran
      rfl
  | nil =>
      rw [accept_last found] at ran
      obtain ⟨_, _, _, ran⟩ := bind_ran ran
      cases ran
      rfl

theorem demand_operator {token : Token} {operator : Operator}
    (named : token.kind = .operator operator) : demand token.operator = pure operator := by
  simp only [Token.operator, named, demand]

theorem accept_stands {token : Token} {rest : List Token}
    (stands : parser.Stands analyzer depth ⟨token :: rest, last⟩) :
    Ensures accept parser fun taken after =>
      token = taken ∧ after.Stands analyzer depth ⟨rest, last⟩ := by
  obtain ⟨current, pending, found, shows, left⟩ := stands.shows
  cases shows
  have behind := left rest rfl
  cases pending with
  | cons next pending =>
      exact ensures_ok (accept_more found) ⟨rfl, by simp, stands.analyzer, stands.depth, behind⟩
  | nil =>
      have refilled := accept_last found
      cases drawn : parser.lexer.next with
      | mk result lexer =>
          cases result with
          | error error =>
              have ran : accept parser =
                  .error (.error error) { parser with pending := [], lexer } := by
                rw [refilled]
                simp only [bind, EStateM.bind, draw, drawn]
              simp only [Ensures, ran]
          | ok next =>
              have ran : accept parser = .ok token { parser with pending := [next], lexer } := by
                rw [refilled]
                simp only [bind, EStateM.bind, draw, drawn, pure, EStateM.pure, List.nil_append]
              refine ensures_ok ran ⟨rfl, by simp, stands.analyzer, stands.depth, ?_⟩
              exact (outlook_from_draw drawn []).trans behind

theorem deepen_shallow (shallow : ¬ nestingLimit ≤ parser.depth) :
    deepen parser = .ok () { parser with depth := parser.depth + 1 } := by
  show (if nestingLimit ≤ parser.depth then _ else _ : Parse Unit) parser = _
  rw [if_neg shallow]
  rfl

theorem deepen_deep (deep : nestingLimit ≤ parser.depth) :
    deepen parser = (peek >>= fun token =>
      reject (.nestingTooDeep nestingLimit) token.location : Parse Unit) parser := by
  show (if nestingLimit ≤ parser.depth then _ else _ : Parse Unit) parser = _
  rw [if_pos deep]

theorem deepen_stands (stands : parser.Stands analyzer depth ⟨input, last⟩) :
    Ensures deepen parser fun _ after =>
      depth < nestingLimit ∧ after.Stands analyzer (depth + 1) ⟨input, last⟩ := by
  by_cases deep : nestingLimit ≤ parser.depth
  · simp only [Ensures, deepen_deep deep]
    exact ensures_bind (peek_stands stands) fun _ _ _ => ensures_reject
  · have within : depth < nestingLimit := by
      rw [← stands.depth]
      omega
    refine ensures_ok (deepen_shallow deep) ⟨within, ?_⟩
    rw [stands.depth]
    exact stands.at_depth (depth + 1)

end Parse
end McFront
