import Mathlib.Logic.Function.Iterate
import McFront.Proofs.Lexing.Printing
import McFront.Proofs.Parsing.ExpressionGiven
import McFront.Proofs.Parsing.Release
import McFront.Proofs.Tree.TypeText

set_option autoImplicit false

namespace McFront

open McFront.Parser Parse

inductive TypePhrase where
  | word (scalar : Scalar)
  | starred (pointee : TypePhrase)
  | grouped (inner : TypePhrase)

namespace TypePhrase

def kinds : TypePhrase → List Token.Kind
  | word scalar => [.scalar scalar]
  | starred pointee => .operator .star :: pointee.kinds
  | grouped inner => .punctuation .leftParen :: (inner.kinds ++ [.punctuation .rightParen])

def levels : TypePhrase → Nat
  | word _ => 1
  | starred inner | grouped inner => inner.levels + 1

def scalar : TypePhrase → Scalar
  | word scalar => scalar
  | starred inner | grouped inner => inner.scalar

def stars (phrase : TypePhrase) : Nat := phrase.kinds.count (.operator .star)

def type (phrase : TypePhrase) : Ty := Ty.pointer^[phrase.stars] (.ofScalar phrase.scalar)

structure Opens (phrase : TypePhrase) (depth : Nat) (input : List Token) : Prop where
  leads : phrase.kinds <+: input.map Token.kind
  shallow : phrase.levels ≤ nestingLimit - depth

theorem starred_type (pointee : TypePhrase) : (starred pointee).type = .pointer pointee.type := by
  have more : (starred pointee).stars = pointee.stars + 1 := List.count_cons_self
  rw [type, more, Function.iterate_succ_apply']
  rfl

theorem grouped_type (inner : TypePhrase) : (grouped inner).type = inner.type := by
  have same : (grouped inner).stars = inner.stars := by simp [stars, kinds]
  rw [type, same]
  rfl

theorem reading (phrase : TypePhrase) {depth : Nat} {taken : List Token}
    (spelled : taken.map Token.kind = phrase.kinds) (shallow : phrase.levels ≤ nestingLimit - depth)
    (rest : List Token) : TypeReading depth (taken ++ rest) phrase.type rest := by
  induction phrase generalizing depth taken rest with
  | word scalar =>
      obtain ⟨token, rfl, named⟩ := List.map_eq_singleton_iff.mp spelled
      rw [levels] at shallow
      exact .scalar (by omega) named
  | starred pointee ih =>
      obtain ⟨star, more, rfl, isStar, inside⟩ := List.map_eq_cons_iff.mp spelled
      rw [levels] at shallow
      rw [starred_type]
      exact .pointer (by omega) isStar (ih inside (by omega) rest)
  | grouped inner ih =>
      obtain ⟨opening, more, rfl, opened, behind⟩ := List.map_eq_cons_iff.mp spelled
      obtain ⟨typed, last, rfl, inside, ended⟩ := List.map_eq_append_iff.mp behind
      obtain ⟨closing, rfl, closed⟩ := List.map_eq_singleton_iff.mp ended
      rw [levels] at shallow
      rw [grouped_type, List.cons_append, List.append_assoc]
      exact .grouped (by omega) opened (ih inside (by omega) _) closed

-- By induction on the first phrase. The first token tells how a phrase is formed.
theorem kinds_unique (first second : TypePhrase) {rest others : List Token.Kind}
    (same : first.kinds ++ rest = second.kinds ++ others) : first = second ∧ rest = others := by
  induction first generalizing second rest others with
  | word scalar =>
      cases second with
      | word other =>
          cases List.head_eq_of_cons_eq same
          exact ⟨rfl, List.tail_eq_of_cons_eq same⟩
      | starred _ | grouped _ => cases List.head_eq_of_cons_eq same
  | starred pointee ih =>
      cases second with
      | starred other =>
          obtain ⟨rfl, left⟩ := ih other (List.tail_eq_of_cons_eq same)
          exact ⟨rfl, left⟩
      | word _ | grouped _ => cases List.head_eq_of_cons_eq same
  | grouped inner ih =>
      cases second with
      | grouped other =>
          simp only [kinds, List.cons_append, List.append_assoc] at same
          obtain ⟨rfl, left⟩ := ih other (List.tail_eq_of_cons_eq same)
          exact ⟨rfl, List.tail_eq_of_cons_eq left⟩
      | word _ | starred _ => cases List.head_eq_of_cons_eq same

theorem Opens.unique {first second : TypePhrase} {depth deeper : Nat} {input : List Token}
    (opens : first.Opens depth input) (other : second.Opens deeper input) : first = second := by
  obtain ⟨rest, isFirst⟩ := opens.leads
  obtain ⟨others, isSecond⟩ := other.leads
  exact (kinds_unique first second (isFirst.trans isSecond.symm)).1

end TypePhrase

variable {analyzer : Analyzer} {depth : Nat} {input rest : List Token} {type : Ty}

theorem TypeReading.phrase (reading : TypeReading depth input type rest) :
    ∃ (phrase : TypePhrase) (taken : List Token), input = taken ++ rest ∧
      taken.map Token.kind = phrase.kinds ∧ phrase.levels ≤ nestingLimit - depth ∧
        type = phrase.type := by
  induction reading with
  | @scalar depth token scalar rest within named =>
      refine ⟨.word scalar, [token], rfl, by rw [List.map_singleton, named]; rfl, ?_, rfl⟩
      rw [TypePhrase.levels]
      omega
  | @pointer depth star _ _ rest within isStar pointee ih =>
      obtain ⟨phrase, taken, rfl, spelled, shallow, rfl⟩ := ih
      refine ⟨.starred phrase, star :: taken, rfl, ?_, ?_, phrase.starred_type.symm⟩
      · rw [List.map_cons, isStar, spelled, TypePhrase.kinds]
      · rw [TypePhrase.levels]
        omega
  | @grouped depth opening closing _ _ rest within opened inner closed ih =>
      obtain ⟨phrase, taken, rfl, spelled, shallow, rfl⟩ := ih
      refine ⟨.grouped phrase, opening :: (taken ++ [closing]), by simp, ?_, ?_,
        phrase.grouped_type.symm⟩
      · rw [List.map_cons, List.map_append, List.map_singleton, opened, closed, spelled,
          TypePhrase.kinds]
      · rw [TypePhrase.levels]
        omega

theorem type_reading_iff : TypeReading depth input type rest ↔
    ∃ phrase : TypePhrase, phrase.Opens depth input ∧ type = phrase.type ∧
      rest = input.drop phrase.kinds.length := by
  constructor
  · intro reading
    obtain ⟨phrase, taken, rfl, spelled, shallow, rfl⟩ := reading.phrase
    refine ⟨phrase, ⟨?_, shallow⟩, rfl, ?_⟩
    · rw [List.map_append, spelled]
      exact List.prefix_append _ _
    · rw [← spelled, List.length_map, List.drop_left]
  · rintro ⟨phrase, opens, rfl, rfl⟩
    have spelled : (input.take phrase.kinds.length).map Token.kind = phrase.kinds := by
      rw [List.map_take]
      exact (List.prefix_iff_eq_take.mp opens.leads).symm
    have reading := phrase.reading spelled opens.shallow (input.drop phrase.kinds.length)
    rwa [List.take_append_drop] at reading

section Runs

variable {β : Type} {parser : Parser} {last : Checked Token} {post : β → Parser → Prop}

abbrev Refuses (last : Checked Token) (phrase : Parse β) (parser : Parser)
    (post : β → Parser → Prop) : Prop :=
  Achieves (fun error => error.kind = .structural ∨ last = .error error) phrase parser post

theorem refuses_of_proceeds {phrase : Parse β} (proceeds : Proceeds last phrase parser post) :
    Refuses last phrase parser post :=
  achieves_allow proceeds fun _ => .inr

theorem refuses_unexpected {what : String} (stands : parser.Stands analyzer depth ⟨input, last⟩) :
    Refuses last (unexpected what) parser post := by
  apply achieves_bind_peek stands
  intro token shows
  exact .inl rfl

theorem refuses_expect {kind : Token.Kind} {what : String} (proper : kind ≠ .endOfInput)
    (stands : parser.Stands analyzer depth ⟨input, last⟩) :
    Refuses last (expect kind what) parser fun _ after =>
      ∃ rest, after.Stands analyzer depth ⟨rest, last⟩ := by
  by_cases starts : Starts kind input
  · obtain ⟨token, rest, rfl, isKind⟩ := starts
    apply achieves_weaken (refuses_of_proceeds (gives_expect isKind parser last stands))
    intro taken after expected
    exact ⟨rest, expected.2⟩
  · apply achieves_bind (refuses_of_proceeds (gives_sees_other proper starts parser last stands))
    rintro _ after ⟨rfl, stands⟩
    exact refuses_unexpected stands

theorem refuses_deepen (stands : parser.Stands analyzer depth ⟨input, last⟩) :
    Refuses last deepen parser fun _ deeper =>
      deeper.Stands analyzer (depth + 1) ⟨input, last⟩ := by
  by_cases deep : nestingLimit ≤ parser.depth
  · simp only [Refuses, Achieves, deepen_deep deep]
    apply achieves_bind_peek stands
    intro token shows
    exact .inl rfl
  · refine achieves_ok (deepen_shallow deep) ?_
    rw [stands.depth]
    exact stands.at_depth (depth + 1)

theorem refuses_nested {phrase : Parse β} (stands : parser.Stands analyzer depth ⟨input, last⟩)
    (refuses : ∀ deeper : Parser, deeper.Stands analyzer (depth + 1) ⟨input, last⟩ →
      Refuses last phrase deeper fun b after => post b (rise after)) :
    Refuses last (nested phrase) parser post := by
  apply achieves_bind (refuses_deepen stands)
  intro _ deeper stands
  exact achieves_releasing (refuses deeper stands)

theorem type_refuses (budget : Nat) (stands : parser.Stands analyzer depth ⟨input, last⟩) :
    Refuses last (Grammar.type budget) parser fun _ after =>
      ∃ rest, after.Stands analyzer depth ⟨rest, last⟩ := by
  induction budget generalizing parser depth input with
  | zero => exact achieves_out_of_budget
  | succ budget ih =>
      rw [Grammar.type]
      apply refuses_nested stands
      intro deeper stands
      apply achieves_bind_peek stands
      intro token shows
      split
      · rename_i scalar named
        obtain ⟨rest, rfl⟩ := shows.proper (by simp [named])
        apply achieves_bind (refuses_of_proceeds (accept_achieves stands))
        intro _ after accepted
        exact achieves_pure ⟨rest, accepted.2.rise⟩
      · rename_i isStar
        obtain ⟨typed, rfl⟩ := shows.proper (by simp [isStar])
        apply achieves_bind (refuses_of_proceeds (accept_achieves stands))
        intro _ after accepted
        apply achieves_bind (ih accepted.2)
        intro type after ensured
        obtain ⟨rest, stands⟩ := ensured
        exact achieves_pure ⟨rest, stands.rise⟩
      · rename_i opened
        obtain ⟨typed, rfl⟩ := shows.proper (by simp [opened])
        apply achieves_bind (refuses_of_proceeds (accept_achieves stands))
        intro _ after accepted
        apply achieves_bind (ih accepted.2)
        intro type after ensured
        obtain ⟨further, stands⟩ := ensured
        apply achieves_bind (refuses_expect (by simp) stands)
        intro closing after expected
        obtain ⟨rest, stands⟩ := expected
        exact achieves_pure ⟨rest, stands.rise⟩
      · exact refuses_unexpected stands

end Runs

section Lexes

variable {parser : Parser} {finish : Token}

theorem type_accepts (ready : parser.pending ≠ [])
    (lexes : outlookFrom parser.lexer parser.pending = ⟨input, .ok finish⟩)
    {phrase : TypePhrase} (opens : phrase.Opens parser.depth input) :
    ∃ after, parser.type = .ok phrase.type after ∧
      after.Stands parser.analyzer parser.depth
        ⟨input.drop phrase.kinds.length, .ok finish⟩ := by
  have stands : parser.Stands parser.analyzer parser.depth ⟨input, .ok finish⟩ :=
    ⟨ready, rfl, rfl, lexes⟩
  have enough : 8 * (input.length + 1) ≤ parser.budget := stands.budget_enough
  have reading := type_reading_iff.mpr ⟨phrase, opens, rfl, rfl⟩
  have given := type_given parser.budget reading parser _ stands
  have ensured := type_meets parser.budget (by omega) parser _ stands
  show ∃ after, Grammar.type parser.budget parser = _ ∧ _
  rcases ensures_total ensured with ⟨type, after, ran⟩ | ⟨error, after, ran⟩
  · simp only [Achieves, ran] at given
    obtain ⟨rfl, left⟩ := given
    exact ⟨after, ran, left⟩
  · simp only [Achieves, ran] at given
    cases given

theorem type_rejects (ready : parser.pending ≠ [])
    (lexes : outlookFrom parser.lexer parser.pending = ⟨input, .ok finish⟩)
    (closed : ¬ ∃ phrase : TypePhrase, phrase.Opens parser.depth input) :
    ∃ error after, parser.type = .error (.error error) after ∧ error.kind = .structural ∧
      after.analyzer = parser.analyzer ∧ after.depth = parser.depth := by
  have stands : parser.Stands parser.analyzer parser.depth ⟨input, .ok finish⟩ :=
    ⟨ready, rfl, rfl, lexes⟩
  have enough : 8 * (input.length + 1) ≤ parser.budget := stands.budget_enough
  have ensured := type_meets parser.budget (by omega) parser _ stands
  have refused := type_refuses parser.budget stands
  have level := type_ends parser.budget parser
  show ∃ error after, Grammar.type parser.budget parser = _ ∧ _
  rcases ensures_total ensured with ⟨type, after, ran⟩ | ⟨error, after, ran⟩
  · obtain ⟨rest, reading, _⟩ := ensures_result ensured ran
    obtain ⟨phrase, opens, _⟩ := type_reading_iff.mp reading
    exact absurd ⟨phrase, opens⟩ closed
  · simp only [Achieves, ran] at refused
    simp only [ending, ran] at level
    have structural : error.kind = .structural := refused.resolve_right (by simp)
    exact ⟨error, after, ran, structural, level.analysis.symm, level.depth⟩

end Lexes

namespace TypePhrase

def bare (stars : Nat) (scalar : Scalar) : TypePhrase := starred^[stars] (word scalar)

theorem bare_succ (stars : Nat) (scalar : Scalar) :
    bare (stars + 1) scalar = starred (bare stars scalar) := Function.iterate_succ_apply' ..

theorem bare_levels (stars : Nat) (scalar : Scalar) : (bare stars scalar).levels = stars + 1 := by
  induction stars with
  | zero => rfl
  | succ stars ih => rw [bare_succ, levels, ih]

theorem bare_type (stars : Nat) (scalar : Scalar) :
    (bare stars scalar).type = Ty.pointer^[stars] (.ofScalar scalar) := by
  induction stars with
  | zero => rfl
  | succ stars ih => rw [bare_succ, starred_type, ih, Function.iterate_succ_apply']

end TypePhrase

theorem Lexeme.star_stops {c : Char} (lead : c ∈ ['b', 'c', 'i', 'f', '*', '&', '(']) :
    Stops (.operator .star) ['*'] c where
  word := fun isWord => absurd isWord (by decide)
  symbol := by
    intro b same
    cases same
    simp only [List.mem_cons, List.not_mem_nil, or_false] at lead
    rcases lead with rfl | rfl | rfl | rfl | rfl | rfl | rfl <;> rfl
  integer := nofun
  float := nofun

namespace Cursor

variable {cursor : Cursor}

theorem next_scalar {scalar : Scalar} (left : cursor.rest = (Ty.ofScalar scalar).text.toList) :
    ∃ after, cursor.next = (.ok ⟨.scalar scalar, cursor.location⟩, after) ∧ after.rest = [] := by
  refine ⟨⟨[], cursor.location.past cursor.rest⟩, ?_, rfl⟩
  rw [next, left]
  cases scalar <;> rfl

theorem outlook_pointers {stars : Nat} {scalar : Scalar}
    (left : cursor.rest = (Ty.pointer^[stars] (.ofScalar scalar)).text.toList) :
    ∃ tokens finish, cursor.outlook = ⟨tokens, .ok finish⟩ ∧
      tokens.map Token.kind = (TypePhrase.bare stars scalar).kinds := by
  induction stars generalizing cursor with
  | zero =>
      obtain ⟨after, drawn, nothing⟩ := next_scalar left
      have ended := outlook_end (next_blanks (List.forall_mem_nil _) nothing) rfl
      have lexed := outlook_token drawn rfl
      rw [ended] at lexed
      exact ⟨_, _, lexed, rfl⟩
  | succ stars ih =>
      rw [Function.iterate_succ_apply', Ty.pointer_text] at left
      obtain ⟨c, more, shape, lead⟩ := (Ty.pointer^[stars] (.ofScalar scalar)).text_head
      rw [shape] at left
      obtain ⟨after, drawn, behind⟩ :=
        next_stopped (.symbol (.operator .star)) (Lexeme.star_stops lead) left
      obtain ⟨tokens, finish, lexed, kinds⟩ := ih (behind.trans shape.symm)
      refine ⟨⟨.operator .star, cursor.location⟩ :: tokens, finish, ?_, ?_⟩
      · rw [outlook_token drawn rfl, lexed, Outlook.after]
      · rw [List.map_cons, kinds, TypePhrase.bare_succ, TypePhrase.kinds]

end Cursor

theorem shown_type_read {stars : Nat} (few : stars < nestingLimit) (scalar : Scalar)
    (interner : Interner) :
    ∃ parser names after finish,
      Parser.ofText (Ty.pointer^[stars] (.ofScalar scalar)).text interner = (.ok parser, names) ∧
      parser.type = .ok (Ty.pointer^[stars] (.ofScalar scalar)) after ∧
      after.Stands .initial 0 ⟨[], .ok finish⟩ := by
  obtain ⟨input, finish, lexed, kinds⟩ :=
    (Cursor.ofText (Ty.pointer^[stars] (.ofScalar scalar)).text).outlook_pointers rfl
  obtain ⟨parser, names, made⟩ := Parser.of_text_made interner (congrArg Outlook.last lexed)
  have stands := Parser.of_text_stands made
  rw [lexed] at stands
  have opens : (TypePhrase.bare stars scalar).Opens parser.depth input := by
    refine ⟨kinds ▸ List.prefix_rfl, ?_⟩
    rw [TypePhrase.bare_levels, stands.depth]
    omega
  obtain ⟨after, ran, left⟩ := type_accepts stands.ready stands.outlook opens
  rw [TypePhrase.bare_type] at ran
  rw [← kinds, List.length_map, List.drop_length, stands.analyzer, stands.depth] at left
  exact ⟨parser, names, after, finish, made, ran, left⟩

end McFront
