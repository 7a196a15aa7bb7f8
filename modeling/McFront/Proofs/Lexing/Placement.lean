import McFront.Proofs.Lexing.Complaints
import McFront.Proofs.Lexing.Munch
import McFront.Proofs.Text.Offset

set_option autoImplicit false

namespace McFront

open Location

namespace Token

-- A text laid out behind another one in gaps and spellings, each token placed at its spelling.
inductive Laid (source : Source) : List Char → List Char → List Token → Prop
  | done {before gap : List Char} {finish : Token} (between : Gap gap [])
      (ended : finish.kind = .endOfInput) (place : finish.location = first.past (before ++ gap))
      (offset : source.offsetOf finish.location = source.size) : Laid source before gap [finish]
  | token {before gap spelling rest : List Char} {token : Token} {others : List Token}
      (between : Gap gap (spelling ++ rest)) (munch : Munch spelling rest token.kind)
      (place : token.location = first.past (before ++ gap))
      (offset : source.offsetOf token.location = byteSize (before ++ gap))
      (further : Laid source (before ++ gap ++ spelling) rest others) :
      Laid source before (gap ++ spelling ++ rest) (token :: others)

theorem Laid.ordered {source : Source} {before text : List Char} {tokens : List Token}
    (laid : Laid source before text tokens) :
    (∀ token ∈ tokens, (first.past before).NotAfter token.location) ∧
      (tokens.map Token.location).Pairwise Before := by
  induction laid with
  | @done before gap finish between ended place offset =>
      have start : (first.past before).NotAfter finish.location := by
        rw [place, past_append]
        exact not_after_past _ gap
      exact ⟨by simpa using start, by simp⟩
  | @token before gap spelling rest token others between munch place offset further ih =>
      obtain ⟨behind, ordered⟩ := ih
      have start : (first.past before).NotAfter token.location := by
        rw [place, past_append]
        exact not_after_past _ gap
      have later : ∀ other ∈ others, token.location.Before other.location := by
        intro other member
        have passes : token.location.Before (first.past (before ++ gap ++ spelling)) := by
          rw [past_append, ← place]
          exact before_past _ spelling munch.filled
        exact before_not_after _ _ _ passes (behind other member)
      refine ⟨List.forall_mem_cons.mpr ⟨start, fun other member => ?_⟩, ?_⟩
      · exact not_after_trans _ _ _ start (.inr (later other member))
      · exact List.pairwise_cons.mpr ⟨by simpa using later, ordered⟩

end Token

namespace Cursor

structure Behind (cursor : Cursor) (text passed : List Char) : Prop where
  split : text = passed ++ cursor.rest
  place : cursor.location = first.past passed

variable {cursor after : Cursor} {text passed : List Char} {token : Token} {error : CompileError}

theorem of_text_behind (text : String) : (ofText text).Behind text.toList [] := ⟨rfl, rfl⟩

theorem Behind.pass (behind : cursor.Behind text passed) {more rest : List Char}
    (split : cursor.rest = more ++ rest) :
    Behind ⟨rest, cursor.location.past more⟩ text (passed ++ more) := by
  refine ⟨?_, ?_⟩
  · rw [behind.split, split, List.append_assoc]
  · rw [behind.place, past_append]

theorem Behind.next (behind : cursor.Behind text passed) :
    ∃ more, cursor.next.2.Behind text (passed ++ more) := by
  have step := cursor.step_next
  generalize cursor.next.1 = drawn, cursor.next.2 = after at step
  cases step with
  | finish left => exact ⟨_, behind.pass (split_of_gap left)⟩
  | token left | fault left =>
      have passes := behind.pass ((split_of_gap left).trans (List.append_assoc ..).symm)
      rw [past_append] at passes
      exact ⟨_, passes⟩

theorem Behind.next_token (behind : cursor.Behind text passed)
    (drawn : cursor.next = (.ok token, after)) (proper : token.isEnd = false) :
    ∃ gap spelling, cursor.rest = gap ++ spelling ++ after.rest ∧
      Token.Gap gap (spelling ++ after.rest) ∧ Token.Munch spelling after.rest token.kind ∧
        token.location = first.past (passed ++ gap) ∧
          after.Behind text (passed ++ gap ++ spelling) := by
  have between := (Lexeme.gap_between cursor.rest).1
  cases step_of_next drawn with
  | finish left => cases proper
  | token left found =>
      have split := (split_of_gap left).trans (List.append_assoc ..).symm
      have passes := behind.pass split
      rw [past_append, ← List.append_assoc] at passes
      rw [left] at between
      refine ⟨_, _, split, between, Lexeme.head_munch found, ?_, passes⟩
      rw [past_append, behind.place]

theorem Behind.next_end (behind : cursor.Behind text passed)
    (drawn : cursor.next = (.ok token, after)) (ended : token.isEnd = true) :
    Token.Gap cursor.rest [] ∧ token.location = first.past text := by
  have between := (Lexeme.gap_between cursor.rest).1
  cases step_of_next drawn with
  | token _ _ _ proper => exact absurd ((Token.is_end_iff _).mp ended) proper
  | finish left =>
      have split := (split_of_gap left).trans (List.append_nil _)
      rw [left, ← split] at between
      refine ⟨between, ?_⟩
      rw [behind.split, past_append, behind.place, ← split]

theorem Behind.outlook_laid {source : Source} {finish : Token}
    (behind : cursor.Behind source.chars passed) (ended : cursor.outlook.last = .ok finish) :
    Token.Laid source passed cursor.rest (cursor.outlook.tokens ++ [finish]) := by
  induction cursor using outlook.induct generalizing passed with
  | case1 cursor token after drawn proper ih =>
      obtain ⟨gap, spelling, split, between, munch, place, further⟩ :=
        behind.next_token drawn proper
      rw [outlook_token drawn proper] at ended ⊢
      have whole : source.chars = passed ++ gap ++ (spelling ++ after.rest) := by
        rw [behind.split, split]
        simp only [List.append_assoc]
      have offset : source.offsetOf token.location = byteSize (passed ++ gap) := by
        rw [place, Source.offset_past whole]
      rw [split]
      exact .token between munch place offset (ih further ended)
  | case2 cursor token after drawn isEnd =>
      have isEnd : token.isEnd = true := by simpa using isEnd
      obtain ⟨between, place⟩ := behind.next_end drawn isEnd
      rw [outlook_end drawn isEnd] at ended ⊢
      cases ended
      have offset : source.offsetOf finish.location = source.size := by
        rw [place, Source.offset_past (List.append_nil _).symm, Source.size]
      rw [behind.split] at place
      exact .done between ((Token.is_end_iff finish).mp isEnd) place offset
  | case3 cursor error after drawn =>
      rw [outlook_error drawn] at ended
      cases ended

theorem Behind.outlook_blames (behind : cursor.Behind text passed)
    (failed : cursor.outlook.last = .error error) :
    ∃ (complaint : Complaint) (before after : List Char), text = before ++ after ∧
      complaint.Blames after ∧ error = complaint.raise (first.past before) := by
  induction cursor using outlook.induct generalizing passed with
  | case1 cursor token after drawn proper ih =>
      obtain ⟨_, _, _, _, _, _, further⟩ := behind.next_token drawn proper
      rw [outlook_token drawn proper] at failed
      exact ih further failed
  | case2 cursor token after drawn ended =>
      rw [outlook_end drawn (by simpa using ended)] at failed
      cases failed
  | case3 cursor other after drawn =>
      rw [outlook_error drawn] at failed
      cases failed
      obtain ⟨complaint, more, rest, split, blames, rfl⟩ := next_blames drawn
      refine ⟨complaint, passed ++ more, rest, ?_, blames, ?_⟩
      · rw [behind.split, split, List.append_assoc]
      · rw [past_append, behind.place]

end Cursor

namespace Lexer

inductive Reached (text : String) : Lexer → Prop
  | fresh (names : Interner) : Reached text (ofText text names)
  | next {lexer : Lexer} (before : Reached text lexer) : Reached text lexer.next.2
  | iterate {lexer : Lexer} (before : Reached text lexer) : Reached text lexer.iterate.2

theorem next_cursor (lexer : Lexer) :
    lexer.next.2.cursor = lexer.cursor ∨ lexer.next.2.cursor = lexer.cursor.next.2 := by
  have step := lexer.step_next
  generalize lexer.next.1 = drawn, lexer.next.2 = after at step ⊢
  cases step with
  | again failed => exact .inl rfl
  | token sound drawn | error sound drawn => exact .inr (by rw [drawn])

theorem iterate_cursor (lexer : Lexer) :
    lexer.iterate.2.cursor = lexer.cursor ∨ lexer.iterate.2.cursor = lexer.next.2.cursor := by
  unfold iterate
  split
  · exact .inl rfl
  · split <;> rename_i drawn <;> rw [drawn]
    · split <;> exact .inr rfl
    · exact .inr rfl

theorem Reached.behind {text : String} {lexer : Lexer} (reached : Reached text lexer) :
    ∃ passed, lexer.cursor.Behind text.toList passed := by
  have step (lexer : Lexer) (found : ∃ passed, lexer.cursor.Behind text.toList passed) :
      ∃ passed, lexer.next.2.cursor.Behind text.toList passed := by
    obtain ⟨passed, behind⟩ := found
    rcases lexer.next_cursor with same | moved
    · exact ⟨passed, by rw [same]; exact behind⟩
    · obtain ⟨more, further⟩ := behind.next
      exact ⟨passed ++ more, by rw [moved]; exact further⟩
  induction reached with
  | fresh names => exact ⟨[], Cursor.of_text_behind text⟩
  | next before ih => exact step _ ih
  | @iterate lexer before ih =>
      rcases lexer.iterate_cursor with same | moved
      · rw [same]
        exact ih
      · rw [moved]
        exact step lexer ih

end Lexer

theorem places_match_offsets (source : Source) :
    (∀ passed rest, source.chars = passed ++ rest →
      source.offsetOf (first.past passed) = byteSize passed) ∧
    (∀ lexer, Lexer.Reached source.text lexer → ∃ passed,
      source.chars = passed ++ lexer.cursor.rest ∧
        source.offsetOf lexer.location = byteSize passed) ∧
    (∀ names tokens, (lex source.text names).1 = .ok tokens →
      Token.Laid source [] source.chars tokens ∧
        (tokens.map Token.location).Pairwise Before) ∧
    (∀ names error, (lex source.text names).1 = .error error →
      ∃ (complaint : Complaint) (before after : List Char),
        error = complaint.raise (first.past before) ∧ source.chars = before ++ after ∧
          complaint.Blames after ∧ source.offsetOf error.location = byteSize before) := by
  have start := Cursor.of_text_behind source.text
  refine ⟨fun passed rest => Source.offset_past, ?_, ?_, ?_⟩
  · intro lexer reached
    obtain ⟨passed, behind⟩ := reached.behind
    refine ⟨passed, behind.split, ?_⟩
    rw [Lexer.location, behind.place, Source.offset_past behind.split]
  · intro names tokens accepted
    obtain ⟨finish, ended, rfl⟩ := lex_accepts_iff.mp accepted
    have laid := start.outlook_laid ended
    exact ⟨laid, laid.ordered.2⟩
  · intro names error rejected
    obtain ⟨complaint, before, after, split, blames, rfl⟩ :=
      start.outlook_blames (lex_rejects_iff.mp rejected)
    exact ⟨complaint, before, after, rfl, split, blames, Source.offset_past split⟩

theorem accents_take_two_bytes :
    (∃ lexer passed, Lexer.Reached "\"é\" x" lexer ∧ "\"é\" x".toList = passed ++ lexer.cursor.rest ∧
      lexer.location = ⟨1, 4⟩ ∧ Source.offsetOf ⟨"", "\"é\" x"⟩ lexer.location = byteSize passed) ∧
    (∃ tokens, (lex "\"é\" x" .empty).1 = .ok tokens ∧
      Token.Laid ⟨"", "\"é\" x"⟩ [] "\"é\" x".toList tokens ∧
        tokens.map (Source.offsetOf ⟨"", "\"é\" x"⟩ ·.location) = [0, 5, 6]) ∧
    ∃ error before, (lex "\"é\\q\"" .empty).1 = .error error ∧ error.location = ⟨1, 3⟩ ∧
      Source.offsetOf ⟨"", "\"é\\q\""⟩ error.location = byteSize before ∧ byteSize before = 3 := by
  refine ⟨?_, ?_, ?_⟩
  · have fresh : Lexer.Reached "\"é\" x" (.ofText "\"é\" x" .empty) := .fresh .empty
    have reached := fresh.next
    obtain ⟨passed, split, offset⟩ := (places_match_offsets ⟨"", "\"é\" x"⟩).2.1 _ reached
    exact ⟨_, passed, reached, split, by decide +kernel, offset⟩
  · obtain ⟨tokens, accepted, offsets⟩ := exists_of_measured (show
      (lex "\"é\" x" .empty).1.toOption.map
        (List.map (Source.offsetOf ⟨"", "\"é\" x"⟩ ·.location)) = some [0, 5, 6] by decide +kernel)
    exact ⟨tokens, accepted,
      ((places_match_offsets ⟨"", "\"é\" x"⟩).2.2.1 .empty tokens accepted).1, offsets⟩
  · have rejected : (lex "\"é\\q\"" .empty).1 =
        .error ((Complaint.invalidEscape 'q').raise ⟨1, 3⟩) := by rfl
    obtain ⟨complaint, before, after, raised, split, blames, offset⟩ :=
      (places_match_offsets ⟨"", "\"é\\q\""⟩).2.2.2 .empty _ rejected
    have size : Source.offsetOf ⟨"", "\"é\\q\""⟩ ⟨1, 3⟩ = 3 := by decide +kernel
    exact ⟨_, before, rejected, rfl, offset, offset.symm.trans size⟩

end McFront
