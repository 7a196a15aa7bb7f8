import McFront.Proofs.Lexing.Calls
import McFront.Proofs.Parsing.CompileRun

set_option autoImplicit false

namespace McFront

namespace Outlook

variable (outlook : Outlook)

theorem drop_item (count index : Nat) :
    (outlook.drop count).item index = outlook.item (count + index) := by
  rw [item, item, drop, List.getElem?_drop]

theorem item_failed {outlook : Outlook} {index : Nat} {error : CompileError}
    (failed : outlook.item index = .error error) :
    outlook.tokens.length ≤ index ∧ outlook.last = .error error := by
  unfold item at failed
  split at failed
  · cases failed
  · exact ⟨List.getElem?_eq_none_iff.mp ‹_›, failed⟩

theorem drop_failed {outlook : Outlook} {index : Nat} {error : CompileError}
    (failed : outlook.item index = .error error) (more : Nat) :
    outlook.drop (index + more) = ⟨[], .error error⟩ := by
  obtain ⟨ended, last⟩ := item_failed failed
  rw [drop, List.drop_eq_nil_of_le (Nat.le_trans ended (Nat.le_add_right _ _)), last]

theorem item_failed_later {outlook : Outlook} {index : Nat} {error : CompileError}
    (failed : outlook.item index = .error error) (more : Nat) :
    outlook.item (index + more) = .error error := by
  rw [← outlook.drop_head, drop_failed failed]
  rfl

end Outlook

def Lexer.item (lexer : Lexer) : Nat → Checked Token
  | 0 => lexer.next.1
  | index + 1 => lexer.next.2.item index

theorem Lexer.item_outlook (lexer : Lexer) (index : Nat) :
    lexer.item index = lexer.outlook.item index := by
  induction index generalizing lexer with
  | zero => exact lexer.next_outlook.1.trans (lexer.outlook.drop_head 0)
  | succ index ih =>
      have left : lexer.next.2.outlook = lexer.outlook.drop 1 :=
        lexer.next_outlook.2.trans (lexer.outlook.drop_tail 0)
      rw [item, ih, left, Outlook.drop_item, Nat.add_comm]

theorem Lexer.item_end {lexer : Lexer} {index : Nat} {token : Token}
    (given : lexer.item index = .ok token) (ended : token.isEnd = true) (more : Nat) :
    lexer.item (index + more) = .ok token := by
  induction index generalizing lexer with
  | zero =>
      rw [item_outlook, Lexer.outlook_end (Prod.ext given rfl) ended |>.1]
      rfl
  | succ index ih =>
      rw [Nat.succ_add]
      exact ih given

namespace Parser

inductive Call where
  | lookahead (places : Nat)
  | accept
deriving DecidableEq

def Call.phrase : Call → Parse Token
  | lookahead places => Parse.lookahead places
  | accept => Parse.accept

def call (parser : Parser) (call : Call) : Except Fault Token × Parser :=
  match call.phrase parser with
  | .ok token after => (.ok token, after)
  | .error fault after => (.error fault, after)

def perform (parser : Parser) : List Call → List (Call × Except Fault Token) × Parser
  | [] => ([], parser)
  | call :: calls =>
      let (answer, mid) := parser.call call
      let (answers, after) := mid.perform calls
      ((call, answer) :: answers, after)

theorem perform_cons (parser : Parser) (call : Call) (calls : List Call) :
    parser.perform (call :: calls) =
      ((call, (parser.call call).1) :: ((parser.call call).2.perform calls).1,
        ((parser.call call).2.perform calls).2) := rfl

structure Follows (stream : Outlook) (taken : Nat) (parser : Parser) : Prop where
  pending : ∀ index token, parser.pending[index]? = some token →
    stream.item (taken + index) = .ok token
  behind : parser.lexer.outlook = stream.drop (taken + parser.pending.length)

-- Nothing is pending only where the next item is the error.
structure Queues (stream : Outlook) (taken : Nat) (parser : Parser) : Prop
    extends Follows stream taken parser where
  ready : parser.pending = [] → ∃ error, stream.item taken = .error error

variable {parser other : Parser} {stream : Outlook} {taken : Nat} {token : Token}
  {pending : List Token} {error : CompileError}

theorem Follows.current (follows : parser.Follows stream taken)
    (split : parser.pending = token :: pending) : stream.item taken = .ok token :=
  follows.pending 0 token (by rw [split]; rfl)

theorem Follows.rest (follows : parser.Follows stream taken)
    (split : parser.pending = token :: pending) :
    Follows stream (taken + 1) { parser with pending } := by
  obtain ⟨items, behind⟩ := follows
  rw [split] at items behind
  refine ⟨fun index other found => ?_, ?_⟩
  · rw [Nat.add_assoc, Nat.add_comm 1]
    exact items (index + 1) other found
  · rw [List.length_cons, Nat.add_comm _ 1, ← Nat.add_assoc] at behind
    exact behind

end Parser

namespace Parse

open McFront.Parser

variable {parser : Parser} {stream : Outlook} {taken : Nat}

inductive Fills (stream : Outlook) (taken : Nat) (start : Parser) (count : Nat) :
    EStateM.Result Fault Parser Unit → Prop where
  | full {after : Parser} (follows : after.Follows stream taken)
      (long : after.pending.length = start.pending.length + count) :
      Fills stream taken start count (.ok () after)
  | short {after : Parser} {error : CompileError} (follows : after.Follows stream taken)
      (kept : start.pending.length ≤ after.pending.length)
      (within : after.pending.length < start.pending.length + count)
      (failed : stream.item (taken + after.pending.length) = .error error) :
      Fills stream taken start count (.error (.error error) after)

theorem draw_fills (follows : parser.Follows stream taken) :
    Fills stream taken parser 1 (draw parser) := by
  have given : parser.lexer.next.1 = stream.item (taken + parser.pending.length) := by
    rw [parser.lexer.next_outlook.1, follows.behind, stream.drop_head]
  have left : parser.lexer.next.2.outlook = stream.drop (taken + parser.pending.length + 1) := by
    rw [parser.lexer.next_outlook.2, follows.behind, stream.drop_tail]
  unfold draw
  cases drawn : parser.lexer.next with
  | mk result lexer =>
      rw [drawn] at given left
      cases result with
      | error error =>
          have failed := given.symm
          have behind : lexer.outlook = stream.drop (taken + parser.pending.length) := by
            rw [left, Outlook.drop_failed failed 1, ← Outlook.drop_failed failed 0, Nat.add_zero]
          exact .short ⟨follows.pending, behind⟩ (Nat.le_refl _) (Nat.lt_succ_self _) failed
      | ok token =>
          refine .full ⟨?_, by simpa [Nat.add_assoc] using left⟩ (by simp)
          intro index other found
          by_cases within : index < parser.pending.length
          · rw [List.getElem?_append_left within] at found
            exact follows.pending index other found
          · rw [List.getElem?_append_right (Nat.le_of_not_lt within), List.getElem?_singleton]
              at found
            split at found
            · cases found
              rw [show index = parser.pending.length by omega]
              exact given.symm
            · cases found

theorem draw_many_fills (count : Nat) (follows : parser.Follows stream taken) :
    Fills stream taken parser count (drawMany count parser) := by
  induction count generalizing parser with
  | zero => exact .full follows rfl
  | succ count ih =>
      have first := draw_fills follows
      show Fills stream taken parser (count + 1) ((draw >>= fun _ => drawMany count) parser)
      simp only [bind, EStateM.bind]
      cases drawn : draw parser with
      | error fault mid =>
          rw [drawn] at first
          cases first with
          | short follows kept within failed => exact .short follows kept (by omega) failed
      | ok _ mid =>
          rw [drawn] at first
          cases first with
          | full follows long =>
              have others := ih follows
              simp only
              cases more : drawMany count mid with
              | ok _ after =>
                  rw [more] at others
                  cases others with
                  | full follows longer => exact .full follows (by omega)
              | error fault after =>
                  rw [more] at others
                  cases others with
                  | short follows kept within failed =>
                      exact .short follows (by omega) (by omega) failed

theorem lookahead_full {places : Nat} {after : Parser} {token : Token}
    (drawn : drawMany (places + 1 - parser.pending.length) parser = .ok () after)
    (found : after.pending[places]? = some token) :
    lookahead places parser = .ok token after := by
  show (drawMany (places + 1 - parser.pending.length) >>= fun _ => get >>= _ : Parse Token) parser =
    _
  have got : (get : Parse Parser) after = .ok after after := rfl
  simp only [bind, EStateM.bind, drawn, got, found]
  rfl

theorem lookahead_short {places : Nat} {after : Parser} {fault : Fault}
    (drawn : drawMany (places + 1 - parser.pending.length) parser = .error fault after) :
    lookahead places parser = .error fault after := by
  show (drawMany (places + 1 - parser.pending.length) >>= fun _ => _ : Parse Token) parser = _
  simp only [bind, EStateM.bind, drawn]

inductive Takes (stream : Outlook) (taken : Nat) (token : Token) (start : Parser) :
    EStateM.Result Fault Parser Token → Prop where
  | taken {after : Parser} {next : Token} {pending : List Token}
      (follows : after.Follows stream (taken + 1)) (filled : after.pending = next :: pending) :
      Takes stream taken token start (.ok token after)
  | failed {after : Parser} {error : CompileError} (follows : after.Follows stream (taken + 1))
      (last : start.pending = [token]) (emptied : after.pending = [])
      (failed : stream.item (taken + 1) = .error error) :
      Takes stream taken token start (.error (.error error) after)

theorem accept_takes {token : Token} {pending : List Token}
    (follows : parser.Follows stream taken) (split : parser.pending = token :: pending) :
    Takes stream taken token parser (accept parser) := by
  have rest := follows.rest split
  cases pending with
  | cons next pending =>
      rw [accept_more split]
      exact .taken rest rfl
  | nil =>
      have fills := draw_fills rest
      rw [accept_last split]
      simp only [bind, EStateM.bind]
      cases drawn : draw { parser with pending := [] } with
      | ok _ after =>
          rw [drawn] at fills
          cases fills with
          | full follows long =>
              obtain ⟨next, filled⟩ := List.length_eq_one_iff.mp long
              exact .taken follows filled
      | error fault after =>
          rw [drawn] at fills
          cases fills with
          | short follows kept within failed =>
              have emptied := List.length_eq_zero_iff.mp (Nat.lt_one_iff.mp within)
              rw [emptied] at failed
              exact .failed follows split emptied failed

end Parse

-- What a call gives a reader that has taken so many items: an item, or the error, which a take
-- meets one item early. Nothing is left to take then.
def Outlook.answer (stream : Outlook) (taken : Nat) : Parser.Call → Except Fault Token
  | .lookahead places => (stream.item (taken + places)).mapError .error
  | .accept =>
      match stream.item taken with
      | .error _ => .error (.breach .emptyLookahead)
      | .ok token => ((stream.item (taken + 1)).map fun _ => token).mapError .error

def Outlook.advance (stream : Outlook) (taken : Nat) : Parser.Call → Nat
  | .lookahead _ => taken
  | .accept =>
      match stream.item taken with
      | .error _ => taken
      | .ok _ => taken + 1

namespace Parser

variable {parser other : Parser} {stream : Outlook} {taken : Nat} {token : Token}
  {error : CompileError}

namespace Queues

theorem lookahead (queues : parser.Queues stream taken) (places : Nat) :
    (parser.call (.lookahead places)).1 = (stream.item (taken + places)).mapError .error ∧
      (parser.call (.lookahead places)).2.Queues stream taken := by
  have fills := Parse.draw_many_fills (places + 1 - parser.pending.length) queues.toFollows
  cases drawn : Parse.drawMany (places + 1 - parser.pending.length) parser with
  | ok _ after =>
      rw [drawn] at fills
      cases fills with
      | full follows long =>
          have within : places < after.pending.length := by omega
          have found := List.getElem?_eq_getElem within
          simp only [call, Call.phrase, Parse.lookahead_full drawn found,
            follows.pending places _ found]
          refine ⟨rfl, follows, fun empty => ?_⟩
          rw [empty] at within
          cases within
  | error fault after =>
      rw [drawn] at fills
      cases fills with
      | @short _ error follows kept within failed =>
          have later := Outlook.item_failed_later failed (places - after.pending.length)
          rw [show taken + after.pending.length + (places - after.pending.length) =
            taken + places by omega] at later
          simp only [call, Call.phrase, Parse.lookahead_short drawn, later]
          refine ⟨rfl, follows, fun empty => ⟨error, ?_⟩⟩
          rwa [empty] at failed

theorem accept (queues : parser.Queues stream taken) :
    (parser.call .accept).1 = stream.answer taken .accept ∧
      (parser.call .accept).2.Queues stream (stream.advance taken .accept) := by
  cases split : parser.pending with
  | nil =>
      obtain ⟨error, failed⟩ := queues.ready split
      simp only [call, Call.phrase, Parse.accept_none split, Outlook.answer, Outlook.advance, failed,
        true_and]
      exact queues
  | cons token pending =>
      have takes := Parse.accept_takes queues.toFollows split
      simp only [call, Call.phrase, Outlook.answer, Outlook.advance,
        queues.toFollows.current split]
      cases ran : Parse.accept parser with
      | ok taken after =>
          rw [ran] at takes
          cases takes with
          | taken follows filled =>
              rw [follows.current filled]
              refine ⟨rfl, follows, fun empty => ?_⟩
              rw [filled] at empty
              cases empty
      | error fault after =>
          rw [ran] at takes
          cases takes with
          | failed follows last emptied failed =>
              rw [failed]
              exact ⟨rfl, follows, fun _ => ⟨_, failed⟩⟩

theorem call (queues : parser.Queues stream taken) (call : Call) :
    (parser.call call).1 = stream.answer taken call ∧
      (parser.call call).2.Queues stream (stream.advance taken call) := by
  cases call with
  | lookahead places => exact queues.lookahead places
  | accept => exact queues.accept

theorem perform_alike (queues : parser.Queues stream taken) (alike : other.Queues stream taken)
    (calls : List Call) : (parser.perform calls).1 = (other.perform calls).1 := by
  induction calls generalizing parser other taken with
  | nil => rfl
  | cons call calls ih =>
      obtain ⟨given, queues⟩ := queues.call call
      obtain ⟨givenToo, alike⟩ := alike.call call
      rw [perform_cons, perform_cons, given, givenToo, ih queues alike]

theorem filled (queues : parser.Queues stream taken) (current : stream.item taken = .ok token) :
    ∃ pending, parser.pending = token :: pending := by
  cases split : parser.pending with
  | nil =>
      obtain ⟨error, failed⟩ := queues.ready split
      rw [current] at failed
      cases failed
  | cons first pending =>
      have same := queues.toFollows.current split
      rw [current] at same
      cases same
      exact ⟨pending, rfl⟩

theorem peeked (queues : parser.Queues stream taken) (current : stream.item taken = .ok token) :
    Parse.peek parser = .ok token parser := by
  obtain ⟨pending, split⟩ := queues.filled current
  rw [Parse.peek, split]

theorem last_of_failed (queues : parser.Queues stream taken)
    (current : stream.item taken = .ok token) (failed : stream.item (taken + 1) = .error error) :
    parser.pending.length = 1 := by
  obtain ⟨pending, split⟩ := queues.filled current
  cases pending with
  | nil => rw [split, List.length_singleton]
  | cons second pending =>
      have known := queues.pending 1 second (by rw [split]; rfl)
      rw [failed] at known
      cases known

theorem accept_fails_iff (queues : parser.Queues stream taken)
    (current : stream.item taken = .ok token) :
    (∃ fault, (parser.call .accept).1 = .error fault) ↔
      parser.pending.length = 1 ∧ ∃ error, stream.item (taken + 1) = .error error := by
  have given := queues.accept.1
  simp only [Outlook.answer, current] at given
  rw [given]
  cases next : stream.item (taken + 1) with
  | ok second =>
      constructor
      · rintro ⟨fault, failed⟩
        cases failed
      · rintro ⟨_, error, failed⟩
        cases failed
  | error error =>
      have alone := queues.last_of_failed current next
      exact ⟨fun _ => ⟨alone, error, rfl⟩, fun _ => ⟨_, rfl⟩⟩

end Queues

def accepted (answers : List (Call × Except Fault Token)) : List (Except Fault Token) :=
  (answers.filter fun entry => entry.1 = .accept).map Prod.snd

theorem accepted_lookahead (places : Nat) (answer : Except Fault Token)
    (answers : List (Call × Except Fault Token)) :
    accepted ((.lookahead places, answer) :: answers) = accepted answers := by
  simp [accepted]

theorem accepted_accept (answer : Except Fault Token)
    (answers : List (Call × Except Fault Token)) :
    accepted ((.accept, answer) :: answers) = answer :: accepted answers := by
  simp [accepted]

theorem perform_takes (calls : List Call) (queues : parser.Queues stream taken)
    (current : ∃ token, stream.item taken = .ok token)
    (taking : ∀ answer ∈ accepted (parser.perform calls).1, answer.isOk) :
    (parser.perform calls).2.Queues stream (taken + calls.count .accept) ∧
      (∃ token, stream.item (taken + calls.count .accept) = .ok token) ∧
        accepted (parser.perform calls).1 =
          (List.range' taken (calls.count .accept)).map
            fun index => (stream.item index).mapError .error := by
  induction calls generalizing parser taken with
  | nil => exact ⟨queues, current, rfl⟩
  | cons call calls ih =>
      rw [perform_cons] at taking ⊢
      cases call with
      | lookahead places =>
          rw [accepted_lookahead] at taking ⊢
          rw [List.count_cons_of_ne (by simp)]
          exact ih (queues.lookahead places).2 current taking
      | accept =>
          obtain ⟨token, isCurrent⟩ := current
          obtain ⟨given, after⟩ := queues.accept
          rw [accepted_accept, List.forall_mem_cons] at taking
          rw [accepted_accept, List.count_cons_self]
          simp only [Outlook.answer, Outlook.advance, isCurrent] at given after
          cases next : stream.item (taken + 1) with
          | error error =>
              rw [given, next] at taking
              cases taking.1
          | ok second =>
              rw [next] at given
              obtain ⟨queues, current, items⟩ := ih after ⟨second, next⟩ taking.2
              rw [Nat.add_right_comm, Nat.add_assoc] at queues current
              refine ⟨queues, current, ?_⟩
              rw [given, items, List.range'_succ, List.map_cons, isCurrent]
              rfl

theorem of_text_queues {text : String} {interner names : Interner}
    (made : Parser.ofText text interner = (.ok parser, names)) :
    parser.Queues (Cursor.ofText text).outlook 0 ∧
      ∃ token, (Cursor.ofText text).outlook.item 0 = .ok token := by
  have start : Follows (Cursor.ofText text).outlook 0
      ⟨Lexer.ofText text interner, [], .initial, 0⟩ := ⟨by simp, rfl⟩
  have fills := Parse.draw_fills start
  unfold Parse.draw at fills
  cases made_of_text made with
  | @parser token _ drawn =>
      rw [drawn] at fills
      cases fills with
      | full follows long => exact ⟨⟨follows, by simp⟩, token, follows.current rfl⟩

end Parser

open McFront.Parser (Call)

theorem buffer_follows_stream {text : String} {interner names : Interner} {parser after : Parser}
    {calls : List Call} {answers : List (Call × Except Fault Token)}
    (made : Parser.ofText text interner = (.ok parser, names))
    (ran : parser.perform calls = (answers, after))
    (taking : ∀ answer ∈ Parser.accepted answers, answer.isOk) :
    let stream := (Lexer.ofText text interner).item
    let taken := calls.count .accept
    (∀ index token, stream index = .ok token → token.isEnd →
      ∀ more, stream (index + more) = .ok token) ∧
    Parser.accepted answers = (List.range taken).map (fun index => (stream index).mapError .error) ∧
    after.pending ≠ [] ∧
    ∃ current, stream taken = .ok current ∧ Parse.peek after = .ok current after ∧
      (after.call .accept).1 = ((stream (taken + 1)).map fun _ => current).mapError .error ∧
      ((∃ fault, (after.call .accept).1 = .error fault) ↔
        after.pending.length = 1 ∧ ∃ error, stream (taken + 1) = .error error) ∧
      ∀ places answer looked, after.call (.lookahead places) = (answer, looked) →
        answer = (stream (taken + places)).mapError .error ∧
        Parse.peek looked = .ok current looked ∧
        ∀ later, (looked.perform later).1 = (after.perform later).1 := by
  intro stream taken
  refine ⟨fun index token given ended => Lexer.item_end given ended, ?_⟩
  have items : stream = (Cursor.ofText text).outlook.item := funext (Lexer.item_outlook _)
  rw [items]
  obtain ⟨queues, start⟩ := Parser.of_text_queues made
  have performed := Parser.perform_takes calls queues start
  have isAnswers : (parser.perform calls).1 = answers := congrArg Prod.fst ran
  have isAfter : (parser.perform calls).2 = after := congrArg Prod.snd ran
  rw [isAnswers, isAfter, Nat.zero_add, ← List.range_eq_range'] at performed
  obtain ⟨queues, ⟨current, isCurrent⟩, accepted⟩ := performed taking
  obtain ⟨pending, split⟩ := queues.filled isCurrent
  have answer := queues.accept.1
  simp only [Outlook.answer, isCurrent] at answer
  refine ⟨accepted, by simp [split], current, isCurrent, queues.peeked isCurrent, answer,
    queues.accept_fails_iff isCurrent, ?_⟩
  intro places answer looked called
  obtain ⟨given, kept⟩ := queues.lookahead places
  rw [called] at given kept
  exact ⟨given, kept.peeked isCurrent, kept.perform_alike queues⟩

theorem faulty_text_buffered :
    ∃ parser answers after current, (Parser.ofText "a b $" .empty).1 = .ok parser ∧
      parser.perform [.lookahead 7, .accept, .lookahead 0] = (answers, after) ∧
      answers.map (fun entry => entry.2.isOk) = [false, true, true] ∧
      Parse.peek after = .ok current after ∧ current.kind = .identifier "b" ∧
      ∃ fault, (after.call .accept).1 = .error fault := by
  obtain ⟨parser, made, measured⟩ := exists_of_measured (show
    (Parser.ofText "a b $" .empty).1.toOption.map (fun parser : Parser =>
      let (answers, after) := parser.perform [.lookahead 7, .accept, .lookahead 0]
      (answers.map (fun entry => entry.2.isOk), (Parser.accepted answers).all (·.isOk),
        after.pending.length)) =
      some ([false, true, true], true, 1) by decide +kernel)
  obtain ⟨second, isSecond, named⟩ := exists_of_measured (show
    ((Lexer.ofText "a b $" .empty).item 1).toOption.map Token.kind = some (.identifier "b") by
    decide +kernel)
  have third : ((Lexer.ofText "a b $" .empty).item 2).toOption.isNone := by decide +kernel
  cases ran : parser.perform [.lookahead 7, .accept, .lookahead 0] with
  | mk answers after =>
      rw [ran] at measured
      simp only [Prod.mk.injEq, List.all_eq_true] at measured
      obtain ⟨isOk, taking, alone⟩ := measured
      obtain ⟨_, _, _, current, isCurrent, peeked, _, fails, _⟩ :=
        buffer_follows_stream (Prod.ext made rfl) ran taking
      cases isCurrent.symm.trans isSecond
      refine ⟨parser, answers, after, _, made, ran, isOk, peeked, named, fails.mpr ⟨alone, ?_⟩⟩
      cases failed : (Lexer.ofText "a b $" .empty).item 2 with
      | ok token => rw [failed] at third; cases third
      | error error => exact ⟨error, failed⟩

end McFront
