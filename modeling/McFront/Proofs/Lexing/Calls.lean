import McFront.Proofs.Lexing.Drawing

set_option autoImplicit false

namespace McFront

def Outlook.item (outlook : Outlook) (index : Nat) : Checked Token :=
  match outlook.tokens[index]? with
  | some token => .ok token
  | none => outlook.last

namespace Outlook

variable (outlook : Outlook)

def drop (count : Nat) : Outlook := ⟨outlook.tokens.drop count, outlook.last⟩

theorem drop_head (count : Nat) : (outlook.drop count).head = outlook.item count := by
  by_cases within : count < outlook.tokens.length
  · rw [head, item, drop, List.getElem?_eq_getElem within, List.drop_eq_getElem_cons within]
  · rw [head, item, drop, List.getElem?_eq_none (Nat.le_of_not_lt within),
      List.drop_eq_nil_of_le (Nat.le_of_not_lt within)]

theorem drop_tail (count : Nat) : (outlook.drop count).tail = outlook.drop (count + 1) := by
  rw [tail, drop, drop, List.tail_drop]

end Outlook

namespace Lexer

inductive Call where
  | draw | iteration
deriving DecidableEq

namespace Call

def shows : Call → Checked Token → Option (Checked Token)
  | draw, item => some item
  | iteration, .ok token => if token.isEnd then none else some (.ok token)
  | iteration, .error error => some (.error error)

def concludes : Call → Option (Checked Token) → Bool
  | iteration, none | iteration, some (.error _) => true
  | _, _ => false

end Call

def call (lexer : Lexer) : Call → Option (Checked Token) × Lexer
  | .draw => (some lexer.next.1, lexer.next.2)
  | .iteration => lexer.iterate

abbrev History := List (Call × Option (Checked Token))

namespace History

variable (history : History) (call : Call) (answer : Option (Checked Token))

def concluded (history : History) : Bool := history.any fun entry => entry.1.concludes entry.2

def scans (history : History) (call : Call) : Bool := call = .draw || !history.concluded

def scanned : History → Nat
  | [] => 0
  | (call, _) :: earlier => if scans earlier call then scanned earlier + 1 else scanned earlier

theorem concluded_cons :
    concluded ((call, answer) :: history) = (call.concludes answer || history.concluded) := by
  rw [concluded, List.any_cons, concluded]

theorem scanned_cons : scanned ((call, answer) :: history) =
    if history.scans call then history.scanned + 1 else history.scanned := rfl

end History

-- The calls are given with the latest first.
def past (start : Lexer) : List Call → History × Lexer
  | [] => ([], start)
  | call :: earlier =>
      let (history, lexer) := start.past earlier
      let (answer, after) := lexer.call call
      ((call, answer) :: history, after)

variable {start lexer : Lexer} {history : History}

theorem next_finished (lexer : Lexer) : lexer.next.2.finished = lexer.finished := by
  have step := lexer.step_next
  generalize lexer.next.1 = drawn, lexer.next.2 = after at step ⊢
  cases step <;> rfl

theorem iterate_unfinished (unfinished : lexer.finished = false) :
    lexer.iterate.1 = Call.iteration.shows lexer.next.1 ∧
      lexer.iterate.2.outlook = lexer.next.2.outlook ∧
        lexer.iterate.2.finished = Call.iteration.concludes lexer.iterate.1 := by
  have kept := next_finished lexer
  unfold iterate
  rw [unfinished]
  cases drawn : lexer.next with
  | mk result after =>
      rw [drawn, unfinished] at kept
      cases result with
      | error error => exact ⟨rfl, rfl, rfl⟩
      | ok token =>
          cases ended : token.isEnd with
          | true => simp [Call.shows, Call.concludes, ended, outlook]
          | false =>
              have stillOpen : after.finished = false := kept
              simp [Call.shows, Call.concludes, ended, stillOpen]

structure Follows (stream : Outlook) (history : History) (lexer : Lexer) : Prop where
  outlook : lexer.outlook = stream.drop history.scanned
  finished : lexer.finished = history.concluded

namespace Follows

variable {stream : Outlook}

theorem item (follows : Follows stream history lexer) :
    lexer.next.1 = stream.item history.scanned := by
  rw [lexer.next_outlook.1, follows.outlook, stream.drop_head]

theorem left (follows : Follows stream history lexer) :
    lexer.next.2.outlook = stream.drop (history.scanned + 1) := by
  rw [lexer.next_outlook.2, follows.outlook, stream.drop_tail]

theorem answer (follows : Follows stream history lexer) (call : Call) :
    (lexer.call call).1 =
      if history.scans call then call.shows (stream.item history.scanned) else none := by
  rw [← follows.item]
  cases call with
  | draw => rfl
  | iteration =>
      cases concluded : history.concluded with
      | true => simp [Lexer.call, iterate, follows.finished, History.scans, concluded]
      | false =>
          have unfinished : lexer.finished = false := by rw [follows.finished, concluded]
          simpa [History.scans, concluded, Lexer.call] using (iterate_unfinished unfinished).1

theorem idle (follows : Follows stream history lexer) {call : Call}
    (idle : history.scans call = false) : (lexer.call call).2 = lexer := by
  cases call with
  | draw => cases idle
  | iteration =>
      have concluded : history.concluded = true := by simpa [History.scans] using idle
      simp [Lexer.call, iterate, follows.finished, concluded]

theorem step (follows : Follows stream history lexer) (call : Call) :
    Follows stream ((call, (lexer.call call).1) :: history) (lexer.call call).2 := by
  cases scans : history.scans call with
  | false =>
      have concluded : history.concluded = true := by
        cases call with
        | draw => cases scans
        | iteration => simpa [History.scans] using scans
      rw [follows.idle scans]
      refine ⟨?_, ?_⟩
      · simpa [History.scanned_cons, scans] using follows.outlook
      · rw [History.concluded_cons, follows.finished, concluded, Bool.or_true]
  | true =>
      have taken : History.scanned ((call, (lexer.call call).1) :: history) =
          history.scanned + 1 := by simp [History.scanned_cons, scans]
      cases call with
      | draw =>
          refine ⟨?_, ?_⟩
          · rw [taken]
            exact follows.left
          · rw [History.concluded_cons]
            exact (next_finished lexer).trans follows.finished
      | iteration =>
          have proceeding : history.concluded = false := by simpa [History.scans] using scans
          have unfinished : lexer.finished = false := by rw [follows.finished, proceeding]
          obtain ⟨_, left, finished⟩ := iterate_unfinished unfinished
          refine ⟨?_, ?_⟩
          · rw [taken]
            exact left.trans follows.left
          · rw [History.concluded_cons, proceeding, Bool.or_false]
            exact finished

end Follows

theorem past_follows (fresh : start.finished = false) (calls : List Call) :
    Follows start.outlook (start.past calls).1 (start.past calls).2 := by
  induction calls with
  | nil => exact ⟨rfl, fresh⟩
  | cons call earlier ih => exact ih.step call

end Lexer

theorem calls_share_one_stream (text : String) (interner : Interner) :
    ∃ stream : Outlook,
      (∀ token ∈ stream.tokens, token.isEnd = false) ∧
      (∀ token, stream.last = .ok token → token.isEnd = true) ∧
      (∀ calls call, ∃ history lexer,
        (Lexer.ofText text interner).past calls = (history, lexer) ∧
          (lexer.call call).1 =
            (if history.scans call then call.shows (stream.item history.scanned) else none) ∧
          (history.scans call = false → (lexer.call call).2 = lexer)) ∧
      (lex text interner).1 = stream.last.map (stream.tokens ++ [·]) := by
  refine ⟨(Cursor.ofText text).outlook, Cursor.outlook_proper _, Cursor.outlook_last _, ?_,
    lex_outlook text interner⟩
  intro calls call
  have fresh : (Lexer.ofText text interner).finished = false := rfl
  have follows := Lexer.past_follows fresh calls
  exact ⟨_, _, rfl, follows.answer call, fun idle => follows.idle idle⟩

theorem concluded_calls_share_stream :
    let lexer := ((Lexer.ofText "a" .empty).past [.iteration, .draw]).2
    lexer.call .iteration = (none, lexer) ∧
      ∃ name finish, (lex "a" .empty).1 = .ok [name, finish] ∧ finish.isEnd = true ∧
        (lexer.call .draw).1 = some (.ok finish) := by
  intro lexer
  obtain ⟨stream, _, closing, shared, whole⟩ := calls_share_one_stream "a" .empty
  constructor
  · obtain ⟨_, _, past, answer, idle⟩ := shared [.iteration, .draw] .iteration
    obtain ⟨rfl, rfl⟩ := Prod.ext_iff.mp past
    have concluded : ((Lexer.ofText "a" .empty).past [.iteration, .draw]).1.scans .iteration =
        false := by decide +kernel
    rw [concluded] at answer
    exact Prod.ext answer (idle concluded)
  · obtain ⟨tokens, lexed, two⟩ := exists_of_measured (show
      (lex "a" .empty).1.toOption.map List.length = some 2 by decide +kernel)
    rw [lexed] at whole
    cases closed : stream.last with
    | error error =>
        rw [closed] at whole
        cases whole
    | ok finish =>
        rw [closed] at whole
        cases whole
        obtain ⟨name, alone⟩ := List.length_eq_one_iff.mp
          (show stream.tokens.length = 1 by simpa using two)
        obtain ⟨_, _, past, answer, _⟩ := shared [.iteration, .draw] .draw
        obtain ⟨rfl, rfl⟩ := Prod.ext_iff.mp past
        have behind : ((Lexer.ofText "a" .empty).past [.iteration, .draw]).1.scanned = 2 := by
          decide +kernel
        rw [behind, Outlook.item, alone, closed] at answer
        exact ⟨name, finish, by rw [lexed, alone]; rfl, closing finish closed, answer⟩

example : ((Lexer.ofText "a b" .empty).past
      [.iteration, .draw, .iteration, .draw, .iteration]).1.map
        (·.2.map (·.toOption.map Token.kind)) =
    [none, some (some .endOfInput), none, some (some (.identifier "b")),
      some (some (.identifier "a"))] := by
  decide +kernel

end McFront
