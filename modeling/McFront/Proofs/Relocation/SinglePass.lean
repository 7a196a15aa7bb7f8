import McFront.Proofs.Lexing.Continuation
import McFront.Proofs.Parsing.DeclarationGiven
import McFront.Proofs.Parsing.Longer
import McFront.Proofs.Relocation.CompileInStep

set_option autoImplicit false

namespace McFront

open McFront.Parser Parse

theorem pairwise_again {lines : List Nat} {line : Nat}
    (ordered : (lines ++ [line]).Pairwise (· ≤ ·)) :
    (lines ++ [line] ++ [line]).Pairwise (· ≤ ·) := by
  rw [List.pairwise_append]
  refine ⟨ordered, List.pairwise_singleton _ _, ?_⟩
  intro first member second single
  obtain rfl := List.mem_singleton.mp single
  rcases List.mem_append.mp member with before | same
  · exact (List.pairwise_append.mp ordered).2.2 first before second single
  · exact Nat.le_of_eq (List.mem_singleton.mp same)

def Lexer.Since (line : Nat) (lexer : Lexer) (pending : List Token) : Prop :=
  (line :: (pending.map (·.location.line) ++ lexer.outlook.lines)).Pairwise (· ≤ ·)

namespace Lexer

variable {line : Nat} {lexer : Lexer} {pending : List Token} {token : Token} {error : CompileError}

theorem Since.next (since : lexer.Since line pending) (drawn : lexer.next.1 = .ok token) :
    lexer.next.2.Since line (pending ++ [token]) := by
  obtain ⟨head, tail⟩ := lexer.next_outlook
  rw [drawn] at head
  unfold Since at since ⊢
  rw [tail]
  generalize lexer.outlook = outlook at since head
  obtain ⟨tokens, last⟩ := outlook
  cases tokens with
  | nil =>
      -- The end is drawn, and it is still to come.
      change _ = last at head
      subst head
      have ordered : (line :: pending.map (·.location.line) ++ [token.location.line]).Pairwise
          (· ≤ ·) := since
      rw [List.map_append]
      exact pairwise_again ordered
  | cons first others =>
      cases head
      simpa [Outlook.lines, Outlook.tail] using since

theorem Since.head (since : lexer.Since line pending) : line ≤ drawnLine lexer.next.1 := by
  rw [lexer.next_outlook.1]
  apply (List.pairwise_cons.mp since).1
  unfold Outlook.head
  split
  · simp [Outlook.lines]
  · simp [Outlook.lines, drawnLine, *]

theorem Since.later {earlier : Nat} (since : lexer.Since earlier (token :: pending))
    (later : line ≤ token.location.line) : lexer.Since line (token :: pending) := by
  have ordered := (List.pairwise_cons.mp since).2
  refine List.pairwise_cons.mpr ⟨?_, ordered⟩
  rw [List.map_cons, List.cons_append] at ordered ⊢
  rw [List.forall_mem_cons]
  have others := (List.pairwise_cons.mp ordered).1
  exact ⟨later, fun other member => Nat.le_trans later (others other member)⟩

theorem Since.take (since : lexer.Since line (token :: pending)) : lexer.Since line pending :=
  List.Pairwise.sublist (.cons_cons _ (List.sublist_cons_self _ _)) since

end Lexer

def Pairing.since (line : Nat) : Pairing where
  places := ⟨fun a b => a = b ∧ line ≤ a.line, Eq, And.left⟩
  failed := fun _ e => line ≤ e.location.line
  streams := fun lexer pending lexer' pending' =>
    (lexer = lexer' ∧ pending = pending') ∧ lexer.Since line pending
  draws := by
    rintro lexer _ pending _ ⟨⟨rfl, rfl⟩, since⟩
    have later := since.head
    rw [← Prod.eta lexer.next]
    cases drawn : lexer.next.1 <;> rw [drawn] at later
    · exact .error later
    · exact .token ⟨rfl, rfl, later⟩ ⟨⟨rfl, rfl⟩, since.next drawn⟩
  takes := by
    rintro lexer _ token _ pending _ ⟨⟨rfl, same⟩, since⟩
    cases same
    exact ⟨⟨rfl, rfl⟩, since.take⟩

theorem alike_self {line : Nat} {analyzer : Analyzer} (inactive : analyzer.function = none) :
    analyzer.Matches (Pairing.since line).accord.view analyzer := by
  refine ⟨List.forall₂_same.mpr ?_, by rw [inactive]; exact .none, rfl⟩
  intro scope _
  refine ⟨rfl, List.forall₂_same.mpr ?_⟩
  exact fun entry _ => ⟨trivial, rfl, trivial, rfl, rfl, rfl, rfl⟩

section Step

variable {before : Analyzer} {depth line : Nat} {input : List Token} {last : Checked Token}
  {parser : Parser}

-- Where the next token is at a line or behind it, nothing is seen any more of what comes before.
theorem together_since (stands : parser.Stands before depth ⟨input, last⟩)
    (inactive : before.function = none) (ordered : (Pairing.since 0).Together parser parser)
    (later : ∀ token, Shows last input token → line ≤ token.location.line) :
    (Pairing.since line).Together parser parser := by
  obtain ⟨token, pending, current, shows, _⟩ := stands.shows
  have since : parser.lexer.Since line parser.pending := by
    have since := ordered.streams.2
    rw [current] at since ⊢
    exact since.later (later token shows)
  refine ⟨⟨⟨rfl, rfl⟩, since⟩, List.forall₂_same.mpr ?_, ?_, rfl⟩
  · intro other member
    refine Token.Alike.plain ⟨rfl, rfl, (List.pairwise_cons.mp since).1 _ ?_⟩
    exact List.mem_append_left _ (List.mem_map_of_mem member)
  · rw [stands.analyzer]
    exact alike_self inactive

theorem declarations_blame_since (together : (Pairing.since line).Together parser parser)
    (budget : Nat) :
    Achieves (fun error => line ≤ error.location.line) (Grammar.declarations budget) parser
      fun _ _ => True := by
  have ends := declarations_keep budget parser parser together
  unfold Achieves
  generalize Grammar.declarations budget parser = run at ends
  cases ends with
  | ok => trivial
  | blamed blames => exact blames.location.2
  | failed fails => exact fails
  | breach => trivial

theorem declaration_goes_on {after : Analyzer} {declaration : Declaration} {rest : List Token}
    (reading : DeclarationReading depth before declaration input after rest) (more : List Token)
    (stands : parser.Stands before depth ⟨input ++ more, last⟩)
    (ordered : (Pairing.since 0).Together parser parser) (budget : Nat) :
    Proceeds last (Grammar.declaration budget) parser fun given left =>
      given = declaration ∧ left.Stands after depth ⟨rest ++ more, last⟩ ∧
        (Pairing.since 0).Together left left := by
  have given := declaration_given (reading.longer more) budget parser last stands
  have ends := declaration_keeps budget parser parser ordered
  apply achieves_weaken (achieves_ran given)
  rintro _ left ⟨ran, rfl, stands⟩
  rw [ran] at ends
  cases ends with
  | ok _ together => exact ⟨rfl, stands, together⟩

theorem declarations_go_on {after : Analyzer} {declarations : List Declaration}
    (reading : DeclarationsReading depth before declarations input after) (idle : before.Idle)
    {more : List Token} (stands : parser.Stands before depth ⟨input ++ more, last⟩)
    (ordered : (Pairing.since 0).Together parser parser)
    (later : ∀ token, Shows last more token → line ≤ token.location.line)
    (laterError : ∀ error, last = .error error → line ≤ error.location.line) (budget : Nat) :
    Achieves (fun error => line ≤ error.location.line) (Grammar.declarations budget) parser
      fun given _ => ∃ others, given = declarations ++ others := by
  induction reading generalizing parser budget with
  | done =>
      have together := together_since stands idle.function ordered later
      apply achieves_weaken (declarations_blame_since together budget)
      exact fun given _ _ => ⟨given, rfl⟩
  | more head tail ih =>
      cases budget with
      | zero => exact achieves_out_of_budget
      | succ budget =>
          obtain ⟨token, others, rfl⟩ :=
            List.exists_cons_of_length_pos (Nat.zero_lt_of_lt head.shorter)
          obtain ⟨_, _, gains⟩ := head.gains idle
          rw [Grammar.declarations]
          apply achieves_bind_peek_token stands
          intro proper
          rw [if_neg (by simp [proper])]
          have first := declaration_goes_on head more stands ordered budget
          apply achieves_bind (achieves_allow first laterError)
          rintro _ left ⟨rfl, stands, ordered⟩
          apply achieves_bind (ih (idle.same_frame gains.same_frame) stands ordered budget)
          rintro _ left ⟨others, rfl⟩
          exact achieves_pure ⟨others, rfl⟩

theorem program_goes_on {declarations : List Declaration}
    (reading : ProgramReading (.program declarations) input) {more : List Token}
    (stands : parser.Stands .initial 0 ⟨input ++ more, last⟩)
    (ordered : (Pairing.since 0).Together parser parser)
    (later : ∀ token, Shows last more token → line ≤ token.location.line)
    (laterError : ∀ error, last = .error error → line ≤ error.location.line) (budget : Nat) :
    Achieves (fun error => line ≤ error.location.line) (Grammar.program budget) parser
      fun given _ => ∃ others, given = .program (declarations ++ others) := by
  cases reading with
  | program entered inner =>
      rw [enter_outermost] at entered
      cases entered
      have ran : analyze (Analysis.enter .outermost) parser =
          .ok () { parser with analyzer := Analyzer.initial.entered .outermost } := by
        rw [analyze, stands.analyzer, enter_outermost]
      have within : (Pairing.since 0).Together
          { parser with analyzer := Analyzer.initial.entered .outermost }
          { parser with analyzer := Analyzer.initial.entered .outermost } :=
        ⟨ordered.streams, ordered.pending, alike_self rfl, rfl⟩
      have body := declarations_go_on inner ⟨rfl, rfl⟩ (stands.with_analyzer _) within later
        laterError budget
      have scope : Achieves (fun error => line ≤ error.location.line)
          (inScope .outermost (Grammar.declarations budget)) parser
          fun given _ => ∃ others, given = declarations ++ others :=
        achieves_releasing (achieves_bind_ran ran body)
      apply achieves_bind scope
      rintro _ left ⟨others, rfl⟩
      exact achieves_pure ⟨others, rfl⟩

end Step

theorem of_text_ordered {text : String} {names : Interner} {parser : Parser}
    (made : (Parser.ofText text names).1 = .ok parser) :
    (Pairing.since 0).Together parser parser := by
  have since : (Lexer.ofText text names).Since 0 [] := List.pairwise_cons.mpr ⟨?_, ?_⟩
  · exact of_text_together ⟨⟨rfl, rfl⟩, since⟩ made made
  · exact fun line _ => Nat.zero_le line
  · exact (List.pairwise_cons.mp (Cursor.ofText text).outlook_lines).2

theorem next_line_behind {cursor : Cursor} {token : Token}
    (shows : Shows cursor.outlook.last cursor.outlook.tokens token) :
    cursor.location.line ≤ token.location.line := by
  apply (List.pairwise_cons.mp cursor.outlook_lines).1
  generalize tokens : cursor.outlook.tokens = input, isLast : cursor.outlook.last = last at shows
  cases shows with
  | token => simp [Outlook.lines, tokens]
  | finish _ _ ended => simp [Outlook.lines, drawnLine, isLast, ended]

theorem error_line_behind {cursor : Cursor} {error : CompileError}
    (failed : cursor.outlook.last = .error error) :
    cursor.location.line ≤ error.location.line := by
  apply (List.pairwise_cons.mp cursor.outlook_lines).1
  simp [Outlook.lines, drawnLine, failed]

theorem line_behind (first second : String) :
    ((Cursor.ofText first).lineAfter second.toList).location.line =
      2 + first.toList.count '\n' := by
  simp [Cursor.lineAfter, Cursor.ofText, Location.past_line, Location.first]
  omega

theorem compile_achieves {text : String} {names : Interner} {fails : CompileError → Prop}
    {post : Declaration → Prop}
    (drawn : ∀ error, (Parser.ofText text names).1 = .error error → fails error)
    (achieves : ∀ parser, (Parser.ofText text names).1 = .ok parser →
      Achieves fails (Grammar.program parser.budget) parser fun program _ => post program) :
    (∃ program, (compile text names).1 = .ok program ∧ post program) ∨
      ∃ error, (compile text names).1 = .error (.error error) ∧ fails error := by
  have compiled := compiled text names
  generalize (compile text names).1 = outcome, (compile text names).2 = left at compiled ⊢
  cases compiled with
  | unmade made => exact .inr ⟨_, rfl, drawn _ (congrArg Prod.fst made)⟩
  | @read parser _ _ program made ran =>
      have achieved := achieves parser (congrArg Prod.fst made)
      have ran : Grammar.program parser.budget parser = _ := ran
      simp only [Achieves, ran] at achieved
      exact .inl ⟨program, rfl, achieved⟩
  | @failed parser _ _ error made ran =>
      have achieved := achieves parser (congrArg Prod.fst made)
      have ran : Grammar.program parser.budget parser = _ := ran
      simp only [Achieves, ran] at achieved
      exact .inr ⟨error, rfl, achieved⟩

theorem compile_goes_on (first second : String) (names others : Interner) (program : Declaration)
    (accepted : (compile first names).1 = .ok program) :
    ∃ declarations, program = .program declarations ∧
      ((∃ more, (compile (first ++ "\n" ++ second) others).1 =
          .ok (.program (declarations ++ more))) ∨
        ∃ error, (compile (first ++ "\n" ++ second) others).1 = .error (.error error) ∧
          2 + first.toList.count '\n' ≤ error.location.line) := by
  obtain ⟨finish, ended, reading⟩ := compile_reads accepted
  obtain ⟨declarations, rfl⟩ : ∃ declarations, program = .program declarations := by
    cases reading
    exact ⟨_, rfl⟩
  refine ⟨declarations, rfl, ?_⟩
  have outlook := Cursor.outlook_of_lines second ended
  rw [← line_behind first second]
  generalize (Cursor.ofText first).lineAfter second.toList = start at outlook ⊢
  have drawn : ∀ error, (Parser.ofText (first ++ "\n" ++ second) others).1 = .error error →
      start.location.line ≤ error.location.line := by
    intro error failed
    have isLast := of_text_rejects (Prod.ext failed rfl)
    rw [outlook] at isLast
    exact error_line_behind isLast
  have goesOn : ∀ parser, (Parser.ofText (first ++ "\n" ++ second) others).1 = .ok parser →
      Achieves (fun error => start.location.line ≤ error.location.line)
        (Grammar.program parser.budget) parser
        fun given _ => ∃ more, given = .program (declarations ++ more) := by
    intro parser made
    have stands := of_text_stands (Prod.ext made rfl)
    rw [outlook] at stands
    exact program_goes_on reading stands (of_text_ordered made) (fun _ => next_line_behind)
      (fun _ => error_line_behind) parser.budget
  rcases compile_achieves drawn goesOn with ⟨_, accepted, more, rfl⟩ | rejected
  · exact .inl ⟨more, accepted⟩
  · exact .inr rejected

theorem object_goes_on :
    ∃ declarations, (compile "var x: int;" .empty).1 = .ok (.program declarations) ∧
      (∃ more, (compile "var x: int;\nlet y: int = x;" .empty).1 =
        .ok (.program (declarations ++ more))) ∧
      ∃ error, (compile "var x: int;\nvar x: bool;" .empty).1 = .error (.error error) ∧
        error.kind = .naming ∧ 2 ≤ error.location.line := by
  obtain ⟨program, accepted, _⟩ := exists_of_measured
    (show (compile "var x: int;" .empty).1.toOption.map (fun _ => ()) = some () by decide +kernel)
  obtain ⟨declarations, rfl, goesOn⟩ :=
    compile_goes_on _ "let y: int = x;" .empty .empty _ accepted
  obtain ⟨_, same, fails⟩ := compile_goes_on _ "var x: bool;" .empty .empty _ accepted
  cases same
  have joined : "var x: int;" ++ "\n" ++ "let y: int = x;" = "var x: int;\nlet y: int = x;" := rfl
  have repeated : "var x: int;" ++ "\n" ++ "var x: bool;" = "var x: int;\nvar x: bool;" := rfl
  rw [joined] at goesOn
  rw [repeated] at fails
  refine ⟨declarations, accepted, ?_, ?_⟩
  · obtain ⟨longer, compiled, _⟩ := exists_of_measured
      (show (compile "var x: int;\nlet y: int = x;" .empty).1.toOption.map
        (fun _ => ()) = some () by decide +kernel)
    rcases goesOn with given | ⟨error, rejected, _⟩
    · exact given
    · rw [compiled] at rejected
      cases rejected
  · obtain ⟨error, rejected, naming⟩ := rejected_of_measured
      (show (rejection? (compile "var x: int;\nvar x: bool;" .empty).1).map
        CompileError.kind = some .naming by decide +kernel)
    rcases fails with ⟨more, given⟩ | ⟨_, failed, behind⟩
    · rw [given] at rejected
      cases rejected
    · rw [rejected] at failed
      cases failed
      exact ⟨error, rejected, naming, Nat.le_trans (Nat.le_add_right 2 _) behind⟩

end McFront
