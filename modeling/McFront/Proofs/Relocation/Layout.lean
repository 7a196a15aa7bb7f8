import McFront.Proofs.Lexing.Drawing
import McFront.Proofs.Relocation.CompileInStep

set_option autoImplicit false

namespace McFront

def SamePlace (tokens others : List Token) (a b : Location) : Prop :=
  ∃ (index : Nat) (token other : Token), tokens[index]? = some token ∧
    others[index]? = some other ∧ token.location = a ∧ other.location = b

structure Outlook.Paired (related : Token → Token → Prop) (outlook other : Outlook) : Prop where
  tokens : List.Forall₂ related outlook.tokens other.tokens
  last : ∃ finish finish', outlook.last = .ok finish ∧ other.last = .ok finish' ∧
    related finish finish'

variable {related : Token → Token → Prop} {outlook other : Outlook}

theorem Outlook.Paired.head (paired : outlook.Paired related other) :
    ∃ token token', outlook.head = .ok token ∧ other.head = .ok token' ∧ related token token' := by
  have tokens := paired.tokens
  unfold Outlook.head
  generalize outlook.tokens = ahead, other.tokens = ahead' at tokens
  cases tokens with
  | nil => exact paired.last
  | cons first _ => exact ⟨_, _, rfl, rfl, first⟩

theorem Outlook.Paired.tail (paired : outlook.Paired related other) :
    outlook.tail.Paired related other.tail := by
  refine ⟨?_, paired.last⟩
  have tokens := paired.tokens
  unfold Outlook.tail
  generalize outlook.tokens = ahead, other.tokens = ahead' at tokens
  cases tokens with
  | nil => exact .nil
  | cons _ others => exact others

theorem Lexer.next_paired {lexer lexer' : Lexer}
    (paired : lexer.outlook.Paired related lexer'.outlook) :
    Draws related (fun _ _ => False)
      (fun _ left _ left' => left.outlook.Paired related left'.outlook) lexer.next lexer'.next := by
  obtain ⟨token, token', head, head', same⟩ := paired.head
  have left := paired.tail
  obtain ⟨drawn, behind⟩ := lexer.next_outlook
  obtain ⟨drawn', behind'⟩ := lexer'.next_outlook
  rw [← behind, ← behind'] at left
  rw [head] at drawn
  rw [head'] at drawn'
  rw [← Prod.eta lexer.next, ← Prod.eta lexer'.next, drawn, drawn']
  exact .token same left

def Pairing.ofOutlooks (places : Places) : Pairing where
  places
  failed := fun _ _ => False
  streams := fun lexer _ lexer' _ => lexer.outlook.Paired (Token.Alike places) lexer'.outlook
  draws := Lexer.next_paired
  takes := id

theorem outlooks_paired {first second : String} {names others : Interner}
    {tokens tokens' : List Token}
    (lexed : (lex first names).1 = .ok tokens) (lexed' : (lex second others).1 = .ok tokens')
    (paired : List.Forall₂ related tokens tokens') :
    (Cursor.ofText first).outlook.Paired related (Cursor.ofText second).outlook := by
  obtain ⟨finish, isLast, rfl⟩ := lex_accepts_iff.mp lexed
  obtain ⟨finish', isLast', rfl⟩ := lex_accepts_iff.mp lexed'
  rw [← List.forall₂_reverse_iff, List.reverse_concat, List.reverse_concat, List.forall₂_cons,
    List.forall₂_reverse_iff] at paired
  exact ⟨paired.2, finish, finish', isLast, isLast', paired.1⟩

theorem paired_by_kind {kinds : Token.Kind → Token.Kind → Prop} {tokens others : List Token}
    (paired : List.Forall₂ kinds (tokens.map Token.kind) (others.map Token.kind)) :
    List.Forall₂ (fun token other => kinds token.kind other.kind ∧
      SamePlace tokens others token.location other.location) tokens others := by
  rw [List.forall₂_map_left_iff, List.forall₂_map_right_iff, List.forall₂_iff_get] at paired
  obtain ⟨long, paired⟩ := paired
  refine List.forall₂_iff_get.mpr ⟨long, fun index within within' => ?_⟩
  refine ⟨paired index within within', index, _, _, ?_, ?_, rfl, rfl⟩
  · exact List.getElem?_eq_getElem within
  · exact List.getElem?_eq_getElem within'

theorem outlooks_alike {first second : String} {names others : Interner}
    {tokens tokens' : List Token}
    (lexed : (lex first names).1 = .ok tokens) (lexed' : (lex second others).1 = .ok tokens')
    (same : tokens.map Token.kind = tokens'.map Token.kind) :
    (Cursor.ofText first).outlook.Paired (Token.Alike (.both (SamePlace tokens tokens')))
      (Cursor.ofText second).outlook := by
  rw [← List.forall₂_eq_eq_eq] at same
  apply outlooks_paired lexed lexed'
  exact (paired_by_kind same).imp fun _ _ paired => ⟨paired.1, paired.2⟩

theorem layout_keeps_meaning (first second : String) (names others : Interner)
    (tokens tokens' : List Token) (lexed : (lex first names).1 = .ok tokens)
    (lexed' : (lex second others).1 = .ok tokens')
    (same : tokens.map Token.kind = tokens'.map Token.kind) :
    (∃ program program', (compile first names).1 = .ok program ∧
      (compile second others).1 = .ok program' ∧
        program.Alike (.both (SamePlace tokens tokens')) program') ∨
    ∃ error error', (compile first names).1 = .error (.error error) ∧
      (compile second others).1 = .error (.error error') ∧ error.kind = error'.kind ∧
        error.message = error'.message ∧ error.notes = error'.notes ∧ error.hints = error'.hints ∧
          SamePlace tokens tokens' error.location error'.location := by
  have alike := outlooks_alike lexed lexed' same
  have settles : Pairing.Settles (.ofOutlooks (.both (SamePlace tokens tokens')))
      (compile first names).1 (compile second others).1 :=
    compile_in_step alike alike.tokens.length_eq
  generalize (compile first names).1 = outcome, (compile second others).1 = outcome' at settles
  cases settles with
  | ok alike => exact .inl ⟨_, _, rfl, rfl, alike⟩
  | blamed blames =>
      cases blames with
      | raise _ place => exact .inr ⟨_, _, rfl, rfl, rfl, rfl, rfl, rfl, place⟩
  | failed fails => exact fails.elim

theorem spelled_apart_keeps_meaning :
    ∃ tokens tokens' program program',
      (lex "def f(b: bool) -> bool \x7b return not b and b; \x7d" .empty).1 = .ok tokens ∧
      (lex "def f( b :bool)->bool # both\n \x7breturn !b\n&& b;\x7d" .empty).1 = .ok tokens' ∧
      tokens.map Token.kind = tokens'.map Token.kind ∧
      (compile "def f(b: bool) -> bool \x7b return not b and b; \x7d" .empty).1 = .ok program ∧
      (compile "def f( b :bool)->bool # both\n \x7breturn !b\n&& b;\x7d" .empty).1 = .ok program' ∧
      program.Alike (.both (SamePlace tokens tokens')) program' := by
  have kinds : (lex "def f(b: bool) -> bool \x7b return not b and b; \x7d" .empty).1.toOption.map
      (·.map Token.kind) =
        (lex "def f( b :bool)->bool # both\n \x7breturn !b\n&& b;\x7d" .empty).1.toOption.map
          (·.map Token.kind) := by decide +kernel
  obtain ⟨tokens', lexed', isKinds⟩ := exists_of_measured (show
    (lex "def f( b :bool)->bool # both\n \x7breturn !b\n&& b;\x7d" .empty).1.toOption.map
      List.length = some 18 by decide +kernel)
  rw [lexed'] at kinds
  obtain ⟨tokens, lexed, same⟩ := exists_of_measured kinds
  obtain ⟨program, accepted, _⟩ := exists_of_measured (show
    (compile "def f(b: bool) -> bool \x7b return not b and b; \x7d" .empty).1.toOption.map
      (fun _ => ()) = some () by decide +kernel)
  rcases layout_keeps_meaning _ _ .empty .empty tokens tokens' lexed lexed' same with
    ⟨_, program', compiled, compiled', alike⟩ | ⟨_, _, rejected, _⟩
  · exact ⟨tokens, tokens', _, program', lexed, lexed', same, compiled, compiled', alike⟩
  · rw [accepted] at rejected
    cases rejected

end McFront
