import McFront.Proofs.Relocation.Layout
import McFront.Proofs.Relocation.Respelling

set_option autoImplicit false

namespace McFront

def identifiers (tokens : List Token) : Set String :=
  {name | .identifier name ∈ tokens.map Token.kind}

def Accord.ofOutlooks (view : View) : Accord where
  view
  failed := fun _ _ => False
  streams := fun lexer _ lexer' _ => lexer.outlook.Paired (Token.Matches view) lexer'.outlook
  draws := Lexer.next_paired
  takes := id

theorem renamed_kinds_match {view : View} {kinds : List Token.Kind}
    (known : ∀ name, .identifier name ∈ kinds → name ∈ view.known) :
    List.Forall₂ (Token.Kind.Matches view) kinds (kinds.map (Token.Kind.renamed view.rename)) := by
  rw [List.forall₂_map_right_iff, List.forall₂_same]
  intro kind member
  cases kind with
  | identifier name => exact .name (known name member)
  | _ => exact .other (by simp)

-- Where tokens correspond that have the same index, and the names of the first text.
def View.ofTokens (tokens others : List Token) (rename : String → String)
    (distinct : Set.InjOn rename (identifiers tokens)) : View where
  places := .both (SamePlace tokens others)
  rename
  known := identifiers tokens
  distinct

theorem renamed_tokens_settle {first second : String} {names others : Interner}
    {tokens tokens' : List Token} {rename : String → String}
    (lexed : (lex first names).1 = .ok tokens) (lexed' : (lex second others).1 = .ok tokens')
    (renamed : tokens'.map Token.kind = tokens.map (·.kind.renamed rename))
    (distinct : Set.InjOn rename (identifiers tokens)) :
    (Accord.ofOutlooks (.ofTokens tokens tokens' rename distinct)).Settles
      (compile first names).1 (compile second others).1 := by
  have kinds : List.Forall₂ (Token.Kind.Matches (.ofTokens tokens tokens' rename distinct))
      (tokens.map Token.kind) (tokens'.map Token.kind) := by
    have split : tokens'.map Token.kind =
        (tokens.map Token.kind).map (Token.Kind.renamed rename) := by
      rw [renamed, List.map_map]
      rfl
    rw [split]
    exact renamed_kinds_match fun _ => id
  have paired := outlooks_paired lexed lexed'
    ((paired_by_kind kinds).imp fun _ _ paired => (⟨paired.1, paired.2⟩ :
      Token.Matches (.ofTokens tokens tokens' rename distinct) _ _))
  exact compile_in_accord paired paired.tokens.length_eq

theorem names_matter_by_equality (text : String) (names others : Interner) (tokens : List Token)
    (rename : String → Identifier) (lexed : (lex text names).1 = .ok tokens)
    (distinct : Set.InjOn (Identifier.name ∘ rename) (identifiers tokens))
    (parted : Lexeme.parted rename text.toList) :
    ∃ tokens', (lex (respelled rename text) others).1 = .ok tokens' ∧
      tokens'.map Token.kind = tokens.map (·.kind.renamed (Identifier.name ∘ rename)) ∧
      ((∃ program program', (compile text names).1 = .ok program ∧
        (compile (respelled rename text) others).1 = .ok program' ∧
          (program.renamed (Identifier.name ∘ rename)).Alike (.both (SamePlace tokens tokens'))
            program') ∨
      ∃ error error', (compile text names).1 = .error (.error error) ∧
        (compile (respelled rename text) others).1 = .error (.error error') ∧
          error.kind = error'.kind ∧
            SamePlace tokens tokens' error.location error'.location) := by
  obtain ⟨tokens', lexed', renamed⟩ := lex_respelled lexed parted others
  refine ⟨tokens', lexed', renamed, ?_⟩
  have settles := renamed_tokens_settle lexed lexed' renamed distinct
  generalize (compile text names).1 = outcome, (compile (respelled rename text) others).1 = outcome'
    at settles
  cases settles with
  | ok matching => exact .inl ⟨_, _, rfl, rfl, matching.alike⟩
  | blamed blames =>
      cases blames with
      | raise _ same place => exact .inr ⟨_, _, rfl, rfl, same.kind, place⟩
  | failed fails => exact fails.elim

def Identifier.choose (old : String) (new other : Identifier) (name : String) : Identifier :=
  if name = old then new else other

theorem Identifier.choose_distinct {old rest : String} {new other : Identifier} {names : Set String}
    (differ : new.name ≠ other.name) (two : ∀ name ∈ names, name = old ∨ name = rest) :
    Set.InjOn (Identifier.name ∘ choose old new other) names := by
  intro a inside b inside' same
  simp only [Function.comp_apply, choose] at same
  by_cases first : a = old <;> by_cases second : b = old
  · rw [first, second]
  · rw [if_pos first, if_neg second] at same
    exact absurd same differ
  · rw [if_neg first, if_pos second] at same
    exact absurd same.symm differ
  · rw [(two a inside).resolve_left first, (two b inside').resolve_left second]

def swapped : String → Identifier :=
  .choose "n" ⟨"twice", by decide, by decide⟩ ⟨"n", by decide, by decide⟩

theorem swapped_names_keep_meaning :
    ∃ tokens tokens' program program',
      (lex "def twice(n: int) -> int \x7b return 0x2 * n; # n\n\x7d" .empty).1 = .ok tokens ∧
      (lex "def n(twice: int) -> int \x7b return 0x2 * twice; # n\n\x7d" .empty).1 =
        .ok tokens' ∧
      (compile "def twice(n: int) -> int \x7b return 0x2 * n; # n\n\x7d" .empty).1 =
        .ok program ∧
      (compile "def n(twice: int) -> int \x7b return 0x2 * twice; # n\n\x7d" .empty).1 =
        .ok program' ∧
      (program.renamed (Identifier.name ∘ swapped)).Alike (.both (SamePlace tokens tokens'))
        program' := by
  obtain ⟨tokens, lexed, kinds⟩ := exists_of_measured (show
    (lex "def twice(n: int) -> int \x7b return 0x2 * n; # n\n\x7d" .empty).1.toOption.map
      (·.map Token.kind) = some
        [.keyword .defWord, .identifier "twice", .punctuation .leftParen, .identifier "n",
          .punctuation .colon, .scalar .int, .punctuation .rightParen, .punctuation .arrow,
          .scalar .int, .punctuation .leftBrace, .keyword .returnWord, .integer .hexadecimal 2,
          .operator .star, .identifier "n", .punctuation .semicolon, .punctuation .rightBrace,
          .endOfInput] by decide +kernel)
  have two : ∀ name ∈ identifiers tokens, name = "n" ∨ name = "twice" := by
    intro name inside
    rw [identifiers, Set.mem_ofPred_eq, kinds] at inside
    simpa [or_comm] using inside
  have spelled : respelled swapped "def twice(n: int) -> int \x7b return 0x2 * n; # n\n\x7d" =
      "def n(twice: int) -> int \x7b return 0x2 * twice; # n\n\x7d" := by decide +kernel
  obtain ⟨tokens', lexed', _, outcome⟩ := names_matter_by_equality _ .empty .empty tokens swapped
    lexed (Identifier.choose_distinct (by decide) two) (by decide +kernel)
  rw [spelled] at lexed' outcome
  obtain ⟨program, accepted, _⟩ := exists_of_measured (show
    (compile "def twice(n: int) -> int \x7b return 0x2 * n; # n\n\x7d" .empty).1.toOption.map
      (fun _ => ()) = some () by decide +kernel)
  rcases outcome with ⟨_, program', compiled, compiled', alike⟩ | ⟨_, _, rejected, _⟩
  · exact ⟨tokens, tokens', _, program', lexed, lexed', compiled, compiled', alike⟩
  · rw [accepted] at rejected
    cases rejected

def runningOn : String → Identifier :=
  .choose "abc" ⟨"x1", by decide, by decide⟩ ⟨"y", by decide, by decide⟩

-- A zero and the new name behind it are one integer, so the text that was faulty is a program.
theorem zero_goes_on_with_name :
    ∃ tokens error program, (lex "var y: int = 0abc;" .empty).1 = .ok tokens ∧
      Set.InjOn (Identifier.name ∘ runningOn) (identifiers tokens) ∧
      (compile "var y: int = 0abc;" .empty).1 = .error (.error error) ∧
      (compile (respelled runningOn "var y: int = 0abc;") .empty).1 = .ok program := by
  obtain ⟨tokens, lexed, kinds⟩ := exists_of_measured (show
    (lex "var y: int = 0abc;" .empty).1.toOption.map (·.map Token.kind) = some
      [.keyword .varWord, .identifier "y", .punctuation .colon, .scalar .int, .operator .becomes,
        .integer .decimal 0, .identifier "abc", .punctuation .semicolon, .endOfInput]
    by decide +kernel)
  have two : ∀ name ∈ identifiers tokens, name = "abc" ∨ name = "y" := by
    intro name inside
    rw [identifiers, Set.mem_ofPred_eq, kinds] at inside
    simpa [or_comm] using inside
  have spelled : respelled runningOn "var y: int = 0abc;" = "var y: int = 0x1;" := by
    decide +kernel
  obtain ⟨error, rejected, _⟩ := rejected_of_measured (show
    (rejection? (compile "var y: int = 0abc;" .empty).1).map CompileError.kind =
      some .structural by decide +kernel)
  obtain ⟨program, accepted, _⟩ := exists_of_measured (show
    (compile "var y: int = 0x1;" .empty).1.toOption.map (fun _ => ()) = some () by decide +kernel)
  rw [spelled]
  exact ⟨tokens, error, program, lexed, Identifier.choose_distinct (by decide) two, rejected,
    accepted⟩

end McFront
