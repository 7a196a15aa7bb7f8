import McFront.Interner
import McFront.Token.Lexeme

set_option autoImplicit false

namespace McFront

structure Cursor where
  rest : List Char
  location : Location

namespace Cursor

def ofText (text : String) : Cursor := ⟨text.toList, .first⟩

def next (cursor : Cursor) : Checked Token × Cursor :=
  let (passed, rest) := Lexeme.gap false cursor.rest
  let start := cursor.location.past passed
  match Lexeme.head rest with
  | .absent => (.ok ⟨.endOfInput, start⟩, ⟨[], start⟩)
  | .token kind spelling rest => (.ok ⟨kind, start⟩, ⟨rest, start.past spelling⟩)
  | .fault complaint lead read rest =>
      (.error (complaint.raise (start.past lead)), ⟨rest, start.past read⟩)

end Cursor

-- `finished` is set once `Lexer.iterate` has come to the end or to an error.
structure Lexer where
  cursor : Cursor
  interner : Interner
  failure : Option CompileError
  finished : Bool

namespace Lexer

def ofText (text : String) (interner : Interner) : Lexer :=
  ⟨.ofText text, interner.reserving, none, false⟩

def location (lexer : Lexer) : Location := lexer.cursor.location

def next (lexer : Lexer) : Checked Token × Lexer :=
  match lexer.failure with
  | some error => (.error error, lexer)
  | none =>
      match lexer.cursor.next with
      | (.ok token, cursor) =>
          (.ok token,
            { lexer with cursor, interner := lexer.interner.insertAll token.kind.symbol?.toList })
      | (.error error, cursor) => (.error error, { lexer with cursor, failure := some error })

def iterate (lexer : Lexer) : Option (Checked Token) × Lexer :=
  if lexer.finished then (none, lexer)
  else
    match lexer.next with
    | (.ok token, lexer) =>
        if token.isEnd then (none, { lexer with finished := true }) else (some (.ok token), lexer)
    | (.error error, lexer) => (some (.error error), { lexer with finished := true })

def drain : Nat → Lexer → Checked (List Token) × Lexer
  | 0, lexer => (.ok [], lexer)
  | budget + 1, lexer =>
      match lexer.next with
      | (.error error, lexer) => (.error error, lexer)
      | (.ok token, lexer) =>
          if token.isEnd then (.ok [token], lexer)
          else
            let (tokens, lexer) := drain budget lexer
            (tokens.map (token :: ·), lexer)

-- All tokens up to the end of the input. Each takes a character or more, so the length of the
-- text bounds their number.
def tokens (lexer : Lexer) : Checked (List Token) × Lexer :=
  lexer.drain (lexer.cursor.rest.length + 1)

end Lexer

def lex (text : String) (interner : Interner) : Checked (List Token) × Interner :=
  let (tokens, lexer) := (Lexer.ofText text interner).tokens
  (tokens, lexer.interner)

end McFront
