import McFront.CompileError
import McFront.Text.Quoted

set_option autoImplicit false

namespace McFront

inductive Complaint where
  | unexpectedCharacter (c : Char)
  | unterminatedLiteral (what : String)
  | multiLineLiteral (what : String)
  | emptyCharacter
  | overlongCharacter
  | invalidEscape (letter : Char)
  | unterminatedEscape
  | missingDigits (lead : String)
  | integerOutOfRange (literal : String)
  | expected (what found : String)
  | nestingTooDeep (limit : Nat)
  | localFunction
  | missingInitializer (kind name : String)
  | outsideLoop (word : String)
  | outsideFunction
  | missingReturnValue (wanted : String)
  | unknownSymbol (name : String)
  | redeclaration (name : String)
  | categoryMismatch (wanted found : String)
  | notAssignable (found : String)
  | typeMismatch (wanted found : String)
  | argumentCount (wanted found : Nat)
  | indexCount (found : Nat)
  | noCommonType (left right : String)
  | cannotConvert (source target : String)

namespace Complaint

def kind : Complaint → ErrorKind
  | unexpectedCharacter _ | unterminatedLiteral _ | multiLineLiteral _ | emptyCharacter
  | overlongCharacter | invalidEscape _ | unterminatedEscape | missingDigits _
  | integerOutOfRange _ => .lexical
  | expected .. | nestingTooDeep _ | localFunction | missingInitializer .. | outsideLoop _
  | outsideFunction => .structural
  | unknownSymbol _ | redeclaration _ => .naming
  | missingReturnValue _ | categoryMismatch .. | notAssignable _ | typeMismatch ..
  | argumentCount .. | indexCount _ | noCommonType .. | cannotConvert .. => .typing

def message : Complaint → String
  | unexpectedCharacter c => s!"invalid character {quoted c}"
  | unterminatedLiteral what => s!"unterminated {what} literal"
  | multiLineLiteral what => s!"invalid multi-line {what} literal"
  | emptyCharacter => "empty character literal"
  | overlongCharacter => "character literal holds more than one character"
  | invalidEscape letter => s!"invalid escape sequence '\\{letter}'"
  | unterminatedEscape => "unterminated escape sequence"
  | missingDigits lead => s!"expected digits after '{lead}'"
  | integerOutOfRange literal => s!"integer literal '{literal}' is out of range"
  | expected what found => s!"expected {what}, found {found}"
  | nestingTooDeep limit => s!"nesting too deep: more than {limit} levels"
  | localFunction => "function definitions are only allowed at the top level"
  | missingInitializer kind name => s!"{kind} '{name}' requires an initializer"
  | outsideLoop word => s!"'{word}' outside of a loop"
  | outsideFunction => "'return' outside of a function"
  | missingReturnValue wanted => s!"missing return value: expected '{wanted}'"
  | unknownSymbol name => s!"no matching declaration for '{name}'"
  | redeclaration name => s!"redeclaration of '{name}'"
  | categoryMismatch wanted found => s!"expected {wanted}, found '{found}'"
  | notAssignable found => s!"expected an assignable reference, found '{found}'"
  | typeMismatch wanted found => s!"type mismatch: expected '{wanted}', found '{found}'"
  | argumentCount wanted found =>
      let amount := if wanted < found then "many" else "few"
      s!"too {amount} arguments: expected {wanted}, found {found}"
  | indexCount found => s!"expected exactly one index, found {found}"
  | noCommonType left right => s!"no common type for '{left}' and '{right}'"
  | cannotConvert source target => s!"cannot convert '{source}' to '{target}'"

def notes : Complaint → List String
  | invalidEscape _ => ["valid escapes are \\' \\\" \\\\ \\a \\b \\f \\n \\r \\t \\v"]
  | redeclaration _ => ["shadowing is only allowed in a nested scope"]
  | notAssignable _ => ["only variables, parameters, and dereferenced pointers can be assigned"]
  | _ => []

def hints : Complaint → List String
  | unterminatedLiteral _ => ["add the closing quote before the end of the line"]
  | multiLineLiteral _ => ["use the `\\n` escape sequence for a newline"]
  | nestingTooDeep _ => ["split the construct into smaller declarations"]
  | unknownSymbol _ => ["declarations must appear before their first use"]
  | typeMismatch .. => ["use an explicit `as` conversion"]
  | _ => []

def raise (complaint : Complaint) (place : Location) : CompileError :=
  ⟨complaint.kind, complaint.message, place, complaint.notes, complaint.hints⟩

end Complaint
end McFront
