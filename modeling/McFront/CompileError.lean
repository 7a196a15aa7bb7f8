import McFront.Text.Location

set_option autoImplicit false

namespace McFront

inductive ErrorKind where
  | lexical | structural | typing | naming
deriving DecidableEq

def ErrorKind.name : ErrorKind → String
  | lexical => "lexical error"
  | structural => "syntax error"
  | typing => "type error"
  | naming => "name error"

structure CompileError where
  kind : ErrorKind
  message : String
  location : Location
  notes : List String
  hints : List String
deriving DecidableEq

namespace CompileError

def headline (error : CompileError) : String := s!"{error.kind.name}: {error.message}"

def help? (error : CompileError) : Option String :=
  match error.notes.map ("note: " ++ ·) ++ error.hints.map ("hint: " ++ ·) with
  | [] => none
  | lines => some ("\n".intercalate lines)

end CompileError

abbrev Checked := Except CompileError

end McFront
