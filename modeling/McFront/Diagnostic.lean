import McFront.CompileError
import McFront.Text.Source

set_option autoImplicit false

namespace McFront

structure Diagnostic where
  headline : String
  offset : Nat
  length : Nat
  label : String
  help : Option String
deriving DecidableEq

-- The label covers one byte, or none at the end of the text.
def CompileError.diagnose (error : CompileError) (source : Source) : Diagnostic :=
  let offset := source.offsetOf error.location
  ⟨error.headline, offset, if offset < source.size then 1 else 0, "here", error.help?⟩

end McFront
