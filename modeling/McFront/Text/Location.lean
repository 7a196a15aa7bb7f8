set_option autoImplicit false

namespace McFront

structure Location where
  line : Nat
  column : Nat
deriving DecidableEq

namespace Location

def first : Location := ⟨1, 1⟩

def after (place : Location) (c : Char) : Location :=
  if c = '\n' then ⟨place.line + 1, 1⟩ else ⟨place.line, place.column + 1⟩

def past (place : Location) (passed : List Char) : Location := passed.foldl after place

def Before (a b : Location) : Prop := a.line < b.line ∨ a.line = b.line ∧ a.column < b.column

def text (place : Location) : String := s!"{place.line}:{place.column}"

theorem past_nil (place : Location) : place.past [] = place := rfl

theorem past_cons (place : Location) (c : Char) (passed : List Char) :
    place.past (c :: passed) = (place.after c).past passed := rfl

theorem past_append (place : Location) (a b : List Char) :
    place.past (a ++ b) = (place.past a).past b := by
  simp [past]

end Location
end McFront
