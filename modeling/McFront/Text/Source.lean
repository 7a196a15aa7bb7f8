import McFront.Text.Location

set_option autoImplicit false

namespace McFront

def byteSize (text : List Char) : Nat := text.foldr (fun c bytes => c.utf8Size + bytes) 0

def linesOf : List Char → List (List Char)
  | [] => []
  | c :: rest =>
      if c = '\n' then [c] :: linesOf rest
      else match linesOf rest with
        | [] => [[c]]
        | line :: lines => (c :: line) :: lines

structure Source where
  path : String
  text : String

namespace Source

def chars (source : Source) : List Char := source.text.toList

def size (source : Source) : Nat := byteSize source.chars

-- Columns past the end of a line are taken for its end, lines past the end of the text for the
-- end of the text.
def offsetOf (source : Source) (place : Location) : Nat :=
  match place.line with
  | 0 => source.size
  | before + 1 =>
      match (linesOf source.chars)[before]? with
      | some line =>
          byteSize ((linesOf source.chars).take before).flatten + byteSize (line.take (place.column - 1))
      | none => source.size

end Source

theorem flatten_lines_of (text : List Char) : (linesOf text).flatten = text := by
  induction text with
  | nil => rfl
  | cons c rest ih =>
      unfold linesOf
      by_cases feed : c = '\n'
      · simp [feed, ih]
      · simp only [if_neg feed]
        cases lines : linesOf rest <;> simp_all

theorem byte_size_append (a b : List Char) : byteSize (a ++ b) = byteSize a + byteSize b := by
  induction a with
  | nil => simp [byteSize]
  | cons c a ih =>
      simp only [byteSize, List.cons_append, List.foldr_cons] at *
      omega

end McFront
