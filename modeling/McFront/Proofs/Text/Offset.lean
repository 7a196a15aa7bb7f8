import McFront.Text.Source

set_option autoImplicit false

namespace McFront

theorem byte_size_cons (c : Char) (text : List Char) :
    byteSize (c :: text) = c.utf8Size + byteSize text := rfl

namespace Location

structure Counted (place : Location) : Prop where
  line : 1 ≤ place.line
  column : 1 ≤ place.column

theorem Counted.after {place : Location} (counted : place.Counted) (c : Char) :
    (place.after c).Counted := by
  by_cases feed : c = '\n'
  · rw [Location.after, if_pos feed]
    exact ⟨Nat.le_add_left 1 _, Nat.le_refl 1⟩
  · rw [Location.after, if_neg feed]
    exact ⟨counted.line, Nat.le_add_left 1 _⟩

theorem Counted.past {place : Location} (counted : place.Counted) (passed : List Char) :
    (place.past passed).Counted := by
  induction passed generalizing place with
  | nil => exact counted
  | cons c passed ih => exact ih (counted.after c)

def behind (c : Char) (place : Location) : Location :=
  if c = '\n' then ⟨place.line + 1, place.column⟩
  else if place.line = 1 then ⟨1, place.column + 1⟩ else place

theorem after_behind {place : Location} (counted : place.Counted) (c d : Char) :
    (place.behind c).after d = (place.after d).behind c := by
  have line := counted.line
  by_cases feed : c = '\n' <;> by_cases feedAfter : d = '\n' <;> by_cases isFirst : place.line = 1 <;>
    simp [behind, after, feed, feedAfter, isFirst]
  omega

theorem past_behind {place : Location} (counted : place.Counted) (c : Char) (passed : List Char) :
    (place.behind c).past passed = (place.past passed).behind c := by
  induction passed generalizing place with
  | nil => rfl
  | cons d passed ih => rw [past_cons, past_cons, after_behind counted, ih (counted.after d)]

theorem first_counted : first.Counted := ⟨Nat.le_refl 1, Nat.le_refl 1⟩

theorem first_past_cons (c : Char) (passed : List Char) :
    first.past (c :: passed) = (first.past passed).behind c := by
  have start : first.after c = first.behind c := by
    by_cases feed : c = '\n' <;> simp [after, behind, first, feed]
  rw [past_cons, start, past_behind first_counted]

end Location

namespace Source

theorem offset_cons {longer source : Source} {c : Char} (more : longer.chars = c :: source.chars)
    {place : Location} (counted : place.Counted) :
    longer.offsetOf (place.behind c) = c.utf8Size + source.offsetOf place := by
  obtain ⟨line, column⟩ := place
  obtain ⟨line, rfl⟩ : ∃ before, line = before + 1 := Nat.exists_eq_add_of_le' counted.line
  obtain ⟨column, rfl⟩ : ∃ left, column = left + 1 := Nat.exists_eq_add_of_le' counted.column
  have whole := flatten_lines_of source.chars
  by_cases feed : c = '\n'
  · simp only [Location.behind, if_pos feed, offsetOf, more, linesOf, size]
    rw [List.getElem?_cons_succ, List.take_succ_cons, List.flatten_cons]
    cases (linesOf source.chars)[line]? with
    | none => exact byte_size_cons c source.chars
    | some found =>
        simp only [List.singleton_append, byte_size_cons]
        omega
  · cases isLines : linesOf source.chars with
    | nil =>
        rw [isLines, List.flatten_nil] at whole
        cases line <;> simp [Location.behind, feed, offsetOf, more, linesOf, size, ← whole, byteSize]
    | cons start lines =>
        simp only [Location.behind, if_neg feed, offsetOf, more, linesOf, isLines, size]
        cases line with
        | zero => simp [byteSize]
        | succ line =>
            simp only [Nat.add_eq_right, Nat.add_one_ne_zero, if_false, List.getElem?_cons_succ,
              List.take_succ_cons, List.flatten_cons]
            cases lines[line]? with
            | none => exact byte_size_cons c source.chars
            | some found =>
                simp only [List.cons_append, byte_size_cons, Nat.add_assoc]

theorem chars_of_list (path : String) (text : List Char) :
    (Source.mk path (String.ofList text)).chars = text := String.toList_ofList

theorem offset_rest {source : Source} {c : Char} {rest : List Char}
    (split : source.chars = c :: rest) {place : Location} (counted : place.Counted) :
    source.offsetOf (place.behind c) =
      c.utf8Size + (Source.mk source.path (String.ofList rest)).offsetOf place := by
  have more : source.chars = c :: (Source.mk source.path (String.ofList rest)).chars := by
    rw [split, chars_of_list]
  exact offset_cons more counted

theorem offset_past {source : Source} {passed rest : List Char}
    (split : source.chars = passed ++ rest) :
    source.offsetOf (Location.first.past passed) = byteSize passed := by
  induction passed generalizing source with
  | nil =>
      have whole := flatten_lines_of source.chars
      cases isLines : linesOf source.chars with
      | nil =>
          rw [isLines, List.flatten_nil] at whole
          simp [offsetOf, Location.past_nil, Location.first, size, ← whole, linesOf, byteSize]
      | cons start lines =>
          simp [offsetOf, Location.past_nil, Location.first, isLines, byteSize]
  | cons c passed ih =>
      rw [List.cons_append] at split
      rw [Location.first_past_cons, offset_rest split (Location.first_counted.past passed),
        ih (chars_of_list _ _), byte_size_cons]

end Source
end McFront
