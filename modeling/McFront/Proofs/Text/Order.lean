import McFront.Proofs.Lexing.Outlook
import McFront.Proofs.Text.Label
import Mathlib.Data.List.Infix

set_option autoImplicit false

namespace McFront

theorem byte_size_utf8 (text : List Char) : byteSize text = (String.ofList text).utf8ByteSize := by
  induction text with
  | nil => rfl
  | cons c text ih =>
      rw [byte_size_cons, ih, String.ofList_cons, String.utf8ByteSize_append,
        String.utf8ByteSize_singleton]

theorem byte_size_prefix {shorter longer : List Char} (start : shorter <+: longer) :
    byteSize shorter ≤ byteSize longer := by
  obtain ⟨more, rfl⟩ := start
  rw [byte_size_append]
  exact Nat.le_add_right _ _

namespace Source

variable {source : Source} {offset : Nat}

theorem size_utf8 (source : Source) : source.size = source.text.utf8ByteSize := by
  rw [size, byte_size_utf8, chars, String.ofList_toList]

theorem boundary_iff_valid :
    source.Boundary offset ↔ String.Pos.Raw.IsValid source.text ⟨offset⟩ := by
  rw [String.Pos.Raw.isValid_iff_exists_take_toList]
  constructor
  · intro ⟨passed, rest, split, bytes⟩
    refine ⟨passed.length, ?_⟩
    rw [chars] at split
    rw [split, List.take_left, ← byte_size_utf8, bytes]
  · intro ⟨count, bytes⟩
    refine ⟨source.chars.take count, source.chars.drop count, ?_, ?_⟩
    · rw [List.take_append_drop]
    · rw [byte_size_utf8, chars, ← bytes]

-- The characters before a place: whole lines, and those of its own line in the columns before it.
def upTo (source : Source) (place : Location) : List Char :=
  match place.line with
  | 0 => source.chars
  | above + 1 =>
      ((linesOf source.chars).take above).flatten ++
        ((linesOf source.chars)[above]?.getD []).take (place.column - 1)

theorem offset_up_to (source : Source) (place : Location) :
    source.offsetOf place = byteSize (source.upTo place) := by
  obtain ⟨line, column⟩ := place
  cases line with
  | zero => rfl
  | succ above =>
      simp only [offsetOf, upTo]
      cases found : (linesOf source.chars)[above]? with
      | some line => rw [byte_size_append, Option.getD_some]
      | none =>
          have all := List.take_of_length_le (List.getElem?_eq_none_iff.mp found)
          rw [all, flatten_lines_of, Option.getD_none, List.take_nil, List.append_nil, size]

theorem up_to_line (source : Source) (above column : Nat) :
    source.upTo ⟨above + 1, column⟩ <+: ((linesOf source.chars).take (above + 1)).flatten := by
  rw [List.take_add_one, List.flatten_append, upTo]
  apply (List.prefix_append_right_inj _).mpr
  cases (linesOf source.chars)[above]? with
  | none => simp
  | some line => simpa using List.take_prefix _ line

theorem lines_ordered (source : Source) {count more : Nat} (fewer : count ≤ more) :
    ((linesOf source.chars).take count).flatten <+: ((linesOf source.chars).take more).flatten :=
  (List.take_prefix_take_left fewer).flatten

theorem lines_prefix (source : Source) (count : Nat) :
    ((linesOf source.chars).take count).flatten <+: source.chars := by
  have start := (List.take_prefix count (linesOf source.chars)).flatten
  rw [flatten_lines_of] at start
  exact start

theorem up_to_prefix (source : Source) (place : Location) : source.upTo place <+: source.chars := by
  obtain ⟨line, column⟩ := place
  cases line with
  | zero => exact List.prefix_refl _
  | succ above => exact (source.up_to_line above column).trans (source.lines_prefix (above + 1))

theorem up_to_ordered (source : Source) {a b : Location} (counted : 1 ≤ a.line)
    (ordered : a.NotAfter b) : source.upTo a <+: source.upTo b := by
  obtain ⟨line, column⟩ := a
  obtain ⟨lower, further⟩ := b
  obtain ⟨above, rfl⟩ : ∃ above, line = above + 1 := Nat.exists_eq_add_of_le' counted
  rcases ordered with same | higher | ⟨sameLine, left⟩
  · rw [same]
  · obtain ⟨below, rfl⟩ : ∃ below, lower = below + 1 :=
      Nat.exists_eq_add_of_le' (Nat.one_le_of_lt higher)
    have whole := source.lines_ordered (Nat.le_of_lt_succ higher)
    exact ((source.up_to_line above column).trans whole).trans (List.prefix_append _ _)
  · simp only at sameLine left
    subst sameLine
    have columns : column - 1 ≤ further - 1 := Nat.sub_le_sub_right (Nat.le_of_lt left) 1
    exact (List.prefix_append_right_inj _).mpr (List.take_prefix_take_left columns)

theorem offset_ordered (source : Source) {a b : Location} (counted : 1 ≤ a.line)
    (ordered : a.NotAfter b) : source.offsetOf a ≤ source.offsetOf b := by
  rw [offset_up_to, offset_up_to]
  exact byte_size_prefix (source.up_to_ordered counted ordered)

theorem offset_boundary (source : Source) (place : Location) :
    source.Boundary (source.offsetOf place) := by
  obtain ⟨rest, split⟩ := source.up_to_prefix place
  exact ⟨source.upTo place, rest, split.symm, (source.offset_up_to place).symm⟩

theorem offset_le_size (source : Source) (place : Location) :
    source.offsetOf place ≤ source.size := by
  rw [offset_up_to]
  exact byte_size_prefix (source.up_to_prefix place)

end Source

theorem CompileError.label_le_size (error : CompileError) (source : Source) :
    (error.diagnose source).offset + (error.diagnose source).length ≤ source.size := by
  have found := source.offset_le_size error.location
  simp only [diagnose]
  by_cases inside : source.offsetOf error.location < source.size
  · rw [if_pos inside]
    exact inside
  · rw [if_neg inside]
    exact found

theorem offsets_in_order (source : Source) :
    (∀ a b : Location, 1 ≤ a.line → a.NotAfter b →
      source.offsetOf a ≤ source.offsetOf b ∧
        source.offsetOf b ≤ source.text.utf8ByteSize) ∧
    (∀ place, String.Pos.Raw.IsValid source.text ⟨source.offsetOf place⟩) ∧
    ∀ error : CompileError,
      (error.diagnose source).offset + (error.diagnose source).length ≤
        source.text.utf8ByteSize := by
  rw [← source.size_utf8]
  refine ⟨?_, ?_, ?_⟩
  · intro a b counted ordered
    exact ⟨source.offset_ordered counted ordered, source.offset_le_size b⟩
  · intro place
    exact Source.boundary_iff_valid.mp (source.offset_boundary place)
  · intro error
    exact error.label_le_size source

-- A column far past the end of a line is found no further than column zero of the next line.
theorem overrun_before_next_line :
    1 ≤ (Location.mk 1 9).line ∧ (Location.mk 1 9).NotAfter ⟨2, 0⟩ ∧
      Source.offsetOf ⟨"", "é\nab"⟩ ⟨1, 9⟩ ≤ Source.offsetOf ⟨"", "é\nab"⟩ ⟨2, 0⟩ ∧
      Source.offsetOf ⟨"", "é\nab"⟩ ⟨1, 9⟩ = 3 ∧ Source.offsetOf ⟨"", "é\nab"⟩ ⟨2, 0⟩ = 3 ∧
      "é\nab".utf8ByteSize = 5 := by
  have ordered : (Location.mk 1 9).NotAfter ⟨2, 0⟩ := .inr (.inl (by decide))
  have offsets := (offsets_in_order ⟨"", "é\nab"⟩).1 ⟨1, 9⟩ ⟨2, 0⟩ (by decide) ordered
  exact ⟨by decide, ordered, offsets.1, by decide, by decide, by decide⟩

end McFront
