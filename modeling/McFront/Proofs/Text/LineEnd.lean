import McFront.Proofs.Lexing.Continuation
import McFront.Proofs.Text.Offset

set_option autoImplicit false

namespace McFront

theorem lines_head (content rest : List Char) (unbroken : '\n' ∉ content)
    (ended : ∀ c ∈ rest.head?, c = '\n') :
    (linesOf (content ++ rest)).head?.getD [] = content ++ rest.take 1 := by
  induction content with
  | nil =>
      cases rest with
      | nil => rfl
      | cons c rest =>
          have feed : c = '\n' := ended c rfl
          simp [linesOf, feed]
  | cons c content ih =>
      rw [List.mem_cons, not_or] at unbroken
      have first := ih unbroken.2
      rw [List.cons_append, List.cons_append, linesOf, if_neg (Ne.symm unbroken.1), ← first]
      cases linesOf (content ++ rest) <;> rfl

namespace Location

theorem past_unbroken (place : Location) (passed : List Char) (unbroken : '\n' ∉ passed) :
    place.past passed = ⟨place.line, place.column + passed.length⟩ := by
  induction passed generalizing place with
  | nil => rfl
  | cons c passed ih =>
      rw [List.mem_cons, not_or] at unbroken
      rw [past_cons, after, if_neg (Ne.symm unbroken.1), ih _ unbroken.2, List.length_cons,
        Nat.add_assoc, Nat.add_comm 1]

theorem starts_behind {place : Location} (counted : place.Counted) {c : Char} {number : Nat}
    (starts : place.behind c = ⟨number, 1⟩) :
    place = ⟨place.line, 1⟩ ∧
      ∀ column, (Location.mk place.line column).behind c = ⟨number, column⟩ := by
  obtain ⟨line, column⟩ := place
  have placed := counted.column
  by_cases feed : c = '\n'
  · simp only [behind, if_pos feed, mk.injEq] at starts ⊢
    exact ⟨⟨trivial, starts.2⟩, fun _ => ⟨starts.1, trivial⟩⟩
  · by_cases isFirst : line = 1
    · -- The character stands on the line, so the line starts before it.
      simp only [behind, if_neg feed, if_pos isFirst, mk.injEq] at starts placed
      omega
    · simp only [behind, if_neg feed, if_neg isFirst, mk.injEq] at starts ⊢
      exact ⟨⟨trivial, starts.2⟩, fun _ => ⟨starts.1, trivial⟩⟩

end Location

namespace Source

theorem offset_first_line (source : Source) (column : Nat) :
    source.offsetOf ⟨1, column⟩ =
      byteSize (((linesOf source.chars).head?.getD []).take (column - 1)) := by
  have whole := flatten_lines_of source.chars
  cases lines : linesOf source.chars with
  | nil =>
      rw [lines, List.flatten_nil] at whole
      simp [offsetOf, size, whole.symm, linesOf, byteSize]
  | cons line others => simp [offsetOf, lines, byteSize]

theorem offset_line {source : Source} {before text : List Char} {number column : Nat}
    (split : source.chars = before ++ text) (starts : Location.first.past before = ⟨number, 1⟩)
    (counted : 1 ≤ column) :
    source.offsetOf ⟨number, column⟩ =
      byteSize before + byteSize (((linesOf text).head?.getD []).take (column - 1)) := by
  induction before generalizing source number with
  | nil =>
      have numbered : 1 = number := congrArg Location.line starts
      rw [← numbered, offset_first_line, split]
      simp [byteSize]
  | cons c before ih =>
      rw [List.cons_append] at split
      rw [Location.first_past_cons] at starts
      have first := Location.first_counted.past before
      obtain ⟨start, behind⟩ := Location.starts_behind first starts
      have placed : (Location.mk (Location.first.past before).line column).Counted :=
        ⟨first.line, counted⟩
      rw [← behind column, offset_rest split placed, ih (chars_of_list _ _) start, byte_size_cons,
        Nat.add_assoc]

-- A line of a text: its characters, what stands before them, and what stands behind them, which
-- starts with the line feed that ends the line unless the text ends with it.
structure Line (source : Source) (number : Nat) where
  before : List Char
  content : List Char
  rest : List Char
  split : source.chars = before ++ content ++ rest
  starts : Location.first.past before = ⟨number, 1⟩
  unbroken : '\n' ∉ content
  ended : ∀ c ∈ rest.head?, c = '\n'

namespace Line

variable {source : Source} {number column : Nat} {before text more : List Char}

def finish (line : source.Line number) : Nat := byteSize (line.before ++ line.content)

def starting (split : source.chars = before ++ text)
    (starts : Location.first.past before = ⟨number, 1⟩) : source.Line number where
  before := before
  content := text.takeWhile (· != '\n')
  rest := text.dropWhile (· != '\n')
  split := by rw [List.append_assoc, List.takeWhile_append_dropWhile, split]
  starts := starts
  unbroken := fun inside => by
    have part := List.all_eq_true.mp List.all_takeWhile _ inside
    simp at part
  ended := fun c head => by
    have outside := List.head?_dropWhile_not (· != '\n') text
    rw [Option.mem_def.mp head] at outside
    simpa using outside

theorem past_feed (line : source.Line number) :
    Location.first.past (line.before ++ line.content ++ ['\n']) = ⟨number + 1, 1⟩ := by
  rw [Location.past_append, Location.past_append, line.starts,
    Location.past_unbroken _ _ line.unbroken]
  rfl

theorem split_feed (line : source.Line number) (feed : line.rest = '\n' :: more) :
    source.chars = line.before ++ line.content ++ ['\n'] ++ more := by
  rw [line.split, feed, List.append_assoc _ ['\n'], List.singleton_append]

def next (line : source.Line number) (feed : line.rest = '\n' :: more) :
    source.Line (number + 1) := starting (line.split_feed feed) line.past_feed

theorem number_eq (line : source.Line number) : number = 1 + line.before.count '\n' := by
  have numbered := Location.past_line Location.first line.before
  rw [line.starts] at numbered
  exact numbered

theorem number_bounds (line : source.Line number) :
    1 ≤ number ∧ number ≤ source.chars.count '\n' + 1 := by
  have numbered := line.number_eq
  rw [line.split, List.count_append, List.count_append]
  omega

theorem feed_of_rest (line : source.Line number) (further : line.rest ≠ []) :
    ∃ others, line.rest = '\n' :: others := by
  cases rest : line.rest with
  | nil => exact absurd rest further
  | cons c others =>
      have feed : c = '\n' := line.ended c (by rw [rest]; rfl)
      exact ⟨others, by rw [feed]⟩

theorem rest_of_number (line : source.Line number) (more : number ≤ source.chars.count '\n') :
    line.rest ≠ [] := by
  intro last
  have numbered := line.number_eq
  rw [line.split, last, List.count_append, List.count_append,
    List.count_eq_zero.mpr line.unbroken, List.count_nil] at more
  omega

theorem of_number (positive : 1 ≤ number) (present : number ≤ source.chars.count '\n' + 1) :
    Nonempty (source.Line number) := by
  induction positive with
  | refl => exact ⟨starting (List.nil_append source.chars).symm (Location.past_nil _)⟩
  | step positive ih =>
      obtain ⟨line⟩ := ih (by omega)
      obtain ⟨others, feed⟩ := line.feed_of_rest (line.rest_of_number (by omega))
      exact ⟨line.next feed⟩

theorem offset_column (line : source.Line number) (counted : 1 ≤ column) :
    source.offsetOf ⟨number, column⟩ =
      byteSize line.before + byteSize ((line.content ++ line.rest.take 1).take (column - 1)) := by
  have split : source.chars = line.before ++ (line.content ++ line.rest) := by
    rw [line.split, List.append_assoc]
  rw [offset_line split line.starts counted, lines_head _ _ line.unbroken line.ended]

theorem offset_beyond (line : source.Line number) (beyond : line.content.length < column) :
    source.offsetOf ⟨number, column⟩ =
      line.finish + byteSize ((line.rest.take 1).take (column - 1 - line.content.length)) := by
  have whole : line.content.take (column - 1) = line.content :=
    List.take_of_length_le (by omega)
  rw [line.offset_column (by omega), List.take_append, whole, finish, byte_size_append,
    byte_size_append, Nat.add_assoc]

theorem finish_last (line : source.Line number) (last : line.rest = []) :
    line.finish = source.size := by
  rw [finish, size, line.split, last, List.append_nil]

theorem offset_last (line : source.Line number) (last : line.rest = [])
    (beyond : line.content.length < column) : source.offsetOf ⟨number, column⟩ = line.finish := by
  rw [line.offset_beyond beyond, last]
  simp [byteSize]

theorem offset_feed (line : source.Line number) :
    source.offsetOf ⟨number, line.content.length + 1⟩ = line.finish := by
  rw [line.offset_beyond (Nat.lt_add_one _), Nat.add_sub_cancel, Nat.sub_self]
  rfl

theorem offset_behind_feed (line : source.Line number) (feed : line.rest = '\n' :: more)
    (beyond : line.content.length + 1 < column) :
    source.offsetOf ⟨number, column⟩ = line.finish + 1 := by
  obtain ⟨further, columns⟩ : ∃ further, column - 1 - line.content.length = further + 1 :=
    Nat.exists_eq_add_of_le' (by omega)
  rw [line.offset_beyond (Nat.lt_of_succ_lt beyond), feed, columns, List.take_succ_cons,
    List.take_zero, List.take_succ_cons, List.take_nil]
  rfl

theorem offset_next (line : source.Line number) (feed : line.rest = '\n' :: more) :
    source.offsetOf ⟨number + 1, 1⟩ = line.finish + 1 := by
  rw [← line.past_feed, offset_past (line.split_feed feed), byte_size_append]
  rfl

end Line
end Source

theorem columns_beyond_line (source : Source) (place : Location) :
    (Nonempty (source.Line place.line) ↔
      1 ≤ place.line ∧ place.line ≤ source.chars.count '\n' + 1) ∧
    ∀ line : source.Line place.line, line.content.length < place.column →
      (source.offsetOf place = line.finish ↔
        line.rest = [] ∨ place.column = line.content.length + 1) ∧
      (line.rest = [] → line.finish = source.size) ∧
      (line.rest ≠ [] → line.content.length + 1 < place.column →
        source.offsetOf place = line.finish + 1 ∧
          source.offsetOf place = source.offsetOf ⟨place.line + 1, 1⟩) := by
  obtain ⟨number, column⟩ := place
  constructor
  · constructor
    · intro ⟨line⟩
      exact line.number_bounds
    · intro ⟨positive, present⟩
      exact Source.Line.of_number positive present
  · intro line beyond
    have far (further : line.rest ≠ []) (behind : line.content.length + 1 < column) :
        source.offsetOf ⟨number, column⟩ = line.finish + 1 ∧
          source.offsetOf ⟨number, column⟩ = source.offsetOf ⟨number + 1, 1⟩ := by
      obtain ⟨others, feed⟩ := line.feed_of_rest further
      have found := line.offset_behind_feed feed behind
      exact ⟨found, found.trans (line.offset_next feed).symm⟩
    refine ⟨?_, line.finish_last, far⟩
    constructor
    · intro found
      by_cases last : line.rest = []
      · exact .inl last
      · by_cases behind : line.content.length + 1 < column
        · rw [(far last behind).1] at found
          omega
        · exact .inr (by simp only at beyond ⊢; omega)
    · intro near
      rcases near with last | first
      · exact line.offset_last last beyond
      · simp only at first
        rw [first]
        exact line.offset_feed

theorem accented_line_overrun :
    ∃ first : Source.Line ⟨"", "aé\n\tb"⟩ 1, ∃ last : Source.Line ⟨"", "aé\n\tb"⟩ 2,
      first.content = ['a', 'é'] ∧ first.rest ≠ [] ∧ first.finish = 3 ∧
        Source.offsetOf ⟨"", "aé\n\tb"⟩ ⟨1, 3⟩ = 3 ∧ Source.offsetOf ⟨"", "aé\n\tb"⟩ ⟨1, 9⟩ = 4 ∧
      last.content = ['\t', 'b'] ∧ last.rest = [] ∧ last.finish = 6 ∧
        Source.offsetOf ⟨"", "aé\n\tb"⟩ ⟨2, 9⟩ = 6 := by
  let first : Source.Line ⟨"", "aé\n\tb"⟩ 1 :=
    ⟨[], ['a', 'é'], ['\n', '\t', 'b'], by decide, by decide, by decide, by simp⟩
  let last : Source.Line ⟨"", "aé\n\tb"⟩ 2 :=
    ⟨['a', 'é', '\n'], ['\t', 'b'], [], by decide, by decide, by decide, by simp⟩
  have near := (columns_beyond_line ⟨"", "aé\n\tb"⟩ ⟨1, 3⟩).2 first (by decide)
  have far := (columns_beyond_line ⟨"", "aé\n\tb"⟩ ⟨1, 9⟩).2 first (by decide)
  have beyond := (columns_beyond_line ⟨"", "aé\n\tb"⟩ ⟨2, 9⟩).2 last (by decide)
  have finish : first.finish = 3 := by decide
  have size : last.finish = 6 := by decide
  refine ⟨first, last, rfl, by decide, finish, ?_, ?_, rfl, rfl, size, ?_⟩
  · rw [near.1.mpr (.inr rfl), finish]
  · rw [(far.2.2 (by decide) (by decide)).1, finish]
  · rw [beyond.1.mpr (.inl rfl), size]

theorem overrun_leaves_line :
    ∃ line : Source.Line ⟨"", "ab\ncd"⟩ 1, line.content.length < 4 ∧
      Source.offsetOf ⟨"", "ab\ncd"⟩ ⟨1, 4⟩ ≠ line.finish ∧
      Source.offsetOf ⟨"", "ab\ncd"⟩ ⟨1, 4⟩ = Source.offsetOf ⟨"", "ab\ncd"⟩ ⟨2, 1⟩ := by
  let line : Source.Line ⟨"", "ab\ncd"⟩ 1 :=
    ⟨[], ['a', 'b'], ['\n', 'c', 'd'], by decide, by decide, by decide, by simp⟩
  have short : line.content.length < 4 := by decide
  have behind : Source.offsetOf ⟨"", "ab\ncd"⟩ ⟨1, 4⟩ ≠ line.finish := by decide
  exact ⟨line, short, behind, by decide⟩

end McFront
