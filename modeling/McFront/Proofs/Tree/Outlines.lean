import McFront.Tree.Outline
import McFront.Proofs.Number.Numeral

set_option autoImplicit false

namespace McFront.Outline

-- A label that can be told from the indentation before it and from the next line.
structure Clear (label : String) : Prop where
  flush : ∀ c ∈ label.toList.head?, c ≠ ' '
  oneLine : '\n' ∉ label.toList

def lineText (line : Nat × String) : List Char :=
  List.replicate (2 * line.1) ' ' ++ line.2.toList

def linesText (lines : List (Nat × String)) : List Char :=
  lines.flatMap fun line => lineText line ++ ['\n']

theorem indented_text_lines (outline : Outline) :
    outline.indentedText.toList = linesText (outline.lines 0) := by
  rw [indentedText, String.toList_join, List.flatMap_map]
  simp [linesText, lineText, String.toList_append]

theorem line_text_unique {a b : Nat × String} (clear : Clear a.2) (clearToo : Clear b.2)
    (same : lineText a = lineText b) : a = b := by
  have blanks : ∀ {count : Nat}, ∀ c ∈ List.replicate count ' ', (c == ' ') = true :=
    fun c member => beq_iff_eq.mpr (List.eq_of_mem_replicate member)
  obtain ⟨indentation, label⟩ := run_unique blanks blanks
    (fun c head => beq_eq_false_iff_ne.mpr (clear.flush c head))
    (fun c head => beq_eq_false_iff_ne.mpr (clearToo.flush c head)) same
  have depth := congrArg List.length indentation
  rw [List.length_replicate, List.length_replicate] at depth
  exact Prod.ext (by omega) (String.toList_inj.mp label)

theorem line_text_one_line {line : Nat × String} (clear : Clear line.2) :
    '\n' ∉ lineText line := by
  intro member
  rcases List.mem_append.mp member with blank | inside
  · cases List.eq_of_mem_replicate blank
  · exact clear.oneLine inside

theorem lines_text_unique {lines others : List (Nat × String)}
    (clear : ∀ line ∈ lines, Clear line.2) (clearToo : ∀ line ∈ others, Clear line.2)
    (same : linesText lines = linesText others) : lines = others :=
  lines_tell (fun line member => line_text_one_line (clear line member))
    (fun line member => line_text_one_line (clearToo line member))
    (fun line member other memberToo =>
      line_text_unique (clear line member) (clearToo other memberToo)) same

theorem lines_of_head (outlines : List Outline) {depth : Nat} {rest : List (Nat × String)}
    (stop : ∀ line ∈ rest.head?, line.1 < depth) :
    ∀ line ∈ (linesOf depth outlines ++ rest).head?, line.1 ≤ depth := by
  intro line head
  cases outlines with
  | nil => exact (stop line head).le
  | cons outline outlines =>
      cases outline
      cases head
      exact Nat.le_refl _

mutual
theorem lines_unique (a b : Outline) {depth : Nat} {rest others : List (Nat × String)}
    (stop : ∀ line ∈ rest.head?, line.1 ≤ depth) (stopToo : ∀ line ∈ others.head?, line.1 ≤ depth)
    (same : a.lines depth ++ rest = b.lines depth ++ others) : a = b ∧ rest = others := by
  obtain ⟨label, children⟩ := a
  obtain ⟨labelToo, childrenToo⟩ := b
  rw [lines, lines, List.cons_append, List.cons_append, List.cons.injEq] at same
  obtain ⟨first, further⟩ := same
  obtain ⟨rfl, left⟩ := lines_of_unique children childrenToo
    (fun line head => Nat.lt_succ_of_le (stop line head))
    (fun line head => Nat.lt_succ_of_le (stopToo line head)) further
  cases first
  exact ⟨rfl, left⟩
theorem lines_of_unique (as bs : List Outline) {depth : Nat} {rest others : List (Nat × String)}
    (stop : ∀ line ∈ rest.head?, line.1 < depth) (stopToo : ∀ line ∈ others.head?, line.1 < depth)
    (same : linesOf depth as ++ rest = linesOf depth bs ++ others) : as = bs ∧ rest = others := by
  cases as with
  | nil =>
      cases bs with
      | nil => exact ⟨rfl, same⟩
      | cons b bs =>
          cases b
          rw [linesOf, List.nil_append] at same
          rw [same] at stop
          exact absurd (stop _ rfl) (Nat.lt_irrefl _)
  | cons a as =>
      cases bs with
      | nil =>
          cases a
          rw [linesOf, linesOf, List.nil_append] at same
          rw [← same] at stopToo
          exact absurd (stopToo _ rfl) (Nat.lt_irrefl _)
      | cons b bs =>
          rw [linesOf, linesOf, List.append_assoc, List.append_assoc] at same
          obtain ⟨rfl, further⟩ := lines_unique a b (lines_of_head as stop)
            (lines_of_head bs stopToo) same
          obtain ⟨rfl, left⟩ := lines_of_unique as bs stop stopToo further
          exact ⟨rfl, left⟩
end

theorem indented_text_unique {a b : Outline} (clear : ∀ line ∈ a.lines 0, Clear line.2)
    (clearToo : ∀ line ∈ b.lines 0, Clear line.2) (same : a.indentedText = b.indentedText) :
    a = b := by
  have texts := congrArg String.toList same
  rw [indented_text_lines, indented_text_lines] at texts
  have lines : a.lines 0 ++ [] = b.lines 0 ++ [] := by
    rw [lines_text_unique clear clearToo texts]
  have nothing : ∀ line ∈ ([] : List (Nat × String)).head?, line.1 ≤ 0 := by simp
  exact (lines_unique a b nothing nothing lines).1

end McFront.Outline
