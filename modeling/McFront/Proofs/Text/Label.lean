import McFront.Diagnostic
import McFront.Proofs.Text.Offset
import McFront.Token.Stream

set_option autoImplicit false

namespace McFront

theorem ascii_one_byte (c : Char) : c.utf8Size = 1 ↔ c.toNat < 128 := by
  have limit : c.toNat ≤ 127 ↔ c.toNat < 128 := Nat.lt_succ_iff.symm
  rw [Char.utf8Size_eq_one_iff, UInt32.le_iff_toNat_le, ← limit]
  rfl

namespace Source

variable {source : Source} {before after : List Char} {c : Char} {offset : Nat}

-- Offsets that lie between two characters of a text, or at its start or end.
def Boundary (source : Source) (offset : Nat) : Prop :=
  ∃ passed rest, source.chars = passed ++ rest ∧ byteSize passed = offset

theorem Boundary.outside (boundary : source.Boundary offset)
    (split : source.chars = before ++ c :: after) :
    offset ≤ byteSize before ∨ byteSize before + c.utf8Size ≤ offset := by
  obtain ⟨passed, rest, cut, rfl⟩ := boundary
  rcases List.append_eq_append_iff.mp (cut.symm.trans split) with
    ⟨between, rfl, _⟩ | ⟨between, rfl, left⟩
  · left
    rw [byte_size_append]
    exact Nat.le_add_right _ _
  · cases between with
    | nil =>
        left
        simp
    | cons d between =>
        right
        obtain ⟨rfl, _⟩ := List.cons.inj left
        rw [byte_size_append, byte_size_cons]
        omega

theorem boundary_next (split : source.chars = before ++ c :: after) :
    source.Boundary (byteSize before + 1) ↔ c.utf8Size = 1 := by
  have filled := c.utf8Size_pos
  constructor
  · intro boundary
    have outside := boundary.outside split
    omega
  · intro single
    refine ⟨before ++ [c], after, by simpa using split, ?_⟩
    rw [byte_size_append, byte_size_cons, single]
    rfl

end Source

def Diagnostic.Covers (shown : Diagnostic) (before : List Char) (c : Char) : Prop :=
  shown.offset = byteSize before ∧ shown.length = c.utf8Size

theorem CompileError.diagnose_at (error : CompileError) {source : Source}
    {before after : List Char} {c : Char} (split : source.chars = before ++ c :: after)
    (placed : error.location = Location.first.past before) :
    (error.diagnose source).offset = byteSize before ∧ (error.diagnose source).length = 1 := by
  have offset : source.offsetOf error.location = byteSize before := by
    rw [placed, Source.offset_past split]
  have inside : byteSize before < source.size := by
    have filled := c.utf8Size_pos
    rw [Source.size, split, byte_size_append, byte_size_cons]
    omega
  refine ⟨offset, ?_⟩
  rw [diagnose]
  simp only [offset, inside, if_true]

theorem label_covers_ascii_alone (error : CompileError) (source : Source) (before after : List Char)
    (c : Char) (split : source.chars = before ++ c :: after)
    (placed : error.location = Location.first.past before) :
    (error.diagnose source).offset = byteSize before ∧ (error.diagnose source).length = 1 ∧
      ((error.diagnose source).Covers before c ↔ c.toNat < 128) ∧
      (source.Boundary ((error.diagnose source).offset + (error.diagnose source).length) ↔
        c.toNat < 128) := by
  obtain ⟨offset, length⟩ := error.diagnose_at split placed
  refine ⟨offset, length, ?_, ?_⟩
  · rw [Diagnostic.Covers, offset, length, ← ascii_one_byte, eq_comm (a := 1)]
    exact ⟨And.right, fun single => ⟨rfl, single⟩⟩
  · rw [offset, length, Source.boundary_next split, ascii_one_byte]

theorem euro_label_cut_behind_tab :
    (∃ error, (lex "\t$" .empty).1 = .error error ∧
      error.location = Location.first.past ['\t'] ∧
      (error.diagnose ⟨"", "\t$"⟩).Covers ['\t'] '$') ∧
    ∃ error, (lex "\n\t€" .empty).1 = .error error ∧
      error.location = Location.first.past ['\n', '\t'] ∧
      (error.diagnose ⟨"", "\n\t€"⟩).offset = 2 ∧ '€'.utf8Size = 3 ∧
      ¬ Source.Boundary ⟨"", "\n\t€"⟩ ((error.diagnose ⟨"", "\n\t€"⟩).offset +
        (error.diagnose ⟨"", "\n\t€"⟩).length) := by
  constructor
  · have rejected : (lex "\t$" .empty).1 =
        .error ((Complaint.unexpectedCharacter '$').raise ⟨1, 2⟩) := by rfl
    have label := label_covers_ascii_alone ((Complaint.unexpectedCharacter '$').raise ⟨1, 2⟩)
      ⟨"", "\t$"⟩ ['\t'] [] '$' (by decide) rfl
    exact ⟨_, rejected, rfl, label.2.2.1.mpr (by decide)⟩
  · have rejected : (lex "\n\t€" .empty).1 =
        .error ((Complaint.unexpectedCharacter '€').raise ⟨2, 2⟩) := by rfl
    have label := label_covers_ascii_alone ((Complaint.unexpectedCharacter '€').raise ⟨2, 2⟩)
      ⟨"", "\n\t€"⟩ ['\n', '\t'] [] '€' (by decide) rfl
    refine ⟨_, rejected, rfl, label.1, by decide, ?_⟩
    exact fun ends => absurd (label.2.2.2.mp ends) (by decide)

-- The label of an error at an accented letter ends between the two bytes of the letter.
theorem accent_label_cut :
    ∃ error, (lex "ab é c" .empty).1 = .error error ∧
      error.location = Location.first.past ['a', 'b', ' '] ∧
      ¬ (error.diagnose ⟨"", "ab é c"⟩).Covers ['a', 'b', ' '] 'é' ∧
      ¬ Source.Boundary ⟨"", "ab é c"⟩ ((error.diagnose ⟨"", "ab é c"⟩).offset +
        (error.diagnose ⟨"", "ab é c"⟩).length) := by
  have rejected : (lex "ab é c" .empty).1 =
      .error ((Complaint.unexpectedCharacter 'é').raise ⟨1, 4⟩) := by rfl
  have split : Source.chars ⟨"", "ab é c"⟩ = ['a', 'b', ' '] ++ 'é' :: [' ', 'c'] := by decide
  obtain ⟨offset, length⟩ :=
    ((Complaint.unexpectedCharacter 'é').raise ⟨1, 4⟩).diagnose_at split rfl
  refine ⟨_, rejected, rfl, ?_, ?_⟩
  · rw [Diagnostic.Covers, length]
    decide
  · rw [offset, length, Source.boundary_next split]
    decide

end McFront
