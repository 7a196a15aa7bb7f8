set_option autoImplicit false

namespace McFront

section Run

variable {part : Char → Bool} {run other rest others : List Char}

theorem run_taken (all : ∀ c ∈ run, part c) (stop : ∀ c ∈ rest.head?, part c = false) :
    (run ++ rest).takeWhile part = run := by
  rw [List.takeWhile_append_of_pos all]
  cases rest with
  | nil => exact List.append_nil _
  | cons c rest =>
      rw [List.takeWhile_cons, stop c rfl, if_neg Bool.false_ne_true, List.append_nil]

theorem run_dropped (all : ∀ c ∈ run, part c) (stop : ∀ c ∈ rest.head?, part c = false) :
    (run ++ rest).dropWhile part = rest := by
  rw [List.dropWhile_append_of_pos all]
  cases rest with
  | nil => rfl
  | cons c rest => rw [List.dropWhile_cons, stop c rfl, if_neg Bool.false_ne_true]

theorem run_unique (all : ∀ c ∈ run, part c) (allToo : ∀ c ∈ other, part c)
    (stop : ∀ c ∈ rest.head?, part c = false) (stopToo : ∀ c ∈ others.head?, part c = false)
    (same : run ++ rest = other ++ others) : run = other ∧ rest = others := by
  have first : run = other := by rw [← run_taken all stop, same, run_taken allToo stopToo]
  subst first
  exact ⟨rfl, List.append_cancel_left same⟩

theorem before_unique {mark : Char} (absent : mark ∉ run) (absentToo : mark ∉ other)
    (same : run ++ mark :: rest = other ++ mark :: others) : run = other ∧ rest = others := by
  have unmarked : ∀ {text : List Char}, mark ∉ text → ∀ c ∈ text, (c != mark) = true := by
    intro text absent c member
    rw [bne_iff_ne]
    rintro rfl
    exact absent member
  have stop : ∀ {more : List Char}, ∀ c ∈ (mark :: more).head?, (c != mark) = false := by
    intro more c head
    rw [← Option.some.inj head]
    exact bne_self_eq_false mark
  obtain ⟨first, behind⟩ := run_unique (unmarked absent) (unmarked absentToo) stop stop same
  exact ⟨first, List.tail_eq_of_cons_eq behind⟩

end Run

theorem lines_tell {α : Type} {shown : α → List Char} {items others : List α}
    (flat : ∀ item ∈ items, '\n' ∉ shown item) (flatToo : ∀ item ∈ others, '\n' ∉ shown item)
    (tells : ∀ a ∈ items, ∀ b ∈ others, shown a = shown b → a = b)
    (same : items.flatMap (fun item => shown item ++ ['\n']) =
      others.flatMap fun item => shown item ++ ['\n']) : items = others := by
  induction items generalizing others with
  | nil =>
      cases others with
      | nil => rfl
      | cons other others => simp at same
  | cons item items ih =>
      cases others with
      | nil => simp at same
      | cons other others =>
          rw [List.forall_mem_cons] at flat flatToo
          rw [List.flatMap_cons, List.flatMap_cons, List.append_assoc, List.append_assoc] at same
          obtain ⟨first, further⟩ := before_unique flat.1 flatToo.1 same
          rw [tells item (by simp) other (by simp) first]
          rw [ih flat.2 flatToo.2 (fun a inside b insideToo =>
            tells a (List.mem_cons_of_mem _ inside) b (List.mem_cons_of_mem _ insideToo)) further]

theorem text_of_text (text : String) : toString text = text := rfl

def Plain (text : List Char) : Prop := ∀ c ∈ text, c ≠ ' ' ∧ c ≠ '\n'

instance (text : List Char) : Decidable (Plain text) :=
  @List.decidableBAll _ (fun c => c ≠ ' ' ∧ c ≠ '\n') inferInstance text

theorem Plain.one_line {text : List Char} (plain : Plain text) : '\n' ∉ text :=
  fun inside => (plain _ inside).2 rfl

theorem Plain.append {text more : List Char} (plain : Plain text) (others : Plain more) :
    Plain (text ++ more) := List.forall_mem_append.mpr ⟨plain, others⟩

theorem Plain.cons {c : Char} {text : List Char} (plain : Plain text) (noBlank : c ≠ ' ')
    (noFeed : c ≠ '\n') : Plain (c :: text) :=
  List.forall_mem_cons.mpr ⟨⟨noBlank, noFeed⟩, plain⟩

end McFront
