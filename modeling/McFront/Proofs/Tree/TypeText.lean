import McFront.Ty

set_option autoImplicit false

namespace McFront.Ty

theorem pointer_text (pointee : Ty) :
    (pointer pointee).text.toList = '*' :: pointee.text.toList := by
  simp [text, String.toList_append]

theorem reference_text (object : Ty) :
    (reference object).text.toList = '&' :: object.text.toList := by
  simp [text, String.toList_append]

theorem function_text (parameters : List Ty) (result : Ty) :
    (function parameters result).text.toList =
      '(' :: ((listText parameters).toList ++
        ')' :: ' ' :: '-' :: '>' :: ' ' :: result.text.toList) := by
  simp [text, String.toList_append]

theorem list_text_more (first second : Ty) (others : List Ty) :
    (listText (first :: second :: others)).toList =
      first.text.toList ++ ',' :: ' ' :: (listText (second :: others)).toList := by
  simp [listText, String.toList_append]

theorem text_head (type : Ty) :
    ∃ c rest, type.text.toList = c :: rest ∧ c ∈ ['b', 'c', 'i', 'f', '*', '&', '('] := by
  cases type with
  | bool | char | int | float => exact ⟨_, _, rfl, by decide⟩
  | pointer pointee => exact ⟨_, _, pointer_text pointee, by decide⟩
  | reference object => exact ⟨_, _, reference_text object, by decide⟩
  | function parameters result => exact ⟨_, _, function_text parameters result, by decide⟩

theorem list_text_head (type : Ty) (types : List Ty) :
    ∃ c rest, (listText (type :: types)).toList = c :: rest ∧ c ≠ ')' := by
  obtain ⟨c, rest, shape, lead⟩ := type.text_head
  have notEnd : c ≠ ')' := by
    rintro rfl
    exact absurd lead (by decide)
  cases types with
  | nil => exact ⟨c, rest, shape, notEnd⟩
  | cons second others =>
      rw [list_text_more, shape]
      exact ⟨c, _, rfl, notEnd⟩

mutual
-- By recursion on the first type. The first character tells the constructor.
theorem text_unique (a b : Ty) {rest others : List Char}
    (same : a.text.toList ++ rest = b.text.toList ++ others) : a = b ∧ rest = others := by
  cases a with
  | bool | char | int | float =>
      cases b with
      | bool | char | int | float =>
          first
          | simp [text] at same; done
          | exact ⟨rfl, List.append_cancel_left same⟩
      | pointer b => simp [text] at same
      | reference b => simp [text] at same
      | function bs b => simp [text] at same
  | pointer a =>
      rw [pointer_text, List.cons_append] at same
      cases b with
      | pointer b =>
          rw [pointer_text, List.cons_append, List.cons_inj_right] at same
          obtain ⟨rfl, left⟩ := text_unique a b same
          exact ⟨rfl, left⟩
      | bool | char | int | float => simp [text] at same
      | reference b => simp [reference_text] at same
      | function bs b => simp [function_text] at same
  | reference a =>
      rw [reference_text, List.cons_append] at same
      cases b with
      | reference b =>
          rw [reference_text, List.cons_append, List.cons_inj_right] at same
          obtain ⟨rfl, left⟩ := text_unique a b same
          exact ⟨rfl, left⟩
      | bool | char | int | float => simp [text] at same
      | pointer b => simp [pointer_text] at same
      | function bs b => simp [function_text] at same
  | function as a =>
      rw [function_text, List.cons_append] at same
      cases b with
      | function bs b =>
          rw [function_text, List.cons_append, List.cons_inj_right, List.append_assoc,
            List.append_assoc] at same
          obtain ⟨rfl, left⟩ := list_text_unique as bs same
          have left : a.text.toList ++ rest = b.text.toList ++ others := by simpa using left
          obtain ⟨rfl, further⟩ := text_unique a b left
          exact ⟨rfl, further⟩
      | bool | char | int | float => simp [text] at same
      | pointer b => simp [pointer_text] at same
      | reference b => simp [reference_text] at same
theorem list_text_unique (as bs : List Ty) {rest others : List Char}
    (same : (listText as).toList ++ ')' :: rest = (listText bs).toList ++ ')' :: others) :
    as = bs ∧ rest = others := by
  cases as with
  | nil =>
      cases bs with
      | nil => exact ⟨rfl, List.tail_eq_of_cons_eq same⟩
      | cons b bs =>
          obtain ⟨c, more, shape, notEnd⟩ := list_text_head b bs
          rw [shape] at same
          exact absurd (List.head_eq_of_cons_eq same).symm notEnd
  | cons a as =>
      cases bs with
      | nil =>
          obtain ⟨c, more, shape, notEnd⟩ := list_text_head a as
          rw [shape] at same
          exact absurd (List.head_eq_of_cons_eq same) notEnd
      | cons b bs =>
          cases as with
          | nil =>
              cases bs with
              | nil =>
                  obtain ⟨rfl, left⟩ := text_unique a b same
                  exact ⟨rfl, List.tail_eq_of_cons_eq left⟩
              | cons second bs =>
                  rw [list_text_more, List.append_assoc] at same
                  cases List.head_eq_of_cons_eq (text_unique a b same).2
          | cons first as =>
              rw [list_text_more, List.append_assoc] at same
              cases bs with
              | nil => cases List.head_eq_of_cons_eq (text_unique a b same).2
              | cons second bs =>
                  rw [list_text_more, List.append_assoc] at same
                  obtain ⟨rfl, left⟩ := text_unique a b same
                  have left := List.tail_eq_of_cons_eq (List.tail_eq_of_cons_eq left)
                  obtain ⟨alike, left⟩ := list_text_unique (first :: as) (second :: bs) left
                  exact ⟨by rw [alike], left⟩
end

def letters : List Char :=
  ['a', 'b', 'c', 'f', 'h', 'i', 'l', 'n', 'o', 'r', 't', '*', '&', '(', ')', ',', ' ', '-', '>']

mutual
theorem text_letters (type : Ty) : type.text.toList ⊆ letters := by
  cases type with
  | bool | char | int | float => decide
  | pointer pointee =>
      rw [pointer_text, List.cons_subset]
      exact ⟨by decide, text_letters pointee⟩
  | reference object =>
      rw [reference_text, List.cons_subset]
      exact ⟨by decide, text_letters object⟩
  | function parameters result =>
      have arrow : [')', ' ', '-', '>', ' '] ⊆ letters := by decide
      rw [function_text, List.cons_subset, List.append_subset]
      exact ⟨by decide, list_text_letters parameters,
        List.append_subset.mpr ⟨arrow, text_letters result⟩⟩
theorem list_text_letters (types : List Ty) : (listText types).toList ⊆ letters := by
  cases types with
  | nil => decide
  | cons first types =>
      cases types with
      | nil => exact text_letters first
      | cons second others =>
          have comma : [',', ' '] ⊆ letters := by decide
          rw [list_text_more, List.append_subset]
          exact ⟨text_letters first,
            List.append_subset.mpr ⟨comma, list_text_letters (second :: others)⟩⟩
end

theorem text_one_line (type : Ty) : '\n' ∉ type.text.toList :=
  fun inside => absurd (type.text_letters inside) (by decide)

theorem text_unquoted (type : Ty) : '\'' ∉ type.text.toList :=
  fun inside => absurd (type.text_letters inside) (by decide)

end McFront.Ty
