import McFront.Proofs.Lexing.Outlook

set_option autoImplicit false

namespace McFront

def Complaint.Blames : Complaint → List Char → Prop
  | unexpectedCharacter c, text => text.head? = some c
  | invalidEscape letter, text => ∃ rest, text = '\\' :: letter :: rest
  | unterminatedEscape, text => text = ['\\']
  | unterminatedLiteral _, text | multiLineLiteral _, text =>
      text.head? = some '\'' ∨ text.head? = some '"'
  | emptyCharacter, text | overlongCharacter, text => text.head? = some '\''
  | missingDigits _, text | integerOutOfRange _, text => ∃ c, text.head? = some c ∧ c.isDigit
  | _, _ => False

theorem Complaint.Blames.lexical {complaint : Complaint} {text : List Char}
    (blames : complaint.Blames text) : complaint.kind = .lexical := by
  cases complaint <;> first | rfl | exact blames.elim

namespace Lexeme

def Blamed (text : List Char) : Lexeme → Prop
  | .fault complaint lead _ _ => ∃ after, text = lead ++ after ∧ complaint.Blames after
  | _ => True

section Number

variable {c : Char} {others : List Char} (digit : c.isDigit)
include digit

theorem integer_blamed (radix : Radix) (lead digits rest : List Char) :
    (integer radix lead digits rest).Blamed (c :: others) := by
  rw [integer_eq]
  by_cases small : radix.value digits ≤ greatestInteger
  · simp only [small, if_true, Blamed]
  · simp only [small, if_false]
    exact ⟨_, rfl, c, rfl, digit⟩

theorem decimal_blamed (text : List Char) : (decimal text).Blamed (c :: others) := by
  unfold decimal
  split
  · exact trivial
  · exact integer_blamed digit _ _ _ _

theorem radix_integer_blamed (radix : Radix) (lead rest : List Char) :
    (radixInteger radix lead rest).Blamed (c :: others) := by
  rw [radixInteger]
  by_cases bare : (rest.takeWhile radix.isDigit).isEmpty
  · simp only [bare, if_true]
    exact ⟨_, rfl, c, rfl, digit⟩
  · simp only [bare]
    exact integer_blamed digit _ _ _ _

theorem number_blamed (text : List Char) : (number text).Blamed (c :: others) := by
  rcases number_cases text with ⟨letter, radix, after, _, _, read⟩ | read
  · rw [read]
    exact radix_integer_blamed digit _ _ _
  · rw [read]
    exact decimal_blamed digit _

end Number

theorem escape_blames {text : List Char} {complaint : Complaint}
    (read : escape text = .error complaint) : complaint.Blames ('\\' :: text) := by
  unfold escape at read
  split at read
  · cases read
    exact rfl
  · split at read
    · cases read
    · cases read
      exact ⟨_, rfl⟩

theorem character_body_blames {text : List Char} {complaint : Complaint} (filled : text ≠ [])
    (read : characterBody text = .error complaint) : complaint.Blames text := by
  obtain ⟨after, rfl, stuck⟩ := character_body_fault filled read
  exact escape_blames stuck

theorem character_blamed (text : List Char) : (character text).Blamed ('\'' :: text) := by
  unfold character
  split
  · exact ⟨_, rfl, .inl rfl⟩
  · exact ⟨_, rfl, .inl rfl⟩
  · exact ⟨_, rfl, rfl⟩
  · rename_i filled _ _
    split
    · rename_i read
      exact ⟨text, rfl, character_body_blames filled read⟩
    · split
      · exact trivial
      · exact ⟨_, rfl, .inl rfl⟩
      · exact ⟨_, rfl, .inl rfl⟩
      · exact ⟨_, rfl, rfl⟩

def Body.Blamed (text : List Char) : Body → Prop
  | .stuck complaint read _ => ∃ after, text = read ++ after ∧ complaint.Blames after
  | _ => True

theorem body_after_blamed {text : List Char} (written : List Char) (value : Char) {found : Body}
    (blamed : found.Blamed text) : (found.after written value).Blamed (written ++ text) := by
  cases found with
  | closed content spelling rest => trivial
  | cut read rest => trivial
  | stuck complaint read rest =>
      obtain ⟨after, rfl, blames⟩ := blamed
      exact ⟨after, (List.append_assoc written read after).symm, blames⟩

theorem body_blamed (text : List Char) : (body text).Blamed text := by
  fun_induction body text with
  | case1 | case2 | case3 => trivial
  | case4 => exact ⟨_, rfl, rfl⟩
  | case5 letter rest value known _ _ ih => exact body_after_blamed ['\\', letter] value ih
  | case6 letter rest => exact ⟨_, rfl, rest, rfl⟩
  | case7 c rest _ _ _ ih => exact body_after_blamed [c] c ih

theorem string_blamed (text : List Char) : (string text).Blamed ('"' :: text) := by
  have blamed := body_blamed text
  unfold string
  split <;> rename_i found
  · exact trivial
  · exact ⟨_, rfl, .inr rfl⟩
  · exact ⟨_, rfl, .inr rfl⟩
  · rw [found] at blamed
    obtain ⟨after, rfl, blames⟩ := blamed
    exact ⟨after, rfl, blames⟩

theorem symbol_blamed (c : Char) (rest : List Char) : (symbol c rest).Blamed (c :: rest) := by
  cases one : symbolKind? [c] with
  | some kind =>
      cases rest with
      | nil =>
          simp only [symbol, one]
          exact trivial
      | cons d more =>
          cases two : symbolKind? [c, d] <;> simp only [symbol, one, two] <;> exact trivial
  | none =>
      cases rest with
      | nil =>
          simp only [symbol, one]
          exact ⟨_, rfl, rfl⟩
      | cons d more =>
          cases two : symbolKind? [c, d] <;> simp only [symbol, one, two]
          · exact ⟨_, rfl, rfl⟩
          · exact trivial

theorem head_blamed (text : List Char) : (head text).Blamed text :=
  head_cases (fun text found => found.Blamed text) trivial character_blamed string_blamed
    (fun _ _ digit => number_blamed digit _) (fun _ _ _ => trivial) symbol_blamed text

end Lexeme

namespace Cursor

theorem next_blames {cursor after : Cursor} {error : CompileError}
    (drawn : cursor.next = (.error error, after)) :
    ∃ (complaint : Complaint) (passed rest : List Char), cursor.rest = passed ++ rest ∧
      complaint.Blames rest ∧
        error = complaint.raise (cursor.location.past passed) := by
  cases step_of_next drawn with
  | @fault passed lead more rest complaint left found =>
      have blamed := Lexeme.head_blamed (lead ++ more ++ rest)
      rw [found] at blamed
      obtain ⟨others, isRest, blames⟩ := blamed
      refine ⟨complaint, passed ++ lead, others, ?_, blames, by rw [Location.past_append]⟩
      rw [split_of_gap left, isRest, List.append_assoc]

theorem outlook_lexical (cursor : Cursor) (error : CompileError)
    (failed : cursor.outlook.last = .error error) : error.kind = .lexical := by
  induction cursor using outlook.induct with
  | case1 cursor token after drawn proper ih =>
      rw [outlook_token drawn proper] at failed
      exact ih failed
  | case2 cursor token after drawn ended =>
      rw [outlook_end drawn (by simpa using ended)] at failed
      cases failed
  | case3 cursor other after drawn =>
      rw [outlook_error drawn] at failed
      cases failed
      obtain ⟨complaint, _, _, _, blames, rfl⟩ := next_blames drawn
      exact blames.lexical

end Cursor
end McFront
