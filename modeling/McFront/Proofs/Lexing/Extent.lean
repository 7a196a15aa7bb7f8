import Mathlib.Data.List.Induction
import McFront.Token.Stream

set_option autoImplicit false

namespace McFront

namespace Radix

theorem base_bounds (radix : Radix) : 1 < radix.base ∧ radix.base ≤ 16 := by
  cases radix <;> decide

theorem value_append (radix : Radix) (digits : List Char) (c : Char) :
    radix.value (digits ++ [c]) = radix.value digits * radix.base + (digitValue c).getD 0 := by
  simp [value]

theorem checked_append (radix : Radix) (bound : Nat) (digits : List Char) (c : Char) :
    radix.checked? bound (digits ++ [c]) = (radix.checked? bound digits).bind fun total =>
      let next := total * radix.base + (digitValue c).getD 0
      if next ≤ bound then some next else none := by
  simp [checked?]

-- Totals never fall, so one beyond the bound means that the value is beyond it, too.
theorem checked_value (radix : Radix) (bound : Nat) (digits : List Char) :
    radix.checked? bound digits =
      if radix.value digits ≤ bound then some (radix.value digits) else none := by
  induction digits using List.reverseRecOn with
  | nil => exact (if_pos (Nat.zero_le bound)).symm
  | append_singleton digits c ih =>
      rw [checked_append, ih, value_append]
      by_cases held : radix.value digits ≤ bound
      · rw [if_pos held]
        rfl
      · have positive : 0 < radix.base := Nat.lt_trans Nat.zero_lt_one radix.base_bounds.1
        have grows : radix.value digits ≤ radix.value digits * radix.base :=
          Nat.le_mul_of_pos_right _ positive
        rw [if_neg held, if_neg (by omega)]
        rfl

end Radix

namespace Lexeme

-- The word that a literal is read into holds every integer, so its bound shows in none.
theorem integer_eq (radix : Radix) (lead digits rest : List Char) :
    integer radix lead digits rest =
      if radix.value digits ≤ greatestInteger then
        token (.integer radix (radix.value digits)) (lead ++ digits) rest
      else
        fault (.integerOutOfRange (radix.lead ++ String.ofList digits)) [] (lead ++ digits) rest := by
  have wide : greatestInteger ≤ greatestWord := by decide
  rw [integer, Radix.checked_value]
  by_cases small : radix.value digits ≤ greatestInteger
  · rw [if_pos (Nat.le_trans small wide), if_pos small, Option.filter_some_pos (by simpa using small)]
  · rw [if_neg small]
    by_cases held : radix.value digits ≤ greatestWord
    · rw [if_pos held, Option.filter_some_neg (by simpa using small)]
    · rw [if_neg held, Option.filter_none]

-- The lexeme is a start of the text. A fault is found where its lead ends, inside what was read.
def StartOf (text : List Char) : Lexeme → Prop
  | .absent => text = []
  | .token kind spelling rest => spelling ++ rest = text ∧ spelling ≠ [] ∧ kind ≠ .endOfInput
  | .fault _ lead read rest => read ++ rest = text ∧ ∃ more, read = lead ++ more

theorem gap_split (inComment : Bool) (text : List Char) :
    (gap inComment text).1 ++ (gap inComment text).2 = text := by
  induction text generalizing inComment with
  | nil => rfl
  | cons c rest ih =>
      rw [gap]
      by_cases blank : isBlank c
      · simp only [if_pos blank, List.cons_append, ih]
      · by_cases comment : (inComment || c = '#') = true
        · simp only [if_neg blank, if_pos comment, List.cons_append, ih]
        · simp only [if_neg blank, if_neg comment, List.nil_append]

theorem word_kind_proper (name : String) : wordKind name ≠ .endOfInput := by
  unfold wordKind
  cases Keyword.ofWord? name with
  | none => nofun
  | some word => cases word <;> nofun

theorem symbol_kind_proper (spelling : List Char) (kind : Token.Kind)
    (found : symbolKind? spelling = some kind) : kind ≠ .endOfInput := by
  have member : ∀ entry ∈ symbols, entry.2 ≠ .endOfInput := by
    intro entry inside
    simp only [symbols, List.mem_append, List.mem_map] at inside
    rcases inside with ⟨operator, _, rfl⟩ | ⟨mark, _, rfl⟩ <;> nofun
  rw [symbolKind?, List.lookup_eq_some_iff] at found
  obtain ⟨before, after, listed, _⟩ := found
  exact member (spelling, kind) (by simp [listed])

theorem word_start (c : Char) (rest : List Char) : (word c rest).StartOf (c :: rest) :=
  ⟨by simp, by simp, word_kind_proper _⟩

theorem integer_start (radix : Radix) (lead digits rest : List Char) (filled : lead ++ digits ≠ []) :
    (integer radix lead digits rest).StartOf (lead ++ digits ++ rest) := by
  rw [integer_eq]
  by_cases small : radix.value digits ≤ greatestInteger
  · simp only [small, if_true]
    exact ⟨rfl, filled, nofun⟩
  · simp only [small, if_false]
    exact ⟨rfl, _, rfl⟩

theorem radix_integer_start (radix : Radix) (lead rest : List Char) (filled : lead ≠ []) :
    (radixInteger radix lead rest).StartOf (lead ++ rest) := by
  rw [radixInteger]
  by_cases bare : (rest.takeWhile radix.isDigit).isEmpty
  · simp only [bare, if_true]
    exact ⟨rfl, _, rfl⟩
  · simp only [bare]
    have start := integer_start radix lead (rest.takeWhile radix.isDigit)
      (rest.dropWhile radix.isDigit) (by simp [filled])
    simpa [List.append_assoc] using start

theorem decimal_start (c : Char) (rest : List Char) (digit : c.isDigit) :
    (decimal (c :: rest)).StartOf (c :: rest) := by
  have filled : (c :: rest).takeWhile Char.isDigit ≠ [] := by simp [List.takeWhile, digit]
  have split := List.takeWhile_append_dropWhile (p := Char.isDigit) (l := c :: rest)
  unfold decimal
  split
  · rename_i after dropped
    refine ⟨?_, by simp, nofun⟩
    rw [List.append_assoc, List.cons_append, List.takeWhile_append_dropWhile, ← dropped, split]
  · have start := integer_start .decimal [] ((c :: rest).takeWhile Char.isDigit)
      ((c :: rest).dropWhile Char.isDigit) filled
    rwa [List.nil_append, split] at start

theorem number_cases (text : List Char) :
    (∃ letter radix rest, text = '0' :: letter :: rest ∧ Radix.ofLetter? letter = some radix ∧
      number text = radixInteger radix ['0', letter] rest) ∨ number text = decimal text := by
  unfold number
  split
  · rename_i letter rest
    cases announced : Radix.ofLetter? letter with
    | some radix => exact .inl ⟨letter, radix, rest, rfl, announced, rfl⟩
    | none => exact .inr rfl
  · exact .inr rfl

theorem number_start (c : Char) (rest : List Char) (digit : c.isDigit) :
    (number (c :: rest)).StartOf (c :: rest) := by
  rcases number_cases (c :: rest) with ⟨letter, radix, after, same, _, read⟩ | read
  · rw [read, same]
    exact radix_integer_start radix ['0', letter] after (by simp)
  · rw [read]
    exact decimal_start c rest digit

section Character

variable {text written rest : List Char} {letter value : Char} {complaint : Complaint}

theorem escape_iff : escape text = .ok (letter, value, rest) ↔
    text = letter :: rest ∧ Escape.unescape letter = some value := by
  cases text with
  | nil => simp [escape]
  | cons c text =>
      rw [escape]
      cases known : Escape.unescape c with
      | none =>
          have differs : c = letter → Escape.unescape letter ≠ some value := by
            rintro rfl
            simp [known]
          simpa using fun same _ => differs same
      | some meant =>
          simp only [Except.ok.injEq, Prod.mk.injEq, List.cons.injEq]
          constructor
          · rintro ⟨rfl, rfl, rfl⟩
            exact ⟨⟨rfl, rfl⟩, known⟩
          · rintro ⟨⟨rfl, rfl⟩, knownToo⟩
            exact ⟨rfl, Option.some.inj (known.symm.trans knownToo), rfl⟩

theorem character_body_plain {c : Char} (plain : c ≠ '\\') (rest : List Char) :
    characterBody (c :: rest) = .ok ([c], c, rest) := by
  unfold characterBody
  split
  · rename_i same
    exact absurd (List.cons.inj same).1 plain
  · rename_i same
    cases same
    rfl
  · rename_i same
    cases same

theorem character_body_iff : characterBody text = .ok (written, value, rest) ↔
    (text = value :: rest ∧ written = [value] ∧ value ≠ '\\') ∨
      ∃ letter, text = '\\' :: letter :: rest ∧ written = ['\\', letter] ∧
        Escape.unescape letter = some value := by
  constructor
  · intro read
    unfold characterBody at read
    split at read
    · rename_i after
      cases escaped : escape after with
      | error complaint => simp [escaped, Except.map] at read
      | ok triple =>
          obtain ⟨letter, meant, left⟩ := triple
          obtain ⟨rfl, known⟩ := escape_iff.mp escaped
          rw [escaped] at read
          cases read
          exact .inr ⟨letter, rfl, rfl, known⟩
    · rename_i c after plain
      cases read
      exact .inl ⟨rfl, rfl, fun same => plain (by rw [same])⟩
    · cases read
  · rintro (⟨rfl, rfl, plain⟩ | ⟨letter, rfl, rfl, known⟩)
    · exact character_body_plain plain rest
    · have escaped : escape (letter :: rest) = .ok (letter, value, rest) :=
        escape_iff.mpr ⟨rfl, known⟩
      rw [characterBody, escaped]
      rfl

theorem character_body_fault (filled : text ≠ [])
    (read : characterBody text = .error complaint) :
    ∃ rest, text = '\\' :: rest ∧ escape rest = .error complaint := by
  unfold characterBody at read
  split at read
  · rename_i after
    refine ⟨after, rfl, ?_⟩
    cases escaped : escape after with
    | error complaint =>
        rw [escaped] at read
        cases read
        rfl
    | ok triple =>
        rw [escaped] at read
        cases read
  · cases read
  · exact absurd rfl filled

theorem character_body_split (read : characterBody text = .ok (written, value, rest)) :
    written ++ rest = text := by
  rcases character_body_iff.mp read with ⟨rfl, rfl, _⟩ | ⟨letter, rfl, rfl, _⟩ <;> rfl

theorem character_read {c : Char} (notFeed : c ≠ '\n') (notQuote : c ≠ '\'')
    (read : characterBody (c :: text) = .ok (written, value, '\'' :: rest)) :
    character (c :: text) = token (.character value) ('\'' :: written ++ ['\'']) rest := by
  unfold character
  split
  · rename_i same
    cases same
  · rename_i same
    exact absurd (List.cons.inj same).1 notFeed
  · rename_i same
    exact absurd (List.cons.inj same).1 notQuote
  · simp only [read]

theorem character_token {kind : Token.Kind} {spelling : List Char}
    (found : character text = token kind spelling rest) :
    ∃ c others written value, text = c :: others ∧ c ≠ '\n' ∧ c ≠ '\'' ∧
      characterBody text = .ok (written, value, '\'' :: rest) ∧ kind = .character value ∧
        spelling = '\'' :: written ++ ['\''] := by
  unfold character at found
  split at found
  · cases found
  · cases found
  · cases found
  · rename_i filled notFeed notQuote
    obtain ⟨c, others, rfl⟩ := List.exists_cons_of_ne_nil filled
    split at found
    · cases found
    · rename_i written value left read
      split at found <;> cases found
      refine ⟨c, others, written, value, rfl, ?_, ?_, read, rfl, rfl⟩
      · rintro rfl
        exact notFeed others rfl
      · rintro rfl
        exact notQuote others rfl

end Character

theorem character_start (text : List Char) : (character text).StartOf ('\'' :: text) := by
  unfold character
  split
  · exact ⟨rfl, _, rfl⟩
  · exact ⟨rfl, _, rfl⟩
  · exact ⟨rfl, _, rfl⟩
  · rename_i filled _ _
    split
    · rename_i complaint read
      obtain ⟨rest, rfl, _⟩ := character_body_fault filled read
      exact ⟨rfl, _, rfl⟩
    · rename_i written value rest read
      have split := character_body_split read
      split
      · refine ⟨?_, by simp, nofun⟩
        simp [← split]
      · exact ⟨by rw [List.cons_append, split], _, rfl⟩
      · exact ⟨by rw [List.cons_append, split], _, rfl⟩
      · exact ⟨by rw [List.cons_append, split], _, rfl⟩

def Body.StartOf (text : List Char) : Body → Prop
  | .closed _ spelling rest => spelling ++ rest = text
  | .cut read rest => read ++ rest = text
  | .stuck _ read rest => read ++ '\\' :: rest = text

theorem body_after_start (written text : List Char) (value : Char) (found : Body)
    (start : found.StartOf text) : (found.after written value).StartOf (written ++ text) := by
  cases found <;> simpa [Body.after, Body.StartOf, List.append_assoc] using start

theorem body_escaped {letter value : Char} (known : Escape.unescape letter = some value)
    (rest : List Char) : body ('\\' :: letter :: rest) = (body rest).after ['\\', letter] value := by
  rw [body, if_neg (by decide), if_neg (by decide), if_pos rfl]
  simp only [known]

theorem body_plain {c : Char} (notFeed : c ≠ '\n') (notQuote : c ≠ '"') (notEscape : c ≠ '\\')
    (rest : List Char) : body (c :: rest) = (body rest).after [c] c := by
  rw [body.eq_def]
  simp only [notFeed, notQuote, notEscape, if_false]

theorem body_start (text : List Char) : (body text).StartOf text := by
  induction text using body.induct with
  | case1 => rfl
  | case2 rest =>
      rw [body.eq_def]
      exact rfl
  | case3 rest =>
      rw [body.eq_def]
      exact rfl
  | case4 => exact rfl
  | case5 letter rest value known _ _ ih =>
      rw [body_escaped known]
      exact body_after_start _ _ _ _ ih
  | case6 letter rest unknown =>
      have step : body ('\\' :: letter :: rest) = .stuck (.invalidEscape letter) [] (letter :: rest) := by
        rw [body, if_neg (by decide), if_neg (by decide), if_pos rfl]
        simp only [unknown]
      rw [step]
      exact rfl
  | case7 c rest notFeed notQuote notEscape ih =>
      rw [body_plain notFeed notQuote notEscape]
      exact body_after_start _ _ _ _ ih

theorem string_start (text : List Char) : (string text).StartOf ('"' :: text) := by
  have start := body_start text
  unfold string
  split <;> rename_i found <;> simp only [found, Body.StartOf] at start
  · exact ⟨by rw [List.cons_append, start], by simp, nofun⟩
  · exact ⟨by rw [List.cons_append, start], _, rfl⟩
  · exact ⟨by rw [List.cons_append, start], _, rfl⟩
  · exact ⟨by simp [← start], _, rfl⟩

theorem symbol_start (c : Char) (rest : List Char) : (symbol c rest).StartOf (c :: rest) := by
  have single : ∀ kind, symbolKind? [c] = some kind → (token kind [c] rest).StartOf (c :: rest) :=
    fun kind found => ⟨rfl, by simp, symbol_kind_proper _ _ found⟩
  have unknown : (fault (.unexpectedCharacter c) [] [c] rest).StartOf (c :: rest) := ⟨rfl, _, rfl⟩
  cases rest with
  | nil =>
      cases one : symbolKind? [c] with
      | none => simpa only [symbol, one] using unknown
      | some kind => simpa only [symbol, one] using single kind one
  | cons d more =>
      cases two : symbolKind? [c, d] with
      | some kind =>
          simp only [symbol, two]
          exact ⟨rfl, by simp, symbol_kind_proper _ _ two⟩
      | none =>
          cases one : symbolKind? [c] with
          | none => simpa only [symbol, one, two] using unknown
          | some kind => simpa only [symbol, one, two] using single kind one

theorem head_cases (property : List Char → Lexeme → Prop) (nothing : property [] absent)
    (quoted : ∀ rest, property ('\'' :: rest) (character rest))
    (doubleQuoted : ∀ rest, property ('"' :: rest) (string rest))
    (digit : ∀ c rest, c.isDigit → property (c :: rest) (number (c :: rest)))
    (start : ∀ c rest, isWordStart c → property (c :: rest) (word c rest))
    (other : ∀ c rest, property (c :: rest) (symbol c rest)) (text : List Char) :
    property text (head text) := by
  cases text with
  | nil => exact nothing
  | cons c rest =>
      rw [head]
      by_cases quote : c = '\''
      · rw [if_pos quote, quote]
        exact quoted rest
      · by_cases double : c = '"'
        · rw [if_neg quote, if_pos double, double]
          exact doubleQuoted rest
        · by_cases isDigit : c.isDigit
          · rw [if_neg quote, if_neg double, if_pos isDigit]
            exact digit c rest isDigit
          · rw [if_neg quote, if_neg double, if_neg isDigit]
            by_cases isStart : isWordStart c
            · rw [if_pos isStart]
              exact start c rest isStart
            · rw [if_neg isStart]
              exact other c rest

theorem head_start (text : List Char) : (head text).StartOf text :=
  head_cases (fun text found => found.StartOf text) rfl character_start string_start number_start
    (fun c rest _ => word_start c rest) symbol_start text

end Lexeme
end McFront
