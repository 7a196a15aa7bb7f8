import Mathlib.Data.List.TakeWhile
import McFront.Proofs.Lexing.Drawing
import McFront.Proofs.Lexing.Printing
import McFront.Proofs.Relocation.Renaming

set_option autoImplicit false

namespace McFront

namespace Lexeme

open Token

variable {rename : String → Identifier} {c d : Char} {text spelling rest more : List Char}
  {kind : Token.Kind}

theorem rest_shorter (found : head (gap false text).2 = token kind spelling rest) :
    rest.length < text.length := by
  have start := head_start (gap false text).2
  rw [found] at start
  have positive := List.length_pos_iff.mpr start.2.1
  rw [← gap_split false text, ← start.1, List.length_append, List.length_append]
  omega

def respelling (rename : String → Identifier) (kind : Token.Kind) (spelling : List Char) : List Char :=
  match kind with
  | .identifier name => (rename name).name.toList
  | _ => spelling

-- The text with new names for its identifiers, up to the first fault in it.
def respelled (rename : String → Identifier) (text : List Char) : List Char :=
  match _found : head (gap false text).2 with
  | token kind spelling rest =>
      (gap false text).1 ++ respelling rename kind spelling ++ respelled rename rest
  | _ => text
termination_by text.length
decreasing_by exact rest_shorter _found

def goesOn (kind : Token.Kind) (spelling : List Char) (c : Char) : Bool :=
  match kind with
  | .integer radix _ => radix.isDigit c || spelling = ['0'] && (Radix.ofLetter? c).isSome
  | _ => false

def partedFrom (rename : String → Identifier) (kind : Token.Kind) (spelling : List Char) :
    Lexeme → Bool
  | token (.identifier name) _ _ => (rename name).name.toList.head?.all (!goesOn kind spelling ·)
  | _ => true

-- Whether no integer of the text goes on with the new name of an identifier.
def parted (rename : String → Identifier) (text : List Char) : Bool :=
  match _found : head (gap false text).2 with
  | token kind spelling rest => partedFrom rename kind spelling (head rest) && parted rename rest
  | _ => true
termination_by text.length
decreasing_by exact rest_shorter _found

theorem respelled_token (found : head (gap false text).2 = token kind spelling rest) :
    respelled rename text =
      (gap false text).1 ++ respelling rename kind spelling ++ respelled rename rest := by
  rw [respelled]
  split <;> rename_i same <;> rw [found] at same
  · cases same
    rfl
  · exact absurd rfl (same kind spelling rest)

theorem respelled_other
    (none : ∀ kind spelling rest, head (gap false text).2 ≠ token kind spelling rest) :
    respelled rename text = text := by
  rw [respelled]
  split
  · exact absurd ‹_› (none _ _ _)
  · rfl

theorem parted_token (found : head (gap false text).2 = token kind spelling rest)
    (apart : parted rename text) :
    partedFrom rename kind spelling (head rest) ∧ parted rename rest := by
  rw [parted] at apart
  split at apart <;> rename_i same <;> rw [found] at same
  · cases same
    exact (Bool.and_eq_true _ _).mp apart
  · exact absurd rfl (same kind spelling rest)

-- A gap that ends before something ends before anything that is no gap itself.
theorem gap_again {inComment : Bool} (left : (gap inComment text).2 ≠ [])
    (spelled : Spelling spelling kind) (more : List Char) :
    gap inComment ((gap inComment text).1 ++ (spelling ++ more)) =
      ((gap inComment text).1, spelling ++ more) := by
  induction text generalizing inComment with
  | nil => exact absurd rfl left
  | cons c text ih =>
      rw [gap] at left ⊢
      by_cases blank : isBlank c
      · rw [if_pos blank] at left ⊢
        rw [List.cons_append, gap, if_pos blank, ih left]
      · by_cases comment : (inComment || c = '#') = true
        · rw [if_neg blank, if_pos comment] at left ⊢
          rw [List.cons_append, gap, if_neg blank, if_pos comment, ih left]
        · have outside : inComment = false := by
            simp only [Bool.or_eq_true, not_or, Bool.not_eq_true] at comment
            exact comment.1
          rw [if_neg blank, if_neg comment, List.nil_append, outside, gap_spelling spelled]

theorem identifier_spelled {name : String} (spelled : Spelling spelling (.identifier name)) :
    isWord spelling := by
  generalize same : Token.Kind.identifier name = kind at spelled
  cases spelled with
  | identifier word _ => exact word
  | symbol symbolic => cases symbolic <;> cases same
  | reserved word => cases word <;> cases same
  | integer | float | character | text => cases same

theorem word_start_part (start : isWordStart c) : isWordPart c := by
  simp only [isWordStart, isWordPart, Char.isAlphanum, Bool.or_eq_true] at start ⊢
  exact start.imp_left .inl

theorem identifier_starts {name : String}
    (found : head (c :: more) = token (.identifier name) spelling rest) : isWordStart c := by
  have start := head_start (c :: more)
  rw [found] at start
  have word := identifier_spelled (head_spelling found)
  cases spelling with
  | nil => cases word
  | cons d tail =>
      cases start.1
      exact ((Bool.and_eq_true _ _).mp word).1

theorem word_stops {name : String} (word : isWord spelling) (stops : isWordPart c = false) :
    Stops (.identifier name) spelling c := by
  refine ⟨fun _ => stops, ?_, nofun, nofun⟩
  rintro b rfl
  have start : isWordStart b := ((Bool.and_eq_true _ _).mp word).1
  exact symbol_kind_free isWordStart (by decide) (by simp [start])

-- What a word stops, every other word stops as well, if that is no integer which goes on with it.
theorem Stops.renamed (stops : Stops kind spelling d) (before : isWordStart d)
    (start : isWordStart c) (ends : goesOn kind spelling c = false) : Stops kind spelling c := by
  refine ⟨?_, ?_, ?_, ?_⟩
  · intro word
    have part := stops.word word
    rw [word_start_part before] at part
    cases part
  · intro b _
    exact symbol_kind_free isWordStart (by decide) (by simp [start])
  · rintro radix value rfl
    simp only [goesOn, Bool.or_eq_false_iff] at ends
    refine ⟨ends.1, ?_, ?_⟩
    · rintro - rfl
      cases start
    · rintro rfl
      simpa using ends.2
  · intro value _
    exact Bool.eq_false_iff.mpr (word_start_not_digit start)

theorem respelled_first (text : List Char) : (respelled rename text).head? = text.head? ∨
    ∃ name spelling rest, head text = token (.identifier name) spelling rest ∧
      (respelled rename text).head? = (rename name).name.toList.head? := by
  have split := gap_split false text
  cases found : head (gap false text).2 with
  | token kind spelling rest =>
      have start := head_start (gap false text).2
      rw [found] at start
      rw [respelled_token found]
      cases passed : (gap false text).1 with
      | cons c passed =>
          rw [passed] at split
          rw [← split]
          exact .inl rfl
      | nil =>
          rw [passed, List.nil_append] at split
          rw [split] at found start
          rw [List.nil_append]
          cases kind with
          | identifier name =>
              refine .inr ⟨name, spelling, rest, found, ?_⟩
              obtain ⟨c, tail, spelled, _⟩ := word_opens (rename name).isWord
              rw [respelling, spelled, List.cons_append, List.head?_cons, List.head?_cons]
          | _ =>
              obtain ⟨c, tail, rfl⟩ := List.exists_cons_of_ne_nil start.2.1
              rw [← start.1]
              exact .inl rfl
  | absent | fault complaint lead read rest =>
      have same : respelled rename text = text := respelled_other (by simp [found])
      exact .inl (congrArg List.head? same)

theorem respelling_spelled (rename : String → Identifier) (spelled : Spelling spelling kind) :
    Spelling (respelling rename kind spelling) (kind.renamed (Identifier.name ∘ rename)) := by
  cases kind with
  | identifier name => exact .identifier (rename name).isWord (rename name).free
  | _ => exact spelled

theorem word_ends (word : isWord spelling) :
    head spelling = token (wordKind (String.ofList spelling)) spelling [] := by
  cases spelling with
  | nil => cases word
  | cons c tail =>
      obtain ⟨start, parts⟩ := (Bool.and_eq_true _ _).mp word
      have parts := List.all_eq_true.mp parts
      rw [head_word start, Lexeme.word, List.takeWhile_eq_self_iff.mpr parts,
        List.dropWhile_eq_nil_iff.mpr parts]

theorem respelling_stops (spelled : Spelling spelling kind) (stops : Stops kind spelling d) :
    Stops (kind.renamed (Identifier.name ∘ rename)) (respelling rename kind spelling) d := by
  cases kind with
  | identifier name => exact word_stops (rename name).isWord (stops.word (identifier_spelled spelled))
  | _ => exact stops

theorem stops_respelled (found : head (spelling ++ rest) = token kind spelling rest)
    (apart : partedFrom rename kind spelling (head rest))
    (first : (respelled rename rest).head? = some c) :
    Stops (kind.renamed (Identifier.name ∘ rename)) (respelling rename kind spelling) c := by
  have spelled := head_spelling found
  rcases respelled_first rest with same | ⟨name, _, _, next, same⟩
  · -- What is behind starts as before.
    rw [first] at same
    obtain ⟨others, rfl⟩ := List.head?_eq_some_iff.mp same.symm
    exact respelling_stops spelled (head_stops found)
  · -- A new name is directly behind, where the old one was.
    rw [next] at apart
    rw [first] at same
    cases rest with
    | nil => cases next
    | cons d others =>
        have before := identifier_starts next
        have stops := head_stops found
        have start : isWordStart c := by
          have word := (rename name).isWord
          obtain ⟨tail, split⟩ := List.head?_eq_some_iff.mp same.symm
          rw [split] at word
          exact ((Bool.and_eq_true _ _).mp word).1
        cases kind with
        | identifier name =>
            have part := stops.word (identifier_spelled spelled)
            rw [word_start_part before] at part
            cases part
        | _ =>
            refine stops.renamed before start ?_
            simpa [partedFrom, ← same] using apart

theorem respelled_nothing (nothing : respelled rename text = []) : text = [] := by
  rcases respelled_first text with same | ⟨name, _, _, _, same⟩ <;> rw [nothing] at same
  · exact List.head?_eq_none_iff.mp same.symm
  · obtain ⟨c, tail, spelled, _⟩ := word_opens (rename name).isWord
    rw [spelled] at same
    cases same

theorem head_respelled (found : head text = token kind spelling rest)
    (apart : partedFrom rename kind spelling (head rest)) :
    head (respelling rename kind spelling ++ respelled rename rest) =
      token (kind.renamed (Identifier.name ∘ rename)) (respelling rename kind spelling)
        (respelled rename rest) := by
  have start := head_start text
  rw [found] at start
  obtain ⟨rfl, _⟩ := start
  have spelled := respelling_spelled rename (head_spelling found)
  have stops (c : Char) := @stops_respelled rename c _ _ _ found apart
  cases left : respelled rename rest with
  | cons c more =>
      rw [left] at stops
      exact head_stopped spelled (stops c rfl) more
  | nil =>
      rw [respelled_nothing left, List.append_nil] at found
      rw [List.append_nil]
      cases kind with
      | identifier name =>
          rw [respelling, word_ends (rename name).isWord, String.ofList_toList, wordKind,
            (Keyword.of_word_none _).mpr (rename name).free]
          rfl
      | _ => exact found

end Lexeme

namespace Cursor

open Lexeme

variable {rename : String → Identifier} {cursor other after : Cursor} {token finish : Token}

theorem next_reads {passed ahead spelling rest : List Char} {kind : Token.Kind}
    (between : gap false cursor.rest = (passed, ahead))
    (found : head ahead = .token kind spelling rest) :
    cursor.next = (.ok ⟨kind, cursor.location.past passed⟩,
      ⟨rest, (cursor.location.past passed).past spelling⟩) := by
  simp only [next, between, found]

theorem next_respelled (drawn : cursor.next = (.ok token, after)) (proper : token.isEnd = false)
    (apart : parted rename cursor.rest) (left : other.rest = respelled rename cursor.rest) :
    parted rename after.rest ∧ ∃ token' behind, other.next = (.ok token', behind) ∧
      token'.kind = token.kind.renamed (Identifier.name ∘ rename) ∧ token'.isEnd = false ∧
        behind.rest = respelled rename after.rest := by
  obtain ⟨spelling, found⟩ := next_found drawn proper
  obtain ⟨behind, others⟩ := parted_token found apart
  have filled : (gap false cursor.rest).2 ≠ [] := by
    intro none
    rw [none] at found
    cases found
  have spelled := respelling_spelled rename (head_spelling found)
  have passed := gap_again filled spelled (respelled rename after.rest)
  rw [respelled_token found, List.append_assoc] at left
  rw [← left] at passed
  refine ⟨others, _, _, next_reads passed (head_respelled found behind), rfl, ?_, rfl⟩
  simp [Token.isEnd, spelled.proper]

theorem next_again (drawn : cursor.next = (.ok token, after)) (ended : token.isEnd = true)
    (left : other.rest = respelled rename cursor.rest) :
    ∃ token' behind, other.next = (.ok token', behind) ∧ token'.isEnd = true := by
  have none := next_nothing drawn ended
  rw [respelled_other (by simp [none, head])] at left
  have again : other.next =
      (.ok ⟨.endOfInput, other.location.past (gap false cursor.rest).1⟩,
        ⟨[], other.location.past (gap false cursor.rest).1⟩) := by
    simp only [next, left, none, head]
  exact ⟨_, _, again, rfl⟩

theorem outlook_respelled (ended : cursor.outlook.last = .ok finish)
    (apart : parted rename cursor.rest) (left : other.rest = respelled rename cursor.rest) :
    other.outlook.tokens.map Token.kind =
        cursor.outlook.tokens.map (·.kind.renamed (Identifier.name ∘ rename)) ∧
      ∃ finish', other.outlook.last = .ok finish' := by
  induction cursor using outlook.induct generalizing other with
  | case1 cursor token after drawn proper ih =>
      rw [outlook_token drawn proper] at ended ⊢
      obtain ⟨apart, token', behind, drawn, kind, proper, left⟩ :=
        next_respelled drawn proper apart left
      obtain ⟨kinds, finish', last⟩ := ih ended apart left
      rw [outlook_token drawn proper]
      exact ⟨by rw [Outlook.after, Outlook.after, List.map_cons, List.map_cons, kind, kinds],
        finish', last⟩
  | case2 cursor token after drawn isEnd =>
      have isEnd : token.isEnd = true := by simpa using isEnd
      obtain ⟨finish', behind, again, isEnd'⟩ := next_again drawn isEnd left
      rw [outlook_end drawn isEnd, outlook_end again isEnd']
      exact ⟨rfl, finish', rfl⟩
  | case3 cursor error after drawn =>
      rw [outlook_error drawn] at ended
      cases ended

end Cursor

def respelled (rename : String → Identifier) (text : String) : String :=
  String.ofList (Lexeme.respelled rename text.toList)

theorem lex_respelled {rename : String → Identifier} {text : String} {interner : Interner}
    {tokens : List Token} (lexed : (lex text interner).1 = .ok tokens)
    (apart : Lexeme.parted rename text.toList) (other : Interner) :
    ∃ tokens', (lex (respelled rename text) other).1 = .ok tokens' ∧
      tokens'.map Token.kind = tokens.map (·.kind.renamed (Identifier.name ∘ rename)) := by
  obtain ⟨finish, ended, rfl⟩ := lex_accepts_iff.mp lexed
  have left : (Cursor.ofText (respelled rename text)).rest =
      Lexeme.respelled rename (Cursor.ofText text).rest := String.toList_ofList
  obtain ⟨kinds, finish', last⟩ := Cursor.outlook_respelled ended apart left
  refine ⟨_, lex_accepts_iff.mpr ⟨finish', last, rfl⟩, ?_⟩
  rw [List.map_append, List.map_append, kinds, List.map_singleton, List.map_singleton,
    Cursor.outlook_finish ended, Cursor.outlook_finish last]
  rfl

end McFront
