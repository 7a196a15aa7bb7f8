import McFront.Proofs.Lexing.Munch
import McFront.Proofs.Lexing.Printing
import McFront.Proofs.Number.Numeral
import McFront.Token.Display

set_option autoImplicit false

namespace McFront

namespace Escape

theorem shown_all_unique {content other : List Char}
    (same : content.flatMap shown = other.flatMap shown) : content = other := by
  have written := shown_written '\'' rfl
  induction content generalizing other with
  | nil =>
      cases other with
      | nil => rfl
      | cons c other => exact absurd (List.append_eq_nil_iff.mp same.symm).1 (written c).filled
  | cons c content ih =>
      cases other with
      | nil => exact absurd (List.append_eq_nil_iff.mp same).1 (written c).filled
      | cons d other =>
          rw [List.flatMap_cons, List.flatMap_cons] at same
          obtain ⟨rfl, left⟩ := Token.written_unique (written c) (written d) same
          rw [ih left]

theorem shown_text_injective : Function.Injective shownText := by
  intro content other same
  exact shown_all_unique (String.ofList_injective same)

theorem shown_all_one_line (content : List Char) : '\n' ∉ content.flatMap shown := by
  rw [List.mem_flatMap]
  rintro ⟨c, _, inside⟩
  exact Token.written_one_line (shown_written '\'' rfl c) inside

end Escape

namespace Radix

theorem digits_injective {radix : Radix} {m n : Nat} (same : radix.digits m = radix.digits n) :
    m = n := by
  rw [← radix.value_digits m, same, radix.value_digits]

theorem digits_one_line (radix : Radix) (number : Nat) : '\n' ∉ radix.digits number := by
  intro member
  have digit := radix.digits_digits number _ member
  cases digit

theorem name_injective {a b : Radix} (same : a.name = b.name) : a = b := by
  revert same
  cases a <;> cases b <;> decide

theorem name_apart (radix : Radix) :
    ∀ word ∈ ["identifier", "floating-point", "character", "string"],
      radix.name ≠ word ∧ word ≠ radix.name := by
  cases radix <;> decide

end Radix

namespace Token

theorem word_plain {spelling : List Char} (word : isWord spelling) : Plain spelling := by
  have parts : ∀ c ∈ spelling, Lexeme.isWordPart c = true := by
    cases spelling with
    | nil => cases word
    | cons first rest =>
        simp only [isWord, Bool.and_eq_true] at word
        refine List.forall_mem_cons.mpr ⟨?_, List.all_eq_true.mp word.2⟩
        have start := word.1
        simp only [Lexeme.isWordStart, Lexeme.isWordPart, Char.isAlphanum, Bool.or_eq_true] at *
        exact start.imp_left .inl
  intro c member
  have part := parts c member
  constructor <;> rintro rfl <;> cases part

namespace Kind

def Legible : Kind → Prop
  | identifier name => Plain name.toList
  | float value => value.Normal
  | _ => True

theorem spelled_legible {spelling : List Char} {kind : Kind} (spelled : Spelling spelling kind) :
    kind.Legible := by
  cases spelled with
  | identifier word free => exact word_plain word
  | float filled all allAfter => exact Binary64.of_decimal_normal _ _ _
  | reserved word => cases word <;> trivial
  | symbol symbolic => cases symbolic <;> trivial
  | integer | character | text => trivial

def fixed : List Kind :=
  Punctuation.all.map punctuation ++ Operator.all.map operator ++ Keyword.all.map keyword ++
    Scalar.all.map scalar ++ [true, false].map boolean ++ [endOfInput]

def parts? : Kind → Option (String × List Char)
  | identifier name => some ("identifier", name.toList)
  | integer radix value => some (radix.name, radix.lead.toList ++ radix.digits value)
  | float value => some ("floating-point", value.text.toList)
  | character value => some ("character", [value].flatMap Escape.shown)
  | text content => some ("string", content.toList.flatMap Escape.shown)
  | punctuation _ | operator _ | keyword _ | scalar _ | boolean _ | endOfInput => none

def words : List String :=
  ["identifier", "binary-integer", "decimal-integer", "hexadecimal-integer", "floating-point",
    "character", "string"]

variable {a b kind : Kind} {word : String} {shown : List Char}

theorem fixed_of_parts (closed : kind.parts? = none) : kind ∈ fixed := by
  simp only [fixed, List.mem_append, or_assoc]
  cases kind with
  | punctuation mark => exact .inl (List.mem_map_of_mem mark.mem_all)
  | operator meant => exact .inr (.inl (List.mem_map_of_mem meant.mem_all))
  | keyword word => exact .inr (.inr (.inl (List.mem_map_of_mem word.mem_all)))
  | scalar named => exact .inr (.inr (.inr (.inl (List.mem_map_of_mem named.mem_all))))
  | boolean value =>
      refine .inr (.inr (.inr (.inr (.inl (List.mem_map_of_mem ?_)))))
      cases value <;> decide
  | endOfInput => exact .inr (.inr (.inr (.inr (.inr List.mem_cons_self))))
  | identifier | integer | float | character | text => cases closed

theorem word_of_parts (parts : kind.parts? = some (word, shown)) : word ∈ words := by
  cases kind with
  | integer radix value =>
      cases parts
      cases radix <;> decide
  | identifier | float | character | text =>
      cases parts
      decide
  | punctuation | operator | keyword | scalar | boolean | endOfInput => cases parts

theorem display_parts (parts : kind.parts? = some (word, shown)) :
    kind.display.toList = '<' :: (word.toList ++ ':' :: (shown ++ ['>'])) := by
  cases kind with
  | identifier | integer | float | character | text =>
      cases parts
      unfold display
      simp only [Escape.shownText, text_of_text, String.toList_append, String.toList_ofList,
        List.append_assoc]
      rfl
  | punctuation | operator | keyword | scalar | boolean | endOfInput => cases parts

theorem parts_unique (legible : a.Legible) (legibleToo : b.Legible)
    (parts : a.parts? = some (word, shown)) (same : a.parts? = b.parts?) : a = b := by
  have apart := Radix.name_apart
  simp only [List.forall_mem_cons, List.not_mem_nil] at apart
  cases a with
  | identifier name =>
      cases b <;> simp [parts?, apart] at same
      rw [String.toList_inj.mp same]
  | integer radix value =>
      cases b with
      | integer radixToo other =>
          obtain ⟨named, texts⟩ := Prod.mk.inj (Option.some.inj same)
          obtain rfl := Radix.name_injective named
          rw [Radix.digits_injective (List.append_cancel_left texts)]
      | _ => simp [parts?, apart] at same
  | float value =>
      cases b <;> simp [parts?, apart] at same
      rw [Binary64.text_injective legible legibleToo (String.toList_inj.mp same)]
  | character value =>
      cases b with
      | character other =>
          obtain ⟨_, texts⟩ := Prod.mk.inj (Option.some.inj same)
          rw [List.singleton_inj.mp (Escape.shown_all_unique texts)]
      | _ => simp [parts?, apart] at same
  | text content =>
      cases b <;> simp [parts?, apart] at same
      rw [String.toList_inj.mp (Escape.shown_all_unique same)]
  | punctuation | operator | keyword | scalar | boolean | endOfInput => cases parts

theorem fixed_unique : ∀ a ∈ fixed, ∀ b ∈ fixed, a.display = b.display → a = b :=
  List.inj_on_of_nodup_map (by decide +kernel)

theorem fixed_apart : ∀ kind ∈ fixed, ∀ word ∈ words,
    ¬ '<' :: (word.toList ++ [':']) <+: kind.display.toList := by decide +kernel

theorem fixed_one_line : ∀ kind ∈ fixed, '\n' ∉ kind.display.toList := by decide +kernel

theorem words_unmarked : ∀ word ∈ words, ':' ∉ word.toList ∧ '\n' ∉ word.toList := by
  decide +kernel

theorem fixed_display_opened (closed : a ∈ fixed) (parts : b.parts? = some (word, shown)) :
    a.display ≠ b.display := by
  intro same
  refine fixed_apart a closed word (word_of_parts parts) ?_
  rw [same, display_parts parts]
  exact ⟨shown ++ ['>'], by simp⟩

theorem display_unique (legible : a.Legible) (legibleToo : b.Legible)
    (same : a.display = b.display) : a = b := by
  cases parts : a.parts? with
  | none =>
      cases partsToo : b.parts? with
      | none => exact fixed_unique a (fixed_of_parts parts) b (fixed_of_parts partsToo) same
      | some opened => exact absurd same (fixed_display_opened (fixed_of_parts parts) partsToo)
  | some opened =>
      cases partsToo : b.parts? with
      | none => exact absurd same.symm (fixed_display_opened (fixed_of_parts partsToo) parts)
      | some openedToo =>
          have texts := congrArg String.toList same
          rw [display_parts parts, display_parts partsToo] at texts
          obtain ⟨named, opens⟩ := before_unique (words_unmarked _ (word_of_parts parts)).1
            (words_unmarked _ (word_of_parts partsToo)).1 (List.tail_eq_of_cons_eq texts)
          have opens := List.append_cancel_right opens
          refine parts_unique legible legibleToo parts ?_
          rw [parts, partsToo, Prod.ext (String.toList_inj.mp named) opens]

theorem shown_one_line (legible : kind.Legible) (parts : kind.parts? = some (word, shown)) :
    '\n' ∉ shown := by
  cases kind with
  | identifier name =>
      cases parts
      exact Plain.one_line legible
  | integer radix value =>
      cases parts
      rw [List.mem_append, not_or]
      exact ⟨by cases radix <;> decide, radix.digits_one_line value⟩
  | float value =>
      cases parts
      exact (Binary64.text_plain legible).one_line
  | character | text =>
      cases parts
      exact Escape.shown_all_one_line _
  | punctuation | operator | keyword | scalar | boolean | endOfInput => cases parts

theorem display_one_line (legible : kind.Legible) : '\n' ∉ kind.display.toList := by
  cases parts : kind.parts? with
  | none => exact fixed_one_line kind (fixed_of_parts parts)
  | some opened =>
      have inside := shown_one_line legible parts
      have named := (words_unmarked _ (word_of_parts parts)).2
      simp [display_parts parts, inside, named]

end Kind

theorem munched_legible {text : List Char} {kinds : List Kind} (munched : Munched text kinds) :
    ∀ kind ∈ kinds, kind.Legible := by
  induction munched with
  | done between => exact List.forall_mem_singleton.mpr trivial
  | token between munch others ih =>
      exact List.forall_mem_cons.mpr ⟨Kind.spelled_legible munch.spelled, ih⟩

end Token

theorem lexed_legible {text : String} {interner : Interner} {tokens : List Token}
    (lexed : (lex text interner).1 = .ok tokens) : ∀ token ∈ tokens, token.kind.Legible := by
  obtain ⟨finish, ended, rfl⟩ := lex_accepts_iff.mp lexed
  have legible := Token.munched_legible (Cursor.outlook_munched ended)
  intro token member
  have listed := List.mem_map_of_mem (f := Token.kind) member
  rw [List.map_append] at listed
  exact legible token.kind listed

theorem listing_lines (tokens : List Token) :
    (Token.listing tokens).toList =
      (tokens.map Token.kind).flatMap fun kind => kind.display.toList ++ ['\n'] := by
  simp [Token.listing, String.toList_join, List.flatMap_map, Token.display]

theorem listing_tells_tokens :
    (∀ text interner tokens, (lex text interner).1 = .ok tokens →
      ∀ token ∈ tokens, '\n' ∉ token.display.toList) ∧
    Function.Injective Escape.shownText ∧
    ∀ text other interner names tokens others, (lex text interner).1 = .ok tokens →
      (lex other names).1 = .ok others → Token.listing tokens = Token.listing others →
        tokens.map Token.kind = others.map Token.kind := by
  refine ⟨?_, Escape.shown_text_injective, ?_⟩
  · intro text interner tokens lexed token member
    exact Token.Kind.display_one_line (lexed_legible lexed token member)
  · intro text other interner names tokens others lexed lexedToo same
    have legible := List.forall_mem_map.mpr (lexed_legible lexed)
    have legibleToo := List.forall_mem_map.mpr (lexed_legible lexedToo)
    have lines := congrArg String.toList same
    rw [listing_lines, listing_lines] at lines
    refine lines_tell (fun kind member => Token.Kind.display_one_line (legible kind member))
      (fun kind member => Token.Kind.display_one_line (legibleToo kind member)) ?_ lines
    intro a member b memberToo shown
    exact Token.Kind.display_unique (legible a member) (legibleToo b memberToo)
      (String.toList_inj.mp shown)

theorem respelled_bound_listing_tells_tokens :
    ∃ tokens others,
      (lex "c == '\\v' and 0x0F > 1.50" .empty).1 = .ok tokens ∧
      (lex "c=='\x0b'&&0Xf>1.5" .empty).1 = .ok others ∧
      Token.listing tokens = Token.listing others ∧
      tokens.map Token.kind = others.map Token.kind ∧
      ∀ token ∈ tokens, '\n' ∉ token.display.toList := by
  have listings : (lex "c == '\\v' and 0x0F > 1.50" .empty).1.toOption.map Token.listing =
      (lex "c=='\x0b'&&0Xf>1.5" .empty).1.toOption.map Token.listing := by decide +kernel
  obtain ⟨others, lexedToo, _⟩ := exists_of_measured (show
    (lex "c=='\x0b'&&0Xf>1.5" .empty).1.toOption.map (fun _ => ()) = some () by decide +kernel)
  rw [lexedToo] at listings
  obtain ⟨tokens, lexed, same⟩ := exists_of_measured listings
  have told := listing_tells_tokens
  exact ⟨tokens, others, lexed, lexedToo, same,
    told.2.2 _ _ .empty .empty tokens others lexed lexedToo same, told.1 _ .empty tokens lexed⟩

end McFront
