import Mathlib.Data.Finset.Card
import McFront.Proofs.Lexing.Calls

set_option autoImplicit false

namespace McFront

namespace Interner

variable {table : Interner} {text other : String} {texts : List String} {symbol : Symbol}

def Holds (table : Interner) (symbol : Symbol) : Prop :=
  table.texts[symbol.number]? = some symbol.text

theorem mem_insert : other ∈ (table.insert text).texts ↔ other ∈ table.texts ∨ other = text := by
  by_cases known : text ∈ table.texts
  · rw [insert, dif_pos known]
    exact ⟨.inl, fun member => member.elim id fun same => same ▸ known⟩
  · rw [insert, dif_neg known, List.mem_append, List.mem_singleton]

theorem mem_insert_all :
    other ∈ (table.insertAll texts).texts ↔ other ∈ table.texts ∨ other ∈ texts := by
  induction texts generalizing table with
  | nil => simp [insertAll]
  | cons text texts ih =>
      have later : table.insertAll (text :: texts) = (table.insert text).insertAll texts := rfl
      rw [later, ih, mem_insert, List.mem_cons, or_assoc]

theorem get_some (found : table.get? text = some symbol) : table.Holds symbol ∧ symbol.text = text := by
  rw [get?, Option.map_eq_some_iff] at found
  obtain ⟨number, listed, rfl⟩ := found
  obtain ⟨within, same, _⟩ := List.idxOf?_eq_some_iff.mp listed
  exact ⟨(List.getElem?_eq_some_iff.mpr ⟨within, same⟩), rfl⟩

theorem get_known : (table.get? text).isSome ↔ text ∈ table.texts := by
  rw [get?, Option.isSome_map]
  exact List.isSome_idxOf?

namespace Holds

theorem insert (holds : table.Holds symbol) (text : String) : (table.insert text).Holds symbol := by
  by_cases known : text ∈ table.texts
  · rwa [Interner.insert, dif_pos known]
  · rw [Interner.insert, dif_neg known]
    have within := (List.getElem?_eq_some_iff.mp holds).1
    rw [Holds, List.getElem?_append_left within]
    exact holds

theorem insert_all (holds : table.Holds symbol) (texts : List String) :
    (table.insertAll texts).Holds symbol := by
  induction texts generalizing table with
  | nil => exact holds
  | cons text texts ih => exact ih (holds.insert text)

theorem number_iff {symbol' : Symbol} (holds : table.Holds symbol) (holds' : table.Holds symbol') :
    symbol.number = symbol'.number ↔ symbol.text = symbol'.text := by
  obtain ⟨within, same⟩ := List.getElem?_eq_some_iff.mp holds
  obtain ⟨within', same'⟩ := List.getElem?_eq_some_iff.mp holds'
  rw [← same, ← same']
  exact table.distinct.getElem_inj_iff.symm

theorem eq_iff {symbol' : Symbol} (holds : table.Holds symbol) (holds' : table.Holds symbol') :
    symbol = symbol' ↔ symbol.text = symbol'.text := by
  constructor
  · rintro rfl
    rfl
  · intro same
    have number := (holds.number_iff holds').mpr same
    cases symbol
    cases symbol'
    cases number
    cases same
    rfl

end Holds

theorem intern_holds (table : Interner) (text : String) :
    (table.intern text).2.Holds (table.intern text).1 := by
  by_cases known : text ∈ table.texts
  · simp only [intern, insert, dif_pos known, Holds]
    exact List.getElem?_idxOf known
  · simp only [intern, insert, dif_neg known, Holds]
    rw [List.idxOf_eq_length known, List.getElem?_concat_length]

section Reserved

def reserve : List Keyword → Interner → List (Symbol × Keyword)
  | [], _ => []
  | word :: words, table =>
      ((table.intern word.word).1, word) :: reserve words (table.intern word.word).2

def kindOf (entries : List (Symbol × Keyword)) (symbol : Symbol) : Token.Kind :=
  match entries.find? fun entry => entry.1.number = symbol.number with
  | some entry => .ofKeyword entry.2
  | none => .identifier symbol.text

theorem reserve_words (words : List Keyword) (table : Interner) :
    (reserve words table).map Prod.snd = words := by
  induction words generalizing table with
  | nil => rfl
  | cons word words ih => rw [reserve, List.map_cons, ih]

theorem reserve_holds (words : List Keyword) (table : Interner) :
    ∀ entry ∈ reserve words table,
      (table.insertAll (words.map Keyword.word)).Holds entry.1 ∧ entry.1.text = entry.2.word := by
  induction words generalizing table with
  | nil => nofun
  | cons word words ih =>
      rw [reserve, List.forall_mem_cons]
      exact ⟨⟨(table.intern_holds word.word).insert_all _, rfl⟩, ih (table.intern word.word).2⟩

theorem find_reserved {entries : List (Symbol × Keyword)} (holds : table.Holds symbol)
    (all : ∀ entry ∈ entries, table.Holds entry.1 ∧ entry.1.text = entry.2.word) :
    (entries.find? fun entry => entry.1.number = symbol.number).map Prod.snd =
      (entries.map Prod.snd).find? (·.word == symbol.text) := by
  induction entries with
  | nil => rfl
  | cons entry entries ih =>
      rw [List.forall_mem_cons] at all
      obtain ⟨⟨held, named⟩, others⟩ := all
      have same := held.number_iff holds
      rw [named] at same
      rw [List.map_cons, List.find?_cons, List.find?_cons]
      by_cases isWord : entry.2.word = symbol.text
      · simp [isWord, same]
      · simp only [same, isWord, decide_false, beq_eq_false_iff_ne.mpr isWord]
        exact ih others

theorem kind_of_symbol (table : Interner) (texts : List String) (name : String) :
    kindOf (reserve Keyword.all table) ((table.reserving.insertAll texts).intern name).1 =
      Lexeme.wordKind name := by
  have holds := (table.reserving.insertAll texts).intern_holds name
  have all := fun entry member =>
    (reserve_holds Keyword.all table entry member).imp_left fun held =>
      (held.insert_all texts).insert name
  have found := find_reserved holds all
  rw [reserve_words] at found
  rw [Lexeme.wordKind, Keyword.ofWord?, kindOf]
  change _ = Keyword.all.find? (·.word == name) at found
  rw [← found]
  cases (reserve Keyword.all table).find? _ <;> rfl

end Reserved

end Interner

namespace Lexer

def handed : Nat → Lexer → List Symbol
  | 0, _ => []
  | draws + 1, lexer =>
      match lexer.next with
      | (.ok token, after) =>
          (token.kind.symbol?.map fun text => (lexer.interner.intern text).1).toList ++
            handed draws after
      | (.error _, _) => []

theorem handed_held (draws : Nat) (lexer : Lexer) :
    ∀ symbol ∈ lexer.handed draws, lexer.names.Holds symbol := by
  induction draws generalizing lexer with
  | zero => nofun
  | succ draws ih =>
      have kept := next_names lexer
      intro symbol member
      rw [handed] at member
      cases drawn : lexer.next with
      | mk result after =>
          rw [drawn] at member kept
          cases result with
          | error error => cases member
          | ok token =>
              rw [← kept]
              rcases List.mem_append.mp member with here | later
              · have grown := next_interner drawn
                cases carried : token.kind.symbol? with
                | none =>
                    rw [carried] at here
                    cases here
                | some text =>
                    rw [carried] at here grown
                    obtain rfl := List.mem_singleton.mp here
                    rw [names, grown]
                    exact (lexer.interner.intern_holds text).insert_all _
              · exact ih after symbol later

theorem call_interner (lexer : Lexer) (call : Call) :
    ∃ texts, (lexer.call call).2.interner = lexer.interner.insertAll texts := by
  have drawn : ∃ texts, lexer.next.2.interner = lexer.interner.insertAll texts := by
    cases found : lexer.next with
    | mk result after =>
        cases result with
        | ok token => exact ⟨_, next_interner found⟩
        | error error => exact ⟨[], failed_interner found⟩
  cases call with
  | draw => exact drawn
  | iteration =>
      cases finished : lexer.finished with
      | true => exact ⟨[], by simp [call, iterate, finished, Interner.insertAll]⟩
      | false =>
          obtain ⟨texts, grown⟩ := drawn
          refine ⟨texts, ?_⟩
          rw [← grown, call, iterate, finished]
          cases found : lexer.next with
          | mk result after =>
              cases result with
              | error error => rfl
              | ok token => cases ended : token.isEnd <;> simp [ended]

theorem past_interner (start : Lexer) (calls : List Call) :
    ∃ texts, (start.past calls).2.interner = start.interner.insertAll texts := by
  induction calls with
  | nil => exact ⟨[], rfl⟩
  | cons call earlier ih =>
      obtain ⟨texts, before⟩ := ih
      obtain ⟨more, after⟩ := (start.past earlier).2.call_interner call
      refine ⟨texts ++ more, ?_⟩
      rw [Interner.insert_all_append, ← before]
      exact after

end Lexer

def scannedNames (source : String) : List String :=
  (Cursor.ofText source).outlook.tokens.filterMap fun token => token.kind.symbol?

theorem of_text_interner (source : String) (table : Interner) :
    (Lexer.ofText source table).interner = table.reserving := by
  simp only [Lexer.ofText]

theorem of_text_names (source : String) (table : Interner) :
    (Lexer.ofText source table).names = table.reserving.insertAll (scannedNames source) := by
  have start : (Lexer.ofText source table).outlook = (Cursor.ofText source).outlook := rfl
  rw [Lexer.names, start, of_text_interner, scannedNames]

namespace Interner

inductive Operation where
  | intern (text : String)
  | get (text : String)
  | lex (source : String)

def Operation.names : Operation → List String
  | intern text => [text]
  | get _ => []
  | lex source => Keyword.all.map Keyword.word ++ scannedNames source

structure Session where
  table : Interner
  given : List Symbol

namespace Session

def perform (session : Session) : Operation → Session
  | .intern text =>
      ⟨(session.table.intern text).2, (session.table.intern text).1 :: session.given⟩
  | .get text => ⟨session.table, (session.table.get? text).toList ++ session.given⟩
  | .lex source =>
      ⟨(McFront.lex source session.table).2,
        (Lexer.ofText source session.table).handed (source.length + 1) ++ session.given⟩

def past : List Operation → Session
  | [] => ⟨.empty, []⟩
  | operation :: earlier => (past earlier).perform operation

variable {session : Session}

theorem perform_table (session : Session) (operation : Operation) :
    (session.perform operation).table = session.table.insertAll operation.names := by
  cases operation with
  | intern text => rfl
  | get text => rfl
  | lex source =>
      change (McFront.lex source session.table).2 = _
      rw [lex_names, of_text_names, reserving, Operation.names, insert_all_append]

theorem perform_holds (holds : ∀ symbol ∈ session.given, session.table.Holds symbol)
    (operation : Operation) :
    ∀ symbol ∈ (session.perform operation).given, (session.perform operation).table.Holds symbol := by
  have kept : ∀ symbol ∈ session.given, (session.perform operation).table.Holds symbol := by
    intro symbol member
    rw [perform_table]
    exact (holds symbol member).insert_all _
  cases operation with
  | intern text =>
      exact List.forall_mem_cons.mpr ⟨session.table.intern_holds text, kept⟩
  | get text =>
      refine List.forall_mem_append.mpr ⟨?_, kept⟩
      intro symbol member
      exact (get_some (Option.mem_toList.mp member)).1
  | lex source =>
      refine List.forall_mem_append.mpr ⟨?_, kept⟩
      intro symbol member
      change (McFront.lex source session.table).2.Holds symbol
      rw [lex_names]
      exact Lexer.handed_held _ _ symbol member

theorem past_holds (operations : List Operation) :
    ∀ symbol ∈ (past operations).given, (past operations).table.Holds symbol := by
  induction operations with
  | nil => nofun
  | cons operation earlier ih => exact perform_holds ih operation

theorem past_texts (operations : List Operation) (text : String) :
    text ∈ (past operations).table.texts ↔ text ∈ operations.flatMap Operation.names := by
  induction operations with
  | nil => exact Iff.rfl
  | cons operation earlier ih =>
      rw [past, perform_table, mem_insert_all, ih, List.flatMap_cons, List.mem_append, or_comm]

theorem past_size (operations : List Operation) :
    (past operations).table.size = (operations.flatMap Operation.names).toFinset.card := by
  have same : (operations.flatMap Operation.names).toFinset = (past operations).table.texts.toFinset := by
    ext text
    rw [List.mem_toFinset, List.mem_toFinset, past_texts]
  rw [same, List.toFinset_card_of_nodup (past operations).table.distinct, size]

end Session

end Interner

open Interner (Operation Session) in
theorem symbols_follow_texts (operations : List Operation) :
    (∀ a ∈ (Session.past operations).given, ∀ b ∈ (Session.past operations).given,
      (a = b ↔ a.text = b.text) ∧ (a.number = b.number ↔ a.text = b.text)) ∧
    (∀ text, ((Session.past operations).table.get? text).isSome ↔
      text ∈ operations.flatMap Operation.names) ∧
    (Session.past operations).table.size = (operations.flatMap Operation.names).toFinset.card ∧
    (∀ source other, (lex source (Session.past operations).table).1 = (lex source other).1) ∧
    ∀ source calls name,
      let lexer := ((Lexer.ofText source (Session.past operations).table).past calls).2
      Interner.kindOf (Interner.reserve Keyword.all (Session.past operations).table)
        (lexer.interner.intern name).1 = Lexeme.wordKind name := by
  refine ⟨?_, ?_, Session.past_size operations, ?_, ?_⟩
  · intro a member b member'
    have holds := Session.past_holds operations a member
    have holds' := Session.past_holds operations b member'
    exact ⟨holds.eq_iff holds', holds.number_iff holds'⟩
  · intro text
    rw [Interner.get_known, Session.past_texts]
  · intro source other
    rw [lex_outlook, lex_outlook]
  · intro source calls name
    obtain ⟨texts, grown⟩ :=
      (Lexer.ofText source (Session.past operations).table).past_interner calls
    rw [of_text_interner] at grown
    simp only [grown]
    exact Interner.kind_of_symbol _ texts name

theorem spelled_word_symbols_follow_texts :
    let session := Interner.Session.past [.get "x", .lex "if x \"if\" $ y", .intern "x"]
    session.given.map Symbol.text = ["x", "x", "if", "x"] ∧
      (∀ name ∈ session.given, ∀ spelled ∈ session.given,
        name.text = "x" → spelled.text = "if" → name.number ≠ spelled.number) ∧
      session.table.get? "y" = none ∧ session.table.size = 20 := by
  intro session
  obtain ⟨same, known, size, _⟩ :=
    symbols_follow_texts [.get "x", .lex "if x \"if\" $ y", .intern "x"]
  refine ⟨by decide +kernel, ?_, ?_, size.trans (by decide +kernel)⟩
  · intro name named spelled given isName isWord
    rw [Ne, (same name named spelled given).2, isName, isWord]
    decide
  · have unnamed : "y" ∉ [Interner.Operation.get "x", .lex "if x \"if\" $ y", .intern "x"].flatMap
        Interner.Operation.names := by decide +kernel
    exact Option.not_isSome_iff_eq_none.mp (mt (known "y").mp unnamed)

end McFront
