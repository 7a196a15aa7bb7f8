import McFront.Proofs.Lexing.Printing
import McFront.Proofs.Tree.Leaves
import McFront.Proofs.Tree.Outlines
import McFront.Proofs.Tree.TypeText

set_option autoImplicit false

namespace McFront

-- Names that end at the next blank, and numbers that their texts tell apart.
def Leaf.Value.Legible : Leaf.Value → Prop
  | .name spelled => Plain spelled.toList
  | .float value => value.Normal
  | _ => True

def Legible (leaves : List Leaf) : Prop := ∀ leaf ∈ leaves, leaf.value.Legible

structure PlainNames {α : Type} (name : α → String) : Prop where
  plain (a : α) : Plain (name a).toList
  injective : Function.Injective name

theorem PlainNames.of_all {α : Type} {name : α → String} (all : List α) (listed : ∀ a, a ∈ all)
    (plain : ∀ a ∈ all, Plain (name a).toList) (distinct : (all.map name).Nodup) :
    PlainNames name where
  plain a := plain a (listed a)
  injective a b same := List.inj_on_of_nodup_map distinct (listed a) (listed b) same

def UnaryOp.all : List UnaryOp := [pos, neg, cmp, not, addr, deref]

def BinaryOp.all : List BinaryOp :=
  [add, sub, mul, quo, rem, bitAnd, bitOr, bitXor, shl, shr, logicalAnd, logicalOr, eq, ne, lt, gt,
    le, ge]

def Conversion.all : List Conversion := [value, bool, char, int, ext, trunc]

theorem Kind.mem_all (kind : Kind) : kind ∈ all := by cases kind <;> decide

theorem UnaryOp.plain_names : PlainNames UnaryOp.name :=
  .of_all all (fun operation => by cases operation <;> decide) (by decide) (by decide)

theorem BinaryOp.plain_names : PlainNames BinaryOp.name :=
  .of_all all (fun operation => by cases operation <;> decide) (by decide) (by decide)

theorem Conversion.plain_names : PlainNames Conversion.name :=
  .of_all all (fun tag => by cases tag <;> decide) (by decide) (by decide)

theorem Kind.plain_names : PlainNames Kind.name := .of_all all mem_all (by decide) (by decide)

theorem bool_plain_names : PlainNames (toString : Bool → String) :=
  .of_all [false, true] (fun value => by cases value <;> decide) (by decide) (by decide)

theorem int_plain_names : PlainNames (toString : Int → String) :=
  ⟨Binary64.int_text_plain, fun _ _ same => int_text_injective same⟩

-- What is left of an expression without its parts, its type, its place and its link.
inductive Shape where
  | bool (value : Bool)
  | int (value : Int)
  | float (value : Binary64)
  | char (value : Char)
  | name (name : String)
  | unary (operation : UnaryOp)
  | binary (operation : BinaryOp)
  | call
  | index
  | cast
  | assign
  | conditional
  | conversion (tag : Conversion)

def Expr.shape : Expr → Shape
  | bool value _ _ => .bool value
  | int value _ _ => .int value
  | float value _ _ => .float value
  | char value _ _ => .char value
  | name spelled _ _ _ => .name spelled
  | unary operation _ _ _ => .unary operation
  | binary operation _ _ _ _ => .binary operation
  | call .. => .call
  | index .. => .index
  | cast .. => .cast
  | assign .. => .assign
  | conditional .. => .conditional
  | conversion tag _ _ _ => .conversion tag

namespace Shape

def word : Shape → String
  | bool _ => "bool"
  | int _ => "int"
  | float _ => "float"
  | char _ => "char"
  | name _ => "id"
  | unary _ => "unary"
  | binary _ => "binary"
  | call => "call"
  | index => "index"
  | cast => "cast"
  | assign => "assign"
  | conditional => "conditional"
  | conversion _ => "conversion"

def argument : Shape → List Char
  | bool value => ' ' :: (toString value).toList
  | int value => ' ' :: (toString value).toList
  | float value => ' ' :: value.text.toList
  | char value => ' ' :: '\'' :: (Escape.shown value ++ ['\''])
  | name spelled => ' ' :: spelled.toList
  | unary operation => ' ' :: operation.name.toList
  | binary operation => ' ' :: operation.name.toList
  | conversion tag => ' ' :: tag.name.toList
  | call | index | cast | assign | conditional => []

def Legible : Shape → Prop
  | name spelled => Plain spelled.toList
  | float value => value.Normal
  | _ => True

def words : List String :=
  ["bool", "int", "float", "char", "id", "unary", "binary", "call", "index", "cast", "assign",
    "conditional", "conversion"]

theorem word_listed (shape : Shape) : shape.word ∈ words := by
  cases shape <;> simp [word, words]

end Shape

theorem Expr.dump_label (e : Expr) :
    (Labels.dump.expr e).toList =
      e.shape.word.toList ++ (e.shape.argument ++ ' ' :: ':' :: ' ' :: e.type.text.toList) := by
  cases e <;> simp [Labels.dump, Expr.head, Expr.shape, Shape.word, Shape.argument, Labels.literal,
    Escape.shownText, text_of_text]

theorem blank_ends {more : List Char} : ∀ c ∈ (' ' :: more).head?, (c != ' ') = false := by
  intro c head
  rw [← Option.some.inj head]
  rfl

theorem Plain.unbroken {text : List Char} (plain : Plain text) : ∀ c ∈ text, (c != ' ') = true :=
  fun c member => bne_iff_ne.mpr (plain c member).1

namespace Shape

variable {a b : Shape} {type other : Ty}

theorem words_plain : ∀ word ∈ words, Plain word.toList ∧ word.toList ≠ [] := by decide

theorem plain_unique {α : Type} (write : α → String) {x y : α} (plain : Plain (write x).toList)
    (plainToo : Plain (write y).toList) (tells : write x = write y → x = y)
    (same : ' ' :: (write x).toList ++ ' ' :: ':' :: ' ' :: type.text.toList =
      ' ' :: (write y).toList ++ ' ' :: ':' :: ' ' :: other.text.toList) : x = y ∧ type = other := by
  obtain ⟨run, tails⟩ := run_unique plain.unbroken plainToo.unbroken blank_ends blank_ends
    (List.tail_eq_of_cons_eq same)
  have types : type.text.toList ++ [] = other.text.toList ++ [] := by simpa using tails
  exact ⟨tells (String.toList_inj.mp run), (Ty.text_unique type other types).1⟩

theorem name_unique {α : Type} {name : α → String} (names : PlainNames name) {x y : α}
    (same : ' ' :: (name x).toList ++ ' ' :: ':' :: ' ' :: type.text.toList =
      ' ' :: (name y).toList ++ ' ' :: ':' :: ' ' :: other.text.toList) : x = y ∧ type = other :=
  plain_unique name (names.plain x) (names.plain y) (fun alike => names.injective alike) same

theorem argument_blank (shape : Shape) {more : List Char} :
    ∀ c ∈ (shape.argument ++ ' ' :: more).head?, (c != ' ') = false := by
  intro c head
  cases shape <;> cases head <;> rfl

theorem label_unique (legible : a.Legible) (legibleToo : b.Legible)
    (same : a.word.toList ++ (a.argument ++ ' ' :: ':' :: ' ' :: type.text.toList) =
      b.word.toList ++ (b.argument ++ ' ' :: ':' :: ' ' :: other.text.toList)) :
    a = b ∧ type = other := by
  obtain ⟨words, arguments⟩ := run_unique (words_plain _ a.word_listed).1.unbroken
    (words_plain _ b.word_listed).1.unbroken a.argument_blank b.argument_blank same
  have words := String.toList_inj.mp words
  have bare : ' ' :: ':' :: ' ' :: type.text.toList = ' ' :: ':' :: ' ' :: other.text.toList →
      type = other := by
    intro texts
    have types : type.text.toList ++ [] = other.text.toList ++ [] := by simpa using texts
    exact (Ty.text_unique type other types).1
  cases a with
  | bool value =>
      cases b with
      | bool valueToo =>
          obtain ⟨rfl, rfl⟩ := name_unique bool_plain_names arguments
          exact ⟨rfl, rfl⟩
      | _ => simp [word] at words
  | int value =>
      cases b with
      | int valueToo =>
          obtain ⟨rfl, rfl⟩ := name_unique int_plain_names arguments
          exact ⟨rfl, rfl⟩
      | _ => simp [word] at words
  | float value =>
      cases b with
      | float valueToo =>
          obtain ⟨rfl, rfl⟩ := plain_unique Binary64.text (Binary64.text_plain legible)
            (Binary64.text_plain legibleToo) (Binary64.text_injective legible legibleToo) arguments
          exact ⟨rfl, rfl⟩
      | _ => simp [word] at words
  | char value =>
      cases b with
      | char valueToo =>
          simp only [argument, List.cons_append, List.cons_inj_right, List.append_assoc] at arguments
          obtain ⟨rfl, tails⟩ := Token.written_unique (Escape.shown_written '\'' rfl value)
            (Escape.shown_written '\'' rfl valueToo) arguments
          exact ⟨rfl, bare (List.tail_eq_of_cons_eq tails)⟩
      | _ => simp [word] at words
  | name spelled =>
      cases b with
      | name spelledToo =>
          obtain ⟨rfl, rfl⟩ := plain_unique id legible legibleToo id arguments
          exact ⟨rfl, rfl⟩
      | _ => simp [word] at words
  | unary operation =>
      cases b with
      | unary operationToo =>
          obtain ⟨rfl, rfl⟩ := name_unique UnaryOp.plain_names arguments
          exact ⟨rfl, rfl⟩
      | _ => simp [word] at words
  | binary operation =>
      cases b with
      | binary operationToo =>
          obtain ⟨rfl, rfl⟩ := name_unique BinaryOp.plain_names arguments
          exact ⟨rfl, rfl⟩
      | _ => simp [word] at words
  | conversion tag =>
      cases b with
      | conversion tagToo =>
          obtain ⟨rfl, rfl⟩ := name_unique Conversion.plain_names arguments
          exact ⟨rfl, rfl⟩
      | _ => simp [word] at words
  | call | index | cast | assign | conditional =>
      cases b with
      | call | index | cast | assign | conditional =>
          first
          | exact ⟨rfl, bare arguments⟩
          | simp [word] at words
      | _ => simp [word] at words

theorem argument_one_line (legible : a.Legible) : '\n' ∉ a.argument := by
  have one : ∀ {text : List Char}, Plain text → '\n' ∉ ' ' :: text := by
    intro text plain member
    rcases List.mem_cons.mp member with isBlank | inside
    · cases isBlank
    · exact plain.one_line inside
  cases a with
  | bool value => exact one (bool_plain_names.plain value)
  | int value => exact one (int_plain_names.plain value)
  | float value => exact one (Binary64.text_plain legible)
  | char value =>
      have inside := Token.written_one_line (Escape.shown_written '\'' rfl value)
      simp [argument, inside]
  | name spelled => exact one legible
  | unary operation => exact one (UnaryOp.plain_names.plain operation)
  | binary operation => exact one (BinaryOp.plain_names.plain operation)
  | conversion tag => exact one (Conversion.plain_names.plain tag)
  | call | index | cast | assign | conditional => exact List.not_mem_nil

end Shape

theorem Outline.Clear.of_word {label : String} {word more : List Char} (plain : Plain word)
    (filled : word ≠ []) (oneLine : '\n' ∉ more) (split : label.toList = word ++ more) :
    Outline.Clear label := by
  obtain ⟨c, rest, rfl⟩ := List.exists_cons_of_ne_nil filled
  constructor
  · intro d head
    rw [split] at head
    rw [← Option.some.inj head]
    exact (plain c List.mem_cons_self).1
  · rw [split, List.mem_append]
    rintro (inside | after)
    · exact plain.one_line inside
    · exact oneLine after

theorem Expr.label_clear (e : Expr) (legible : e.shape.Legible) :
    Outline.Clear (Labels.dump.expr e) := by
  obtain ⟨plain, filled⟩ := Shape.words_plain _ e.shape.word_listed
  refine .of_word plain filled ?_ e.dump_label
  simp [Shape.argument_one_line legible, Ty.text_one_line]

namespace Entity

variable {a b : Entity}

theorem kind_words_plain : ∀ word ∈ Kind.all.map Kind.name, Plain word.toList ∧ word.toList ≠ [] := by
  decide

theorem head_text (entity : Entity) :
    entity.head.toList = entity.kind.name.toList ++
      ' ' :: (entity.name.toList ++ ' ' :: ':' :: ' ' :: entity.type.text.toList) := by
  simp [head, text_of_text]

theorem head_unique {rest others : List Char} (legible : Plain a.name.toList)
    (legibleToo : Plain b.name.toList)
    (same : a.head.toList ++ rest = b.head.toList ++ others) :
    a.kind = b.kind ∧ a.name = b.name ∧ a.type = b.type ∧ rest = others := by
  rw [head_text, head_text, List.append_assoc, List.append_assoc, List.cons_append,
    List.cons_append, List.append_assoc, List.append_assoc] at same
  obtain ⟨kindTexts, afterKind⟩ := run_unique (Kind.plain_names.plain a.kind).unbroken
    (Kind.plain_names.plain b.kind).unbroken blank_ends blank_ends same
  obtain ⟨nameTexts, afterName⟩ := run_unique legible.unbroken legibleToo.unbroken
    blank_ends blank_ends (List.tail_eq_of_cons_eq afterKind)
  have typeTexts : a.type.text.toList ++ rest = b.type.text.toList ++ others := by
    simpa using List.tail_eq_of_cons_eq afterName
  obtain ⟨types, left⟩ := Ty.text_unique a.type b.type typeTexts
  exact ⟨Kind.plain_names.injective (String.toList_inj.mp kindTexts),
    String.toList_inj.mp nameTexts, types, left⟩

theorem head_clear (entity : Entity) (legible : Plain entity.name.toList) {label : String}
    {rest : List Char} (oneLine : '\n' ∉ rest)
    (split : label.toList = entity.head.toList ++ rest) : Outline.Clear label := by
  obtain ⟨plain, filled⟩ := kind_words_plain _ (List.mem_map_of_mem entity.kind.mem_all)
  rw [head_text, List.append_assoc] at split
  refine .of_word plain filled ?_ split
  have name : '\n' ∉ entity.name.toList := Plain.one_line legible
  simp [name, oneLine, Ty.text_one_line]

end Entity

end McFront
