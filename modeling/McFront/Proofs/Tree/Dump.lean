import McFront.Proofs.Lexing.Listing
import McFront.Proofs.Parsing.Spelling
import McFront.Proofs.Tree.DumpTrees

set_option autoImplicit false

namespace McFront

theorem Token.leaf_legible {token : Token} {leaf : Leaf} (legible : token.kind.Legible)
    (carried : token.leaf? = some leaf) : leaf.value.Legible := by
  obtain ⟨kind, place⟩ := token
  cases kind with
  | identifier | float =>
      cases carried
      exact legible
  | integer | boolean | character =>
      cases carried
      trivial
  | punctuation | operator | keyword | scalar | text | endOfInput => cases carried

theorem program_legible {text : String} {interner : Interner} {program : Declaration}
    (accepted : (compile text interner).1 = .ok program) : Legible program.leaves := by
  obtain ⟨finish, isLast, reading⟩ := compile_reads accepted
  have legible := Token.munched_legible (Cursor.outlook_munched isLast)
  obtain ⟨gathered, _⟩ := reading.spells.gathered
  rw [← gathered]
  intro leaf member
  obtain ⟨token, among, carried⟩ := List.mem_filterMap.mp member
  have legible := legible token.kind (List.mem_append_left _ (List.mem_map_of_mem among))
  exact Token.leaf_legible legible carried

theorem dump_tells_program (text other : String) (interner names : Interner)
    (program second : Declaration) (accepted : (compile text interner).1 = .ok program)
    (acceptedToo : (compile other names).1 = .ok second) (same : program.dump = second.dump) :
    program.bare = second.bare := by
  have legible := program_legible accepted
  have legibleToo := program_legible acceptedToo
  have outlines := Outline.indented_text_unique (program.outline_clears legible 0)
    (second.outline_clears legibleToo 0) same
  exact Declaration.outline_unique program second legible legibleToo outlines

theorem respelled_half_tells_program :
    ∃ program second,
      (compile "let k: float = 0.50; def f(c: char) -> bool \x7b return k > 2.0 or c == '\\v'; \x7d"
        .empty).1 = .ok program ∧
      (compile "let k: float = 0.5; # half\ndef f(c: char) -> bool \x7b return k > 2. || c == '\x0b'; \x7d"
        .empty).1 = .ok second ∧
      program.dump = second.dump ∧ program.bare = second.bare := by
  have dumps : (compile
      "let k: float = 0.50; def f(c: char) -> bool \x7b return k > 2.0 or c == '\\v'; \x7d"
        .empty).1.toOption.map Declaration.dump =
    (compile "let k: float = 0.5; # half\ndef f(c: char) -> bool \x7b return k > 2. || c == '\x0b'; \x7d"
        .empty).1.toOption.map Declaration.dump := by decide +kernel
  obtain ⟨second, acceptedToo, _⟩ := exists_of_measured (show
    (compile "let k: float = 0.5; # half\ndef f(c: char) -> bool \x7b return k > 2. || c == '\x0b'; \x7d"
      .empty).1.toOption.map (fun _ => ()) = some () by decide +kernel)
  rw [acceptedToo] at dumps
  obtain ⟨program, accepted, same⟩ := exists_of_measured dumps
  exact ⟨program, second, accepted, acceptedToo, same,
    dump_tells_program _ _ .empty .empty program second accepted acceptedToo same⟩

end McFront
