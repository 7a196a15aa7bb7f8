import McFront.Proofs.Parsing.CompileRun
import McFront.Proofs.Typing.Operands

set_option autoImplicit false

namespace McFront

theorem compile_total (text : String) (interner : Interner) :
    ((∃ program, (compile text interner).1 = .ok program) ∨
      ∃ error, (compile text interner).1 = .error (.error error)) ∧
    (∀ parser budget, (Parser.ofText text interner).1 = .ok parser →
      8 * ((Cursor.ofText text).outlook.tokens.length + 1) ≤ budget →
        Grammar.program budget parser = parser.program) ∧
    (∀ e pointer : Expr, e.require .pointer = .ok pointer →
      ∃ pointee, pointer.type.pointee? = some pointee) ∧
    (∀ e function : Expr, e.require .function = .ok function →
      ∃ signature, function.type.signature? = some signature) ∧
    (∀ name parameters result place before declaration after,
      Analysis.function name parameters result place before = .ok declaration after →
        declaration.result? = some result) := by
  refine ⟨?_, ?_, ?_, ?_, ?_⟩
  · exact compile_ends text interner
  · intro parser budget made enough
    exact program_settles (Prod.ext made rfl) enough
  · intro e pointer required
    obtain ⟨_, _, pointee, isPointer⟩ := Expr.require_pointer required
    exact ⟨pointee, by rw [isPointer]; rfl⟩
  · intro e function required
    obtain ⟨_, _, parameters, result, isFunction⟩ := Expr.require_function required
    exact ⟨(parameters, result), by rw [isFunction]; rfl⟩
  · intro name parameters result place before declaration after ran
    obtain ⟨entities, _, rfl, _⟩ := function_gains ran
    rfl

theorem compile_total_for_object :
    ∃ parser, (Parser.ofText "var x: int;" .empty).1 = .ok parser ∧
      Grammar.program 96 parser = parser.program ∧
      (∃ pointee, Ty.pointee? (.pointer .int) = some pointee) ∧
      (∃ signature, Ty.signature? (.function [] .int) = some signature) ∧
      Declaration.result? (.prototype ⟨.func, "f", .function [] .int, .first⟩ []) = some .int := by
  have total := compile_total "var x: int;" .empty
  obtain ⟨_, settles, pointed, called, declared⟩ := total
  obtain ⟨parser, made, _⟩ := exists_of_measured
    (show (Parser.ofText "var x: int;" .empty).1.toOption.map Parser.depth = some 0 by
      decide +kernel)
  have short : (Cursor.ofText "var x: int;").rest.length = 11 := by decide +kernel
  have tokens := (Cursor.ofText "var x: int;").outlook_length
  refine ⟨parser, made, settles parser 96 made (by omega), ?_, ?_, ?_⟩
  · exact pointed (.name "p" ⟨.val, "p", .pointer .int, .first⟩ (.pointer .int) .first) _ rfl
  · exact called (.name "f" ⟨.func, "f", .function [] .int, .first⟩ (.function [] .int) .first) _
      rfl
  · exact declared "f" [] .int .first (Analyzer.initial.entered .outermost) _ _ rfl

end McFront
