import McFront.Proofs.Parsing.DeclarationRun
import McFront.Proofs.Parsing.SentenceGiven

set_option autoImplicit false

namespace McFront

open McFront.Parser Parse

variable {before after : Analyzer} {depth budget : Nat} {input rest : List Token}

theorem parameters_given (budget : Nat) {parameters : List Declaration}
    (reading : ParametersReading depth before parameters input after rest) :
    Gives (Grammar.parameters budget) before depth input parameters after rest := by
  induction budget generalizing before input parameters with
  | zero => exact gives_out_of_budget
  | succ budget lower =>
      rw [Grammar.parameters]
      cases reading with
      | one isName divided isType built stop =>
          apply gives_bind (gives_expect_name isName)
          apply gives_bind (gives_expect divided)
          apply gives_bind (type_given budget isType)
          apply gives_bind (gives_analyze built)
          apply gives_bind (gives_takes_other (by simp) stop)
          exact gives_pure _
      | more isName divided isType built continued tail =>
          apply gives_bind (gives_expect_name isName)
          apply gives_bind (gives_expect divided)
          apply gives_bind (type_given budget isType)
          apply gives_bind (gives_analyze built)
          apply gives_bind (gives_takes continued)
          apply gives_bind (lower tail)
          exact gives_pure _

theorem parameter_list_given {parameters : List Declaration}
    (reading : ParameterListReading depth before parameters input after rest) :
    Gives (Grammar.parameterList budget) before depth input parameters after rest := by
  cases reading with
  | empty opened closed =>
      apply gives_bind (gives_expect opened)
      apply gives_bind (gives_sees closed)
      apply gives_bind (gives_pure [])
      apply gives_bind (gives_expect closed)
      exact gives_pure []
  | filled opened present inner closed =>
      apply gives_bind (gives_expect opened)
      apply gives_bind (gives_sees_other (by simp) present)
      apply gives_bind (parameters_given budget inner)
      apply gives_bind (gives_expect closed)
      exact gives_pure _

theorem gives_header {declaration function : Declaration} {next : Declaration → Parse Declaration}
    {finish : Analyzer} {further : List Token}
    (reading : HeaderReading depth before declaration input after rest)
    (gives : Gives (next declaration) after depth rest function finish further) :
    Gives (do
      let _ ← expect (.keyword .defWord) "'def'"
      let (name, place) ← expectName
      let parameters ← inScope .parameters (Grammar.parameterList budget)
      let _ ← expect (.punctuation .arrow) "'->' before the return type"
      let result ← Grammar.type budget
      let function ← analyze (Analysis.function name parameters result place)
      next function) before depth input function finish further := by
  cases reading with
  | header introduced isName entered taken divided isType built =>
      apply gives_bind (gives_expect introduced)
      apply gives_bind (gives_expect_name isName)
      apply gives_bind (gives_in_scope entered (parameter_list_given taken))
      apply gives_bind (gives_expect divided)
      apply gives_bind (type_given budget isType)
      apply gives_bind (gives_analyze built)
      exact gives

theorem function_body_given {declared begun : Analyzer} {declaration function : Declaration}
    {body : Stmt} (begins : Analysis.beginFunction declaration declared = .ok () begun)
    (inner : SentenceReading begun depth (.block body) input after rest)
    (defined : declaration.define body = .ok function) :
    Gives (Grammar.functionBody budget declaration) declared depth input function
      after.endFunction rest := by
  apply gives_bind (gives_analyze begins)
  apply gives_bind (gives_releasing (inner.given budget))
  exact gives_demand defined

theorem header_starts {declaration : Declaration}
    (reading : HeaderReading depth before declaration input after rest) :
    ∃ word named opening others, input = word :: named :: opening :: others ∧
      word.kind = .keyword .defWord ∧ opening.kind = .punctuation .leftParen := by
  cases reading with
  | header introduced isName entered taken =>
      cases taken with
      | empty opened closed => exact ⟨_, _, _, _, rfl, introduced, opened⟩
      | filled opened => exact ⟨_, _, _, _, rfl, introduced, opened⟩

theorem at_function_given {declaration : Declaration}
    (reading : HeaderReading depth before declaration input after rest) :
    Gives Grammar.atFunction before depth input true before input := by
  obtain ⟨word, named, opening, others, rfl, introduced, opened⟩ := header_starts reading
  apply gives_bind (gives_sees introduced)
  apply gives_bind gives_third
  rw [opened]
  exact gives_pure true

theorem declaration_given {declaration : Declaration}
    (reading : DeclarationReading depth before declaration input after rest) (budget : Nat) :
    Gives (Grammar.declaration budget) before depth input declaration after rest := by
  cases reading with
  | object inner => exact gives_bind (at_object_given inner) (object_given inner)
  | prototype header closed =>
      apply gives_bind (at_function_given header)
      apply gives_header header
      apply gives_bind (gives_takes closed)
      exact gives_pure _
  | function header begins inner defined =>
      obtain ⟨opening, others, rfl, opened⟩ := block_starts inner
      apply gives_bind (at_function_given header)
      apply gives_header header
      apply gives_bind (gives_takes_other (by simp) (mt starts_cons.mp (by simp [opened])))
      apply gives_bind (gives_sees opened)
      exact function_body_given begins inner defined

end McFront
