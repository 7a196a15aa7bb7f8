import McFront.Proofs.Parsing.SentenceRun

set_option autoImplicit false

namespace McFront

open McFront.Parser Parse

variable {before analyzer : Analyzer} {depth budget : Nat} {input rest : List Token}

theorem parameters_meet (budget : Nat) (opened : before.scopes.scopes ≠ [])
    (enough : 8 * input.length + 1 ≤ budget) :
    MeetsFrom (Grammar.parameters budget) before depth input fun parameters after rest =>
      ParametersReading depth before parameters input after rest := by
  induction budget generalizing before input with
  | zero => omega
  | succ budget ih =>
      rw [Grammar.parameters]
      apply meets_bind meets_expect_name
      rintro ⟨name, place⟩ rest ⟨named, rfl, isName, rfl⟩
      rw [List.length_cons] at enough
      apply meets_bind (meets_expect (by simp))
      rintro colon typed ⟨rfl, divided⟩
      rw [List.length_cons] at enough
      apply meets_bind (type_meets budget (by omega))
      intro type further isType
      have typeShorter := isType.shorter
      apply from_bind (from_analyze (parameter_ensures opened))
      rintro declaration mid _ ⟨rfl, built, _⟩
      obtain ⟨_, gains⟩ := parameter_gains built
      apply meets_bind (meets_takes (by simp))
      rintro taken others (⟨rfl, comma, rfl, continued⟩ | ⟨rfl, rfl, stop⟩)
      · rw [List.length_cons] at typeShorter
        apply from_bind (ih (gains.same_frame.opened opened) (by omega))
        intro others final rest tail
        exact from_pure (.more isName divided isType built continued tail)
      · exact from_pure (.one isName divided isType built stop)

theorem parameter_list_meets (opened : before.scopes.scopes ≠ [])
    (enough : 8 * input.length ≤ budget) :
    MeetsFrom (Grammar.parameterList budget) before depth input fun parameters after rest =>
      ParameterListReading depth before parameters input after rest := by
  apply meets_bind (meets_expect (by simp))
  rintro opening further ⟨rfl, isOpening⟩
  rw [List.length_cons] at enough
  apply meets_bind (meets_sees (by simp))
  rintro seen _ ⟨rfl, closes⟩
  cases seen with
  | true =>
      show MeetsFrom (expect (.punctuation .rightParen) "')' after the parameter list" >>=
        fun _ => pure []) before depth further _
      apply meets_bind (meets_expect (by simp))
      rintro closing rest ⟨rfl, closed⟩
      exact from_pure (.empty isOpening closed)
  | false =>
      apply from_bind (parameters_meet budget opened (by omega))
      intro parameters filled ending inner
      apply meets_bind (meets_expect (by simp))
      rintro closing rest ⟨rfl, closed⟩
      exact from_pure (.filled isOpening (by simpa using closes) inner closed)

theorem ParametersReading.shorter {parameters : List Declaration} {after : Analyzer}
    (reading : ParametersReading depth before parameters input after rest) :
    rest.length < input.length := by
  induction reading with
  | one isName divided isType built stop =>
      have typeShorter := isType.shorter
      simp only [List.length_cons]
      omega
  | more isName divided isType built continued tail ih =>
      have typeShorter := isType.shorter
      simp only [List.length_cons] at *
      omega

theorem ParameterListReading.shorter {parameters : List Declaration} {after : Analyzer}
    (reading : ParameterListReading depth before parameters input after rest) :
    rest.length < input.length := by
  cases reading with
  | empty opened closed =>
      simp only [List.length_cons]
      omega
  | filled opened present inner closed =>
      have innerShorter := inner.shorter
      simp only [List.length_cons] at *
      omega

theorem HeaderReading.shorter {declaration : Declaration} {after : Analyzer}
    (reading : HeaderReading depth before declaration input after rest) :
    rest.length < input.length := by
  cases reading with
  | header introduced isName entered taken divided isType built =>
      have takenShorter := taken.shorter
      have typeShorter := isType.shorter
      simp only [List.length_cons] at *
      omega

theorem begun_open {declared begun : Analyzer} {declaration : Declaration}
    (header : HeaderReading depth before declaration input declared rest)
    (opened : before.scopes.scopes ≠ [])
    (begins : Analysis.beginFunction declaration declared = .ok () begun) : begun.Open := by
  obtain ⟨entity, parameters, entities, rfl, listed, gains⟩ := header.gains
  obtain ⟨_, rfl⟩ := begin_function_ran begins
  refine ⟨gains.same_frame.opened opened, ?_⟩
  intro function active
  cases active
  exact listed_named listed

theorem function_body_meets {declared : Analyzer} {header : List Token} {declaration : Declaration}
    (reading : HeaderReading depth before declaration header declared input)
    (opened : before.scopes.scopes ≠ []) (idle : before.Idle)
    (enough : 8 * input.length + 6 ≤ budget) :
    MeetsFrom (Grammar.functionBody budget declaration) declared depth input
      fun function after rest => DeclarationReading depth before function header after rest := by
  obtain ⟨entity, parameters, _, isPrototype, _, gains⟩ := reading.gains
  have inactive : declared.function = none := (idle.same_frame gains.same_frame).function
  apply from_bind (from_analyze (begin_function_ensures inactive))
  rintro _ begun _ ⟨rfl, begins, _⟩
  have isOpen := begun_open reading opened begins
  apply from_bind (from_releasing ((statements_run budget).block isOpen enough))
  rintro body _ rest ⟨final, rfl, inner⟩
  have defined : declaration.define body = .ok (.function entity parameters body) := by
    rw [isPrototype]
    rfl
  apply Meets.starting (meets_demand defined)
  rintro _ _ ⟨rfl, rfl⟩
  exact .function reading begins inner defined

theorem parameter_scope_meets (enough : 8 * input.length ≤ budget) :
    MeetsFrom (inScope .parameters (Grammar.parameterList budget)) before depth input
      fun parameters after rest => before = after ∧ ∃ filled,
        ParameterListReading depth (before.entered .parameters) parameters input filled rest := by
  have entered : Ensures (Analysis.enter .parameters) before
      fun _ inside => inside = before.entered .parameters := ensures_ok (enter_parameters before) rfl
  apply from_in_scope entered
  rintro _ rfl
  have inside : (before.entered .parameters).scopes.scopes ≠ [] := by
    simp [Analyzer.entered, ScopeChain.enter]
  apply MeetsFrom.weaken (parameter_list_meets inside enough)
  intro parameters filled rest taken
  obtain ⟨_, _, gains⟩ := taken.gains
  exact ⟨(leave_entered gains).symm, filled, taken⟩

theorem function_meets (opened : before.scopes.scopes ≠ []) (idle : before.Idle)
    (enough : 8 * input.length ≤ budget) :
    MeetsFrom (Grammar.function budget) before depth input fun declaration after rest =>
      DeclarationReading depth before declaration input after rest := by
  apply meets_bind (meets_expect (by simp))
  rintro word further ⟨rfl, introduced⟩
  rw [List.length_cons] at enough
  apply meets_bind meets_expect_name
  rintro ⟨name, place⟩ further ⟨named, rfl, isName, rfl⟩
  rw [List.length_cons] at enough
  apply from_bind (parameter_scope_meets (by omega))
  rintro parameters _ typed ⟨rfl, filled, taken⟩
  have takenShorter := taken.shorter
  obtain ⟨entities, listed, gains⟩ := taken.gains
  apply meets_bind (meets_expect (by simp))
  rintro arrow typed ⟨rfl, divided⟩
  rw [List.length_cons] at takenShorter
  apply meets_bind (type_meets budget (by omega))
  intro result bodied isType
  have typeShorter := isType.shorter
  apply from_bind (from_analyze (function_ensures listed opened))
  rintro declaration declared _ ⟨rfl, built, _⟩
  rw [← leave_entered gains] at built
  have header : HeaderReading depth before declaration (word :: named :: further) declared bodied :=
    .header introduced isName (enter_parameters before) taken divided isType built
  apply meets_bind (meets_takes (by simp))
  rintro ended left (⟨rfl, semicolon, rfl, closed⟩ | ⟨rfl, rfl, stop⟩)
  · exact from_pure (.prototype header closed)
  · apply meets_bind (meets_sees (by simp))
    rintro seen _ ⟨rfl, _⟩
    cases seen with
    | false => exact from_unexpected
    | true => exact function_body_meets header opened idle (by omega)

theorem declaration_meets (opened : before.scopes.scopes ≠ []) (idle : before.Idle)
    (enough : 8 * input.length ≤ budget) :
    MeetsFrom (Grammar.declaration budget) before depth input fun declaration after rest =>
      DeclarationReading depth before declaration input after rest := by
  apply meets_bind at_function_meets
  rintro atFunction _ rfl
  cases atFunction with
  | true => exact function_meets opened idle enough
  | false =>
      apply MeetsFrom.weaken (object_meets opened enough)
      intro declaration after rest inner
      exact .object inner

theorem DeclarationReading.shorter {declaration : Declaration} {after : Analyzer}
    (reading : DeclarationReading depth before declaration input after rest) :
    rest.length < input.length := by
  cases reading with
  | object inner => exact inner.shorter
  | prototype header closed =>
      have headerShorter := header.shorter
      rw [List.length_cons] at headerShorter
      omega
  | function header begins inner defined =>
      have headerShorter := header.shorter
      have innerShorter := inner.shorter
      omega

theorem declarations_meet (budget : Nat) (opened : before.scopes.scopes ≠ []) (idle : before.Idle)
    (enough : 8 * input.length + 1 ≤ budget) {parser : Parser} {last : Checked Token}
    (stands : parser.Stands before depth ⟨input, last⟩) :
    Ensures (Grammar.declarations budget) parser fun declarations after =>
      ∃ analyzer token, last = .ok token ∧
        DeclarationsReading depth before declarations input analyzer ∧
          after.Stands analyzer depth ⟨[], last⟩ := by
  induction budget generalizing before input parser with
  | zero => omega
  | succ budget ih =>
      rw [Grammar.declarations]
      apply ensures_bind (peek_stands stands)
      intro token after peeked
      obtain ⟨shows, stands⟩ := peeked
      split
      · rename_i ended
        obtain ⟨rfl, isLast⟩ := shows.ended ended
        exact ensures_pure ⟨before, token, isLast, .done, stands⟩
      · rename_i proper
        have present : token.kind ≠ .endOfInput := by simpa [Token.is_end_iff] using proper
        obtain ⟨others, rfl⟩ := shows.proper present
        rw [List.length_cons] at enough
        have enoughFirst : 8 * (token :: others).length ≤ budget := by
          rw [List.length_cons]
          omega
        apply ensures_bind (declaration_meets opened idle enoughFirst after last stands)
        intro first after ensured
        obtain ⟨mid, rest, head, stands⟩ := ensured
        have shorter := head.shorter
        rw [List.length_cons] at shorter
        obtain ⟨_, _, gains⟩ := head.gains idle
        have same := gains.same_frame
        have tail := ih (same.opened opened) (idle.same_frame same) (by omega) stands
        apply ensures_bind tail
        intro others after ensured
        obtain ⟨final, token, isLast, tail, stands⟩ := ensured
        exact ensures_pure ⟨final, token, isLast, .more head tail, stands⟩

theorem outermost_meets (idle : before.Idle) (enough : 8 * input.length + 1 ≤ budget)
    {parser : Parser} {last : Checked Token} (stands : parser.Stands before depth ⟨input, last⟩) :
    Ensures (inScope .outermost (Grammar.declarations budget)) parser fun declarations after =>
      ∃ token analyzer, last = .ok token ∧
        DeclarationsReading depth (before.entered .outermost) declarations input analyzer ∧
          after.Stands analyzer.leaveScope depth ⟨[], last⟩ := by
  have entered : Ensures (Analysis.enter .outermost) before
      fun _ inside => inside = before.entered .outermost := ensures_ok (enter_outermost before) rfl
  apply ensures_in_scope (from_analyze entered parser last stands)
  rintro inside ⟨_, _, ⟨rfl, _, rfl⟩, stands⟩
  have opened : (before.entered .outermost).scopes.scopes ≠ [] := by
    simp [Analyzer.entered, ScopeChain.enter]
  have inactive : (before.entered .outermost).Idle := ⟨idle.function, idle.loops⟩
  apply ensures_weaken (declarations_meet budget opened inactive enough stands)
  intro declarations after ensured
  obtain ⟨final, token, isLast, inner, stands⟩ := ensured
  exact ⟨token, final, isLast, inner, stands.change Analyzer.leaveScope⟩

theorem program_meets (enough : 8 * input.length + 8 ≤ budget) {parser : Parser}
    {last : Checked Token} (stands : parser.Stands .initial 0 ⟨input, last⟩) :
    Ensures (Grammar.program budget) parser fun program after =>
      (∃ token, last = .ok token ∧ ProgramReading program input) ∧
        ∃ analyzer, after.Stands analyzer 0 ⟨[], last⟩ := by
  apply ensures_bind (outermost_meets ⟨rfl, rfl⟩ (by omega) stands)
  intro declarations after ensured
  obtain ⟨token, final, isLast, inner, stands⟩ := ensured
  exact ensures_pure
    ⟨⟨token, isLast, .program (enter_outermost .initial) inner⟩, final.leaveScope, stands⟩

end McFront
