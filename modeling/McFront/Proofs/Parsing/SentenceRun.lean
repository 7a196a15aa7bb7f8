import McFront.Proofs.Parsing.ExpressionRun
import McFront.Proofs.Parsing.Frame

set_option autoImplicit false

namespace McFront

open McFront.Parser Parse

namespace Analyzer

structure Open (analyzer : Analyzer) : Prop where
  opened : analyzer.scopes.scopes ≠ []
  named : ∀ function ∈ analyzer.function,
    ∀ parameter ∈ function.parameters, parameter.entity?.isSome

variable {before after analyzer : Analyzer}

theorem Open.same_frame (isOpen : before.Open) (same : SameFrame before after) : after.Open :=
  ⟨same.opened isOpen.opened, by rw [same.function]; exact isOpen.named⟩

theorem Open.entered (isOpen : analyzer.Open) (kind : ScopeKind) : (analyzer.entered kind).Open :=
  ⟨by simp [Analyzer.entered, ScopeChain.enter], isOpen.named⟩

theorem Open.enter_loop (isOpen : analyzer.Open) : analyzer.enterLoop.Open :=
  ⟨isOpen.opened, isOpen.named⟩

theorem Open.shared (isOpen : analyzer.Open) :
    ∀ parameter ∈ analyzer.shared, parameter.entity?.isSome := by
  unfold Analyzer.shared
  split
  · cases active : analyzer.function with
    | none => nofun
    | some function => exact isOpen.named function active
  · nofun

theorem Open.enter_block (isOpen : analyzer.Open) :
    Ensures (Analysis.enter .block) analyzer fun _ inside =>
      Analysis.enter .block analyzer = .ok () inside ∧ inside.Open := by
  apply ensures_ran
  have entered := isOpen.entered .block
  have filled := declare_all_ensures analyzer.shared isOpen.shared entered.opened
  have ran := McFront.enter_block analyzer
  unfold Ensures at filled ⊢
  rw [ran]
  split <;> simp_all only
  exact entered.same_frame filled

end Analyzer

variable {α : Type} {before analyzer : Analyzer} {depth budget : Nat} {input : List Token}

theorem at_function_meets :
    Meets Grammar.atFunction analyzer depth input fun _ rest => input = rest := by
  apply meets_bind (meets_sees (by simp))
  rintro seen _ ⟨rfl, _⟩
  cases seen with
  | false => exact meets_pure rfl
  | true =>
      apply meets_bind (meets_lookahead 2)
      rintro third _ rfl
      exact meets_pure rfl

theorem object_kind_meets :
    Meets Grammar.objectKind analyzer depth input fun kind left => input = left ∧
      ∃ introducer rest word, input = introducer :: rest ∧ introducer.kind = .keyword word ∧
        word.introduces? = some kind := by
  apply meets_bind meets_peek
  rintro token _ ⟨rfl, last, shows⟩
  split
  · rename_i named
    obtain ⟨rest, rfl⟩ := shows.proper (by simp [named])
    exact meets_pure ⟨rfl, token, rest, _, rfl, named, rfl⟩
  · rename_i named
    obtain ⟨rest, rfl⟩ := shows.proper (by simp [named])
    exact meets_pure ⟨rfl, token, rest, _, rfl, named, rfl⟩
  · rename_i named
    obtain ⟨rest, rfl⟩ := shows.proper (by simp [named])
    apply meets_bind (meets_lookahead 2)
    rintro third _ rfl
    split
    · exact meets_pure ⟨rfl, token, rest, _, rfl, named, rfl⟩
    · exact meets_reject
  · exact meets_unexpected

theorem introduces_object {word : Keyword} {kind : Kind} (isKind : word.introduces? = some kind) :
    kind = .var ∨ kind = .const ∨ kind = .val := by
  cases word <;> simp [Keyword.introduces?] at isKind <;> simp [← isKind]

theorem InitialReading.not_longer {initial : Option Expr} {rest : List Token}
    (reading : InitialReading analyzer depth initial input rest) : rest.length ≤ input.length := by
  cases reading with
  | missing stop => exact Nat.le_refl _
  | given announced inner =>
      have shorter := inner.shorter
      rw [List.length_cons]
      omega

theorem object_end_meets {introducer named colon : Token} {word : Keyword} {kind : Kind}
    {name : String} {type : Ty} {initial : Option Expr} {typed valued rest : List Token}
    (opened : before.scopes.scopes ≠ []) (introduced : introducer.kind = .keyword word)
    (isKind : word.introduces? = some kind) (isName : named.kind = .identifier name)
    (divided : colon.kind = .punctuation .colon) (isType : TypeReading depth typed type valued)
    (value : InitialReading before depth initial valued rest) :
    MeetsFrom (do
        let _ ← expect (.punctuation .semicolon) "';' after a declaration"
        analyze (Analysis.object kind name type initial named.location))
      before depth rest fun declaration after rest =>
        ObjectReading before depth declaration (introducer :: named :: colon :: typed) after rest := by
  apply meets_bind (meets_expect (by simp))
  rintro semicolon rest ⟨rfl, closed⟩
  apply MeetsFrom.weaken (from_analyze (object_ensures (introduces_object isKind) opened))
  rintro declaration after _ ⟨rfl, built, _⟩
  exact .object introduced isKind isName divided isType value closed built

theorem object_meets (opened : before.scopes.scopes ≠ []) (enough : 8 * input.length ≤ budget) :
    MeetsFrom (Grammar.object budget) before depth input fun declaration after rest =>
      ObjectReading before depth declaration input after rest := by
  apply meets_bind object_kind_meets
  rintro kind _ ⟨rfl, introducer, rest, word, rfl, introduced, isKind⟩
  rw [List.length_cons] at enough
  apply meets_bind meets_accept
  rintro _ _ ⟨rfl, rfl⟩
  apply meets_bind meets_expect_name
  rintro ⟨name, place⟩ rest ⟨named, rfl, isName, rfl⟩
  rw [List.length_cons] at enough
  apply meets_bind (meets_expect (by simp))
  rintro colon typed ⟨rfl, divided⟩
  rw [List.length_cons] at enough
  apply meets_bind (type_meets budget (by omega))
  intro type further isType
  have typeShorter := isType.shorter
  apply meets_bind (meets_takes (by simp))
  rintro taken valued (⟨rfl, becomes, rfl, announced⟩ | ⟨rfl, rfl, stop⟩)
  · rw [List.length_cons] at typeShorter
    have given : Meets (some <$> Grammar.expression budget) before depth valued
        fun initial rest => InitialReading before depth initial (becomes :: valued) rest := by
      apply meets_map ((expressions_run budget).expression (by omega))
      intro expr rest inner
      exact .given announced inner
    apply meets_bind given
    intro initial rest value
    exact object_end_meets opened introduced isKind isName divided isType value
  · have missing : Meets (pure none) before depth further fun initial rest =>
        InitialReading before depth initial further rest := meets_pure (.missing stop)
    apply meets_bind missing
    intro initial rest value
    exact object_end_meets opened introduced isKind isName divided isType value

theorem ObjectReading.shorter {declaration : Declaration} {after : Analyzer} {rest : List Token}
    (reading : ObjectReading before depth declaration input after rest) :
    rest.length < input.length := by
  cases reading with
  | object _ _ _ _ isType value _ _ =>
      have typeShorter := isType.shorter
      have valueShorter := value.not_longer
      simp only [List.length_cons] at *
      omega

theorem condition_meets (enough : 8 * input.length ≤ budget) :
    Meets (Grammar.condition budget) analyzer depth input fun condition rest =>
      ConditionReading analyzer depth condition input rest := by
  apply meets_bind (meets_expect (by simp))
  rintro opening inside ⟨rfl, opened⟩
  rw [List.length_cons] at enough
  apply meets_bind ((expressions_run budget).expression (by omega))
  intro expr further inner
  apply meets_bind (meets_expect (by simp))
  rintro closing rest ⟨rfl, closed⟩
  apply Meets.weaken meets_check
  rintro condition _ ⟨rfl, tested⟩
  exact .condition opened inner closed tested

theorem ConditionReading.shorter {condition : Expr} {rest : List Token}
    (reading : ConditionReading analyzer depth condition input rest) :
    rest.length + 2 < input.length := by
  cases reading with
  | condition opened inner closed tested =>
      have shorter := inner.shorter
      simp only [Phrase.least, List.length_cons] at *
      omega

theorem jump_meets {word : String} {jump : Analyzer → Location → Checked Stmt} {token : Token} :
    Meets (Grammar.jump word jump) analyzer depth (token :: input) fun stmt rest =>
      ∃ semicolon, input = semicolon :: rest ∧ semicolon.kind = .punctuation .semicolon ∧
        jump analyzer token.location = .ok stmt := by
  apply meets_bind meets_accept
  rintro _ _ ⟨rfl, rfl⟩
  apply meets_bind (meets_expect (by simp))
  rintro semicolon rest ⟨rfl, closed⟩
  apply Meets.weaken (meets_consult (jump · token.location))
  rintro stmt _ ⟨rfl, built⟩
  exact ⟨semicolon, rfl, closed, built⟩

theorem return_meets {token : Token} (enough : 8 * input.length + 6 ≤ budget) :
    Meets (Grammar.returnStatement budget) analyzer depth (token :: input) fun stmt rest =>
      ∃ value, ReturnReading analyzer depth value input rest ∧
        analyzer.returnValue value token.location = .ok stmt := by
  apply meets_bind meets_accept
  rintro _ _ ⟨rfl, rfl⟩
  apply meets_bind (meets_sees (by simp))
  rintro seen _ ⟨rfl, closes⟩
  cases seen with
  | true =>
      show Meets (expect (.punctuation .semicolon) "';' after 'return'" >>= fun _ =>
        get >>= fun parser => check (parser.analyzer.returnValue none token.location))
        analyzer depth input _
      apply meets_bind (meets_expect (by simp))
      rintro semicolon rest ⟨rfl, closed⟩
      apply Meets.weaken (meets_consult (·.returnValue none token.location))
      rintro stmt _ ⟨rfl, built⟩
      exact ⟨none, .missing closed, built⟩
  | false =>
      have value : Meets (some <$> Grammar.expression budget) analyzer depth input
          fun value rest => ∃ expr, value = some expr ∧
            Reading analyzer depth (.expression expr) input rest := by
        apply meets_map ((expressions_run budget).expression enough)
        intro expr rest inner
        exact ⟨expr, rfl, inner⟩
      apply meets_bind value
      rintro _ further ⟨expr, rfl, inner⟩
      apply meets_bind (meets_expect (by simp))
      rintro semicolon rest ⟨rfl, closed⟩
      apply Meets.weaken (meets_consult (·.returnValue (some expr) token.location))
      rintro stmt _ ⟨rfl, built⟩
      exact ⟨some expr, .given (by simpa using closes) inner closed, built⟩

theorem ReturnReading.shorter {value : Option Expr} {rest : List Token}
    (reading : ReturnReading analyzer depth value input rest) : rest.length < input.length := by
  cases reading with
  | missing closed => simp
  | given filled inner closed =>
      have shorter := inner.shorter
      simp only [Phrase.least, List.length_cons] at shorter
      omega

theorem local_meets (opened : before.scopes.scopes ≠ []) (enough : 8 * input.length ≤ budget) :
    MeetsFrom (Grammar.localDeclaration budget) before depth input fun stmt after rest =>
      ∃ declaration, stmt = .declare declaration ∧
        ObjectReading before depth declaration input after rest := by
  apply meets_bind at_function_meets
  rintro atFunction _ rfl
  cases atFunction with
  | true =>
      apply meets_bind meets_peek
      intro token rest peeked
      exact from_reject
  | false =>
      apply from_bind (object_meets opened enough)
      intro declaration after rest reading
      exact from_pure ⟨declaration, rfl, reading⟩

theorem in_loop_meets {phrase : Parse α} {midway : α → Analyzer → List Token → Prop}
    (meets : MeetsFrom phrase before.enterLoop depth input midway) :
    MeetsFrom (Grammar.inLoop phrase) before depth input fun a after rest =>
      ∃ inside, after = inside.leaveLoop ∧ midway a inside rest := by
  intro parser last stands
  exact from_releasing meets _ last (stands.change Analyzer.enterLoop)

def Sentence.least : Sentence → Nat
  | .statement _ | .block _ => 1
  | .statements _ => 0

theorem SentenceReading.shorter {sentence : Sentence} {after : Analyzer} {rest : List Token}
    (reading : SentenceReading before depth sentence input after rest) :
    rest.length + sentence.least ≤ input.length := by
  induction reading with
  | when within named tested inner stop ih =>
      have testedShorter := tested.shorter
      simp only [Sentence.least, List.length_cons] at *
      omega
  | ifElse within named tested chosen divided otherwise first second =>
      have testedShorter := tested.shorter
      simp only [Sentence.least, List.length_cons] at *
      omega
  | whileLoop within named tested inner ih =>
      have testedShorter := tested.shorter
      simp only [Sentence.least, List.length_cons] at *
      omega
  | returnValue within named inner built =>
      have innerShorter := inner.shorter
      simp only [Sentence.least, List.length_cons] at *
      omega
  | declare within inner => exact inner.shorter
  | evaluate within inner closed =>
      have innerShorter := inner.shorter
      simp only [Sentence.least, Phrase.least, List.length_cons] at *
      omega
  | _ =>
      simp only [Sentence.least, List.length_cons] at *
      omega

structure StatementsMeet (budget : Nat) : Prop where
  statement {before : Analyzer} {depth : Nat} {input : List Token} (isOpen : before.Open)
    (enough : 8 * input.length + 7 ≤ budget) :
    MeetsFrom (Grammar.statement budget) before depth input fun stmt after rest =>
      SentenceReading before depth (.statement stmt) input after rest
  block {before : Analyzer} {depth : Nat} {input : List Token} (isOpen : before.Open)
    (enough : 8 * input.length + 6 ≤ budget) :
    MeetsFrom (Grammar.block budget) before depth input fun stmt after rest =>
      SentenceReading before depth (.block stmt) input after rest
  statements {before : Analyzer} {depth : Nat} {input : List Token} (isOpen : before.Open)
    (enough : 8 * input.length + 8 ≤ budget) :
    MeetsFrom (Grammar.statements budget) before depth input fun stmts after rest =>
      SentenceReading before depth (.statements stmts) input after rest

section Step

variable (lower : StatementsMeet budget)
include lower

theorem branches_meet {token : Token} (isOpen : before.Open) (within : depth < nestingLimit)
    (named : token.kind = .keyword .ifWord) (enough : 8 * input.length + 8 ≤ budget) :
    MeetsFrom (do
        let condition ← Grammar.condition budget
        let first ← Grammar.statement budget
        if ← takes (.keyword .elseWord) then
          return .ifElse condition first (← Grammar.statement budget)
        else
          return .when condition first)
      before (depth + 1) input fun stmt after rest =>
        SentenceReading before depth (.statement stmt) (token :: input) after rest := by
  apply meets_bind (condition_meets (by omega))
  intro condition branches tested
  have testedShorter := tested.shorter
  apply from_bind (lower.statement isOpen (by omega))
  intro first mid further chosen
  have chosenShorter := chosen.shorter
  have left : mid.Open := isOpen.same_frame chosen.frames.same_frame
  apply meets_bind (meets_takes (by simp))
  rintro taken alternative (⟨rfl, other, rfl, divided⟩ | ⟨rfl, rfl, stop⟩)
  · simp only [List.length_cons, Sentence.least] at chosenShorter
    apply from_bind (lower.statement left (by omega))
    intro second final rest otherwise
    exact from_pure (.ifElse within named tested chosen divided otherwise)
  · exact from_pure (.when within named tested chosen stop)

theorem loop_meets {token : Token} (isOpen : before.Open) (within : depth < nestingLimit)
    (named : token.kind = .keyword .whileWord) (enough : 8 * input.length + 8 ≤ budget) :
    MeetsFrom (do
        let condition ← Grammar.condition budget
        return .whileLoop condition (← Grammar.inLoop (Grammar.statement budget)))
      before (depth + 1) input fun stmt after rest =>
        SentenceReading before depth (.statement stmt) (token :: input) after rest := by
  apply meets_bind (condition_meets (by omega))
  intro condition further tested
  have testedShorter := tested.shorter
  apply from_bind (in_loop_meets (lower.statement isOpen.enter_loop (by omega)))
  rintro body _ rest ⟨final, rfl, inner⟩
  exact from_pure (.whileLoop within named tested inner)

theorem statement_meets (isOpen : before.Open) (enough : 8 * input.length + 7 ≤ budget + 1) :
    MeetsFrom (Grammar.statement (budget + 1)) before depth input fun stmt after rest =>
      SentenceReading before depth (.statement stmt) input after rest := by
  rw [Grammar.statement]
  apply from_nested
  intro within
  apply meets_bind meets_peek
  rintro token _ ⟨rfl, last, shows⟩
  have objects : MeetsFrom (Grammar.localDeclaration budget) before (depth + 1) input
      fun stmt after rest => SentenceReading before depth (.statement stmt) input after rest := by
    apply MeetsFrom.weaken (local_meets isOpen.opened (by omega))
    rintro _ after rest ⟨declaration, rfl, inner⟩
    exact .declare within inner
  split
  · apply MeetsFrom.weaken (lower.block isOpen (by omega))
    intro stmt after rest inner
    exact .block within inner
  · rename_i named
    apply meets_bind (meets_shown shows (by simp [named]))
    rintro _ branches ⟨rfl, rfl⟩
    rw [List.length_cons] at enough
    exact branches_meet lower isOpen within named (by omega)
  · rename_i named
    apply meets_bind (meets_shown shows (by simp [named]))
    rintro _ branches ⟨rfl, rfl⟩
    rw [List.length_cons] at enough
    exact loop_meets lower isOpen within named (by omega)
  · rename_i named
    obtain ⟨further, rfl⟩ := shows.proper (by simp [named])
    apply Meets.starting jump_meets
    rintro stmt rest ⟨semicolon, rfl, closed, built⟩
    exact .breakLoop within named closed built
  · rename_i named
    obtain ⟨further, rfl⟩ := shows.proper (by simp [named])
    apply Meets.starting jump_meets
    rintro stmt rest ⟨semicolon, rfl, closed, built⟩
    exact .continueLoop within named closed built
  · rename_i named
    obtain ⟨further, rfl⟩ := shows.proper (by simp [named])
    rw [List.length_cons] at enough
    apply Meets.starting (return_meets (by omega))
    rintro stmt rest ⟨value, inner, built⟩
    exact .returnValue within named inner built
  · exact objects
  · exact objects
  · exact objects
  · apply meets_bind ((expressions_run budget).expression (by omega))
    intro expr further inner
    apply meets_bind (meets_expect (by simp))
    rintro semicolon rest ⟨rfl, closed⟩
    exact from_pure (.evaluate within inner closed)

theorem block_meets (isOpen : before.Open) (enough : 8 * input.length + 6 ≤ budget + 1) :
    MeetsFrom (Grammar.block (budget + 1)) before depth input fun stmt after rest =>
      SentenceReading before depth (.block stmt) input after rest := by
  rw [Grammar.block]
  apply meets_bind (meets_expect (by simp))
  rintro opening further ⟨rfl, opened⟩
  rw [List.length_cons] at enough
  have body : MeetsFrom (inScope .block (Grammar.statements budget)) before depth further
      fun stmts after rest => ∃ inside final, Analysis.enter .block before = .ok () inside ∧
        after = final.leaveScope ∧
          SentenceReading inside depth (.statements stmts) further final rest := by
    apply from_in_scope isOpen.enter_block
    rintro inside ⟨entered, isOpen⟩
    apply MeetsFrom.weaken (lower.statements isOpen (by omega))
    intro stmts final rest inner
    exact ⟨inside, final, entered, rfl, inner⟩
  apply from_bind body
  rintro stmts _ further ⟨inside, final, entered, rfl, inner⟩
  apply meets_bind (meets_expect (by simp))
  rintro closing rest ⟨rfl, closed⟩
  exact from_pure (.braces opened entered inner closed)

theorem statements_meet (isOpen : before.Open) (enough : 8 * input.length + 8 ≤ budget + 1) :
    MeetsFrom (Grammar.statements (budget + 1)) before depth input fun stmts after rest =>
      SentenceReading before depth (.statements stmts) input after rest := by
  rw [Grammar.statements]
  apply meets_bind meets_peek
  rintro token _ ⟨rfl, last, shows⟩
  split
  · rename_i closes
    exact from_pure (.noStatements ((shows.starts_iff (by simp)).mp closes))
  · split
    · exact from_unexpected
    · apply from_bind (lower.statement isOpen (by omega))
      intro first mid further head
      have shorter := head.shorter
      simp only [Sentence.least] at shorter
      have left : mid.Open := isOpen.same_frame head.frames.same_frame
      apply from_bind (lower.statements left (by omega))
      intro others final rest tail
      exact from_pure (.moreStatements head tail)

end Step

theorem statements_run (budget : Nat) : StatementsMeet budget := by
  induction budget with
  | zero => constructor <;> intros <;> omega
  | succ budget lower =>
      exact {
        statement := statement_meets lower
        block := block_meets lower
        statements := statements_meet lower }

end McFront
