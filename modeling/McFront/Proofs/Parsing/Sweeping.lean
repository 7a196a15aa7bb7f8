import McFront.Proofs.Parsing.Ladder

set_option autoImplicit false

namespace McFront

open Parse Ladder

variable {budget bound least fuel : Nat} {rows : List (List Operator)} {sweep : Expr → Parse Expr}
  {start : Parser} {token : Token} {pending : List Token} {operator : Operator}
  {operation : BinaryOp}

theorem binary_operation_some
    (meant : Grammar.binaryOperation? least token = some operation) :
    ∃ operator, token.kind = .operator operator ∧ least ≤ operator.precedence ∧
      operator.binary? = some operation := by
  unfold Grammar.binaryOperation? at meant
  split at meant
  · rename_i operator named
    split at meant
    · cases meant
    · rename_i proper
      exact ⟨operator, named, by omega, meant⟩
  · cases meant

theorem binary_operation_of_operator (named : token.kind = .operator operator)
    (within : least ≤ operator.precedence) :
    Grammar.binaryOperation? least token = operator.binary? := by
  unfold Grammar.binaryOperation?
  rw [named]
  by_cases excluded : operator.family = .assignment ∨ operator.family = .conditional ∨
      operator.precedence < least
  · simp only [if_pos excluded]
    cases operator <;> simp_all [Operator.family, Operator.binary?]
    all_goals omega
  · simp only [if_neg excluded]

namespace Ladder

theorem Strata.within (strata : Strata least rows) :
    ∀ own ∈ rows, ∀ operator ∈ own, least ≤ operator.precedence := by
  induction strata with
  | done bare => nofun
  | level within same bare further ih =>
      intro own member operator held
      rcases List.mem_cons.mp member with rfl | member
      · rw [(same operator).mp held]
        exact within
      · have tighter := ih own member operator held
        omega

theorem Strata.stops (strata : Strata least rows)
    (stop : Grammar.binaryOperation? least token = none) :
    ∀ own ∈ rows, operation? own token = none := by
  intro own member
  unfold operation?
  split
  · rename_i operator named
    by_cases held : operator ∈ own
    · rw [if_pos held, ← binary_operation_of_operator named (strata.within own member operator held)]
      exact stop
    · rw [if_neg held]
  · rfl

inductive Sweep (bound : Nat) : List (List Operator) → (Expr → Parse Expr) → Prop
  | done : Sweep bound [] pure
  | level {fuel : Nat} {own : List Operator} {tighter : List (List Operator)}
      {inner : Expr → Parse Expr} (enough : bound ≤ fuel) (before : Sweep bound tighter inner) :
      Sweep bound (own :: tighter) fun left => inner left >>= folds fuel own tighter

theorem Sweep.weaken {lesser : Nat} (swept : Sweep bound rows sweep) (less : lesser ≤ bound) :
    Sweep lesser rows sweep := by
  induction swept with
  | done => exact .done
  | level enough before ih => exact .level (Nat.le_trans less enough) ih

theorem level_sweeps {budget : Nat} (enough : bound + rows.length < budget) :
    ∃ fuel sweep, bound ≤ fuel ∧ Sweep bound rows sweep ∧
      level budget rows = (cast fuel >>= sweep) := by
  induction rows generalizing budget with
  | nil =>
      obtain ⟨fuel, rfl⟩ := Nat.exists_eq_add_of_lt enough
      refine ⟨bound + fuel, pure, by omega, .done, ?_⟩
      rw [bind_pure]
      exact level.eq_2 _
  | cons own tighter ih =>
      rw [List.length_cons] at enough
      obtain ⟨budget, rfl⟩ : ∃ before, budget = before + 1 := ⟨budget - 1, by omega⟩
      obtain ⟨fuel, inner, within, swept, unfolded⟩ := ih (show _ < budget by omega)
      refine ⟨fuel, _, within, .level (show bound ≤ budget by omega) swept, ?_⟩
      rw [level.eq_3, unfolded, bind_assoc]

theorem folds_idle {own : List Operator} {tighter : List (List Operator)}
    (found : start.pending = token :: pending) (stop : operation? own token = none) (left : Expr) :
    folds (fuel + 1) own tighter left start = .ok left start := by
  simp only [folds, bind, EStateM.bind, peek, found, stop]
  rfl

theorem Sweep.idle (swept : Sweep bound rows sweep) (filled : 0 < bound)
    (found : start.pending = token :: pending)
    (stop : ∀ own ∈ rows, operation? own token = none) (left : Expr) :
    sweep left start = .ok left start := by
  induction swept with
  | done => rfl
  | @level fuel own tighter inner enough before ih =>
      obtain ⟨fuel, rfl⟩ : ∃ less, fuel = less + 1 := ⟨fuel - 1, by omega⟩
      have still := ih fun own member => stop own (List.mem_cons_of_mem _ member)
      have last : folds (fuel + 1) own tighter left start = .ok left start :=
        folds_idle found (stop own (List.mem_cons_self ..)) left
      simp only [bind, EStateM.bind, still, last]

-- One operation, and then what follows it.
def turn (fuel : Nat) (tighter : List (List Operator)) (operation : BinaryOp) (left : Expr)
    (next : Expr → Parse Expr) : Parse Expr := do
  let token ← accept
  let right ← level fuel tighter
  let joined ← check (Rule.binary operation left right token.location)
  next joined

theorem turn_bind (fuel : Nat) (tighter : List (List Operator)) (operation : BinaryOp)
    (left : Expr) (next further : Expr → Parse Expr) :
    turn fuel tighter operation left next >>= further =
      turn fuel tighter operation left fun joined => next joined >>= further := by
  simp only [turn, bind_assoc]

theorem folds_turn {own : List Operator} {tighter : List (List Operator)}
    (found : start.pending = token :: pending) (meant : operation? own token = some operation)
    (left : Expr) :
    folds (fuel + 1) own tighter left start =
      turn fuel tighter operation left (folds fuel own tighter) start := by
  simp only [folds, turn, bind, EStateM.bind, peek, found, meant]

theorem bind_congr_at {σ α β : Type} {program other : EStateM Fault σ α} {state : σ}
    (same : program state = other state) (next : α → EStateM Fault σ β) :
    (program >>= next) state = (other >>= next) state := by
  simp only [bind, EStateM.bind, same]

-- The levels at an operator. The tighter ones are idle, its own level joins one operand, and after
-- an operand where the tighter ones are idle again it makes no difference that they are skipped.
theorem Sweep.turns (swept : Sweep (bound + 1) rows sweep) (strata : Strata least rows)
    (filled : 0 < bound) (named : token.kind = .operator operator)
    (within : least ≤ operator.precedence) (meant : operator.binary? = some operation) :
    ∃ tighter fuel next again, bound ≤ fuel ∧ tighter.length ≤ rows.length ∧
      Strata (operator.precedence + 1) tighter ∧ Sweep bound rows again ∧
      (∀ left (start : Parser) pending, start.pending = token :: pending →
        sweep left start = turn fuel tighter operation left next start) ∧
      ∀ joined (mid : Parser) other pending, mid.pending = other :: pending →
        (∀ own ∈ tighter, operation? own other = none) → next joined mid = again joined mid := by
  induction swept generalizing least with
  | done =>
      cases strata with
      | done bare =>
          rw [bare operator within] at meant
          cases meant
  | @level fuel own tighter inner enough before ih =>
      cases strata with
      | @level _ strength _ _ atLeast same bare further =>
          by_cases held : operator ∈ own
          · obtain ⟨fuel, rfl⟩ : ∃ less, fuel = less + 1 := ⟨fuel - 1, by omega⟩
            have isStrength := (same operator).mp held
            have above : Grammar.binaryOperation? (strength + 1) token = none := by
              simp only [Grammar.binaryOperation?, named]
              rw [if_pos (.inr (.inr (by omega)))]
            have goes : operation? own token = some operation := by
              simp only [operation?, named, if_pos held, meant]
            refine ⟨tighter, fuel, folds fuel own tighter, _, by omega, by simp, ?_,
              .level (show bound ≤ fuel by omega) (before.weaken (by omega)), ?_, ?_⟩
            · rw [isStrength]
              exact further
            · intro left start pending found
              have still := before.idle (by omega) found (further.stops above) left
              simp only [bind, EStateM.bind, still]
              exact folds_turn found goes left
            · intro joined mid other pending found stop
              have still := before.idle (by omega) found stop joined
              simp only [bind, EStateM.bind, still]
          · have other : operator.precedence ≠ strength := fun isStrength =>
              held ((same operator).mpr isStrength)
            have tight : strength + 1 ≤ operator.precedence := by
              by_cases loose : operator.precedence < strength
              · rw [bare operator within loose] at meant
                cases meant
              · omega
            obtain ⟨inside, less, next, again, enoughLess, shorter, strata, swept, turns, skips⟩ :=
              ih further tight
            refine ⟨inside, less, fun joined => next joined >>= folds fuel own tighter, _, enoughLess,
              Nat.le_succ_of_le shorter, strata, .level (show bound ≤ fuel by omega) swept, ?_, ?_⟩
            · intro left start pending found
              rw [← turn_bind]
              exact bind_congr_at (turns left start pending found) _
            · intro joined mid other pending found stop
              exact bind_congr_at (skips joined mid other pending found stop) _

end Ladder

end McFront
