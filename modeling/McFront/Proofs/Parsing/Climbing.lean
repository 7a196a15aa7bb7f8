import McFront.Proofs.Parsing.Release
import McFront.Proofs.Parsing.Sweeping
import McFront.Proofs.Parsing.Unlimited

set_option autoImplicit false

namespace McFront

open Parse

variable {budget greater least : Nat} {rows : List (List Operator)} {start : Parser}
  {token : Token} {pending : List Token}

theorem type_frees (enough : budget ≤ greater) :
    Frees (Grammar.type budget) (Ladder.type greater) := by
  induction budget generalizing greater with
  | zero => exact frees_breach _ _
  | succ budget ih =>
      obtain ⟨greater, rfl⟩ := Nat.exists_eq_add_of_le' enough
      have inner := ih (Nat.le_add_left budget greater)
      rw [Grammar.type.eq_2, ← Nat.add_assoc, Ladder.type.eq_2]
      refine frees_nested (frees_bind peek_frees fun token => ?_)
      cases token.kind with
      | scalar scalar => exact frees_bind accept_frees fun _ => frees_pure _
      | operator operator =>
          cases operator with
          | star => exact frees_bind accept_frees fun _ => frees_bind inner fun _ => frees_pure _
          | _ => exact unexpected_frees _
      | punctuation mark =>
          cases mark with
          | leftParen =>
              refine frees_bind accept_frees fun _ => frees_bind inner fun inner => ?_
              exact frees_bind (expect_frees _ _) fun _ => frees_pure _
          | _ => exact unexpected_frees _
      | _ => exact unexpected_frees _

def Stopped (least : Nat) (parser : Parser) : Prop :=
  ∃ token pending, parser.pending = token :: pending ∧
    Grammar.binaryOperation? least token = none

theorem operations_stop {left expr : Expr} {after : Parser}
    (ran : Grammar.operations budget least left start = .ok expr after) : Stopped least after := by
  induction budget generalizing left start with
  | zero => cases ran
  | succ budget ih =>
      rw [Grammar.operations.eq_2] at ran
      obtain ⟨token, mid, peeked, ran⟩ := bind_ran ran
      cases meant : Grammar.binaryOperation? least token with
      | none =>
          rw [meant] at ran
          cases ran
          obtain ⟨rfl, pending, found⟩ := peek_ran peeked
          exact ⟨token, pending, found, meant⟩
      | some operation =>
          rw [meant] at ran
          obtain ⟨_, _, _, ran⟩ := bind_ran ran
          obtain ⟨_, _, _, ran⟩ := bind_ran ran
          obtain ⟨_, _, _, ran⟩ := bind_ran ran
          obtain ⟨_, _, _, ran⟩ := bind_ran ran
          obtain ⟨_, _, _, ran⟩ := bind_ran ran
          exact ih ran

theorem binary_stops {expr : Expr} {after : Parser}
    (ran : Grammar.binary budget least start = .ok expr after) : Stopped least after := by
  cases budget with
  | zero => cases ran
  | succ budget =>
      rw [Grammar.binary.eq_2] at ran
      simp only [keepingDepth, releasing] at ran
      split at ran
      · rename_i inner
        cases ran
        obtain ⟨_, _, _, inner⟩ := bind_ran inner
        obtain ⟨token, pending, found, stop⟩ := operations_stop inner
        exact ⟨token, pending, found, stop⟩
      · cases ran

-- Reading with this budget and reading by the ladder with one sixteen times as great, which pays
-- for the way down its levels at every operand.
structure Climbs (budget : Nat) : Prop where
  expression {greater : Nat} (enough : 16 * budget ≤ greater) :
    Frees (Grammar.expression budget) (Ladder.expression greater)
  binary {greater least : Nat} {rows : List (List Operator)} (enough : 16 * budget ≤ greater)
    (few : rows.length ≤ 10) (strata : Ladder.Strata least rows) :
    Frees (Grammar.binary budget least) (Ladder.level greater rows)
  operations {least : Nat} {rows : List (List Operator)} {sweep : Expr → Parse Expr}
    (few : rows.length ≤ 10) (strata : Ladder.Strata least rows)
    (swept : Ladder.Sweep (16 * budget) rows sweep) (left : Expr) :
    Frees (Grammar.operations budget least left) (sweep left)
  cast {greater : Nat} (enough : 16 * budget ≤ greater) :
    Frees (Grammar.cast budget) (Ladder.cast greater)
  casts {greater : Nat} (enough : 16 * budget ≤ greater) (source : Expr) :
    Frees (Grammar.casts budget source) (Ladder.casts greater source)
  unary {greater : Nat} (enough : 16 * budget ≤ greater) :
    Frees (Grammar.unary budget) (Ladder.unary greater)
  applications {greater : Nat} (enough : 16 * budget ≤ greater) (head : Expr) :
    Frees (Grammar.applications budget head) (Ladder.applications greater head)
  arguments {greater : Nat} (enough : 16 * budget ≤ greater) (close : Punctuation)
    (what : String) :
    Frees (Grammar.arguments budget close what) (Ladder.arguments greater close what)
  expressions {greater : Nat} (enough : 16 * budget ≤ greater) :
    Frees (Grammar.expressions budget) (Ladder.expressions greater)
  primary {greater : Nat} (enough : 16 * budget ≤ greater) :
    Frees (Grammar.primary budget) (Ladder.primary greater)

section Step

variable (lower : Climbs budget)
include lower

theorem expression_climbs (enough : 16 * budget + 15 ≤ greater) :
    Frees (Grammar.expression (budget + 1)) (Ladder.expression (greater + 1)) := by
  have inner := lower.expression (show 16 * budget ≤ greater by omega)
  have operand := lower.binary (show 16 * budget ≤ greater by omega)
    (show Ladder.levels.length ≤ 10 by decide) Ladder.levels_stratified
  rw [Grammar.expression.eq_2, Ladder.expression.eq_2]
  refine frees_nested (frees_bind operand fun left => frees_bind peek_frees fun token => ?_)
  cases token.kind with
  | operator operator =>
      cases operator with
      | question =>
          refine frees_bind accept_frees fun _ => frees_bind inner fun first => ?_
          refine frees_bind (expect_frees _ _) fun _ => ?_
          exact frees_bind inner fun second => frees_check _
      | becomes => exact frees_bind accept_frees fun _ => frees_bind inner fun _ => frees_check _
      | _ => exact frees_pure _
  | _ => exact frees_pure _

theorem binary_climbs (enough : 16 * budget + 15 ≤ greater) (few : rows.length ≤ 10)
    (strata : Ladder.Strata least rows) :
    Frees (Grammar.binary (budget + 1) least) (Ladder.level (greater + 1) rows) := by
  obtain ⟨fuel, sweep, within, swept, unfolded⟩ :=
    Ladder.level_sweeps (show 16 * budget + rows.length < greater + 1 by omega)
  rw [Grammar.binary.eq_2, unfolded]
  refine frees_keeping_depth (frees_bind (lower.cast within) fun left => ?_)
  exact lower.operations few strata swept left

-- After the operand behind an operator climbing starts again at its own least strength, while the
-- ladder goes on from the level of the operator.
theorem operations_climb {sweep : Expr → Parse Expr} (few : rows.length ≤ 10)
    (strata : Ladder.Strata least rows) (swept : Ladder.Sweep (16 * (budget + 1)) rows sweep)
    (left : Expr) : Frees (Grammar.operations (budget + 1) least left) (sweep left) := by
  intro start
  rw [Grammar.operations.eq_2]
  cases found : start.pending with
  | nil => exact .inl ⟨_, start, peek_bind_none found, trivial⟩
  | cons token pending =>
      cases meant : Grammar.binaryOperation? least token with
      | none =>
          refine .inr fun depth => ?_
          have seen : (start.atDepth depth).pending = token :: pending := found
          rw [swept.idle (by omega) seen (strata.stops meant) left, peek_bind found, meant]
          rfl
      | some operation =>
          obtain ⟨operator, named, within, isBinary⟩ := binary_operation_some meant
          have oneMore : Ladder.Sweep (16 * budget + 15 + 1) rows sweep := swept
          obtain ⟨tighter, fuel, next, again, enough, shorter, inside, resumed, turns, skips⟩ :=
            oneMore.turns strata (by omega) named within isBinary
          have operand := lower.binary (show 16 * budget ≤ fuel by omega)
            (Nat.le_trans shorter few) inside
          have resumes := resumed.weaken (Nat.le_add_right (16 * budget) 15)
          refine frees_at_congr (peek_bind found)
            (fun depth => turns left (start.atDepth depth) pending found) ?_
          rw [meant]
          refine frees_at_deepen (frees_at_bind (accept_frees _) fun taken mid ran => ?_)
          have seen : (start.atDepth (start.depth + 1)).pending = token :: pending := found
          have isToken : taken = token := accept_current seen ran
          rw [isToken, demand_operator named, pure_bind]
          refine frees_at_bind (operand mid) fun right after ran => ?_
          obtain ⟨other, others, follows, stop⟩ := binary_stops ran
          refine frees_at_bind (frees_check _ after) fun joined last checked => ?_
          obtain ⟨_, rfl⟩ := check_ran checked
          exact frees_at_congr rfl
            (fun depth => skips joined (last.atDepth depth) other others follows (inside.stops stop))
            (lower.operations few strata resumes joined last)

theorem cast_climbs (enough : 16 * budget + 15 ≤ greater) :
    Frees (Grammar.cast (budget + 1)) (Ladder.cast (greater + 1)) := by
  have within : 16 * budget ≤ greater := by omega
  rw [Grammar.cast.eq_2, Ladder.cast.eq_2]
  exact frees_keeping_depth
    (frees_bind (lower.unary within) fun source => lower.casts within source)

theorem casts_climb (enough : 16 * budget + 15 ≤ greater) (source : Expr) :
    Frees (Grammar.casts (budget + 1) source) (Ladder.casts (greater + 1) source) := by
  have within : 16 * budget ≤ greater := by omega
  rw [Grammar.casts.eq_2, Ladder.casts.eq_2]
  refine frees_bind peek_frees fun token => frees_ite ?_ (frees_pure _)
  refine frees_deepen (frees_bind accept_frees fun _ => ?_)
  refine frees_bind (type_frees (by omega)) fun target => ?_
  exact frees_bind (frees_check _) fun cast => lower.casts within cast

theorem unary_climbs (enough : 16 * budget + 15 ≤ greater) :
    Frees (Grammar.unary (budget + 1)) (Ladder.unary (greater + 1)) := by
  have within : 16 * budget ≤ greater := by omega
  rw [Grammar.unary.eq_2, Ladder.unary.eq_2]
  refine frees_bind peek_frees fun token => ?_
  cases Grammar.unaryOperation? token with
  | some operation =>
      refine frees_bind accept_frees fun _ => ?_
      exact frees_bind (frees_nested (lower.unary within)) fun _ => frees_check _
  | none => exact frees_bind (lower.primary within) fun head => lower.applications within head

theorem applications_climb (enough : 16 * budget + 15 ≤ greater) (head : Expr) :
    Frees (Grammar.applications (budget + 1) head) (Ladder.applications (greater + 1) head) := by
  have within : 16 * budget ≤ greater := by omega
  rw [Grammar.applications.eq_2, Ladder.applications.eq_2]
  refine frees_bind peek_frees fun token => ?_
  cases token.kind with
  | punctuation mark =>
      cases mark with
      | leftParen | leftBracket =>
          refine frees_bind accept_frees fun _ => ?_
          refine frees_bind (lower.arguments within _ _) fun given => ?_
          exact frees_bind (frees_check _) fun applied => lower.applications within applied
      | _ => exact frees_pure _
  | _ => exact frees_pure _

theorem arguments_climb (enough : 16 * budget + 15 ≤ greater) (close : Punctuation)
    (what : String) :
    Frees (Grammar.arguments (budget + 1) close what)
      (Ladder.arguments (greater + 1) close what) := by
  have within : 16 * budget ≤ greater := by omega
  rw [Grammar.arguments.eq_2, Ladder.arguments.eq_2]
  have finish (given : List Expr) : Frees (do
      let _ ← expect (.punctuation close) what
      return given : Parse (List Expr)) (do
      let _ ← expect (.punctuation close) what
      return given) := frees_bind (expect_frees _ _) fun _ => frees_pure _
  refine frees_bind (sees_frees _) fun closes => frees_ite (finish []) ?_
  exact frees_bind (lower.expressions within) fun given => finish given

theorem expressions_climb (enough : 16 * budget + 15 ≤ greater) :
    Frees (Grammar.expressions (budget + 1)) (Ladder.expressions (greater + 1)) := by
  have within : 16 * budget ≤ greater := by omega
  rw [Grammar.expressions.eq_2, Ladder.expressions.eq_2]
  refine frees_bind (lower.expression within) fun first => ?_
  refine frees_bind (takes_frees _) fun more => frees_ite ?_ (frees_pure _)
  exact frees_bind (lower.expressions within) fun _ => frees_pure _

theorem primary_climbs (enough : 16 * budget + 15 ≤ greater) :
    Frees (Grammar.primary (budget + 1)) (Ladder.primary (greater + 1)) := by
  have within : 16 * budget ≤ greater := by omega
  rw [Grammar.primary.eq_2, Ladder.primary.eq_2]
  refine frees_bind peek_frees fun token => ?_
  cases token.kind with
  | punctuation mark =>
      cases mark with
      | leftParen =>
          refine frees_bind accept_frees fun _ => frees_bind (lower.expression within) fun _ => ?_
          exact frees_bind (expect_frees _ _) fun _ => frees_pure _
      | _ => exact unexpected_frees _
  | boolean | integer | float | character => exact frees_bind accept_frees fun _ => frees_pure _
  | identifier name =>
      exact frees_bind accept_frees fun _ =>
        consult_frees fun analyzer => analyzer.name name token.location
  | _ => exact unexpected_frees _

end Step

-- A call costs the ladder one, and with this budget leaves it enough for the lesser one.
@[elab_as_elim]
theorem paid {motive : Nat → Prop} (enough : 16 * (budget + 1) ≤ greater)
    (step : ∀ less, 16 * budget + 15 ≤ less → motive (less + 1)) : motive greater := by
  obtain ⟨less, rfl⟩ : ∃ less, greater = less + 1 := ⟨greater - 1, by omega⟩
  exact step less (by omega)

theorem phrases_climb (budget : Nat) : Climbs budget := by
  induction budget with
  | zero => constructor <;> intros <;> exact frees_breach _ _
  | succ budget lower =>
      exact {
        expression := fun enough => paid enough fun _ left => expression_climbs lower left
        binary := fun enough few strata =>
          paid enough fun _ left => binary_climbs lower left few strata
        operations := fun few strata swept left => operations_climb lower few strata swept left
        cast := fun enough => paid enough fun _ left => cast_climbs lower left
        casts := fun enough source => paid enough fun _ left => casts_climb lower left source
        unary := fun enough => paid enough fun _ left => unary_climbs lower left
        applications := fun enough head =>
          paid enough fun _ left => applications_climb lower left head
        arguments := fun enough close what =>
          paid enough fun _ left => arguments_climb lower left close what
        expressions := fun enough => paid enough fun _ left => expressions_climb lower left
        primary := fun enough => paid enough fun _ left => primary_climbs lower left }

section Unready

variable {α β : Type} {phrase : Parse α}

-- Without a pending token nothing can be looked at, which is a breach and changes nothing.
def Unready (phrase : Parse α) : Prop :=
  ∀ start, start.pending = [] → phrase start = .error (.breach .emptyLookahead) start

theorem unready_peek {next : Token → Parse α} : Unready (peek >>= next) := fun _ empty =>
  peek_bind_none empty

theorem unready_bind {next : α → Parse β} (unready : Unready phrase) :
    Unready (phrase >>= next) := fun start empty => by
  simp only [bind, EStateM.bind, unready start empty]

theorem unready_keeping_depth (unready : Unready phrase) : Unready (keepingDepth phrase) :=
  fun start empty => by simp only [keepingDepth, releasing, unready start empty]

theorem unready_nested (unready : Unready phrase) : Unready (nested phrase) := fun start empty => by
  unfold nested
  by_cases deep : Parser.nestingLimit ≤ start.depth
  · have ran : deepen start = .error (.breach .emptyLookahead) start :=
      (deepen_deep deep).trans (peek_bind_none empty)
    simp only [bind, EStateM.bind, ran]
  · simp only [bind, EStateM.bind, deepen_shallow deep, releasing,
      unready { start with depth := start.depth + 1 } empty]
    rfl

theorem expression_unready (budget : Nat) : Unready (Grammar.expression (budget + 4)) := by
  rw [Grammar.expression.eq_2, Grammar.binary.eq_2, Grammar.cast.eq_2, Grammar.unary.eq_2]
  exact unready_nested (unready_bind (unready_keeping_depth (unready_bind
    (unready_keeping_depth (unready_bind unready_peek)))))

theorem level_unready (budget : Nat) (rows : List (List Operator)) :
    Unready (Ladder.level (budget + rows.length + 3) rows) := by
  induction rows with
  | nil =>
      rw [List.length_nil, Ladder.level.eq_2, Ladder.cast.eq_2, Ladder.unary.eq_2]
      exact unready_bind unready_peek
  | cons own tighter ih =>
      rw [List.length_cons, ← Nat.add_assoc, Nat.add_right_comm _ 1 3, Ladder.level.eq_3]
      exact unready_bind ih

theorem ladder_unready (budget : Nat) : Unready (Ladder.expression (budget + 14)) := by
  rw [Ladder.expression.eq_2]
  exact unready_bind (level_unready budget Ladder.levels)

end Unready

theorem climbing_agrees_with_ladder (parser : Parser) (budget : Nat)
    (enough : 16 * parser.budget ≤ budget)
    (within : ∀ place after, parser.expression ≠
      .error (.error ((Complaint.nestingTooDeep Parser.nestingLimit).raise place)) after) :
    Ladder.expression budget parser = parser.expression := by
  by_cases empty : parser.pending = []
  · have least : 16 ≤ parser.budget := by
      unfold Parser.budget
      omega
    obtain ⟨own, isOwn⟩ := Nat.exists_eq_add_of_le' (Nat.le_trans (by decide : 4 ≤ 16) least)
    obtain ⟨less, rfl⟩ : ∃ less, budget = less + 14 := ⟨budget - 14, by omega⟩
    have climbing : parser.expression = .error (.breach .emptyLookahead) parser := by
      show Grammar.expression parser.budget parser = _
      rw [isOwn]
      exact expression_unready own parser empty
    rw [climbing]
    exact ladder_unready less parser empty
  · have returns := expression_returns empty
    rcases (phrases_climb parser.budget).expression enough parser with
      ⟨fault, after, failed, barred⟩ | same
    · have failed : parser.expression = .error fault after := failed
      rw [failed] at returns
      cases fault with
      | breach broken => exact returns.elim
      | error error =>
          obtain ⟨place, rfl⟩ := barred
          exact absurd failed (within place after)
    · have restored {after : Parser} (level : Level Eq parser after) :
          after.atDepth parser.depth = after := by
        rw [← level.depth]
        rfl
      have same : Ladder.expression budget parser = atDepth parser.depth parser.expression :=
        same parser.depth
      rw [same]
      cases ran : parser.expression with
      | ok expr after =>
          rw [ran] at returns
          rw [atDepth, restored returns]
      | error fault after =>
          rw [ran] at returns
          cases fault with
          | breach broken => exact returns.elim
          | error error => rw [atDepth, restored returns]

def rootOf? : EStateM.Result Fault Parser Expr → Option BinaryOp
  | .ok (.binary operation ..) _ => some operation
  | _ => none

theorem mixed_chains_agree :
    (∃ parser, (Parser.ofText "1 + 2 * -3 << 4 < 5 == true || false" .empty).1 = .ok parser ∧
      rootOf? parser.expression = some .logicalOr ∧
        Ladder.expression (16 * parser.budget) parser = parser.expression) ∧
    ∃ parser, (Parser.ofText "1 < 2 + 3 * true && false" .empty).1 = .ok parser ∧
      (errorOf? parser.expression).map CompileError.kind = some .typing ∧
        Ladder.expression (16 * parser.budget) parser = parser.expression := by
  constructor
  · obtain ⟨parser, made, isRoot⟩ := exists_of_measured (show
      (Parser.ofText "1 + 2 * -3 << 4 < 5 == true || false" .empty).1.toOption.map
        (fun parser : Parser => rootOf? parser.expression) = some (some .logicalOr) by
      decide +kernel)
    refine ⟨parser, made, isRoot, ?_⟩
    refine climbing_agrees_with_ladder parser _ (Nat.le_refl _) fun place after failed => ?_
    rw [failed] at isRoot
    cases isRoot
  · obtain ⟨parser, made, isTyping⟩ := exists_of_measured (show
      (Parser.ofText "1 < 2 + 3 * true && false" .empty).1.toOption.map
        (fun parser : Parser => (errorOf? parser.expression).map CompileError.kind) =
        some (some .typing) by decide +kernel)
    refine ⟨parser, made, isTyping, ?_⟩
    refine climbing_agrees_with_ladder parser _ (Nat.le_refl _) fun place after failed => ?_
    rw [failed] at isTyping
    cases isTyping

end McFront
