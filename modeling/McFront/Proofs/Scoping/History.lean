import McFront.Scope
import Mathlib.Data.List.Dedup
import Mathlib.Data.List.Forall2
import Mathlib.Data.List.Induction
import Mathlib.Data.List.Infix

set_option autoImplicit false

namespace McFront

variable {α : Type}

namespace Scope

structure Grows (before after : Scope α) : Prop where
  kind : after.kind = before.kind
  entries : before.entries <:+ after.entries
  keeps {name : String} {item : α} (held : before.get? name = some item) :
    after.get? name = some item

-- A scope in which these declarations were asked for, the earliest first.
structure Records (asked : List (String × α)) (scope : Scope α) : Prop where
  finds (name : String) : scope.get? name = asked.lookup name
  distinct : (scope.entries.map Prod.fst).Nodup

variable {before mid after scope : Scope α} {asked : List (String × α)} {name other : String}
  {item : α}

theorem get_declared : Scope.get? ⟨scope.kind, (name, item) :: scope.entries⟩ other =
    if other = name then some item else scope.get? other := by
  by_cases same : other = name
  · simp [get?, same]
  · simp [get?, List.lookup_cons, beq_false_of_ne same, same]

theorem lookup_asked : (asked ++ [(name, item)]).lookup other =
    (asked.lookup other).or (if other = name then some item else none) := by
  by_cases same : other = name
  · simp [List.lookup_append, same]
  · simp [List.lookup_append, List.lookup_cons, beq_false_of_ne same, same]

theorem Grows.refl (scope : Scope α) : scope.Grows scope := ⟨rfl, List.suffix_rfl, id⟩

theorem Grows.trans (first : before.Grows mid) (second : mid.Grows after) : before.Grows after :=
  ⟨second.kind.trans first.kind, first.entries.trans second.entries,
    fun held => second.keeps (first.keeps held)⟩

theorem Grows.declare (fresh : scope.get? name = none) :
    scope.Grows ⟨scope.kind, (name, item) :: scope.entries⟩ := by
  refine ⟨rfl, List.suffix_cons _ _, fun {other found} held => ?_⟩
  have differ : other ≠ name := by
    rintro rfl
    simp [fresh] at held
  rw [get_declared, if_neg differ, held]

theorem Records.empty (kind : ScopeKind) : Records [] (Scope.empty kind : Scope α) :=
  ⟨fun _ => rfl, .nil⟩

theorem mem_names_iff {entries : List (String × α)} :
    name ∈ entries.map Prod.fst ↔ entries.lookup name ≠ none := by
  rw [Ne, List.lookup_eq_none_iff]
  simp

theorem Records.declare (records : Records asked scope) (fresh : scope.get? name = none) :
    Records (asked ++ [(name, item)]) ⟨scope.kind, (name, item) :: scope.entries⟩ := by
  refine ⟨fun other => ?_, ?_⟩
  · rw [get_declared, lookup_asked, ← records.finds]
    by_cases same : other = name
    · simp [same, fresh]
    · simp [same]
  · rw [List.map_cons, List.nodup_cons]
    exact ⟨fun member => mem_names_iff.mp member fresh, records.distinct⟩

theorem Records.again {held : α} (records : Records asked scope)
    (known : scope.get? name = some held) : Records (asked ++ [(name, item)]) scope := by
  refine ⟨fun other => ?_, records.distinct⟩
  rw [lookup_asked, ← records.finds]
  by_cases same : other = name
  · simp [same, known]
  · simp [same]

theorem Records.size_eq (records : Records asked scope) :
    scope.size = (asked.map Prod.fst).dedup.length := by
  have names : (scope.entries.map Prod.fst).Perm (asked.map Prod.fst).dedup := by
    rw [List.perm_ext_iff_of_nodup records.distinct (List.nodup_dedup _)]
    intro name
    rw [List.mem_dedup, mem_names_iff, mem_names_iff, ← records.finds]
    rfl
  rw [← names.length_eq, List.length_map, size]

end Scope

namespace ScopeChain

inductive Call (α : Type) where
  | enter (kind : ScopeKind)
  | leave
  | declare (name : String) (item : α)
  | lookup (name : String)

def perform (chain : ScopeChain α) : Call α → ScopeChain α
  | .enter kind => chain.enter kind
  | .leave => chain.leave
  | .declare name item =>
      match chain.declare name item with
      | .declared grown => grown
      | .existing _ | .noScope => chain
  | .lookup _ => chain

def run (chain : ScopeChain α) (calls : List (Call α)) : ScopeChain α := calls.foldl perform chain

abbrev History (α : Type) := List (List (String × α))

def History.note (history : History α) : Call α → History α
  | .enter _ => [] :: history
  | .leave => history.tail
  | .declare name item => history.modifyHead (· ++ [(name, item)])
  | .lookup _ => history

def History.of (calls : List (Call α)) : History α := calls.foldl note []

def History.find? (history : History α) (name : String) : Option α :=
  history.findSome? (·.lookup name)

-- The same open scopes later. Only the innermost may have grown.
inductive Base : List (Scope α) → List (Scope α) → Prop where
  | none : Base [] []
  | scope {before after : Scope α} {outer : List (Scope α)} (grows : before.Grows after) :
      Base (before :: outer) (after :: outer)

def Over (start chain : ScopeChain α) : Prop :=
  ∃ inner base, chain.scopes = inner ++ base ∧ Base start.scopes base

variable {start chain : ScopeChain α} {history : History α} {scopes later : List (Scope α)}
  {calls : List (Call α)} {call : Call α} {name : String} {item : α}

theorem run_append_one (chain : ScopeChain α) (calls : List (Call α)) (call : Call α) :
    chain.run (calls ++ [call]) = (chain.run calls).perform call := by
  simp [run]

theorem perform_declare_fresh {scope : Scope α} {outer : List (Scope α)}
    (fresh : scope.get? name = none) :
    ScopeChain.perform ⟨scope :: outer⟩ (.declare name item) =
      ⟨⟨scope.kind, (name, item) :: scope.entries⟩ :: outer⟩ := by
  simp [perform, declare, Scope.declare, fresh]

theorem perform_declare_held {scope : Scope α} {outer : List (Scope α)} {held : α}
    (known : scope.get? name = some held) :
    ScopeChain.perform ⟨scope :: outer⟩ (.declare name item) = ⟨scope :: outer⟩ := by
  simp [perform, declare, Scope.declare, known]

theorem Base.refl (scopes : List (Scope α)) : Base scopes scopes := by
  cases scopes with
  | nil => exact .none
  | cons scope outer => exact .scope (.refl scope)

theorem Base.length_eq (base : Base scopes later) : later.length = scopes.length := by
  cases base <;> rfl

theorem Over.refl (chain : ScopeChain α) : chain.Over chain := ⟨[], _, rfl, .refl _⟩

theorem Over.declare (stays : start.Over chain) (name : String) (item : α) :
    start.Over (chain.perform (.declare name item)) := by
  obtain ⟨scopes⟩ := chain
  obtain ⟨inner, base, rfl, grown⟩ := stays
  cases inner with
  | cons top inner =>
      cases held : top.get? name with
      | some known =>
          rw [List.cons_append, perform_declare_held held]
          exact ⟨top :: inner, base, rfl, grown⟩
      | none =>
          rw [List.cons_append, perform_declare_fresh held]
          exact ⟨_ :: inner, base, rfl, grown⟩
  | nil =>
      cases shape : start.scopes with
      | nil =>
          rw [shape] at grown
          cases grown
          exact ⟨[], [], rfl, shape ▸ .none⟩
      | cons scope outer =>
          rw [shape] at grown
          obtain _ | @⟨_, after, _, grows⟩ := grown
          cases held : after.get? name with
          | some known =>
              rw [List.nil_append, perform_declare_held held]
              exact ⟨[], _, rfl, shape ▸ .scope grows⟩
          | none =>
              rw [List.nil_append, perform_declare_fresh held]
              exact ⟨[], _, rfl, shape ▸ .scope (grows.trans (.declare held))⟩

theorem Over.perform (stays : start.Over chain) (call : Call α)
    (above : start.depth ≤ (chain.perform call).depth) : start.Over (chain.perform call) := by
  cases call with
  | enter kind =>
      obtain ⟨inner, base, split, grown⟩ := stays
      exact ⟨Scope.empty kind :: inner, base, by simp [ScopeChain.perform, enter, split], grown⟩
  | leave =>
      obtain ⟨inner, base, split, grown⟩ := stays
      cases inner with
      | cons top inner =>
          exact ⟨inner, base, by simp [ScopeChain.perform, leave, split], grown⟩
      | nil =>
          have fits := grown.length_eq
          simp only [ScopeChain.perform, depth, leave, split, List.nil_append,
            List.length_tail] at above
          have bottom : base = [] := List.eq_nil_of_length_eq_zero (by omega)
          exact ⟨[], base, by simp [ScopeChain.perform, leave, split, bottom], grown⟩
  | declare name item => exact stays.declare name item
  | lookup name => exact stays

theorem run_over (calls : List (Call α))
    (above : ∀ earlier, earlier <+: calls → start.depth ≤ (start.run earlier).depth) :
    start.Over (start.run calls) := by
  induction calls using List.reverseRecOn with
  | nil => exact .refl start
  | append_singleton calls call ih =>
      have stays := ih fun earlier isEarlier =>
        above earlier (isEarlier.trans (List.prefix_append _ _))
      rw [run_append_one]
      exact stays.perform call (run_append_one start calls call ▸ above _ List.prefix_rfl)

theorem Over.back (stays : start.Over chain) (level : chain.depth = start.depth) :
    Base start.scopes chain.scopes := by
  obtain ⟨inner, base, split, grown⟩ := stays
  have fits := grown.length_eq
  rw [depth, split, List.length_append, depth] at level
  have none : inner = [] := List.eq_nil_of_length_eq_zero (by omega)
  rw [split, none]
  exact grown

theorem perform_records (records : List.Forall₂ Scope.Records history chain.scopes)
    (call : Call α) :
    List.Forall₂ Scope.Records (history.note call) (chain.perform call).scopes := by
  obtain ⟨scopes⟩ := chain
  cases call with
  | enter kind => exact .cons (.empty kind) records
  | leave =>
      cases records with
      | nil => exact .nil
      | cons _ outer => exact outer
  | lookup name => exact records
  | declare name item =>
      cases records with
      | nil => exact .nil
      | @cons asked scope history scopes records outer =>
          cases held : scope.get? name with
          | some known =>
              rw [perform_declare_held held]
              exact .cons (records.again held) outer
          | none =>
              rw [perform_declare_fresh held]
              exact .cons (records.declare held) outer

theorem run_records (calls : List (Call α)) :
    List.Forall₂ Scope.Records (History.of calls) (empty.run calls).scopes := by
  induction calls using List.reverseRecOn with
  | nil => exact .nil
  | append_singleton calls call ih =>
      rw [run_append_one]
      simpa [History.of] using perform_records ih call

theorem lookup_recorded (records : List.Forall₂ Scope.Records history chain.scopes)
    (name : String) : chain.lookup name = history.find? name := by
  obtain ⟨scopes⟩ := chain
  simp only [lookup, History.find?] at *
  induction records with
  | nil => rfl
  | cons first _ ih => rw [List.findSome?_cons, List.findSome?_cons, first.finds, ih]

theorem sizes_recorded (records : List.Forall₂ Scope.Records history chain.scopes) :
    chain.scopes.map Scope.size = history.map fun asked => (asked.map Prod.fst).dedup.length := by
  obtain ⟨scopes⟩ := chain
  simp only at *
  induction records with
  | nil => rfl
  | cons first _ ih => rw [List.map_cons, List.map_cons, first.size_eq, ih]

theorem declare_recorded (records : List.Forall₂ Scope.Records history chain.scopes)
    (name : String) (item : α) :
    (history = [] → chain.declare name item = .noScope) ∧
    ∀ asked ∈ history.head?,
      (∀ earlier, asked.lookup name = some earlier →
        chain.declare name item = .existing earlier ∧
          chain.perform (.declare name item) = chain) ∧
      (asked.lookup name = none →
        chain.declare name item = .declared (chain.perform (.declare name item))) := by
  obtain ⟨scopes⟩ := chain
  cases records with
  | nil => exact ⟨fun _ => rfl, by simp⟩
  | @cons asked scope history scopes records outer =>
      refine ⟨by simp, fun asked isHead => ?_⟩
      obtain rfl := Option.some.inj isHead
      rw [← records.finds]
      refine ⟨fun earlier known => ⟨?_, perform_declare_held known⟩, fun fresh => ?_⟩
      · simp [declare, Scope.declare, known]
      · rw [perform_declare_fresh fresh]
        simp [declare, Scope.declare, fresh]

end ScopeChain

open ScopeChain in
theorem scopes_follow_history :
    (∀ (start : ScopeChain α) (calls : List (Call α)),
      (∀ earlier, earlier <+: calls → start.depth ≤ (start.run earlier).depth) →
      (start.run calls).depth = start.depth → Base start.scopes (start.run calls).scopes) ∧
    (∀ calls : List (Call α),
      let chain := ScopeChain.empty.run calls
      let history := History.of calls
      (∀ name, chain.lookup name = history.find? name) ∧
      (∀ name item, (history = [] → chain.declare name item = .noScope) ∧
        ∀ asked ∈ history.head?,
          (∀ earlier, asked.lookup name = some earlier →
            chain.declare name item = .existing earlier ∧
              chain.perform (.declare name item) = chain) ∧
          (asked.lookup name = none →
            chain.declare name item = .declared (chain.perform (.declare name item)))) ∧
      chain.scopes.map Scope.size =
        history.map fun asked => (asked.map Prod.fst).dedup.length) := by
  refine ⟨fun start calls above level => (run_over calls above).back level, fun calls => ?_⟩
  have records := run_records calls
  exact ⟨lookup_recorded records, declare_recorded records, sizes_recorded records⟩

open ScopeChain in
theorem shadowing_follows_history :
    let start : ScopeChain Nat := ⟨[⟨.block, [("x", 0)]⟩, .empty .outermost]⟩
    let inside : List (Call Nat) :=
      [.declare "x" 5, .declare "y" 1, .enter .block, .declare "x" 2, .leave]
    let calls : List (Call Nat) :=
      [.enter .outermost, .declare "x" 0, .enter .block, .declare "x" 1, .declare "x" 2]
    let chain := ScopeChain.empty.run calls
    ((start.run inside).scopes = [⟨.block, [("y", 1), ("x", 0)]⟩, .empty .outermost] ∧
      Base start.scopes (start.run inside).scopes) ∧
    chain.lookup "x" = some 1 ∧ chain.declare "x" 3 = .existing 1 ∧
      chain.scopes.map Scope.size = [1, 1] := by
  intro start inside calls chain
  have above : ∀ earlier, earlier <+: inside → start.depth ≤ (start.run earlier).depth := by
    simp only [← List.mem_inits]
    decide
  obtain ⟨finds, declares, sizes⟩ := (scopes_follow_history (α := Nat)).2 calls
  refine ⟨⟨by rfl, scopes_follow_history.1 start inside above (by decide)⟩, ?_, ?_, ?_⟩
  · exact (finds "x").trans (by decide)
  · exact (((declares "x" 3).2 _ rfl).1 1 (by decide)).1
  · exact sizes.trans (by decide)

end McFront
