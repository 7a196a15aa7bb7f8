import McFront.Proofs.Typing.Acceptance

set_option autoImplicit false

namespace McFront

open McFront.Expr (Valued Tested)

inductive Conversion.Links : Conversion → Ty → Ty → Prop where
  | testChar : Links .bool .char .bool
  | testInt : Links .bool .int .bool
  | testFloat : Links .bool .float .bool
  | testPointer {pointee : Ty} : Links .bool (.pointer pointee) .bool
  | testFunction {parameters : List Ty} {result : Ty} :
      Links .bool (.function parameters result) .bool
  | narrow : Links .char .int .char
  | truncate : Links .trunc .float .int
  | widenBool : Links .int .bool .int
  | widenChar : Links .int .char .int
  | extend : Links .ext .int .float

namespace Conversion

variable {source target : Ty} {tag : Conversion}

theorem Links.apart (links : tag.Links source target) :
    source ≠ target ∧ target.isReference = false := by
  cases links <;> exact ⟨by simp, rfl⟩

theorem Links.test (plain : source.Plain) (notBool : source ≠ .bool) :
    Links .bool source .bool := by
  cases plain with
  | bool => exact absurd rfl notBool
  | char | int | float | pointer | function => constructor

theorem Links.found (links : tag.Links source target) : between? source target = some tag := by
  cases links <;> rfl

theorem between_iff (plain : target.isReference = false → source.Plain) (differ : source ≠ target) :
    between? source target = some tag ↔ tag.Links source target := by
  constructor
  · intro found
    cases target with
    | bool =>
        have testable := (plain rfl).testable
        simp only [between?, testable, if_true, Option.some.injEq] at found
        rw [← found]
        exact .test (plain rfl) differ
    | char | int | float => cases plain rfl <;> cases found <;> constructor
    | pointer | reference | function => cases found
  · exact Links.found

end Conversion

namespace Expr

variable {e value operand : Expr} {target : Ty}

def Offered (e : Expr) (target : Ty) (value : Expr) : Prop :=
  if e.type.isReference = true ∧ target.isReference = false then
    value = .conversion .value e e.type.object e.location
  else value = e

-- An operand converted to a type: what it offers, inside one conversion of the table if that has
-- another type.
inductive Converted (e : Expr) (target : Ty) : Expr → Prop where
  | same {value : Expr} (offered : e.Offered target value) (isType : value.type = target) :
      Converted e target value
  | linked {value : Expr} {tag : Conversion} (offered : e.Offered target value)
      (links : tag.Links value.type target) :
      Converted e target (.conversion tag value target e.location)

theorem loaded_value (noPlace : e.type.isReference = false) : e.loaded = e :=
  (valued_iff.mp (.value noPlace)).symm

theorem loaded_place (isPlace : e.type.isReference = true) :
    e.loaded = .conversion .value e e.type.object e.location := by
  obtain ⟨object, isReference⟩ := Ty.is_reference_iff.mp isPlace
  rw [← valued_iff.mp (.place isReference), isReference]
  rfl

theorem offered_iff :
    e.Offered target value ↔ value = if target.isReference = true then e else e.loaded := by
  unfold Offered
  by_cases asked : target.isReference = true
  · simp [asked]
  · by_cases isPlace : e.type.isReference = true
    · simp [asked, isPlace, loaded_place isPlace]
    · have noPlace := Bool.eq_false_iff.mpr isPlace
      simp [asked, noPlace, loaded_value noPlace]

theorem offered_total (e : Expr) (target : Ty) : ∃ value, e.Offered target value :=
  ⟨_, offered_iff.mpr rfl⟩

theorem Offered.location (offered : e.Offered target value) : value.location = e.location := by
  rw [offered_iff.mp offered]
  split
  · rfl
  · exact e.location_loaded

theorem Offered.type (offered : e.Offered target value) :
    value.type = if target.isReference = true then e.type else e.type.object := by
  rw [offered_iff.mp offered]
  split
  · rfl
  · exact e.type_loaded

theorem Offered.object (offered : e.Offered target value) (noPlace : target.isReference = false) :
    value.type = e.type.object := by
  rw [offered.type, if_neg (by simp [noPlace])]

theorem Offered.same (offered : e.Offered target value) (isType : e.type = target) :
    value = e := by
  subst target
  rw [offered_iff.mp offered]
  by_cases isPlace : e.type.isReference = true
  · rw [if_pos isPlace]
  · rw [if_neg isPlace, loaded_value (Bool.eq_false_iff.mpr isPlace)]

theorem convert_offered (offered : e.Offered target value) :
    e.convertTo target =
      if value.type = target then .ok value
      else match Conversion.between? value.type target with
        | some tag => .ok (.conversion tag value target e.location)
        | none =>
            .error ((Complaint.cannotConvert value.type.text target.text).raise e.location) := by
  rw [← offered.location]
  by_cases isType : e.type = target
  · obtain rfl := offered.same isType
    rw [convertTo, if_pos isType, if_pos isType]
  · rw [convertTo, if_neg isType, offered_iff.mp offered]
    rfl

theorem Converted.type (converted : e.Converted target operand) : operand.type = target := by
  cases converted with
  | same _ isType => exact isType
  | linked _ _ => rfl

theorem convert_gives (flat : e.type.Flat) :
    e.convertTo target = .ok operand ↔ e.Converted target operand := by
  obtain ⟨value, offered⟩ := e.offered_total target
  have only {other : Expr} (offeredToo : e.Offered target other) : other = value := by
    rw [offered_iff.mp offered, offered_iff.mp offeredToo]
  rw [convert_offered offered]
  by_cases isType : value.type = target
  · rw [if_pos isType]
    constructor
    · rintro ⟨⟩
      exact .same offered isType
    · intro converted
      cases converted with
      | same offeredToo _ => rw [only offeredToo]
      | linked offeredToo links =>
          rw [only offeredToo] at links
          exact absurd isType links.apart.1
  · have plain (noPlace : target.isReference = false) : value.type.Plain := by
      rw [offered.object noPlace]
      exact flat
    rw [if_neg isType]
    constructor
    · intro converted
      split at converted
      · rename_i tag found
        cases converted
        exact .linked offered ((Conversion.between_iff plain isType).mp found)
      · cases converted
    · intro converted
      cases converted with
      | same offeredToo isTypeToo =>
          rw [only offeredToo] at isTypeToo
          exact absurd isTypeToo isType
      | linked offeredToo links =>
          obtain rfl := only offeredToo
          rw [links.found]

theorem convert_fails {error : CompileError} (offered : e.Offered target value)
    (failed : e.convertTo target = .error error) :
    error = (Complaint.cannotConvert value.type.text target.text).raise e.location := by
  rw [convert_offered offered] at failed
  split at failed
  · cases failed
  · split at failed <;> cases failed
    rfl

theorem converts_iff (flat : e.type.Flat) :
    (∃ operand, e.convertTo target = .ok operand) ↔
      e.type = target ∨ target.isReference = false ∧
        (e.type.object = target ∨ ∃ tag : Conversion, tag.Links e.type.object target) := by
  obtain ⟨value, offered⟩ := e.offered_total target
  constructor
  · rintro ⟨operand, converted⟩
    cases (convert_gives flat).mp converted with
    | same offered isType =>
        cases asked : target.isReference with
        | true =>
            rw [offered.type, if_pos asked] at isType
            exact .inl isType
        | false => exact .inr ⟨rfl, .inl (by rw [← offered.object asked, isType])⟩
    | linked offered links =>
        have noPlace := links.apart.2
        rw [offered.object noPlace] at links
        exact .inr ⟨noPlace, .inr ⟨_, links⟩⟩
  · rintro (isType | ⟨noPlace, isObject | ⟨tag, links⟩⟩)
    · obtain rfl := offered.same isType
      exact ⟨_, (convert_gives flat).mpr (.same offered isType)⟩
    · have isType : value.type = target := by rw [offered.object noPlace, isObject]
      exact ⟨_, (convert_gives flat).mpr (.same offered isType)⟩
    · rw [← offered.object noPlace] at links
      exact ⟨_, (convert_gives flat).mpr (.linked offered links)⟩

theorem test_converts (flat : e.type.Flat) : e.requireTruth = e.convertTo .bool := by
  have offered : e.Offered .bool e.loaded := offered_iff.mpr rfl
  obtain ⟨tested, isTested⟩ := e.tested_total
  rw [(require_truth_iff flat).mpr isTested, eq_comm, convert_gives flat]
  cases isTested with
  | bool valued isBool =>
      obtain rfl := valued_iff.mp valued
      exact .same offered isBool
  | compared valued notBool =>
      obtain rfl := valued_iff.mp valued
      have plain : e.loaded.type.Plain := by
        rw [type_loaded]
        exact flat
      exact .linked offered (.test plain notBool)

end Expr

theorem conversions_follow_table (e : Expr) (target : Ty) (flat : e.type.Flat) :
    ((∃ operand, e.convertTo target = .ok operand) ↔
      e.type = target ∨ target.isReference = false ∧
        (e.type.object = target ∨ ∃ tag : Conversion, tag.Links e.type.object target)) ∧
    (∀ operand, e.convertTo target = .ok operand →
      operand.type = target ∧ e.Converted target operand ∧
        operand.convertTo target = .ok operand) ∧
    (∀ error, e.convertTo target = .error error →
      error.kind = .typing ∧ error.location = e.location ∧
        error.message = "cannot convert '" ++
          (if target.isReference = true then e.type else e.type.object).text ++
            "' to '" ++ target.text ++ "'") ∧
    e.requireTruth = e.convertTo .bool ∧ ∃ tested, e.requireTruth = .ok tested := by
  refine ⟨Expr.converts_iff flat, ?_, ?_, Expr.test_converts flat, ?_⟩
  · intro operand converted
    have shape := (Expr.convert_gives flat).mp converted
    exact ⟨shape.type, shape, by rw [Expr.convertTo, if_pos shape.type]⟩
  · intro error failed
    obtain ⟨value, offered⟩ := e.offered_total target
    obtain rfl := Expr.convert_fails offered failed
    rw [← offered.type]
    exact ⟨rfl, rfl, rfl⟩
  · obtain ⟨tested, isTested⟩ := e.tested_total
    exact ⟨tested, (Expr.require_truth_iff flat).mpr isTested⟩

theorem int_place_follows_table :
    ∃ e : Expr, e.type = .reference .int ∧ e.type.Flat ∧
      (∃ operand, e.convertTo .float = .ok operand) ∧
        ¬ ∃ operand, e.convertTo (.pointer .int) = .ok operand := by
  obtain ⟨e, isPlace, flat⟩ : ∃ e : Expr, e.type = .reference .int ∧ e.type.Flat :=
    ⟨.name "n" ⟨.var, "n", .int, .first⟩ (.reference .int) .first, rfl, Ty.Plain.int⟩
  refine ⟨e, isPlace, flat, ?_, ?_⟩
  · refine (conversions_follow_table e .float flat).1.mpr (.inr ⟨rfl, .inr ⟨.ext, ?_⟩⟩)
    rw [isPlace]
    exact .extend
  · intro converted
    have alike := (conversions_follow_table e (.pointer .int) flat).1.mp converted
    rw [isPlace] at alike
    rcases alike with same | ⟨_, same | ⟨_, links⟩⟩
    · cases same
    · cases same
    · cases links

namespace Ty

variable {left right common : Ty}

theorem refers_to_iff : left.refersTo right = true ↔ left = .reference right := by
  cases left <;> simp [refersTo]

theorem reference_apart (object : Ty) : Ty.reference object ≠ object := by
  rintro ⟨⟩

theorem common_iff : left.common? right = some common ↔
    left = right ∧ common = left ∨ left = .reference right ∧ common = right ∨
      right = .reference left ∧ common = left := by
  rw [common?]
  constructor
  · intro found
    split at found
    · rename_i same
      cases found
      exact .inl ⟨same, rfl⟩
    · split at found
      · rename_i refers
        cases found
        exact .inr (.inl ⟨refers_to_iff.mp refers, rfl⟩)
      · split at found
        · rename_i refers
          cases found
          exact .inr (.inr ⟨refers_to_iff.mp refers, rfl⟩)
        · cases found
  · rintro (⟨rfl, rfl⟩ | ⟨rfl, rfl⟩ | ⟨rfl, rfl⟩)
    · rw [if_pos rfl]
    · rw [if_neg (reference_apart common), if_pos (refers_to_iff.mpr rfl)]
    · have apart : ¬ common.refersTo (.reference common) = true := by
        rw [refers_to_iff]
        nofun
      rw [if_neg (reference_apart common).symm, if_neg apart, if_pos (refers_to_iff.mpr rfl)]

theorem common_swap (found : left.common? right = some common) :
    right.common? left = some common := by
  rw [common_iff] at *
  rcases found with ⟨rfl, rfl⟩ | found | found
  · exact .inl ⟨rfl, rfl⟩
  · exact .inr (.inr found)
  · exact .inr (.inl found)

theorem common_comm (left right : Ty) : left.common? right = right.common? left :=
  Option.ext fun _ => ⟨common_swap, common_swap⟩

theorem common_exists : (∃ common, left.common? right = some common) ↔
    left = right ∨ left = .reference right ∨ right = .reference left := by
  simp only [common_iff, exists_or, exists_and_left, exists_eq, and_true]

theorem common_place (found : left.common? right = some common) (isLeft : left.Flat)
    (isRight : right.Flat) :
    common.isReference = true ↔ left = right ∧ left.isReference = true := by
  rcases common_iff.mp found with ⟨rfl, rfl⟩ | ⟨rfl, rfl⟩ | ⟨rfl, rfl⟩
  · exact (and_iff_right rfl).symm
  · have plain : common.Plain := isLeft
    exact iff_of_false plain.not_reference fun both => reference_apart common both.1
  · have plain : common.Plain := isRight
    exact iff_of_false plain.not_reference fun both => reference_apart common both.1.symm

end Ty

namespace Expr

variable {e operand other : Expr} {common : Ty}

inductive Joins (e : Expr) (common : Ty) : Expr → Prop where
  | same (isType : e.type = common) : Joins e common e
  | loaded (isPlace : e.type = .reference common) :
      Joins e common (.conversion .value e common e.location)

theorem Joins.unique (first : e.Joins common operand) (second : e.Joins common other) :
    operand = other := by
  cases first with
  | same isType =>
      cases second with
      | same _ => rfl
      | loaded isPlace => exact absurd (isPlace.symm.trans isType) (Ty.reference_apart common)
  | loaded isPlace =>
      cases second with
      | same isType => exact absurd (isPlace.symm.trans isType) (Ty.reference_apart common)
      | loaded _ => rfl

theorem Joins.type (joins : e.Joins common operand) : operand.type = common := by
  cases joins with
  | same isType => exact isType
  | loaded _ => rfl

theorem joins_offered (flat : e.type.Flat)
    (joinable : e.type = common ∨ e.type = .reference common) :
    ∃ value, e.Offered common value ∧ e.Joins common value := by
  obtain ⟨value, offered⟩ := e.offered_total common
  refine ⟨value, offered, ?_⟩
  rcases joinable with isType | isPlace
  · obtain rfl := offered.same isType
    exact .same isType
  · have plain : common.Plain := by
      rw [isPlace] at flat
      exact flat
    rw [offered_iff.mp offered, if_neg plain.not_reference,
      loaded_place (Ty.is_reference_iff.mpr ⟨common, isPlace⟩), isPlace]
    exact .loaded isPlace

theorem joins_iff (flat : e.type.Flat) (joinable : e.type = common ∨ e.type = .reference common) :
    e.convertTo common = .ok operand ↔ e.Joins common operand := by
  obtain ⟨value, offered, joins⟩ := joins_offered flat joinable
  rw [convert_offered offered, if_pos joins.type]
  constructor
  · rintro ⟨⟩
    exact joins
  · intro joinsToo
    rw [joins.unique joinsToo]

end Expr

theorem Ty.common_joins {left right common : Ty} (found : left.common? right = some common) :
    left = common ∨ left = .reference common := by
  rcases common_iff.mp found with ⟨_, rfl⟩ | ⟨isPlace, rfl⟩ | ⟨_, rfl⟩
  · exact .inl rfl
  · exact .inr isPlace
  · exact .inl rfl

section Branches

variable {condition first second : Expr} (isCondition : condition.type.Flat)
  (isFirst : first.type.Flat) (isSecond : second.type.Flat)
include isCondition isFirst isSecond

theorem Rule.conditional_follows (place : Location) :
    Follows (Rule.conditional condition first second place)
      (fun type => first.type.common? second.type = some type)
      fun type e => ∃ tested one other, Tested condition tested ∧ first.Joins type one ∧
        second.Joins type other ∧ e = .conditional tested one other type place := by
  refine follows_of_gives (fun e => ⟨?_, ?_⟩) ?_
  · intro built
    obtain ⟨tested, type, one, other, required, found, converted, convertedToo, rfl⟩ :=
      conditional_ran built
    have isTested := (Expr.require_truth_iff isCondition).mp required
    have joins := (Expr.joins_iff isFirst (Ty.common_joins found)).mp converted
    have joinsToo :=
      (Expr.joins_iff isSecond (Ty.common_joins (Ty.common_swap found))).mp convertedToo
    exact ⟨type, found, tested, one, other, isTested, joins, joinsToo, rfl⟩
  · rintro ⟨type, found, tested, one, other, isTested, joins, joinsToo, rfl⟩
    have required := (Expr.require_truth_iff isCondition).mpr isTested
    have converted := (Expr.joins_iff isFirst (Ty.common_joins found)).mpr joins
    have convertedToo :=
      (Expr.joins_iff isSecond (Ty.common_joins (Ty.common_swap found))).mpr joinsToo
    refine bind_checked_iff.mpr ⟨tested, required, ?_⟩
    rw [found]
    exact bind_checked_iff.mpr ⟨one, converted, bind_checked_iff.mpr ⟨other, convertedToo, rfl⟩⟩
  · intro type found
    obtain ⟨tested, isTested⟩ := condition.tested_total
    obtain ⟨one, _, joins⟩ := Expr.joins_offered isFirst (Ty.common_joins found)
    obtain ⟨other, _, joinsToo⟩ :=
      Expr.joins_offered isSecond (Ty.common_joins (Ty.common_swap found))
    exact ⟨_, tested, one, other, isTested, joins, joinsToo, rfl⟩

theorem Rule.conditional_type (place : Location) :
    (Rule.conditional condition first second place).toOption.map Expr.type =
      first.type.common? second.type := by
  obtain ⟨accepts, gives⟩ :=
    Rule.conditional_follows isCondition isFirst isSecond place
  cases built : Rule.conditional condition first second place with
  | ok e =>
      obtain ⟨type, found, _, _, _, _, _, _, rfl⟩ := (gives e).mp built
      rw [found]
      rfl
  | error error =>
      cases found : first.type.common? second.type with
      | none => rfl
      | some type =>
          obtain ⟨e, made⟩ := accepts.mpr ⟨type, found⟩
          rw [built] at made
          cases made

theorem Rule.conditional_fails {error : CompileError} {place : Location}
    (failed : Rule.conditional condition first second place = .error error) :
    error = (Complaint.noCommonType first.type.text second.type.text).raise second.location := by
  obtain ⟨tested, isTested⟩ := condition.tested_total
  have required := (Expr.require_truth_iff isCondition).mpr isTested
  have untyped := Rule.conditional_type isCondition isFirst isSecond place
  rw [failed] at untyped
  rw [Rule.conditional, required, ← untyped] at failed
  cases failed
  rfl

end Branches

theorem conditionals_join_branches (condition first second : Expr) (place : Location)
    (isCondition : condition.type.Flat) (isFirst : first.type.Flat) (isSecond : second.type.Flat) :
    Follows (Rule.conditional condition first second place)
      (fun type => first.type.common? second.type = some type)
      (fun type e => ∃ tested one other, Tested condition tested ∧ first.Joins type one ∧
        second.Joins type other ∧ e = .conditional tested one other type place) ∧
    ((∃ type, first.type.common? second.type = some type) ↔
      first.type = second.type ∨ first.type = .reference second.type ∨
        second.type = .reference first.type) ∧
    (∀ left right : Ty, left.common? right = right.common? left) ∧
    (∀ type, first.type.common? second.type = some type →
      (type.isReference = true ↔ first.type = second.type ∧ first.type.isReference = true)) ∧
    (Rule.conditional condition first second place).toOption.map Expr.type =
      (Rule.conditional condition second first place).toOption.map Expr.type ∧
    (∃ tested, condition.requireTruth = .ok tested) ∧
    (∀ type, first.type.common? second.type = some type →
      (∃ one, first.convertTo type = .ok one) ∧ ∃ other, second.convertTo type = .ok other) ∧
    ∀ error, Rule.conditional condition first second place = .error error →
      error = (Complaint.noCommonType first.type.text second.type.text).raise second.location := by
  refine ⟨Rule.conditional_follows isCondition isFirst isSecond place, Ty.common_exists,
    Ty.common_comm, ?_, ?_, ?_, ?_, ?_⟩
  · exact fun type found => Ty.common_place found isFirst isSecond
  · rw [Rule.conditional_type isCondition isFirst isSecond place,
      Rule.conditional_type isCondition isSecond isFirst place, Ty.common_comm]
  · obtain ⟨tested, isTested⟩ := condition.tested_total
    exact ⟨tested, (Expr.require_truth_iff isCondition).mpr isTested⟩
  · intro type found
    have joinable := Ty.common_joins found
    have joinableToo := Ty.common_joins (Ty.common_swap found)
    obtain ⟨one, _, joins⟩ := Expr.joins_offered isFirst joinable
    obtain ⟨other, _, joinsToo⟩ := Expr.joins_offered isSecond joinableToo
    exact ⟨⟨one, (Expr.joins_iff isFirst joinable).mpr joins⟩,
      other, (Expr.joins_iff isSecond joinableToo).mpr joinsToo⟩
  · exact fun error failed => Rule.conditional_fails isCondition isFirst isSecond failed

theorem place_joins_value :
    ∃ pointer place value : Expr, pointer.type = .reference (.pointer .int) ∧
      place.type = .reference .int ∧ value.type = .int ∧
        (∃ e, Rule.conditional pointer place value .first = .ok e) ∧
        ¬ ∃ e, Rule.conditional pointer place pointer .first = .ok e := by
  have isPointer : (Ty.reference (.pointer .int)).Flat := Ty.Plain.pointer .int
  have isPlace : (Ty.reference .int).Flat := Ty.Plain.int
  obtain ⟨pointer, place, typed, typedToo⟩ : ∃ pointer place : Expr,
      pointer.type = .reference (.pointer .int) ∧ place.type = .reference .int :=
    ⟨.name "p" ⟨.var, "p", .pointer .int, .first⟩ _ .first,
      .name "n" ⟨.var, "n", .int, .first⟩ _ .first, rfl, rfl⟩
  rw [← typed] at isPointer
  rw [← typedToo] at isPlace
  refine ⟨pointer, place, .int 1 .int .first, typed, typedToo, rfl, ?_, ?_⟩
  · have rules := conditionals_join_branches pointer place (.int 1 .int .first) .first isPointer
      isPlace Ty.Plain.int
    exact rules.1.accepts.mpr (rules.2.1.mpr (.inr (.inl typedToo)))
  · intro built
    have rules :=
      conditionals_join_branches pointer place pointer .first isPointer isPlace isPointer
    have alike := rules.2.1.mp (rules.1.accepts.mp built)
    rw [typed, typedToo] at alike
    rcases alike with same | same | same <;> cases same

end McFront
