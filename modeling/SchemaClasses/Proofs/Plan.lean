import SchemaClasses.Proofs.Constants
import SchemaClasses.Proofs.Model

/-! A plan only adds: checks and constants join behind those that are there, and the class holds the
constant and the library type that an added check needs. -/

namespace SchemaClasses

namespace CheckSet

variable {set : CheckSet} {check other : Check}

theorem items_add : (set.add check).items = addNew set.items check := by
  unfold add addNew
  rw [contains, List.contains_eq_mem]
  split <;> rfl

/-- A set with one more check holds it beside those that were there. -/
theorem mem_add : other ∈ (set.add check).items ↔ other ∈ set.items ∨ other = check := by
  rw [items_add, mem_addNew]

/-- No check joins a set twice. -/
theorem nodup_add (nodup : set.items.Nodup) : (set.add check).items.Nodup := by
  rw [items_add]
  exact nodup_addNew nodup

end CheckSet

/-- The kind of constant that a kind of check compares with. -/
def CheckKind.constantKind? : CheckKind → Option ConstantKind
  | .pattern | .patternProperties => some .regex
  | .enumString => some .stringArray
  | .enumNumber => some .numberArray
  | .constString => some .string
  | .constDecimal | .multipleDecimal => some .decimal
  | _ => none

/-- Whether the constant that a check names, if it names one, is in a pool. -/
def Check.IsPooled (pool : ConstantPool) (check : Check) : Prop :=
  ∀ name, check.operand = some (.constant name) → (pool.get? name).isSome

/-- A check that names a constant of a pool names one of a larger pool. -/
theorem Check.IsPooled.of_grown {pool grown : ConstantPool} {check : Check}
    (pooled : check.IsPooled pool) (longer : pool.entries <+: grown.entries) :
    check.IsPooled grown :=
  fun name named => ConstantPool.isSome_get?_of_grown longer (pooled name named)

/-- Whether a class with a pool and library types has what a check needs: a constant of its kind
where the check compares with one, and regular expressions where the constant is one. -/
structure Check.IsSupplied (pool : ConstantPool) (types : List LibraryType) (check : Check) :
    Prop where
  named : ∀ name, check.operand = some (.constant name) →
    ∃ kind, check.kind.constantKind? = some kind ∧ pool.Holds name kind
  needed : ∀ kind, check.kind.constantKind? = some kind →
    ∃ name, check.operand = some (.constant name)
  regex : check.kind.constantKind? = some .regex → .regex ∈ types

namespace Check.IsSupplied

variable {pool grown : ConstantPool} {types types' : List LibraryType} {check : Check}

/-- What a class has it still has when it holds more. -/
theorem of_grown (supplied : check.IsSupplied pool types)
    (longer : pool.entries <+: grown.entries) (more : types ⊆ types') :
    check.IsSupplied grown types' where
  named name named := by
    obtain ⟨kind, same, holds⟩ := supplied.named name named
    exact ⟨kind, same, holds.of_grown longer⟩
  needed := supplied.needed
  regex isRegex := more (supplied.regex isRegex)

theorem pooled (supplied : check.IsSupplied pool types) : check.IsPooled pool := by
  intro name named
  obtain ⟨kind, -, holds⟩ := supplied.named name named
  exact holds.isSome_get?

/-- A check without a constant needs nothing. -/
theorem plain (free : check.kind.constantKind? = none)
    (plain : ∀ name, check.operand ≠ some (.constant name)) : check.IsSupplied pool types where
  named name named := absurd named (plain name)
  needed kind same := by
    rw [free] at same
    cases same
  regex same := by
    rw [free] at same
    cases same

/-- A check against a constant needs that constant. -/
theorem constant {name : String} {kind : CheckKind} {constantKind : ConstantKind} {negated : Bool}
    (same : kind.constantKind? = some constantKind) (holds : pool.Holds name constantKind)
    (regex : constantKind = .regex → .regex ∈ types) :
    Check.IsSupplied pool types ⟨kind, some (.constant name), negated⟩ where
  named name' named := by
    cases named
    exact ⟨constantKind, same, holds⟩
  needed _ _ := ⟨name, rfl⟩
  regex isRegex := regex (Option.some_inj.mp (same.symm.trans isRegex))

end Check.IsSupplied

/-- Whether the constant that the entry of a pattern names, if it names one, is a regular expression
of a pool. -/
def PatternProperty.IsSupplied (pool : ConstantPool) (entry : PatternProperty) : Prop :=
  ∀ name, entry.constant = some name → pool.Holds name .regex

theorem PatternProperty.IsSupplied.of_grown {pool grown : ConstantPool} {entry : PatternProperty}
    (supplied : entry.IsSupplied pool) (longer : pool.entries <+: grown.entries) :
    entry.IsSupplied grown :=
  fun name named => (supplied name named).of_grown longer

/-- The library types that a value of a shape has by itself. -/
def Shape.libraryTypes : Shape → List LibraryType
  | .decimal => [.decimal]
  | .library type => [type]
  | .array => [.list]
  | _ => []

namespace Plan

/-- A later plan for the same record: what it adds is for the record's side, and the class has what
it needs. -/
structure Grows (before after : Plan) : Prop where
  record : after.record =
    { before.record with
      patternProperties := after.record.patternProperties
      mapBacked := after.record.mapBacked }
  patternProperties : after.record.patternProperties.map (fun entry => (entry.pattern, entry.record)) =
    before.record.patternProperties.map fun entry => (entry.pattern, entry.record)
  constants : before.constants.entries <+: after.constants.entries
  libraryTypes : before.libraryTypes ⊆ after.libraryTypes
  numbered : before.constants.Numbered → after.constants.Numbered
  checks : ∃ added, after.checks.items = before.checks.items ++ added ∧
    ∀ check ∈ added, check.negated = before.record.isNegation ∧
      check.IsSupplied after.constants after.libraryTypes
  entries : ∀ entry ∈ after.record.patternProperties,
    entry ∈ before.record.patternProperties ∨ entry.IsSupplied after.constants
  mapBacked : after.record.mapBacked = true →
    before.record.mapBacked = true ∨ .map ∈ after.libraryTypes

namespace Grows

variable {a b c plan : Plan} {kind : CheckKind} {operand : Option Operand}

/-- A plan in which at most the constants and the library types are more. -/
theorem hold {constants : ConstantPool} {libraryTypes : List LibraryType}
    (longer : plan.constants.entries <+: constants.entries)
    (more : plan.libraryTypes ⊆ libraryTypes)
    (numbered : plan.constants.Numbered → constants.Numbered) :
    Grows plan { plan with constants, libraryTypes } :=
  ⟨rfl, rfl, longer, more, numbered, ⟨[], by simp, by simp⟩, fun _ member => .inl member, .inl⟩

theorem refl (plan : Plan) : Grows plan plan :=
  hold List.prefix_rfl (List.Subset.refl _) id

/-- A record keeps its side of the negation. -/
theorem isNegation (grows : Grows a b) : b.record.isNegation = a.record.isNegation := by
  rw [grows.record]
  rfl

theorem trans (first : Grows a b) (second : Grows b c) : Grows a c where
  record := by rw [second.record, first.record]
  patternProperties := second.patternProperties.trans first.patternProperties
  constants := first.constants.trans second.constants
  libraryTypes := List.Subset.trans first.libraryTypes second.libraryTypes
  numbered := second.numbered ∘ first.numbered
  checks := by
    -- The checks that are added behind others are those of the second part.
    obtain ⟨added, items, fresh⟩ := first.checks
    obtain ⟨added', items', fresh'⟩ := second.checks
    refine ⟨added ++ added', by rw [items', items, List.append_assoc], fun check member => ?_⟩
    -- Checks of the first part still have their constants when more of these have joined.
    rcases List.mem_append.mp member with member | member
    · exact ⟨(fresh check member).1,
        (fresh check member).2.of_grown second.constants second.libraryTypes⟩
    · exact ⟨(fresh' check member).1.trans first.isNegation, (fresh' check member).2⟩
  entries entry member := by
    -- An entry was there from the beginning, or one of the parts has supplied it.
    rcases second.entries entry member with earlier | supplied
    · exact (first.entries entry earlier).imp_right fun supplied =>
        supplied.of_grown second.constants
    · exact .inr supplied
  mapBacked backed := by
    rcases second.mapBacked backed with earlier | used
    · exact (first.mapBacked earlier).imp_right fun used => second.libraryTypes used
    · exact .inr used

/-- A fold of additions adds. -/
theorem foldl {α : Type} {step : Plan → α → Plan} (grows : ∀ plan item, Grows plan (step plan item))
    (items : List α) (plan : Plan) : Grows plan (items.foldl step plan) := by
  induction items generalizing plan with
  | nil => exact refl plan
  | cons item rest ih => exact (grows plan item).trans (ih (step plan item))

/-- A check for which the class has all that it needs. -/
theorem check (supplied : Check.IsSupplied plan.constants plan.libraryTypes
    ⟨kind, operand, plan.record.isNegation⟩) : Grows plan (plan.check kind operand) where
  record := rfl
  patternProperties := rfl
  constants := List.prefix_rfl
  libraryTypes := List.Subset.refl _
  numbered := id
  checks := by
    -- A check that is there already is not added again.
    unfold Plan.check CheckSet.add
    dsimp only
    split
    · exact ⟨[], by simp, by simp⟩
    · refine ⟨[⟨kind, operand, plan.record.isNegation⟩], rfl, fun check member => ?_⟩
      rw [List.mem_singleton.mp member]
      exact ⟨rfl, supplied⟩
  entries _ member := .inl member
  mapBacked := .inl

/-- A check without a constant. -/
theorem plain (free : kind.constantKind? = none)
    (plain : ∀ name, operand ≠ some (.constant name)) : Grows plan (plan.check kind operand) :=
  check (.plain free plain)

/-- A constant joins the pool. -/
theorem pool (plan : Plan) (kind : ConstantKind) (value : ConstantValue) :
    Grows plan { plan with constants := (plan.constants.add kind value).2 } :=
  hold (ConstantPool.prefix_add _ kind value) (List.Subset.refl _) fun numbered =>
    numbered.add kind value

/-- A check against a constant of its kind. -/
theorem checkConstant {constantKind : ConstantKind} (value : ConstantValue)
    (same : kind.constantKind? = some constantKind)
    (regex : constantKind = .regex → .regex ∈ plan.libraryTypes) :
    Grows plan (plan.checkConstant kind constantKind value) :=
  (pool plan constantKind value).trans
    (check (.constant same (ConstantPool.holds_add _ _ _) regex))

/-- A library type. -/
theorem use (type : LibraryType) : Grows plan (plan.use type) :=
  hold List.prefix_rfl subset_addNew id

/-- A library type that is used is there. -/
theorem mem_use (plan : Plan) (type : LibraryType) : type ∈ (plan.use type).libraryTypes :=
  mem_addNew.mpr (.inr rfl)

/-- A finding. -/
theorem diagnostics (diagnostics : Diagnostics) : Grows plan { plan with diagnostics } :=
  ⟨rfl, rfl, List.prefix_rfl, List.Subset.refl _, id, ⟨[], by simp, by simp⟩,
    fun _ member => .inl member, .inl⟩

theorem numberEnum (plan : Plan) : Grows plan plan.numberEnum := by
  unfold Plan.numberEnum
  split
  · exact checkConstant _ rfl (by simp)
  · exact refl plan

/-- Kinds of checks on whole numbers that compare with no constants. -/
structure Wholes (kinds : IntegerChecks) : Prop where
  range : kinds.range.constantKind? = none
  constant : kinds.constant.constantKind? = none
  multiple : kinds.multiple.constantKind? = none

theorem wholes_narrow : Wholes narrow := ⟨rfl, rfl, rfl⟩

theorem wholes_wide : Wholes wide := ⟨rfl, rfl, rfl⟩

theorem integerRange {kinds : IntegerChecks} (wholes : Wholes kinds) (plan : Plan) :
    Grows plan (plan.integerRange kinds) := by
  unfold Plan.integerRange
  split
  · exact refl plan
  · split
    · exact plain wholes.constant (by simp)
    · exact plain wholes.range (by simp [inclusiveRange])
  · exact plain wholes.range (by simp [inclusiveRange])

theorem integer {kinds : IntegerChecks} (wholes : Wholes kinds) (plan : Plan) :
    Grows plan (plan.integer kinds) := by
  unfold Plan.integer
  dsimp only
  -- The parts come one after the other: the range, the constant, the divisors and the enumeration.
  refine (integerRange wholes plan).trans (Grows.trans ?_ ((foldl ?_ _ _).trans (numberEnum _)))
  · split
    · exact plain wholes.constant (by simp)
    · exact refl _
  · exact fun plan divisor => plain wholes.multiple (by simp)

theorem decimalRange (plan : Plan) : Grows plan plan.decimalRange := by
  unfold Plan.decimalRange
  split
  · exact refl plan
  · split
    · exact checkConstant _ rfl (by simp)
    · exact plain rfl (by simp)
  · exact plain rfl (by simp)

theorem decimal (plan : Plan) : Grows plan plan.decimal := by
  unfold Plan.decimal
  dsimp only
  -- The parts are those of whole numbers, except that the constants are pooled.
  refine (decimalRange plan).trans (Grows.trans ?_ ((foldl ?_ _ _).trans (numberEnum _)))
  · split
    · exact checkConstant _ rfl (by simp)
    · exact refl _
  · exact fun plan divisor => checkConstant _ rfl (by simp)

theorem counts {rangeKind constKind : CheckKind} (range : CountRange)
    (ranges : rangeKind.constantKind? = none) (consts : constKind.constantKind? = none)
    (plan : Plan) : Grows plan (plan.counts range rangeKind constKind) := by
  unfold Plan.counts
  -- A count without limits is not checked, one of a single number by equality, and any other by its
  -- range.
  split
  · exact refl plan
  · split
    · exact plain consts (by simp)
    · exact plain ranges (by simp)
  · exact plain ranges (by simp)

theorem lengths (plan : Plan) : Grows plan plan.lengths := counts _ rfl rfl plan

theorem itemCounts (plan : Plan) : Grows plan plan.itemCounts := counts _ rfl rfl plan

/-- A regular expression may as well be used before the check that needs it. -/
theorem pattern (plan : Plan) (text : String) :
    Grows plan ((plan.checkConstant .pattern .regex (.text text)).use .regex) := by
  have used : Grows (plan.use .regex) ((plan.use .regex).checkConstant .pattern .regex (.text text)) :=
    checkConstant _ rfl fun _ => mem_use plan .regex
  exact (use .regex).trans used

theorem patterns (plan : Plan) : Grows plan plan.patterns := foldl pattern _ _

theorem formats (location : String) (narrowed : Option LibraryType) (names : List String)
    (plan : Plan) : Grows plan (Plan.formats location narrowed names plan) := by
  -- Each format is one step of the recursion, which may use up the type that it stands for.
  induction names generalizing narrowed plan with
  | nil => exact refl plan
  | cons format rest ih =>
    have checked : Grows plan (plan.check .format (some (.text format))) := plain rfl (by simp)
    rw [Plan.formats.eq_def]
    dsimp only
    -- A format is one of a type that is used up, one to check, one without checks, or an unknown
    -- one.
    split
    · split
      · exact ih none plan
      · exact checked.trans (ih narrowed _)
    · exact checked.trans (ih narrowed _)
    · exact ih narrowed plan
    · exact (diagnostics _).trans (ih narrowed _)

theorem string (location : String) (narrowed : Option LibraryType) (plan : Plan) :
    Grows plan (plan.string location narrowed) := by
  unfold Plan.string
  dsimp only
  have texts : Grows plan
      (Plan.formats location narrowed plan.record.formats plan).lengths.patterns :=
    ((formats location narrowed _ plan).trans (lengths _)).trans (patterns _)
  -- A constant and an enumeration each add one check, if they hold texts.
  split
  · refine trans ?_ (checkConstant _ rfl (by simp))
    split
    · exact texts.trans (checkConstant _ rfl (by simp))
    · exact texts
  · split
    · exact texts.trans (checkConstant _ rfl (by simp))
    · exact texts

/-- The checks on an array come behind the use of lists. -/
theorem array (itemsChecked : Bool) (plan : Plan) :
    Grows (plan.use .list) (plan.array itemsChecked) := by
  unfold Plan.array
  dsimp only
  -- The items are counted before anything else is checked.
  have counted : Grows (plan.use .list) (plan.use .list).itemCounts := itemCounts _
  split
  · refine trans ?_ (plain rfl (by simp))
    split
    · exact counted.trans (plain rfl (by simp))
    · exact counted
  · split
    · exact counted.trans (plain rfl (by simp))
    · exact counted

/-- A property pattern is checked against a constant, and its entry names that constant. -/
theorem patternProperty (plan : Plan) (entry : PatternProperty) :
    Grows plan (plan.patternProperty entry).1 ∧
      (plan.patternProperty entry).2.IsSupplied (plan.patternProperty entry).1.constants := by
  -- The library type is used before the check that needs it.
  unfold Plan.patternProperty
  refine ⟨((pool plan .regex (.text entry.pattern)).trans (use .regex)).trans
    (check (.constant rfl (ConstantPool.holds_add _ _ _) fun _ => mem_use _ .regex)), ?_⟩
  intro name named
  cases named
  exact ConstantPool.holds_add _ _ _

theorem pooledEntries (entries : List PatternProperty) (plan : Plan) :
    Grows plan (Plan.patternProperties entries plan).2 ∧
      (Plan.patternProperties entries plan).1.map (fun entry => (entry.pattern, entry.record)) =
        entries.map (fun entry => (entry.pattern, entry.record)) ∧
      ∀ entry ∈ (Plan.patternProperties entries plan).1,
        entry.IsSupplied (Plan.patternProperties entries plan).2.constants := by
  -- What an entry is supplied with stays there while the entries behind it are pooled.
  induction entries generalizing plan with
  | nil => exact ⟨refl plan, rfl, fun _ member => absurd member List.not_mem_nil⟩
  | cons entry rest ih =>
    obtain ⟨first, supplied⟩ := patternProperty plan entry
    obtain ⟨grows, same, supplied'⟩ := ih (plan.patternProperty entry).1
    -- The entries keep their patterns and records, and only constants join them.
    refine ⟨first.trans grows, ?_, fun other member => ?_⟩
    · simp only [Plan.patternProperties, List.map_cons, same]
      rfl
    · rcases List.mem_cons.mp member with rfl | member
      · exact supplied.of_grown grows.constants
      · exact supplied' other member

/-- The entries with their constants join the record again. -/
theorem setEntries {plan : Plan} {entries : List PatternProperty}
    (same : entries.map (fun entry => (entry.pattern, entry.record)) =
      plan.record.patternProperties.map fun entry => (entry.pattern, entry.record))
    (supplied : ∀ entry ∈ entries, entry.IsSupplied plan.constants) :
    Grows plan { plan with record := { plan.record with patternProperties := entries } } :=
  ⟨rfl, same, List.prefix_rfl, List.Subset.refl _, id, ⟨[], by simp, by simp⟩,
    fun entry member => .inr (supplied entry member), .inl⟩

/-- The class is backed by a map. -/
theorem backByMap (plan : Plan) : Grows plan plan.backByMap :=
  ⟨rfl, rfl, List.prefix_rfl, subset_addNew, id, ⟨[], by simp [Plan.backByMap, Plan.use], by simp⟩,
    fun _ member => .inl member, fun _ => .inr (mem_use _ .map)⟩

theorem openProperties (isTyped : RecordId → Bool) (plan : Plan) :
    Grows plan (plan.openProperties isTyped) := by
  have entries (first : Plan) (grows : Grows plan first) :
      Grows plan
        { (Plan.patternProperties plan.record.patternProperties first).2 with
          record :=
            { (Plan.patternProperties plan.record.patternProperties first).2.record with
              patternProperties :=
                (Plan.patternProperties plan.record.patternProperties first).1 } } := by
    obtain ⟨added, same, supplied⟩ := pooledEntries plan.record.patternProperties first
    refine (grows.trans added).trans (setEntries ?_ supplied)
    rw [same, (grows.trans added).patternProperties]
  -- Whether a map backs the class is decided last, behind all entries.
  have backed (mapped : Bool) (first : Plan) (grows : Grows plan first) :
      Grows plan (if mapped then first.backByMap else first) := by
    split
    · exact grows.trans (backByMap first)
    · exact grows
  unfold Plan.openProperties
  dsimp only
  refine backed _ _ (entries _ ?_)
  -- What is open without a type is only checked if there are patterns or names to compare with.
  split
  · dsimp only
    split
    · exact plain rfl (by simp)
    · exact refl plan
  · dsimp only
    split
    · exact plain rfl (by simp)
    · exact refl plan
  · exact refl plan

theorem object (strict : Bool) (isTyped : RecordId → Bool) (plan : Plan) :
    Grows plan (plan.object strict isTyped) := by
  have counted : Grows plan
      (plan.counts plan.record.propertyCount .propertiesRange .propertiesConst) :=
    counts _ rfl rfl plan
  unfold Plan.object
  dsimp only
  -- Only an object that is strict is checked for its properties.
  split
  · exact counted.trans (openProperties isTyped _)
  · exact counted

theorem custom (custom : CustomClass) (isInteger : Bool) (plan : Plan) :
    Grows plan (plan.custom custom isInteger) := by
  -- Texts come first, but only if the class is a sequence of characters.
  have first : Grows plan
      (if custom.has .charSequence then plan.lengths.patterns else plan) := by
    split
    · exact (lengths plan).trans (patterns _)
    · exact refl plan
  have compared (plan : Plan) :
      Grows plan
        (if custom.has .comparable then if isInteger then plan.integer wide else plan.decimal
          else plan) := by
    split
    · split
      · exact integer wholes_wide plan
      · exact decimal plan
    · exact refl plan
  -- Each part of the plan only adds to the one before, whatever the class has.
  unfold Plan.custom
  dsimp only
  split
  · exact (first.trans (compared _)).trans (itemCounts _)
  · exact first.trans (compared _)

/-- The checks of a record in any shape are added to those that are there. -/
theorem checksOf (context : Context) (ledger : Ledger) (id : RecordId) (shape : Shape) (plan : Plan) :
    Grows plan (Plan.checksOf context ledger id shape plan) := by
  unfold Plan.checksOf
  dsimp only
  -- The shape decides which of the parts above is planned.
  split
  · exact integer wholes_narrow plan
  · exact integer wholes_wide plan
  · exact (use .decimal).trans (decimal _)
  · exact string _ _ plan
  · exact (use _).trans (string _ _ _)
  · exact (use .list).trans (array _ plan)
  · exact object _ _ plan
  · exact custom _ _ plan
  · exact refl plan
  · exact refl plan
  · exact refl plan
  · exact refl plan

end Grows

/-- The library types that a shape has by itself are used by the class. -/
theorem libraryTypes_checksOf (context : Context) (ledger : Ledger) (id : RecordId) (shape : Shape)
    (plan : Plan) : shape.libraryTypes ⊆ (checksOf context ledger id shape plan).libraryTypes := by
  -- What a plan has used stays used while it grows.
  have used {type : LibraryType} {last : Plan} (grows : Grows (plan.use type) last) :
      [type] ⊆ last.libraryTypes :=
    List.cons_subset.mpr ⟨grows.libraryTypes (Grows.mem_use plan type), List.nil_subset _⟩
  unfold checksOf
  -- Only three shapes have such types, and each uses its own first.
  cases shape with
  | decimal => exact used (.decimal _)
  | library type => exact used (.string _ _ _)
  | array => exact used (.array _ _)
  | _ => exact List.nil_subset _

end Plan

namespace Model

/-- The plan that is made for a record. -/
def planned (model : Model) (context : Context) (owner : DeclarationId) (id : RecordId)
    (shape : Shape) : Plan :=
  Plan.checksOf context model.ledger id shape
    { record := model.ledger.record id
      checks := model.ledger.checks id
      constants := (model.declaration owner).constants
      libraryTypes := (model.declaration owner).libraryTypes
      diagnostics := model.survey.diagnostics }

variable {model : Model} {context : Context} {owner : DeclarationId} {id : RecordId} {shape : Shape}

/-- A plan adds to the checks of its record and to the constants of its class. -/
theorem planned_grows :
    Plan.Grows
      { record := model.ledger.record id
        checks := model.ledger.checks id
        constants := (model.declaration owner).constants
        libraryTypes := (model.declaration owner).libraryTypes
        diagnostics := model.survey.diagnostics }
      (model.planned context owner id shape) :=
  Plan.Grows.checksOf context model.ledger id shape _

/-- Where a plan is kept. -/
theorem plan_eq : model.plan context owner id shape =
    { model with
      survey :=
        { ledger := (model.ledger.update id fun _ =>
            (model.planned context owner id shape).record).updateChecks id fun _ =>
              (model.planned context owner id shape).checks
          diagnostics := (model.planned context owner id shape).diagnostics } }.updateDeclaration
      owner fun declaration =>
        { declaration with
          constants := (model.planned context owner id shape).constants
          libraryTypes := (model.planned context owner id shape).libraryTypes } := rfl

/-- The records of a plan are those of a change of one record. -/
theorem record_plan_eq_update {other : RecordId} :
    (model.plan context owner id shape).ledger.record other =
      (model.ledger.update id fun _ => (model.planned context owner id shape).record).record other :=
  rfl

/-- The declarations of a plan are those of a change of one declaration. -/
theorem declaration_plan_eq_update {other : DeclarationId} :
    (model.plan context owner id shape).declaration other =
      (model.updateDeclaration owner fun declaration =>
        { declaration with
          constants := (model.planned context owner id shape).constants
          libraryTypes := (model.planned context owner id shape).libraryTypes }).declaration other :=
  rfl

/-- A plan changes the patterns of one record and nothing else in the records. -/
theorem record_plan {other : RecordId} :
    (model.plan context owner id shape).ledger.record other =
      if other = id ∧ id.index < model.ledger.size then
        (model.planned context owner id shape).record
      else model.ledger.record other := by
  rw [record_plan_eq_update]
  exact Ledger.record_update

/-- What does not depend on patterns and maps is left as it is by a plan. -/
theorem field_plan {α : Type} (field : Record → α)
    (same : ∀ (record : Record) patterns backed,
      field { record with patternProperties := patterns, mapBacked := backed } = field record)
    {other : RecordId} :
    field ((model.plan context owner id shape).ledger.record other) =
      field (model.ledger.record other) := by
  -- A plan writes only the patterns and the map of a record.
  rw [record_plan_eq_update]
  refine Ledger.field_update field ?_
  rw [planned_grows.record]
  exact same ..

@[simp] theorem size_plan :
    (model.plan context owner id shape).ledger.size = model.ledger.size := by
  rw [plan_eq, ledger_updateDeclaration]
  exact Ledger.size_update

/-- A plan changes the constants and library types of one class and nothing else in the classes. -/
theorem declaration_plan {other : DeclarationId} :
    (model.plan context owner id shape).declaration other =
      if other = owner ∧ owner.index < model.declarations.size then
        { model.declaration owner with
          constants := (model.planned context owner id shape).constants
          libraryTypes := (model.planned context owner id shape).libraryTypes }
      else model.declaration other := by
  rw [declaration_plan_eq_update]
  exact declaration_updateDeclaration

@[simp] theorem declarations_size_plan :
    (model.plan context owner id shape).declarations.size = model.declarations.size := by
  rw [plan_eq, size_updateDeclaration]

end Model

end SchemaClasses
