import SchemaClasses.Proofs.Resolution.Checks

/-! A plan that is made a second time finds all that it would add: each part of it does nothing where
what it added the first time is there. -/

namespace SchemaClasses

/-- Whether two records differ at most in what a plan writes to its record. -/
def Record.PlannedAs (before after : Record) : Prop :=
  after =
    { before with
      patternProperties := after.patternProperties
      mapBacked := after.mapBacked }

namespace Record.PlannedAs

variable {a b c : Record}

theorem refl (record : Record) : record.PlannedAs record := rfl

theorem trans (first : a.PlannedAs b) (second : b.PlannedAs c) : a.PlannedAs c := by
  unfold PlannedAs at *
  rw [second, first]

theorem symm (same : a.PlannedAs b) : b.PlannedAs a := by
  unfold PlannedAs at *
  rw [same]

/-- What a plan does not write is the same in both records. -/
theorem field {α : Type} (same : a.PlannedAs b) (field : Record → α)
    (kept : ∀ (record : Record) patternProperties mapBacked,
      field { record with patternProperties, mapBacked } = field record) : field b = field a := by
  rw [same]
  exact kept _ _ _

theorem isNegation (same : a.PlannedAs b) : b.isNegation = a.isNegation :=
  same.field Record.isNegation fun _ _ _ => rfl

end Record.PlannedAs

/-- A value that a list holds is not added to it. -/
theorem addNew_of_mem {α : Type} [BEq α] [LawfulBEq α] {values : List α} {value : α}
    (member : value ∈ values) : addNew values value = values := by
  rw [addNew, if_pos (by simpa using member)]

theorem CheckSet.add_of_mem {set : CheckSet} {check : Check} (member : check ∈ set.items) :
    set.add check = set := by
  rw [add, if_pos (by simpa [contains] using member)]

namespace Diagnostics

variable {found : Diagnostics} {d : Diagnostic}

theorem subset_push : found.items ⊆ (found.push d).items := by
  unfold push
  split
  · exact List.Subset.refl _
  · exact List.subset_append_left _ _

theorem mem_push : d ∈ (found.push d).items := by
  unfold push
  split
  · assumption
  · exact List.mem_append_right _ (List.mem_singleton.mpr rfl)

end Diagnostics

namespace Plan

/-- Whether all that a plan holds is held by another one for the same record. -/
structure Within (before after : Plan) : Prop where
  record : before.record.PlannedAs after.record
  mapBacked : before.record.mapBacked = true → after.record.mapBacked = true
  checks : before.checks.items ⊆ after.checks.items
  constants : before.constants.entries <+: after.constants.entries
  libraryTypes : before.libraryTypes ⊆ after.libraryTypes
  diagnostics : before.diagnostics.items ⊆ after.diagnostics.items

namespace Within

variable {a b c : Plan}

theorem refl (plan : Plan) : plan.Within plan :=
  ⟨rfl, id, List.Subset.refl _, List.prefix_rfl, List.Subset.refl _, List.Subset.refl _⟩

theorem trans (first : a.Within b) (second : b.Within c) : a.Within c where
  record := first.record.trans second.record
  mapBacked := second.mapBacked ∘ first.mapBacked
  checks := List.Subset.trans first.checks second.checks
  constants := first.constants.trans second.constants
  libraryTypes := List.Subset.trans first.libraryTypes second.libraryTypes
  diagnostics := List.Subset.trans first.diagnostics second.diagnostics

end Within

/-- A part of a plan, made twice: it leads from one plan to another, and later on, for the same record,
from a plan to its last state. The first time it only adds, and where all that it added is there, it does
nothing the second time. -/
structure Again (before after later last : Plan) : Prop where
  record : after.record.PlannedAs last.record
  within : before.Within after
  idle : after.Within later → last = later

namespace Again

variable {a b c x y z before later : Plan} {kind : CheckKind}

theorem refl (same : before.record.PlannedAs later.record) : Again before before later later :=
  ⟨same, .refl before, fun _ => rfl⟩

/-- One part after the other, for the same record again. -/
theorem trans (first : Again a b x y)
    (second : b.record.PlannedAs y.record → Again b c y z) : Again a c x z where
  record := (second first.record).record
  within := first.within.trans (second first.record).within
  idle held := by
    have second := second first.record
    have same := first.idle (second.within.trans held)
    exact (second.idle (same ▸ held)).trans same

/-- A part for each item of a list. -/
theorem foldl {α : Type} {step : Plan → α → Plan} (items : List α)
    (same : before.record.PlannedAs later.record)
    (each : ∀ before later item, before.record.PlannedAs later.record →
      Again before (step before item) later (step later item)) :
    Again before (items.foldl step before) later (items.foldl step later) := by
  induction items generalizing before later with
  | nil => exact refl same
  | cons item rest ih =>
    exact (each before later item same).trans ih

/-- A check. -/
theorem check {operand : Option Operand} (same : before.record.PlannedAs later.record) :
    Again before (before.check kind operand) later (later.check kind operand) where
  record := same
  within :=
    { Within.refl before with
      checks := fun check member => CheckSet.mem_add.mpr (.inl member) }
  idle held := by
    -- The check was added the first time, so adding it again finds it there.
    have there : ⟨kind, operand, before.record.isNegation⟩ ∈ later.checks.items :=
      held.checks (CheckSet.mem_add.mpr (.inr rfl))
    rw [Plan.check, same.isNegation, CheckSet.add_of_mem there]

/-- A check against a constant. -/
theorem checkConstant {constantKind : ConstantKind} {value : ConstantValue}
    (same : before.record.PlannedAs later.record) :
    Again before (before.checkConstant kind constantKind value) later
      (later.checkConstant kind constantKind value) where
  record := same
  within :=
    { Within.refl before with
      checks := fun check member => CheckSet.mem_add.mpr (.inl member)
      constants := ConstantPool.prefix_add .. }
  idle held := by
    -- The constant was pooled the first time, so the check names the same one.
    have longer : (before.constants.add constantKind value).2.entries <+: later.constants.entries :=
      held.constants
    have there : ⟨kind, some (.constant (before.constants.add constantKind value).1),
        before.record.isNegation⟩ ∈ later.checks.items :=
      held.checks (CheckSet.mem_add.mpr (.inr rfl))
    rw [Plan.checkConstant, ConstantPool.add_of_grown longer]
    simp only [Plan.check, same.isNegation, CheckSet.add_of_mem there]

/-- A library type. -/
theorem use {type : LibraryType} (same : before.record.PlannedAs later.record) :
    Again before (before.use type) later (later.use type) where
  record := same
  within := { Within.refl before with libraryTypes := subset_addNew }
  idle held := by
    rw [Plan.use, addNew_of_mem (held.libraryTypes (mem_addNew.mpr (.inr rfl)))]

/-- A finding. -/
theorem diagnostic {d : Diagnostic} (same : before.record.PlannedAs later.record) :
    Again before { before with diagnostics := before.diagnostics.push d } later
      { later with diagnostics := later.diagnostics.push d } where
  record := same
  within := { Within.refl before with diagnostics := Diagnostics.subset_push }
  idle held := by
    rw [Diagnostics.push, if_pos (held.diagnostics Diagnostics.mem_push)]

theorem numberEnum (same : before.record.PlannedAs later.record) :
    Again before before.numberEnum later later.numberEnum := by
  unfold Plan.numberEnum
  rw [same.field Record.numericEnumeration? fun _ _ _ => rfl]
  cases before.record.numericEnumeration? with
  | some numbers => exact checkConstant same
  | none => exact refl same

theorem integerRange {kinds : IntegerChecks} (same : before.record.PlannedAs later.record) :
    Again before (before.integerRange kinds) later (later.integerRange kinds) := by
  unfold Plan.integerRange
  -- The range is read from the record, which a plan leaves alone.
  rw [same.field Record.integerRange fun _ _ _ => rfl]
  obtain ⟨least | least, greatest | greatest⟩ := before.record.integerRange
  · exact refl same
  · exact check same
  · exact check same
  · dsimp only
    split
    · exact check same
    · exact check same

theorem integer {kinds : IntegerChecks} (same : before.record.PlannedAs later.record) :
    Again before (before.integer kinds) later (later.integer kinds) := by
  unfold Plan.integer
  dsimp only
  rw [same.field Record.numericConstant? fun _ _ _ => rfl,
    same.field Record.multipleOf fun _ _ _ => rfl]
  -- The parts come one after the other: the range, the constant, the divisors and the enumeration.
  refine trans ?_ numberEnum
  refine trans ?_ fun same => foldl _ same fun _ _ _ same => check same
  cases before.record.numericConstant? with
  | some value => exact (integerRange same).trans check
  | none => exact integerRange same

theorem decimalRange (same : before.record.PlannedAs later.record) :
    Again before before.decimalRange later later.decimalRange := by
  unfold Plan.decimalRange
  rw [same.field Record.minimum fun _ _ _ => rfl, same.field Record.maximum fun _ _ _ => rfl]
  -- Without bounds nothing is planned, and with one or both of them a single check is.
  cases before.record.minimum with
  | none =>
    cases before.record.maximum with
    | none => exact refl same
    | some greatest => exact check same
  | some least =>
    cases before.record.maximum with
    | none => exact check same
    | some greatest =>
      dsimp only
      split
      · exact checkConstant same
      · exact check same

theorem decimal (same : before.record.PlannedAs later.record) :
    Again before before.decimal later later.decimal := by
  unfold Plan.decimal
  dsimp only
  rw [same.field Record.numericConstant? fun _ _ _ => rfl,
    same.field Record.multipleOf fun _ _ _ => rfl]
  -- The parts come in the same order as for whole numbers.
  refine trans ?_ numberEnum
  refine trans ?_ fun same => foldl _ same fun _ _ _ same => checkConstant same
  cases before.record.numericConstant? with
  | some value => exact (decimalRange same).trans checkConstant
  | none => exact decimalRange same

theorem counts {range : CountRange} {rangeKind constKind : CheckKind}
    (same : before.record.PlannedAs later.record) :
    Again before (before.counts range rangeKind constKind) later
      (later.counts range rangeKind constKind) := by
  unfold Plan.counts
  -- The limits are those of the range, whichever record it is taken from.
  split
  · exact refl same
  · split
    · exact check same
    · exact check same
  · exact check same

theorem lengths (same : before.record.PlannedAs later.record) :
    Again before before.lengths later later.lengths := by
  rw [Plan.lengths, Plan.lengths, same.field Record.length fun _ _ _ => rfl]
  exact counts same

theorem itemCounts (same : before.record.PlannedAs later.record) :
    Again before before.itemCounts later later.itemCounts := by
  rw [Plan.itemCounts, Plan.itemCounts, same.field Record.itemCount fun _ _ _ => rfl]
  exact counts same

theorem patterns (same : before.record.PlannedAs later.record) :
    Again before before.patterns later later.patterns := by
  rw [Plan.patterns, Plan.patterns, same.field Record.patterns fun _ _ _ => rfl]
  exact foldl _ same fun _ _ _ same => (checkConstant same).trans use

theorem formats {location : String} {narrowed : Option LibraryType} {names : List String}
    (same : before.record.PlannedAs later.record) :
    Again before (Plan.formats location narrowed names before) later
      (Plan.formats location narrowed names later) := by
  -- The same formats are met in the same order, and the same one may be left unchecked.
  induction names generalizing narrowed before later with
  | nil => exact refl same
  | cons format rest ih =>
    have checked (narrowed : Option LibraryType) : Again before
        (Plan.formats location narrowed rest (before.check .format (some (.text format)))) later
        (Plan.formats location narrowed rest (later.check .format (some (.text format)))) :=
      (check same).trans ih
    -- What a format stands for does not depend on the plan.
    rw [Plan.formats, Plan.formats, same.isNegation]
    cases FormatRole.ofFormat format with
    | library type =>
      dsimp only
      split
      · exact ih same
      · exact checked narrowed
    | checked => exact checked narrowed
    | numeric => exact ih same
    | unknown => exact (diagnostic same).trans ih

theorem string {location : String} {narrowed : Option LibraryType}
    (same : before.record.PlannedAs later.record) :
    Again before (before.string location narrowed) later (later.string location narrowed) := by
  unfold Plan.string
  dsimp only
  rw [same.field Record.formats fun _ _ _ => rfl, same.field Record.textConstant? fun _ _ _ => rfl,
    same.field Record.textEnumeration? fun _ _ _ => rfl]
  -- Behind the formats, the lengths and the patterns come the constant and the enumeration.
  have texts : Again before (Plan.formats location narrowed before.record.formats before).lengths.patterns
      later (Plan.formats location narrowed before.record.formats later).lengths.patterns :=
    ((formats same).trans lengths).trans patterns
  cases before.record.textConstant? with
  | some text =>
    cases before.record.textEnumeration? with
    | some texts' => exact (texts.trans checkConstant).trans checkConstant
    | none => exact texts.trans checkConstant
  | none =>
    cases before.record.textEnumeration? with
    | some texts' => exact texts.trans checkConstant
    | none => exact texts

theorem array {itemsChecked : Bool} (same : before.record.PlannedAs later.record) :
    Again before (before.array itemsChecked) later (later.array itemsChecked) := by
  -- Using lists and counting the items come first, and neither changes the record.
  have counted : Again before (before.use .list).itemCounts later (later.use .list).itemCounts :=
    (use same).trans itemCounts
  unfold Plan.array
  dsimp only
  rw [counted.record.field Record.uniqueItems fun _ _ _ => rfl]
  split
  · refine trans ?_ check
    split
    · exact counted.trans check
    · exact counted
  · split
    · exact counted.trans check
    · exact counted

theorem custom {custom : CustomClass} {isInteger : Bool}
    (same : before.record.PlannedAs later.record) :
    Again before (before.custom custom isInteger) later (later.custom custom isInteger) := by
  -- Texts are measured only if the class is a sequence of characters.
  have measured : Again before (if custom.has .charSequence then before.lengths.patterns else before)
      later (if custom.has .charSequence then later.lengths.patterns else later) := by
    split
    · exact (lengths same).trans patterns
    · exact refl same
  have compared {before later : Plan} (same : before.record.PlannedAs later.record) :
      Again before
        (if custom.has .comparable then if isInteger then before.integer wide else before.decimal
          else before)
        later
        (if custom.has .comparable then if isInteger then later.integer wide else later.decimal
          else later) := by
    split
    · split
      · exact integer same
      · exact decimal same
    · exact refl same
  -- Every part is made again on a record that is planned as the first one was.
  unfold Plan.custom
  dsimp only
  split
  · exact (measured.trans compared).trans itemCounts
  · exact measured.trans compared

end Again

variable {before later : Plan}

/-- The pattern of a property. -/
theorem Again.patternProperty {entry : PatternProperty} (same : before.record.PlannedAs later.record) :
    Again before (before.patternProperty entry).1 later (later.patternProperty entry).1 ∧
      ((before.patternProperty entry).1.Within later →
        later.patternProperty (before.patternProperty entry).2 =
          (later, (before.patternProperty entry).2)) := by
  have within : before.Within (before.patternProperty entry).1 :=
    { Within.refl before with
      checks := fun check member => CheckSet.mem_add.mpr (.inl member)
      constants := ConstantPool.prefix_add ..
      libraryTypes := subset_addNew }
  -- What is there later gives the same constant, which the entry has already.
  have idle (entry' : PatternProperty) (pattern : entry'.pattern = entry.pattern)
      (held : (before.patternProperty entry).1.Within later) :
      later.patternProperty entry' =
        (later, { entry' with constant := (before.patternProperty entry).2.constant }) := by
    have longer : (before.constants.add .regex (.text entry.pattern)).2.entries <+:
        later.constants.entries := held.constants
    have there : ⟨.patternProperties,
        some (.constant (before.constants.add .regex (.text entry.pattern)).1),
        before.record.isNegation⟩ ∈ later.checks.items :=
      held.checks (CheckSet.mem_add.mpr (.inr rfl))
    have used : .regex ∈ later.libraryTypes := held.libraryTypes (mem_addNew.mpr (.inr rfl))
    -- With the constant, the check and the type all there, each step returns the plan as it is.
    rw [Plan.patternProperty, pattern, ConstantPool.add_of_grown longer]
    simp only [Plan.check, Plan.use, same.isNegation, addNew_of_mem used, CheckSet.add_of_mem there]
    rfl
  refine ⟨⟨same, within, fun held => ?_⟩, idle _ rfl⟩
  rw [idle entry rfl held]

/-- Patterns of properties that were pooled get the same constants again. -/
theorem patternProperties_again {entries : List PatternProperty}
    (same : before.record.PlannedAs later.record) :
    before.Within (patternProperties entries before).2 ∧
      ((patternProperties entries before).2.Within later →
        patternProperties (patternProperties entries before).1 later =
          ((patternProperties entries before).1, later)) := by
  -- The entries are pooled one after the other, so the induction follows the list.
  induction entries generalizing before with
  | nil => exact ⟨.refl before, fun _ => rfl⟩
  | cons entry rest ih =>
    obtain ⟨first, again⟩ := @Again.patternProperty before later entry same
    have same' : (before.patternProperty entry).1.record.PlannedAs later.record := same
    obtain ⟨within, idle⟩ := ih same'
    refine ⟨first.within.trans within, fun held => ?_⟩
    simp only [patternProperties]
    -- The first entry finds its constant, and the rest of the list finds the others.
    rw [again (within.trans held)]
    dsimp only
    rw [idle held]

/-- The check on properties without a name, and whether the class keeps its properties in a map. -/
def unnamedCheck (isTyped : RecordId → Bool) (plan : Plan) : Bool × Plan :=
  let patterned := !plan.record.patternProperties.isEmpty
  match plan.record.additional with
  | some .forbidden => (patterned, if patterned then plan.check .unexpectedProperties none else plan)
  | some (.schema value) =>
    let covered := patterned || !plan.record.properties.isEmpty
    (true, if covered && isTyped value then plan.check .additionalProperties none else plan)
  | _ => (false, plan)

/-- The patterns of a record with their constants, and the map for the properties that match them. -/
def enter (mapped : Bool) (entries : List PatternProperty) (plan : Plan) : Plan :=
  let entered : Plan := { plan with record := { plan.record with patternProperties := entries } }
  if mapped then entered.backByMap else entered

/-- The open properties of a record: the unnamed ones, the patterns, and what is kept of them. -/
theorem openProperties_eq {isTyped : RecordId → Bool} {plan : Plan} :
    plan.openProperties isTyped =
      enter (plan.unnamedCheck isTyped).1
        (patternProperties plan.record.patternProperties (plan.unnamedCheck isTyped).2).1
        (patternProperties plan.record.patternProperties (plan.unnamedCheck isTyped).2).2 := rfl

section

variable {mapped : Bool} {entries : List PatternProperty} {plan : Plan}

@[simp] theorem patternProperties_enter : (enter mapped entries plan).record.patternProperties = entries := by
  unfold enter
  split <;> rfl

theorem within_enter : plan.Within (enter mapped entries plan) := by
  unfold enter
  split
  · exact { Within.refl plan with
      record := rfl, mapBacked := fun _ => rfl, libraryTypes := subset_addNew }
  · exact { Within.refl plan with record := rfl }

/-- What was entered is not entered again. -/
theorem enter_of_held (held : (enter mapped entries plan).Within later)
    (same : later.record.patternProperties = entries) : enter mapped entries later = later := by
  subst same
  unfold enter at held ⊢
  split
  · -- A map was used the first time, and the record says so already.
    rename_i isMapped
    rw [if_pos isMapped] at held
    have used : .map ∈ later.libraryTypes := held.libraryTypes (mem_addNew.mpr (.inr rfl))
    have backed : { later.record with mapBacked := true } = later.record := by
      rw [← held.mapBacked rfl]
    simp only [backByMap, use, addNew_of_mem used, backed]
  · rfl

end

/-- Which patterns there are is all that a plan reads of them before they are pooled. -/
theorem unnamedCheck_again {isTyped : RecordId → Bool} (same : before.record.PlannedAs later.record)
    (patterned : later.record.patternProperties.isEmpty = before.record.patternProperties.isEmpty) :
    (later.unnamedCheck isTyped).1 = (before.unnamedCheck isTyped).1 ∧
      Again before (before.unnamedCheck isTyped).2 later (later.unnamedCheck isTyped).2 := by
  -- Whether the names are checked does not depend on what is there already.
  have checked {kind : CheckKind} {covered : Bool} :
      Again before (if covered then before.check kind none else before) later
        (if covered then later.check kind none else later) := by
    split
    · exact .check same
    · exact .refl same
  unfold unnamedCheck
  dsimp only
  rw [patterned, same.field Record.additional fun _ _ _ => rfl,
    same.field Record.properties fun _ _ _ => rfl]
  -- Only additional properties that are forbidden or described are checked.
  cases before.record.additional with
  | none => exact ⟨rfl, .refl same⟩
  | some additional =>
    cases additional with
    | allowed => exact ⟨rfl, .refl same⟩
    | forbidden => exact ⟨rfl, checked⟩
    | schema value => exact ⟨rfl, checked⟩

theorem within_openProperties {isTyped : RecordId → Bool} {plan : Plan} :
    plan.Within (plan.openProperties isTyped) := by
  obtain ⟨-, unnamed⟩ := @unnamedCheck_again plan plan isTyped (.refl _) rfl
  rw [openProperties_eq]
  exact unnamed.within.trans ((patternProperties_again unnamed.record).1.trans within_enter)

/-- The open properties of a record, where their patterns have the constants that they were given. -/
theorem openProperties_again {isTyped : RecordId → Bool}
    (same : before.record.PlannedAs later.record)
    (held : (before.openProperties isTyped).Within later)
    (entries : later.record.patternProperties =
      (before.openProperties isTyped).record.patternProperties) :
    later.openProperties isTyped = later := by
  -- As many patterns were pooled as there are, so there are none later exactly if there were none
  -- before.
  obtain ⟨mapped, unnamed⟩ := @unnamedCheck_again before later isTyped same (by
    have length := congrArg List.length (Grows.openProperties isTyped before).patternProperties
    simp only [List.length_map, ← entries] at length
    rw [Bool.eq_iff_iff, List.isEmpty_iff_length_eq_zero, List.isEmpty_iff_length_eq_zero, length])
  rw [openProperties_eq] at held entries ⊢
  rw [patternProperties_enter] at entries
  -- What was added first is there later too, so each of the parts finds what it would add.
  have pooled := within_enter.trans held
  obtain ⟨within, again⟩ := @patternProperties_again (before.unnamedCheck isTyped).2
    (later.unnamedCheck isTyped).2 before.record.patternProperties unnamed.record
  have idle := unnamed.idle (within.trans pooled)
  rw [idle] at again
  rw [idle, mapped, entries, again pooled]
  exact enter_of_held held entries

/-- The checks on an object, where the patterns of its properties have their constants. -/
theorem object_again {strict : Bool} {isTyped : RecordId → Bool}
    (same : before.record.PlannedAs later.record)
    (held : (before.object strict isTyped).Within later)
    (entries : later.record.patternProperties =
      (before.object strict isTyped).record.patternProperties) :
    later.object strict isTyped = later := by
  -- The number of properties is counted first, whatever comes behind.
  have counted : Again before (before.counts before.record.propertyCount .propertiesRange .propertiesConst)
      later (later.counts later.record.propertyCount .propertiesRange .propertiesConst) := by
    rw [same.field Record.propertyCount fun _ _ _ => rfl]
    exact .counts same
  unfold object at held entries ⊢
  dsimp only at held entries ⊢
  -- A strict class checks its open properties, and a lax one has counted its properties only.
  split at held
  · rename_i isStrict
    rw [if_pos isStrict] at entries ⊢
    rw [counted.idle (within_openProperties.trans held)]
    exact openProperties_again (counted.within.record.symm.trans same) held entries
  · rename_i lax
    rw [if_neg lax]
    exact counted.idle held

/-- A plan that is made again in the same shape adds nothing, if what it reads of other records is as
before. -/
theorem checksOf_again {context : Context} {ledger ledger' : Ledger} {id : RecordId} {shape : Shape}
    {plan : Plan}
    (classified : ∀ value, context.classify ledger' value false = context.classify ledger value false)
    (types : ledger'.effectiveTypes id = ledger.effectiveTypes id)
    (items : ∀ items, plan.record.items = some items → ledger'.checks items = ledger.checks items) :
    checksOf context ledger' id shape (checksOf context ledger id shape plan) =
      checksOf context ledger id shape plan := by
  have same : plan.record.PlannedAs (checksOf context ledger id shape plan).record :=
    (Grows.checksOf context ledger id shape plan).record
  -- The plan of the first round stands for any later plan in which all of it is held.
  generalize after : checksOf context ledger id shape plan = later at same ⊢
  have held : (checksOf context ledger id shape plan).Within later := by
    rw [after]
    exact .refl later
  have entries : (checksOf context ledger id shape plan).record.patternProperties =
      later.record.patternProperties := by rw [after]
  unfold checksOf at held entries ⊢
  -- The record of the later plan is the one that was planned first.
  dsimp only at held entries ⊢
  rw [same.field Record.schema fun _ _ _ => rfl]
  -- Each shape has parts of its own, and a generated class has none.
  cases shape with
  | int32 => exact (Again.integer same).idle held
  | int64 => exact (Again.integer same).idle held
  | decimal => exact ((Again.use same).trans .decimal).idle held
  | string => exact (Again.string same).idle held
  | library type => exact ((Again.use same).trans .string).idle held
  | array =>
    have checked : (later.record.items.any fun items => !(ledger'.checks items).isEmpty) =
        plan.record.items.any fun items => !(ledger.checks items).isEmpty := by
      rw [same.field Record.items fun _ _ _ => rfl]
      cases inner : plan.record.items with
      | none => rfl
      | some items' => simp only [Option.any_some, items items' inner]
    dsimp only at held ⊢
    rw [checked]
    exact (Again.array same).idle held
  | object =>
    simp only [classified]
    exact object_again same held entries.symm
  | reference type =>
    cases type with
    | generated ref => rfl
    | custom custom =>
      dsimp only at held ⊢
      rw [types]
      exact (Again.custom same).idle held
  | identifierEnum => rfl
  | boolean => rfl
  | untyped => rfl

end Plan

namespace Ledger

variable {ledger ledger' : Ledger} {id value : RecordId}

/-- A change that leaves the record alone leaves the ledger alone. -/
theorem update_eq_self {change : Record → Record} (same : change (ledger.record id) = ledger.record id) :
    ledger.update id change = ledger := by
  unfold update
  congr 1
  refine Array.ext_getElem? fun index => ?_
  rw [Array.getElem?_modify]
  -- Only the entry under the number of the record could differ, and there the change is none.
  split
  · rename_i here
    subst here
    rw [record_eq] at same
    cases there : ledger.records[id.index]? with
    | none => rfl
    | some held =>
      rw [there] at same
      exact congrArg some same
  · rfl

/-- A change that leaves the checks of a record alone leaves the ledger alone. -/
theorem updateChecks_eq_self {change : CheckSet → CheckSet}
    (same : change (ledger.checks id) = ledger.checks id) : ledger.updateChecks id change = ledger := by
  unfold updateChecks
  congr 1
  refine Array.ext_getElem? fun index => ?_
  rw [Array.getElem?_modify]
  -- Only the set of the record could differ, and there the change is none.
  split
  · rename_i here
    subst here
    rw [checks, Array.getD_eq_getD_getElem?] at same
    cases there : ledger.checkSets[(ledger.record id).checks.index]? with
    | none => rfl
    | some held =>
      rw [there] at same
      exact congrArg some same
  · rfl

/-- The types of a value do not depend on what plans write. -/
theorem effectiveTypes_congr (same : ∀ id, (ledger.record id).PlannedAs (ledger'.record id)) :
    ledger'.effectiveTypes id = ledger.effectiveTypes id := by
  have types (id : RecordId) : (ledger'.record id).types = (ledger.record id).types :=
    (same id).field Record.types fun _ _ _ => rfl
  simp only [effectiveTypes, types, (same id).field Record.negationOf fun _ _ _ => rfl]

/-- The shape of a value does not depend on what plans write. -/
theorem classify_congr {tree : SchemaTree} {tables : CustomClassTables} {promoteEnums : Bool}
    (same : ∀ id, (ledger.record id).PlannedAs (ledger'.record id)) :
    ledger'.classify tree tables id promoteEnums = ledger.classify tree tables id promoteEnums := by
  -- A custom class is chosen by fields that no plan writes.
  have custom : ledger'.customClass? tree tables id = ledger.customClass? tree tables id := by
    unfold customClass?
    rw [same id]
    rfl
  -- So is the shape that is inferred.
  have inferred : ledger'.inferShape id promoteEnums = ledger.inferShape id promoteEnums := by
    unfold inferShape
    rw [effectiveTypes_congr same, same id]
    rfl
  rw [classify, custom, inferred, (same id).field Record.typeRef fun _ _ _ => rfl, classify]

end Ledger

namespace Model

variable {model : Model} {context : Context} {owner : DeclarationId} {id : RecordId} {shape : Shape}

/-- A change that leaves a declaration alone leaves the model alone. -/
theorem updateDeclaration_eq_self {change : Declaration → Declaration}
    (same : change (model.declaration owner) = model.declaration owner) :
    model.updateDeclaration owner change = model := by
  unfold updateDeclaration
  congr 1
  refine Array.ext_getElem? fun index => ?_
  rw [Array.getElem?_modify]
  -- Only the entry under the number of the declaration could differ, and there the change is none.
  split
  · rename_i here
    subst here
    rw [declaration, Array.getD_eq_getD_getElem?] at same
    cases there : model.declarations[owner.index]? with
    | none => rfl
    | some held =>
      rw [there] at same
      exact congrArg some same
  · rfl

/-- A plan for a record of a declaration that is there, whose items do not share its checks. -/
structure Plannable (model : Model) (owner : DeclarationId) (id : RecordId) : Prop where
  declared : owner.index < model.declarations.size
  present : id.index < model.ledger.size
  owned : (model.ledger.record id).checks.index < model.ledger.checkSets.size
  items : ∀ items, (model.ledger.record id).items = some items →
    (model.ledger.record items).checks ≠ (model.ledger.record id).checks

section

variable (plannable : model.Plannable owner id)
include plannable

theorem record_plan_self : (model.plan context owner id shape).ledger.record id =
    (model.planned context owner id shape).record := by
  rw [record_plan, if_pos ⟨rfl, plannable.present⟩]

theorem checks_plan_self : (model.plan context owner id shape).ledger.checks id =
    (model.planned context owner id shape).checks := by
  rw [checks_plan, if_pos ⟨rfl, plannable.owned⟩]

theorem declaration_plan_self : (model.plan context owner id shape).declaration owner =
    { model.declaration owner with
      constants := (model.planned context owner id shape).constants
      libraryTypes := (model.planned context owner id shape).libraryTypes } := by
  rw [declaration_plan, if_pos ⟨rfl, plannable.declared⟩]

/-- A plan that is made again is the same plan. -/
theorem planned_again :
    (model.plan context owner id shape).planned context owner id shape =
      model.planned context owner id shape := by
  have same (other : RecordId) : (model.ledger.record other).PlannedAs
      ((model.plan context owner id shape).ledger.record other) := by
    -- Only the record itself was written, and it was planned as before.
    rw [record_plan]
    split
    · rename_i here
      rw [here.1]
      exact planned_grows.record
    · exact .refl _
  rw [planned, record_plan_self plannable, checks_plan_self plannable, declaration_plan_self plannable]
  refine Plan.checksOf_again (fun value => Ledger.classify_congr same)
    (Ledger.effectiveTypes_congr same) fun items held => ?_
  -- The checks of the items are in another set, which the plan has left alone.
  rw [checks_plan, if_neg fun shared => plannable.items items held shared.1]

/-- Planning a record a second time changes nothing at all. -/
theorem plan_again :
    (model.plan context owner id shape).plan context owner id shape =
      model.plan context owner id shape := by
  -- After the first plan, the record, its checks and its declaration are what the plan had in the
  -- end.
  have record := @record_plan_self model context owner id shape plannable
  have checks := @checks_plan_self model context owner id shape plannable
  have declaration := @declaration_plan_self model context owner id shape plannable
  have diagnostics : (model.plan context owner id shape).survey.diagnostics =
      (model.planned context owner id shape).diagnostics := rfl
  have again := @planned_again model context owner id shape plannable
  generalize model.plan context owner id shape = after at *
  generalize model.planned context owner id shape = plan at *
  rw [plan_eq, again, Ledger.update_eq_self record.symm, Ledger.updateChecks_eq_self checks.symm,
    ← diagnostics]
  -- The declaration has the constants and the types already.
  refine updateDeclaration_eq_self ?_
  show { after.declaration owner with
    constants := plan.constants, libraryTypes := plan.libraryTypes } = after.declaration owner
  rw [declaration]

end

end Model

end SchemaClasses
