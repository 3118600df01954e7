import SchemaClasses.Plan
import SchemaClasses.Proofs.Reading.Upgrading
import SchemaClasses.Proofs.Survey.Steps

/-! Two trees that say the same: surveys of them fill the same ledger, and plans over them hold the same
checks. Only what is found to report may differ. -/

namespace SchemaClasses

/-- Whether two surveys have gathered the same, whatever they have found to report. -/
def Survey.SameLedger (survey survey' : Survey) : Prop := survey.ledger = survey'.ledger

namespace Survey

variable {tree tree' : SchemaTree} {id : RecordId}

/-- The same change of both ledgers. -/
theorem tandem_onLedger {α : Type} {change : Ledger → α × Ledger} :
    Tandem SameLedger (onLedger change) (onLedger change) := by
  rintro ⟨ledger, found⟩ ⟨_, found'⟩ rfl
  exact ⟨rfl, rfl⟩

/-- The same record of both ledgers. -/
theorem tandem_record : Tandem SameLedger (record id) (record id) := by
  rintro ⟨ledger, found⟩ ⟨_, found'⟩ rfl
  exact ⟨rfl, rfl⟩

theorem tandem_update {change : Record → Record} :
    Tandem SameLedger (update id change) (update id change) := by
  rintro ⟨ledger, found⟩ ⟨_, found'⟩ rfl
  exact ⟨rfl, rfl⟩

theorem tandem_report {found found' : Diagnostic} : Tandem SameLedger (report found) (report found') := by
  rintro ⟨ledger, found⟩ ⟨_, found'⟩ rfl
  exact ⟨rfl, rfl⟩

/-- Steps that leave the ledgers alone may differ in all else. -/
theorem tandem_of_ledger_eq {step step' : Surveying Unit}
    (idle : ∀ survey, Ends step survey (fun _ last => last.ledger = survey.ledger) fun _ => False)
    (idle' : ∀ survey, Ends step' survey (fun _ last => last.ledger = survey.ledger) fun _ => False) :
    Tandem SameLedger step step' := by
  intro survey survey' concurs
  -- Neither step can fail, so there are two last states with the ledgers of the first ones.
  obtain ⟨⟨⟩, last, ran, same⟩ := (idle survey).exists_ok
  obtain ⟨⟨⟩, last', ran', same'⟩ := (idle' survey').exists_ok
  have ran : step survey = .ok () last := ran
  have ran' : step' survey' = .ok () last' := ran'
  rw [ran, ran']
  exact ⟨rfl, same.trans (concurs.trans same'.symm)⟩

theorem tandem_checkPattern {location location' pattern : String} :
    Tandem SameLedger (checkPattern location pattern) (checkPattern location' pattern) :=
  tandem_of_ledger_eq ledger_checkPattern ledger_checkPattern

/-- Examples may be held against different sources. -/
theorem tandem_checkExamples {location location' : String} {source source' : Json} :
    Tandem SameLedger (checkExamples location source) (checkExamples location' source') :=
  tandem_of_ledger_eq ledger_checkExamples ledger_checkExamples

section

variable (concurs : tree.Concurs tree')

include concurs

/-- The same references are noted. -/
theorem noteReference_eq : noteReference tree = noteReference tree' := by
  funext schema id
  unfold noteReference
  rw [concurs.reference?_eq, concurs.location_eq]

theorem tandem_noteReference {schema : SchemaId} :
    Tandem SameLedger (noteReference tree schema id) (noteReference tree' schema id) := by
  -- The texts of the references agree, so on both sides the same is noted or nothing at all.
  rw [noteReference_eq concurs]
  unfold noteReference
  apply tandem_record.bind
  intro held
  split
  · split
    · exact tandem_update
    · exact .pure
  · exact .pure

/-- The same titles are noted. -/
theorem tandem_noteTitles {schema : SchemaId} :
    Tandem SameLedger (noteTitles (tree.schema schema) id) (noteTitles (tree'.schema schema) id) := by
  unfold noteTitles
  rw [concurs.title?_eq, concurs.description?_eq]
  exact tandem_update

/-- The same branches make a value nullable. -/
theorem nullableForm?_eq : nullableForm? tree = nullableForm? tree' := by
  funext branches
  unfold nullableForm?
  split
  · rw [concurs.isNullType_eq, concurs.isNullType_eq]
  · rfl

/-- The same schemas are being visited. -/
theorem isBusy_eq {opened : List SchemaId} : isBusy tree opened = isBusy tree' opened := by
  funext schema
  have body := concurs.body schema
  unfold isBusy
  generalize (tree.schema schema).body = here at body ⊢
  generalize (tree'.schema schema).body = there at body ⊢
  cases body <;> rfl

variable {visit visit' : SchemaId → RecordId → Surveying Unit}

/-- Schemas of additional properties are merged alike. -/
theorem tandem_mergeAdditional
    (visits : ∀ schema id, Tandem SameLedger (visit schema id) (visit' schema id)) {schema : SchemaId} :
    Tandem SameLedger (mergeAdditional tree visit schema id) (mergeAdditional tree' visit' schema id) := by
  -- The bodies say the same, whichever texts they were read from.
  have body := concurs.body schema
  unfold mergeAdditional
  apply tandem_record.bind
  intro held
  generalize (tree.schema schema).body = here at body ⊢
  generalize (tree'.schema schema).body = there at body ⊢
  -- Where a new record is needed, both sides make it, put it into place and visit it.
  have joined : Tandem SameLedger
      (do
        let inner ← onLedger (·.create (some schema) none)
        update id fun record => { record with additional := some (.schema inner) }
        visit schema inner)
      (do
        let inner ← onLedger (·.create (some schema) none)
        update id fun record => { record with additional := some (.schema inner) }
        visit' schema inner) :=
    tandem_onLedger.bind fun inner => tandem_update.bind fun _ => visits schema inner
  -- What to do depends on the body and on what the record holds, and both are the same on both sides.
  cases body with
  | boolean value =>
    cases value with
    -- A schema that forbids all is only kept out by what forbids already.
    | false =>
      rcases held.additional with _ | ⟨⟩ | ⟨⟩ | inner
      all_goals first | exact .pure | exact tandem_update
    -- A schema that allows all is only noted where nothing is.
    | true =>
      rcases held.additional with _ | ⟨⟩ | ⟨⟩ | inner
      all_goals first | exact .pure | exact tandem_update
  | object texts each =>
    -- Where a record is there already it is visited, and otherwise one joins.
    rcases held.additional with _ | ⟨⟩ | ⟨⟩ | inner
    all_goals first | exact .pure | exact joined | exact visits schema inner

omit concurs in
/-- Branches get their records alike. -/
theorem tandem_addBranches
    (visits : ∀ schema id, Tandem SameLedger (visit schema id) (visit' schema id))
    {branches : List SchemaId} :
    Tandem SameLedger (addBranches visit id branches) (addBranches visit' id branches) := by
  -- Both ledgers are the same, so a branch is known on both sides or on none.
  refine .forM fun branch _ => .look ?_
  rintro ⟨ledger, found⟩ ⟨_, found'⟩ rfl
  dsimp only
  split
  · exact .pure
  · exact tandem_onLedger.bind fun inner => (visits branch inner).bind fun _ => tandem_update

/-- Clauses that say the same are merged alike. -/
theorem tandem_mergeClause {isBusy : SchemaId → Bool} {clause clause' : Clause}
    (visits : ∀ schema id, Tandem SameLedger (visit schema id) (visit' schema id))
    (same : clause.Concurs clause') :
    Tandem SameLedger (mergeClause tree visit isBusy id clause)
      (mergeClause tree' visit' isBusy id clause') := by
  obtain ⟨location, keyword⟩ := clause
  obtain ⟨location', keyword'⟩ := clause'
  obtain ⟨rfl, place⟩ := same
  -- A form that only admits null besides a single branch is merged in two steps that agree.
  have nullable (schema : SchemaId) : Tandem SameLedger
      (do visit schema id; update id fun record => { record with nullable := some true })
      (do visit' schema id; update id fun record => { record with nullable := some true }) :=
    (visits schema id).bind fun _ => tandem_update
  unfold mergeClause
  rw [nullableForm?_eq concurs]
  -- Of all keywords with schemas inside, the parts are visited in the same order.
  cases keyword with
  | reference text target =>
    dsimp only
    split
    · exact .pure
    · exact visits target id
  | allOf branches => exact .forM fun branch _ => visits branch id
  | anyOf branches =>
    dsimp only
    split
    · exact nullable _
    · exact tandem_report
  | oneOf branches =>
    dsimp only
    split
    · exact nullable _
    · exact tandem_addBranches visits
  | negation schema => exact tandem_onLedger.bind fun negation => visits schema negation
  | properties entries =>
    exact .forM fun entry _ => tandem_onLedger.bind fun property => visits entry.2 property
  | patternProperties entries =>
    refine .forM fun entry _ => tandem_checkPattern.bind fun _ => ?_
    exact tandem_onLedger.bind fun value => visits entry.2 value
  | additionalProperties schema => exact tandem_mergeAdditional concurs visits
  | items schema => exact tandem_onLedger.bind fun items => visits schema items
  | bound side bound =>
    -- A bound is absorbed wherever it stands.
    cases side with
    | _ => exact tandem_record.bind fun held => tandem_update
  | pattern text =>
    -- A pattern may be refused, so the place that a refusal names has to be the same.
    obtain rfl : location = location' := place (by simp)
    apply tandem_checkPattern.bind
    intro _
    apply tandem_record.bind
    intro held
    cases held.absorb location (.pattern text) with
    | ok merged => exact tandem_update
    | error fault => exact .throw
  | _ =>
    -- Any other keyword is absorbed into the same record, with the same result or the same fault.
    obtain rfl : location = location' := place (by simp)
    apply tandem_record.bind
    intro held
    dsimp only
    generalize held.absorb location _ = result
    cases result with
    | ok merged => exact tandem_update
    | error fault => exact .throw

/-- A schema is visited alike in both trees. -/
theorem tandem_visit {opened : List SchemaId} {schema : SchemaId} {id : RecordId} :
    Tandem SameLedger (Survey.visit tree opened schema id) (Survey.visit tree' opened schema id) := by
  -- Inside, fewer schemas are open, so the induction is on their number.
  induction size : opened.length using Nat.strong_induction_on generalizing opened schema id with
  | _ size ih =>
    subst size
    have body := concurs.body schema
    -- The reference is noted on both sides before the bodies are looked at.
    rw [Survey.visit, Survey.visit]
    apply (tandem_noteReference concurs).bind
    intro _
    have titles : Tandem SameLedger (noteTitles (tree.schema schema) id)
        (noteTitles (tree'.schema schema) id) := tandem_noteTitles concurs
    generalize (tree.schema schema).body = here at body ⊢
    generalize (tree'.schema schema).body = there at body ⊢
    cases body with
    | boolean value => exact tandem_update
    | object texts each =>
      dsimp only
      by_cases isOpen : schema ∈ opened
      · rw [dif_pos isOpen, dif_pos isOpen, isBusy_eq concurs]
        apply titles.bind
        intro _
        -- An open schema is left out of those that its clauses may enter, on both sides.
        refine (Tandem.forM₂ each fun clause clause' same =>
          tandem_mergeClause concurs (fun inner id => ?_) same).bind fun _ => tandem_checkExamples
        exact ih _ (length_erase_lt isOpen) rfl
      · rw [dif_neg isOpen, dif_neg isOpen]
        exact .pure

/-- A schema is merged into a fresh record alike in both trees. -/
theorem tandem_begin {schema : SchemaId} :
    Tandem SameLedger (begin tree schema) (begin tree' schema) := by
  unfold begin merge
  rw [← concurs.ids_eq]
  exact tandem_onLedger.bind fun id => (tandem_visit concurs).bind fun _ => .pure

end

end Survey

/-- Whether two contexts have the same settings, and trees that say the same. -/
structure Context.Corresponds (context context' : Context) : Prop where
  tree : context.tree.Concurs context'.tree
  settings : context.settings = context'.settings

namespace Context.Corresponds

variable {context context' : Context} (corresponds : context.Corresponds context')

include corresponds

/-- The same custom classes are found. -/
theorem customClass?_eq : context.customClass? = context'.customClass? := by
  funext ledger id
  unfold Context.customClass? Ledger.customClass?
  rw [corresponds.settings, corresponds.tree.location_eq]

/-- Records have the same shapes. -/
theorem classify_eq : context.classify = context'.classify := by
  funext ledger id promoteEnums
  have custom : context.customClass? ledger id = context'.customClass? ledger id := by
    rw [corresponds.customClass?_eq]
  unfold Context.customClass? at custom
  unfold Context.classify Ledger.classify
  rw [custom]

end Context.Corresponds

/-- Whether two plans are the same, whatever they report. -/
def Plan.EqUpToReports (plan plan' : Plan) : Prop :=
  ∃ diagnostics, plan' = { plan with diagnostics }

namespace Plan.EqUpToReports

variable {plan plan' : Plan}

theorem check {kind : CheckKind} {operand : Option Operand} (equal : plan.EqUpToReports plan') :
    (plan.check kind operand).EqUpToReports (plan'.check kind operand) := by
  obtain ⟨found, rfl⟩ := equal
  exact ⟨found, rfl⟩

theorem checkConstant {kind : CheckKind} {constantKind : ConstantKind} {value : ConstantValue}
    (equal : plan.EqUpToReports plan') :
    (plan.checkConstant kind constantKind value).EqUpToReports
      (plan'.checkConstant kind constantKind value) := by
  obtain ⟨found, rfl⟩ := equal
  exact ⟨found, rfl⟩

theorem use {type : LibraryType} (equal : plan.EqUpToReports plan') :
    (plan.use type).EqUpToReports (plan'.use type) := by
  obtain ⟨found, rfl⟩ := equal
  exact ⟨found, rfl⟩

/-- Steps that are all kept alike are kept alike one after the other. -/
theorem foldl {α : Type} {step : Plan → α → Plan} {items : List α}
    (each : ∀ plan plan' item, plan.EqUpToReports plan' → (step plan item).EqUpToReports (step plan' item))
    (equal : plan.EqUpToReports plan') : (items.foldl step plan).EqUpToReports (items.foldl step plan') := by
  induction items generalizing plan plan' with
  | nil => exact equal
  | cons item rest ih => exact ih (each plan plan' item equal)

/-- Of two choices, the same one is taken. -/
theorem chosen {condition : Prop} [Decidable condition] {other other' : Plan}
    (equal : plan.EqUpToReports plan') (others : other.EqUpToReports other') :
    (if condition then plan else other).EqUpToReports (if condition then plan' else other') := by
  split
  · exact equal
  · exact others

theorem record_eq (equal : plan.EqUpToReports plan') : plan.record = plan'.record := by
  obtain ⟨found, rfl⟩ := equal
  rfl

theorem numberEnum (equal : plan.EqUpToReports plan') : plan.numberEnum.EqUpToReports plan'.numberEnum := by
  unfold Plan.numberEnum
  rw [← equal.record_eq]
  split
  · exact equal.checkConstant
  · exact equal

theorem integerRange {kinds : IntegerChecks} (equal : plan.EqUpToReports plan') :
    (plan.integerRange kinds).EqUpToReports (plan'.integerRange kinds) := by
  unfold Plan.integerRange
  -- The bounds are read from the record, which reports do not touch.
  rw [← equal.record_eq]
  split
  · exact equal
  · split_ifs
    · exact equal.check
    · exact equal.check
  · exact equal.check

theorem integer {kinds : IntegerChecks} (equal : plan.EqUpToReports plan') :
    (plan.integer kinds).EqUpToReports (plan'.integer kinds) := by
  unfold Plan.integer
  dsimp only
  rw [← equal.record_eq]
  -- Divisors are checked one after the other, each in the same way.
  have divided {plan plan' : Plan} {divisors : List Quantity} (held : plan.EqUpToReports plan') :
      (divisors.foldl (fun plan divisor => plan.check kinds.multiple (some (.number divisor)))
        plan).EqUpToReports
        (divisors.foldl (fun plan divisor => plan.check kinds.multiple (some (.number divisor)))
          plan') :=
    foldl (fun _ _ _ held => held.check) held
  cases plan.record.numericConstant? with
  | some value => exact (divided equal.integerRange.check).numberEnum
  | none => exact (divided equal.integerRange).numberEnum

theorem decimalRange (equal : plan.EqUpToReports plan') :
    plan.decimalRange.EqUpToReports plan'.decimalRange := by
  unfold Plan.decimalRange
  -- The bounds are read from the record, which reports do not touch.
  rw [← equal.record_eq]
  split
  · exact equal
  · split_ifs
    · exact equal.checkConstant
    · exact equal.check
  · exact equal.check

theorem decimal (equal : plan.EqUpToReports plan') : plan.decimal.EqUpToReports plan'.decimal := by
  unfold Plan.decimal
  dsimp only
  rw [← equal.record_eq]
  -- Divisors are checked one after the other, each in the same way.
  have divided {plan plan' : Plan} {divisors : List Quantity} (held : plan.EqUpToReports plan') :
      (divisors.foldl
        (fun plan divisor => plan.checkConstant .multipleDecimal .decimal (.number divisor))
        plan).EqUpToReports
        (divisors.foldl
          (fun plan divisor => plan.checkConstant .multipleDecimal .decimal (.number divisor))
          plan') :=
    foldl (fun _ _ _ held => held.checkConstant) held
  cases plan.record.numericConstant? with
  | some value => exact (divided equal.decimalRange.checkConstant).numberEnum
  | none => exact (divided equal.decimalRange).numberEnum

theorem counts {range : CountRange} {rangeKind constKind : CheckKind} (equal : plan.EqUpToReports plan') :
    (plan.counts range rangeKind constKind).EqUpToReports (plan'.counts range rangeKind constKind) := by
  unfold Plan.counts
  split
  · exact equal
  · split_ifs
    · exact equal.check
    · exact equal.check
  · exact equal.check

theorem lengths (equal : plan.EqUpToReports plan') : plan.lengths.EqUpToReports plan'.lengths := by
  unfold Plan.lengths
  rw [← equal.record_eq]
  exact equal.counts

theorem itemCounts (equal : plan.EqUpToReports plan') : plan.itemCounts.EqUpToReports plan'.itemCounts := by
  unfold Plan.itemCounts
  rw [← equal.record_eq]
  exact equal.counts

theorem patterns (equal : plan.EqUpToReports plan') : plan.patterns.EqUpToReports plan'.patterns := by
  unfold Plan.patterns
  rw [← equal.record_eq]
  exact foldl (fun _ _ _ equal => equal.checkConstant.use) equal

/-- Formats are checked alike, whether they are reported or not. -/
theorem formats {location : String} {narrowed : Option LibraryType} {names : List String}
    (equal : plan.EqUpToReports plan') :
    (Plan.formats location narrowed names plan).EqUpToReports
      (Plan.formats location narrowed names plan') := by
  induction names generalizing narrowed plan plan' with
  | nil => exact equal
  | cons format rest ih =>
    -- What a format needs depends on the record and the format alone.
    rw [Plan.formats, Plan.formats, ← equal.record_eq]
    split
    · split_ifs
      · exact ih equal
      · exact ih equal.check
    · exact ih equal.check
    · exact ih equal
    · -- A format that is not known is only reported, and the reports may differ.
      obtain ⟨found, rfl⟩ := equal
      exact ih ⟨_, rfl⟩

theorem string {location : String} {narrowed : Option LibraryType} (equal : plan.EqUpToReports plan') :
    (plan.string location narrowed).EqUpToReports (plan'.string location narrowed) := by
  -- Formats, lengths and patterns come first, whatever the constants are.
  have plain : ((Plan.formats location narrowed plan.record.formats plan).lengths.patterns).EqUpToReports
      ((Plan.formats location narrowed plan.record.formats plan').lengths.patterns) :=
    equal.formats.lengths.patterns
  unfold Plan.string
  dsimp only
  rw [← equal.record_eq]
  -- A constant is checked before an enumeration, and either may be missing.
  cases plan.record.textConstant? with
  | some text =>
    cases plan.record.textEnumeration? with
    | some texts => exact plain.checkConstant.checkConstant
    | none => exact plain.checkConstant
  | none =>
    cases plan.record.textEnumeration? with
    | some texts => exact plain.checkConstant
    | none => exact plain

theorem array {itemsChecked : Bool} (equal : plan.EqUpToReports plan') :
    (plan.array itemsChecked).EqUpToReports (plan'.array itemsChecked) := by
  -- Whether items are checked is decided with the record of the counted plan.
  have counted : ((plan.use .list).itemCounts).EqUpToReports ((plan'.use .list).itemCounts) :=
    equal.use.itemCounts
  unfold Plan.array
  dsimp only
  rw [← counted.record_eq]
  exact chosen (chosen counted.check counted).check (chosen counted.check counted)

theorem backByMap (equal : plan.EqUpToReports plan') : plan.backByMap.EqUpToReports plan'.backByMap := by
  obtain ⟨found, rfl⟩ := equal
  exact ⟨found, rfl⟩

/-- Patterns of properties get the same constants. -/
theorem patternProperties {entries : List PatternProperty} (equal : plan.EqUpToReports plan') :
    (Plan.patternProperties entries plan).1 = (Plan.patternProperties entries plan').1 ∧
      (Plan.patternProperties entries plan).2.EqUpToReports (Plan.patternProperties entries plan').2 := by
  induction entries generalizing plan plan' with
  | nil => exact ⟨rfl, equal⟩
  | cons entry rest ih =>
    -- The plans differ in their reports only, so the first entry gets the same constant in both.
    obtain ⟨found, rfl⟩ := equal
    have first : (plan.patternProperty entry).1.EqUpToReports
        (({ plan with diagnostics := found } : Plan).patternProperty entry).1 := ⟨found, rfl⟩
    obtain ⟨same, held⟩ := ih first
    refine ⟨?_, held⟩
    simp only [Plan.patternProperties]
    exact congrArg₂ _ rfl same

/-- A record gets the same constants for the patterns of its properties. -/
theorem withPatternProperties {entries : List PatternProperty} (equal : plan.EqUpToReports plan') :
    ({ (Plan.patternProperties entries plan).2 with
        record := { (Plan.patternProperties entries plan).2.record with
          patternProperties := (Plan.patternProperties entries plan).1 } } : Plan).EqUpToReports
      { (Plan.patternProperties entries plan').2 with
        record := { (Plan.patternProperties entries plan').2.record with
          patternProperties := (Plan.patternProperties entries plan').1 } } := by
  -- The constants are read off the plans, where they are the same and can be exchanged.
  have patterned : (Plan.patternProperties entries plan).1 = (Plan.patternProperties entries plan').1 ∧
      (Plan.patternProperties entries plan).2.EqUpToReports (Plan.patternProperties entries plan').2 :=
    equal.patternProperties
  obtain ⟨same, found, patterned⟩ := patterned
  rw [← same, patterned]
  exact ⟨found, rfl⟩

theorem openProperties {isTyped : RecordId → Bool} (equal : plan.EqUpToReports plan') :
    (plan.openProperties isTyped).EqUpToReports (plan'.openProperties isTyped) := by
  unfold Plan.openProperties
  dsimp only
  -- The four ways to be open are those of the record, which is the same in both plans.
  rw [← equal.record_eq]
  -- Whether a map backs the class is decided before, from the record alone.
  rcases plan.record.additional with _ | ⟨⟩ | ⟨⟩ | value
  · exact equal.withPatternProperties
  · exact equal.withPatternProperties
  · apply chosen
    · exact (chosen equal.check equal).withPatternProperties.backByMap
    · exact (chosen equal.check equal).withPatternProperties
  · exact (chosen equal.check equal).withPatternProperties.backByMap

theorem object {strict : Bool} {isTyped : RecordId → Bool} (equal : plan.EqUpToReports plan') :
    (plan.object strict isTyped).EqUpToReports (plan'.object strict isTyped) := by
  have counted : (plan.counts plan.record.propertyCount .propertiesRange .propertiesConst).EqUpToReports
      (plan'.counts plan.record.propertyCount .propertiesRange .propertiesConst) := equal.counts
  unfold Plan.object
  rw [← equal.record_eq]
  exact chosen counted.openProperties counted

theorem custom {custom : CustomClass} {isInteger : Bool} (equal : plan.EqUpToReports plan') :
    (plan.custom custom isInteger).EqUpToReports (plan'.custom custom isInteger) := by
  -- A custom class is checked by what it implements: texts, comparisons and collections, in this
  -- order.
  have first :
      (if custom.has .charSequence then plan.lengths.patterns else plan).EqUpToReports
        (if custom.has .charSequence then plan'.lengths.patterns else plan') :=
    chosen equal.lengths.patterns equal
  have compared {plan plan' : Plan} (held : plan.EqUpToReports plan') :
      (if custom.has .comparable then
          if isInteger then plan.integer Plan.wide else plan.decimal
        else plan).EqUpToReports
        (if custom.has .comparable then
          if isInteger then plan'.integer Plan.wide else plan'.decimal
        else plan') :=
    chosen (chosen held.integer held.decimal) held
  unfold Plan.custom
  exact chosen (compared first).itemCounts (compared first)

/-- A record is checked alike in every shape. -/
theorem checksOf {context context' : Context} {ledger : Ledger} {id : RecordId} {shape : Shape}
    (contexts : context.Corresponds context') (equal : plan.EqUpToReports plan') :
    (plan.checksOf context ledger id shape).EqUpToReports (plan'.checksOf context' ledger id shape) := by
  unfold Plan.checksOf
  dsimp only
  -- The shape decides which checks are made, and these only read what the plans share.
  rw [← equal.record_eq, ← contexts.settings, ← contexts.classify_eq,
    ← contexts.tree.location_eq]
  split
  · exact equal.integer
  · exact equal.integer
  · exact equal.use.decimal
  · exact equal.string
  · exact equal.use.string
  · exact equal.array
  · exact equal.object
  · exact equal.custom
  all_goals exact equal

end Plan.EqUpToReports

end SchemaClasses
