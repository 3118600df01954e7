import SchemaClasses.Model

/-! The plan of checks: which of a record's keywords the shape leaves to be tested. -/

namespace SchemaClasses

/-- A plan in the making: the checks of one record, and what its declaration needs for them. -/
structure Plan where
  record : Record
  checks : CheckSet
  constants : ConstantPool
  libraryTypes : List LibraryType
  diagnostics : Diagnostics

namespace Plan

/-- A check; the checks of a negation are negated. -/
def check (kind : CheckKind) (operand : Option Operand) (plan : Plan) : Plan :=
  { plan with checks := plan.checks.add ⟨kind, operand, plan.record.isNegation⟩ }

/-- A check against a constant. -/
def checkConstant (kind : CheckKind) (constantKind : ConstantKind) (value : ConstantValue)
    (plan : Plan) : Plan :=
  let (name, constants) := plan.constants.add constantKind value
  check kind (some (.constant name)) { plan with constants }

/-- A library type that the class uses. -/
def use (type : LibraryType) (plan : Plan) : Plan :=
  { plan with libraryTypes := addNew plan.libraryTypes type }

/-- A range of whole numbers. -/
def inclusiveRange (least greatest : Option Int) : Operand :=
  .range (least.map fun n => .inclusive (.whole n)) (greatest.map fun n => .inclusive (.whole n))

/-- The kinds of checks on whole numbers of one width. -/
structure IntegerChecks where
  range : CheckKind
  constant : CheckKind
  multiple : CheckKind

/-- The checks on 32-bit numbers. -/
def narrow : IntegerChecks := ⟨.rangeInt, .constInt, .multipleInt⟩

/-- The checks on 64-bit numbers. -/
def wide : IntegerChecks := ⟨.rangeLong, .constLong, .multipleLong⟩

/-- The list of allowed numbers. -/
def numberEnum (plan : Plan) : Plan :=
  match plan.record.numericEnumeration? with
  | some numbers => plan.checkConstant .enumNumber .numberArray (.numbers numbers)
  | none => plan

/-- The range of whole numbers; where it holds a single one, that number is a constant. -/
def integerRange (kinds : IntegerChecks) (plan : Plan) : Plan :=
  match plan.record.integerRange with
  | (none, none) => plan
  | (some least, some greatest) =>
    if least = greatest then plan.check kinds.constant (some (.number (.whole least)))
    else plan.check kinds.range (some (inclusiveRange least greatest))
  | (least, greatest) => plan.check kinds.range (some (inclusiveRange least greatest))

/-- The checks on a whole number. -/
def integer (kinds : IntegerChecks) (plan : Plan) : Plan :=
  let record := plan.record
  let plan := plan.integerRange kinds
  let plan := match record.numericConstant? with
    | some value => plan.check kinds.constant (some (.number value))
    | none => plan
  let plan := record.multipleOf.foldl
    (fun plan divisor => plan.check kinds.multiple (some (.number divisor))) plan
  plan.numberEnum

/-- The range of numbers; where it holds a single one, that number is a constant. -/
def decimalRange (plan : Plan) : Plan :=
  match plan.record.minimum, plan.record.maximum with
  | none, none => plan
  | some least, some greatest =>
    if least.value = greatest.value ∧ ¬least.exclusive ∧ ¬greatest.exclusive then
      plan.checkConstant .constDecimal .decimal (.number least.value)
    else plan.check .rangeDecimal (some (.range least greatest))
  | least, greatest => plan.check .rangeDecimal (some (.range least greatest))

/-- The checks on a number. -/
def decimal (plan : Plan) : Plan :=
  let record := plan.record
  let plan := plan.decimalRange
  let plan := match record.numericConstant? with
    | some value => plan.checkConstant .constDecimal .decimal (.number value)
    | none => plan
  let plan := record.multipleOf.foldl
    (fun plan divisor => plan.checkConstant .multipleDecimal .decimal (.number divisor)) plan
  plan.numberEnum

/-- A range of counts; where it holds a single one, that count is a constant. -/
def counts (range : CountRange) (rangeKind constKind : CheckKind) (plan : Plan) : Plan :=
  match range.least, range.greatest with
  | none, none => plan
  | some least, some greatest =>
    if least = greatest then plan.check constKind (some (.count least))
    else plan.check rangeKind (some (.countRange least greatest))
  | least, greatest => plan.check rangeKind (some (.countRange least greatest))

/-- The length of a text. -/
def lengths (plan : Plan) : Plan := plan.counts plan.record.length .lengthRange .lengthConst

/-- The number of items. -/
def itemCounts (plan : Plan) : Plan := plan.counts plan.record.itemCount .itemsRange .itemsConst

/-- The patterns of a text. -/
def patterns (plan : Plan) : Plan :=
  plan.record.patterns.foldl
    (fun plan pattern => (plan.checkConstant .pattern .regex (.text pattern)).use .regex) plan

/-- The formats of a text. The first format that the type stands for needs no check; an unknown
format is reported. -/
def formats (location : String) : Option LibraryType → List String → Plan → Plan
  | _, [], plan => plan
  | narrowed, format :: rest, plan =>
    match FormatRole.ofFormat format with
    | .library type =>
      if !plan.record.isNegation && narrowed = some type then formats location none rest plan
      else formats location narrowed rest (plan.check .format (some (.text format)))
    | .checked => formats location narrowed rest (plan.check .format (some (.text format)))
    | .numeric => formats location narrowed rest plan
    | .unknown =>
      formats location narrowed rest
        { plan with diagnostics := plan.diagnostics.push (.unknownFormat location format) }

/-- The checks on a text, which may have been given a library type. -/
def string (location : String) (narrowed : Option LibraryType) (plan : Plan) : Plan :=
  let record := plan.record
  let plan := (formats location narrowed record.formats plan).lengths.patterns
  let plan := match record.textConstant? with
    | some text => plan.checkConstant .constString .string (.text text)
    | none => plan
  match record.textEnumeration? with
  | some texts => plan.checkConstant .enumString .stringArray (.texts texts)
  | none => plan

/-- The checks on an array, whose items may have checks of their own. -/
def array (itemsChecked : Bool) (plan : Plan) : Plan :=
  let plan := (plan.use .list).itemCounts
  let plan := if plan.record.uniqueItems then plan.check .uniqueItems none else plan
  if itemsChecked then plan.check .arrayItem none else plan

/-- The class keeps its properties in a map. -/
def backByMap (plan : Plan) : Plan :=
  { plan with record := { plan.record with mapBacked := true } }.use .map

/-- The pattern of one property of a record, checked against a constant. -/
def patternProperty (plan : Plan) (entry : PatternProperty) : Plan × PatternProperty :=
  let (name, constants) := plan.constants.add .regex (.text entry.pattern)
  (({ plan with constants }.use .regex).check .patternProperties (some (.constant name)),
    { entry with constant := some name })

/-- The patterns of properties, each with the constant that holds it. -/
def patternProperties : List PatternProperty → Plan → List PatternProperty × Plan
  | [], plan => ([], plan)
  | entry :: rest, plan =>
    let (plan, entry) := plan.patternProperty entry
    let (entries, plan) := patternProperties rest plan
    (entry :: entries, plan)

/-- The checks on properties without a name of their own, which only strict settings enforce. -/
def openProperties (isTyped : RecordId → Bool) (plan : Plan) : Plan :=
  let record := plan.record
  let patterned := !record.patternProperties.isEmpty
  let (mapped, plan) := match record.additional with
    | some .forbidden => (patterned, if patterned then plan.check .unexpectedProperties none else plan)
    | some (.schema value) =>
      let covered := patterned || !record.properties.isEmpty
      (true, if covered && isTyped value then plan.check .additionalProperties none else plan)
    | _ => (false, plan)
  let (entries, plan) := patternProperties record.patternProperties plan
  let plan := { plan with record := { plan.record with patternProperties := entries } }
  if mapped then plan.backByMap else plan

/-- The checks on an object. -/
def object (strict : Bool) (isTyped : RecordId → Bool) (plan : Plan) : Plan :=
  let plan := plan.counts plan.record.propertyCount .propertiesRange .propertiesConst
  if strict then plan.openProperties isTyped else plan

/-- The checks that a custom class still allows. -/
def custom (custom : CustomClass) (isInteger : Bool) (plan : Plan) : Plan :=
  let plan := if custom.has .charSequence then plan.lengths.patterns else plan
  let plan := if custom.has .comparable then
      if isInteger then plan.integer wide else plan.decimal
    else plan
  if custom.has .sequence then plan.itemCounts else plan

/-- The checks of a record in its shape. -/
def checksOf (context : Context) (ledger : Ledger) (id : RecordId) (shape : Shape) (plan : Plan) :
    Plan :=
  let location := (plan.record.schema.map context.tree.location).getD ""
  match shape with
  | .int32 => plan.integer narrow
  | .int64 => plan.integer wide
  | .decimal => (plan.use .decimal).decimal
  | .string => plan.string location none
  | .library type => (plan.use type).string location (some type)
  | .array => plan.array (plan.record.items.any fun items => !(ledger.checks items).isEmpty)
  | .object =>
    plan.object context.settings.generator.strictAdditional fun value =>
      context.classify ledger value false ≠ .untyped
  | .reference (.custom custom) => plan.custom custom (ledger.effectiveTypes id = [.integer])
  | .reference (.generated _) | .identifierEnum | .boolean | .untyped => plan

end Plan

/-- The checks of a record planned into the ledger and into the declaration that owns it. -/
def Model.plan (model : Model) (context : Context) (owner : DeclarationId) (id : RecordId)
    (shape : Shape) : Model :=
  let ledger := model.ledger
  let declaration := model.declaration owner
  let plan := Plan.checksOf context ledger id shape
    { record := ledger.record id
      checks := ledger.checks id
      constants := declaration.constants
      libraryTypes := declaration.libraryTypes
      diagnostics := model.survey.diagnostics }
  { model with
    survey :=
      { ledger := (ledger.update id fun _ => plan.record).updateChecks id fun _ => plan.checks
        diagnostics := plan.diagnostics } }.updateDeclaration owner fun declaration =>
      { declaration with constants := plan.constants, libraryTypes := plan.libraryTypes }

end SchemaClasses
