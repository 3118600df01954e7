import SchemaClasses.DefaultValue
import SchemaClasses.Fault
import SchemaClasses.Schema
import SchemaClasses.Shape

/-! Records: all that is known about one value, merged from every schema that describes it. -/

namespace SchemaClasses

/-- The number of a record. -/
structure RecordId where
  index : Nat
deriving DecidableEq, Repr, Inhabited

/-- The number of a set of checks. -/
structure CheckSetId where
  index : Nat
deriving DecidableEq, Repr, Inhabited

/-- A range of counts, open where nothing is stated. -/
structure CountRange where
  least : Option Nat := none
  greatest : Option Nat := none
deriving DecidableEq, Repr, Inhabited

namespace CountRange

/-- The range within a lower limit as well. -/
def raise (range : CountRange) (least : Nat) : CountRange :=
  { range with least := some (match range.least with
    | some held => max held least
    | none => least) }

/-- The range within an upper limit as well. -/
def lower (range : CountRange) (greatest : Nat) : CountRange :=
  { range with greatest := some (match range.greatest with
    | some held => min held greatest
    | none => greatest) }

end CountRange

/-- What is known about properties without a name of their own. -/
inductive AdditionalProperties where
  | allowed
  | forbidden
  | schema (record : RecordId)
deriving DecidableEq, Repr

/-- The value of the properties whose names match a pattern. -/
structure PatternProperty where
  pattern : String
  record : RecordId
  /-- The constant that holds the pattern, once checks are planned. -/
  constant : Option String := none
deriving DecidableEq, Repr

/-- All that is known about one value. -/
structure Record where
  /-- The schema that the record was made for. -/
  schema : Option SchemaId := none
  /-- The name of a property. -/
  name : Option String := none
  checks : CheckSetId := ⟨0⟩
  /-- What the value must not be. -/
  negation : Option RecordId := none
  /-- The record whose negation this is. -/
  negationOf : Option RecordId := none
  types : List JsonType := []
  nullable : Option Bool := none
  minimum : Option Bound := none
  maximum : Option Bound := none
  multipleOf : List Quantity := []
  length : CountRange := {}
  patterns : List String := []
  formats : List String := []
  enumeration : Option (List Json) := none
  constant : Option Json := none
  required : List String := []
  properties : List RecordId := []
  patternProperties : List PatternProperty := []
  additional : Option AdditionalProperties := none
  propertyCount : CountRange := {}
  items : Option RecordId := none
  itemCount : CountRange := {}
  uniqueItems : Bool := false
  oneOf : List RecordId := []
  default : Option DefaultValue := none
  examples : List Json := []
  extensions : List (String × Json) := []
  title : Option String := none
  description : Option String := none
  /-- The target of the reference that stands directly in the record's schema. -/
  target : Option SchemaId := none
  /-- The text of that reference and the location of its target. -/
  references : List String := []
  /-- The class that stands for the value. -/
  typeRef : Option TypeRef := none
  /-- The kind of type, once it is decided. -/
  shape : Option Shape := none
  isRequired : Bool := false
  /-- The property of the base class that this one repeats in the same shape. -/
  baseProperty : Option RecordId := none
  /-- Whether a derived class declares the property again in another shape. -/
  extended : Bool := false
  /-- Whether the property declares one of the base class again in another shape. -/
  overrides : Bool := false
  /-- Whether the class keeps its properties in a map. -/
  mapBacked : Bool := false
deriving Repr, Inhabited

/-- A value at the end of a list, unless the list holds it. -/
def addNew {α : Type} [BEq α] (values : List α) (value : α) : List α :=
  if values.contains value then values else values ++ [value]

namespace Record

/-- Whether the record says what a value must not be. -/
def isNegation (record : Record) : Bool := record.negationOf.isSome

/-- A type that the value may have; null makes it nullable instead. -/
def addType (record : Record) (type : JsonType) : Record :=
  if type = .null then { record with nullable := some true }
  else { record with types := addNew record.types type }

/-- A lower bound, of which the tightest is kept. -/
def addMinimum (record : Record) (bound : Bound) : Record :=
  { record with minimum := some (Bound.tighterMinimum record.minimum bound) }

/-- An upper bound, of which the tightest is kept. -/
def addMaximum (record : Record) (bound : Bound) : Record :=
  { record with maximum := some (Bound.tighterMaximum record.maximum bound) }

/-- A divisor. -/
def addMultipleOf (record : Record) (value : Quantity) : Record :=
  { record with multipleOf := addNew record.multipleOf value }

/-- A pattern of the whole text. -/
def addPattern (record : Record) (pattern : String) : Record :=
  { record with patterns := addNew record.patterns pattern }

/-- A format. -/
def addFormat (record : Record) (format : String) : Record :=
  { record with formats := addNew record.formats format }

/-- The name of a property that must be present. -/
def addRequired (record : Record) (name : String) : Record :=
  { record with required := addNew record.required name }

/-- An example. -/
def addExample (record : Record) (value : Json) : Record :=
  { record with examples := addNew record.examples value }

/-- An extension keyword; one name may have several values. -/
def addExtension (record : Record) (name : String) (value : Json) : Record :=
  { record with extensions := addNew record.extensions (name, value) }

/-- The only value allowed; another value is a contradiction. -/
def setConstant (record : Record) (location : String) (value : Json) : Except Fault Record :=
  match record.constant with
  | some held =>
    if held == value then .ok { record with constant := some value }
    else .error (.contradiction location (.constants held value))
  | none => .ok { record with constant := some value }

/-- The list of allowed values; another list is a contradiction. -/
def setEnumeration (record : Record) (location : String) (values : List Json) :
    Except Fault Record :=
  match record.enumeration with
  | some held =>
    if held == values then .ok { record with enumeration := some values }
    else .error (.contradiction location (.enumerations held values))
  | none => .ok { record with enumeration := some values }

/-- The default value; another value is a contradiction. -/
def setDefault (record : Record) (location : String) (value : Json) : Except Fault Record :=
  match DefaultValue.ofJson? value, record.default with
  | none, _ => .error (.unrepresentableDefault location)
  | some incoming, some held =>
    if held == incoming then .ok { record with default := some incoming }
    else .error (.contradiction location (.defaults held value))
  | some incoming, none => .ok { record with default := some incoming }

/-- The least and the greatest whole number within the bounds. -/
def integerRange (record : Record) : Option Int × Option Int :=
  (record.minimum.map Bound.leastInteger, record.maximum.map Bound.greatestInteger)

/-- The constant as a number. -/
def numericConstant? (record : Record) : Option Quantity :=
  record.constant.bind Quantity.ofJson?

/-- The constant as a text. -/
def textConstant? (record : Record) : Option String := record.constant.bind Json.text?

/-- The allowed values as numbers, if there are any and all are numbers. -/
def numericEnumeration? (record : Record) : Option (List Quantity) :=
  match record.enumeration with
  | some (value :: values) => (value :: values).mapM Quantity.ofJson?
  | _ => none

/-- The allowed values as texts, if there are any and all are texts. -/
def textEnumeration? (record : Record) : Option (List String) :=
  match record.enumeration with
  | some (value :: values) => (value :: values).mapM Json.text?
  | _ => none

/-- Whether a keyword that only concerns strings was merged. -/
def hasStringKeywords (record : Record) : Bool :=
  !record.formats.isEmpty || !record.patterns.isEmpty || record.length.least.isSome
    || record.length.greatest.isSome || record.textConstant?.isSome
    || record.textEnumeration?.isSome

/-- A keyword about the value itself merged into the record; keywords with schemas inside are
left to the survey. -/
def absorb (record : Record) (location : String) : Keyword → Except Fault Record
  | .types names => .ok (names.foldl addType record)
  | .constant value => record.setConstant location value
  | .enumeration values => record.setEnumeration location values
  | .format name => .ok (record.addFormat name)
  | .pattern text => .ok (record.addPattern text)
  | .bound .minimum bound => .ok (record.addMinimum bound)
  | .bound .maximum bound => .ok (record.addMaximum bound)
  | .multipleOf value => .ok (record.addMultipleOf value)
  | .minCount .length least => .ok { record with length := record.length.raise least }
  | .minCount .items least => .ok { record with itemCount := record.itemCount.raise least }
  | .minCount .properties least =>
    .ok { record with propertyCount := record.propertyCount.raise least }
  | .maxCount .length most => .ok { record with length := record.length.lower most }
  | .maxCount .items most => .ok { record with itemCount := record.itemCount.lower most }
  | .maxCount .properties most =>
    .ok { record with propertyCount := record.propertyCount.lower most }
  | .uniqueItems unique => .ok { record with uniqueItems := record.uniqueItems || unique }
  | .default value => record.setDefault location value
  | .examples values => .ok (values.foldl addExample record)
  | .required names => .ok (names.foldl addRequired record)
  | .extension name value => .ok (record.addExtension name value)
  | _ => .ok record

end Record

end SchemaClasses
