import SchemaClasses.Quantity

/-! The checks that generated code performs beyond what its types guarantee. -/

namespace SchemaClasses

/-- What a check tests. -/
inductive CheckKind where
  | pattern
  | multipleInt
  | multipleLong
  | multipleDecimal
  | rangeInt
  | rangeLong
  | rangeDecimal
  | constInt
  | constLong
  | constDecimal
  | constString
  | lengthRange
  | lengthConst
  | itemsRange
  | itemsConst
  | propertiesRange
  | propertiesConst
  | uniqueItems
  | enumString
  | enumNumber
  | format
  | additionalProperties
  | patternProperties
  | unexpectedProperties
  | arrayItem
deriving DecidableEq, Repr

namespace CheckKind

/-- The name that output uses. -/
def name : CheckKind → String
  | pattern => "PATTERN"
  | multipleInt => "MULTIPLE_INT"
  | multipleLong => "MULTIPLE_LONG"
  | multipleDecimal => "MULTIPLE_DECIMAL"
  | rangeInt => "RANGE_INT"
  | rangeLong => "RANGE_LONG"
  | rangeDecimal => "RANGE_DECIMAL"
  | constInt => "CONST_INT"
  | constLong => "CONST_LONG"
  | constDecimal => "CONST_DECIMAL"
  | constString => "CONST_STRING"
  | lengthRange => "LENGTH_RANGE"
  | lengthConst => "LENGTH_CONST"
  | itemsRange => "ITEMS_RANGE"
  | itemsConst => "ITEMS_CONST"
  | propertiesRange => "PROPERTIES_RANGE"
  | propertiesConst => "PROPERTIES_CONST"
  | uniqueItems => "UNIQUE_ITEMS"
  | enumString => "ENUM_STRING"
  | enumNumber => "ENUM_NUMBER"
  | format => "FORMAT"
  | additionalProperties => "ADDITIONAL_PROPERTIES"
  | patternProperties => "PATTERN_PROPERTIES"
  | unexpectedProperties => "UNEXPECTED_PROPERTIES"
  | arrayItem => "ARRAY_ITEM"

/-- All kinds. -/
def all : List CheckKind := [pattern, multipleInt, multipleLong, multipleDecimal, rangeInt,
  rangeLong, rangeDecimal, constInt, constLong, constDecimal, constString, lengthRange,
  lengthConst, itemsRange, itemsConst, propertiesRange, propertiesConst, uniqueItems, enumString,
  enumNumber, format, additionalProperties, patternProperties, unexpectedProperties, arrayItem]

end CheckKind

/-- What a check compares with. -/
inductive Operand where
  | number (value : Quantity)
  | count (value : Nat)
  | range (least greatest : Option Bound)
  | countRange (least greatest : Option Nat)
  /-- The name of a constant of the class. -/
  | constant (name : String)
  | text (value : String)
deriving DecidableEq, Repr

/-- One planned check; a negated check holds where its plain form fails. -/
structure Check where
  kind : CheckKind
  operand : Option Operand
  negated : Bool
deriving DecidableEq, Repr

/-- Checks in order of first insertion, none of them twice. -/
structure CheckSet where
  items : List Check := []
deriving DecidableEq, Repr, Inhabited

namespace CheckSet

/-- Whether a check is present. -/
def contains (set : CheckSet) (check : Check) : Bool := check ∈ set.items

/-- A check at the end, unless it is present. -/
def add (set : CheckSet) (check : Check) : CheckSet :=
  if set.contains check then set else ⟨set.items ++ [check]⟩

/-- The checks of another set added in their order. -/
def extend (set other : CheckSet) : CheckSet := other.items.foldl add set

/-- The checks that another set lacks. -/
def removeAll (set other : CheckSet) : CheckSet :=
  ⟨set.items.filter fun check => !other.contains check⟩

/-- The number of checks of a kind. -/
def count (set : CheckSet) (kind : CheckKind) : Nat := set.items.countP fun c => c.kind == kind

/-- The number of checks. -/
def size (set : CheckSet) : Nat := set.items.length

/-- Whether there is no check. -/
def isEmpty (set : CheckSet) : Bool := set.items.isEmpty

end CheckSet

/-- A value, or JSON null in its absence. -/
def Json.ofOption {α : Type} (write : α → Json) : Option α → Json
  | some value => write value
  | none => .null

/-- A count as a JSON number. -/
def Json.ofNat (n : Nat) : Json := .integer n

/-- The JSON form: the kind of operand beside its value. -/
def Operand.toJson : Operand → Json
  | number value => .object [("number", value.toJson)]
  | count value => .object [("count", .ofNat value)]
  | range least greatest =>
    .object [("range", .object [("min", .ofOption Bound.toJson least),
      ("max", .ofOption Bound.toJson greatest)])]
  | countRange least greatest =>
    .object [("count_range", .object [("min", .ofOption .ofNat least),
      ("max", .ofOption .ofNat greatest)])]
  | constant name => .object [("static", .string name)]
  | text value => .object [("text", .string value)]

/-- The JSON form, without an absent operand. -/
def Check.toJson (check : Check) : Json :=
  .object ([("type", .string check.kind.name)]
    ++ (match check.operand with
      | some operand => [("value", operand.toJson)]
      | none => [])
    ++ [("negated", .bool check.negated)])

/-- The checks as a JSON array. -/
def CheckSet.toJson (set : CheckSet) : Json := .array (set.items.map Check.toJson)

end SchemaClasses
