import SchemaClasses.Ledger
import SchemaClasses.SchemaTree

/-! The shape of a value, decided from its record. -/

namespace SchemaClasses

namespace Record

/-- Whether every allowed value, of which there is one at least, names an enum constant. -/
def isIdentifierEnum (record : Record) : Bool :=
  match record.textEnumeration? with
  | some texts => texts.all isIdentifier
  | none => false

/-- Whether a whole number that the record describes fits 32 bits. -/
def isInt32 (record : Record) : Bool :=
  (match record.integerRange with
    | (some least, some greatest) => fitsInt32 least && fitsInt32 greatest
    | _ => false)
    || record.numericConstant?.any Quantity.fitsInt32
    || (match record.numericEnumeration? with
      | some numbers => numbers.all Quantity.fitsInt32
      | none => false)
    || "int32" ∈ record.formats

/-- The shape of a whole number. -/
def integerShape (record : Record) : Shape := if record.isInt32 then .int32 else .int64

/-- The shape of a text; a negation is never narrowed by a format. -/
def stringShape (record : Record) (promoteEnums : Bool) : Shape :=
  match if record.isNegation then none else record.formats.findSome? libraryType? with
  | some type => .library type
  | none => if promoteEnums && record.isIdentifierEnum then .identifierEnum else .string

end Record

/-- The shape that a record's keywords imply; enums are only promoted where a class can be named
for them. -/
def Ledger.inferShape (ledger : Ledger) (id : RecordId) (promoteEnums : Bool) : Shape :=
  let record := ledger.record id
  match ledger.effectiveTypes id with
  | [.integer] => record.integerShape
  | [.number] => .decimal
  | [.boolean] => .boolean
  | [.object] => .object
  | [.array] => .array
  | [.string] => record.stringShape promoteEnums
  | [] =>
    if !record.properties.isEmpty then .object
    else if record.items.isSome then .array
    else if record.hasStringKeywords then record.stringShape promoteEnums
    else .untyped
  | _ => .untyped

/-- The custom class for a record, looked up by the location of its schema and of the schema that
it refers to, by format and by extension; a negation has none. -/
def Ledger.customClass? (ledger : Ledger) (tree : SchemaTree) (tables : CustomClassTables)
    (id : RecordId) : Option CustomClass :=
  let record := ledger.record id
  if tables.isEmpty || record.isNegation then none
  else
    let schemas := record.schema.toList ++ record.target.toList
    tables.lookup (schemas.map tree.location) record.formats record.extensions

/-- The shape of a record: a custom class, else the class decided before, else what its keywords
imply. -/
def Ledger.classify (ledger : Ledger) (tree : SchemaTree) (tables : CustomClassTables)
    (id : RecordId) (promoteEnums : Bool) : Shape :=
  match ledger.customClass? tree tables id, (ledger.record id).typeRef with
  | some custom, _ => .reference (.custom custom)
  | none, some type => .reference type
  | none, none => ledger.inferShape id promoteEnums

end SchemaClasses
