import SchemaClasses.Catalogue.Writing
import SchemaClasses.Model
import SchemaClasses.Settings.Writing

/-! The JSON forms of records and declarations, to inspect a model while it is built. -/

namespace SchemaClasses

/-- A generated class by number. -/
def ClassRef.toJson : ClassRef → Json
  | declaration id => .object [("target", .ofNat id.index)]
  | nested owner index =>
    .object [("nested", .object [("target", .ofNat owner.index), ("index", .ofNat index)])]

/-- A class that a value has. -/
def TypeRef.toJson : TypeRef → Json
  | generated ref => .object [("class", ref.toJson)]
  | custom supplied => .object [("custom", supplied.toJson)]

/-- A shape by its name, or by what it refers to. -/
def Shape.toJson : Shape → Json
  | object => .string "object"
  | array => .string "array"
  | string => .string "string"
  | boolean => .string "boolean"
  | int32 => .string "int32"
  | int64 => .string "int64"
  | decimal => .string "decimal"
  | identifierEnum => .string "enum"
  | reference type => .object [("reference", type.toJson)]
  | library type => .object [("system", .string type.name)]
  | untyped => .string "untyped"

/-- The members for a range of counts. -/
def CountRange.toMembers (range : CountRange) (counted : String) : List (String × Json) :=
  optionalMember ("min_" ++ counted) range.least .ofNat
    ++ optionalMember ("max_" ++ counted) range.greatest .ofNat

/-- What additional properties may be; a record is written by the function given. -/
def AdditionalProperties.toJson (inner : RecordId → Json) : AdditionalProperties → Json
  | allowed => .string "allowed"
  | forbidden => .string "forbidden"
  | schema record => .object [("schema", inner record)]

/-- The members for all that a record states; the records in it are written by the function
given. -/
def Record.toMembers (record : Record) (location : SchemaId → String) (inner : RecordId → Json) :
    List (String × Json) :=
  let place (schema : SchemaId) : Json := .string (location schema)
  optionalMember "node" record.schema place ++ optionalMember "name" record.name .string
    ++ listMember "types" record.types (fun type => .string type.name)
    ++ optionalMember "nullable" record.nullable .bool
    ++ optionalMember "minimum" record.minimum Bound.toJson
    ++ optionalMember "maximum" record.maximum Bound.toJson
    ++ listMember "multiple_of" record.multipleOf Quantity.toJson
    ++ record.length.toMembers "length" ++ record.itemCount.toMembers "items"
    ++ record.propertyCount.toMembers "properties"
    ++ flagMember "unique_items" record.uniqueItems
    ++ listMember "patterns" record.patterns .string
    ++ listMember "formats" record.formats .string
    ++ optionalMember "enum" record.enumeration .array
    ++ optionalMember "const" record.constant (fun value => value)
    ++ listMember "required" record.required .string
    ++ listMember "properties" record.properties inner
    ++ listMember "pattern_properties" record.patternProperties (fun entry =>
      .array [.string entry.pattern, .ofText? entry.constant, inner entry.record])
    ++ optionalMember "additional" record.additional (AdditionalProperties.toJson inner)
    ++ optionalMember "items" record.items inner ++ listMember "one_of" record.oneOf inner
    ++ optionalMember "default" record.default DefaultValue.toJson
    ++ listMember "examples" record.examples (fun value => value)
    ++ listMember "extensions" record.extensions (fun (name, value) => .array [.string name, value])
    ++ optionalMember "title" record.title .string
    ++ optionalMember "description" record.description .string
    ++ optionalMember "ref_target" record.target place
    ++ listMember "ref_uris" record.references .string
    ++ optionalMember "type_ref" record.typeRef TypeRef.toJson
    ++ optionalMember "shape" record.shape Shape.toJson
    ++ optionalMember "base_property" record.baseProperty (fun base => .ofNat base.index)
    ++ flagMember "is_required" record.isRequired ++ flagMember "extended" record.extended
    ++ flagMember "extends" record.overrides ++ flagMember "map_backed" record.mapBacked
    ++ flagMember "is_negated" record.isNegation ++ optionalMember "negated" record.negation inner

/-- A nested class with the numbers it holds. -/
def NestedClass.toJson (nested : NestedClass) (location : SchemaId → String) : Json :=
  let place (schema : SchemaId) : Json := .string (location schema)
  .object [("name", .string nested.name), ("parent", .ofOption .ofNat nested.parent),
    ("kind", .string nested.kind.name), ("record", .ofNat nested.record.index),
    ("origin", .ofOption place nested.origin), ("ref_target", .ofOption place nested.target),
    ("interfaces", .array (nested.interfaces.map ClassRef.toJson)),
    ("variant", .bool nested.isVariant)]

/-- A declaration with the numbers it holds. -/
def Declaration.toJson (declaration : Declaration) (location : SchemaId → String) : Json :=
  .object [("name", .string declaration.name), ("qualified", .string declaration.qualifiedName),
    ("uri", .string declaration.uri), ("node", .string (location declaration.schema)),
    ("record", .ofNat declaration.record.index), ("kind", .string declaration.kind.name),
    ("base", .ofOption (fun (base : DeclarationId) => .ofNat base.index) declaration.base),
    ("derived", .array (declaration.derived.map fun derived => .ofNat derived.index)),
    ("interfaces", .array (declaration.interfaces.map ClassRef.toJson)),
    ("nested", .array (declaration.nested.toList.map (·.toJson location))),
    ("statics", declaration.constants.toJson),
    ("system_types", .array (declaration.sortedLibraryTypes.map fun type => .string type.name)),
    ("imports", .ofTexts declaration.sortedImports), ("computed", .bool declaration.isAnalysed),
    ("variants", .bool declaration.hasVariants)]

end SchemaClasses
