import SchemaClasses.Catalogue
import SchemaClasses.Json.Writer

/-! The catalogue as JSON: members in a fixed order, and none for what is absent. -/

namespace SchemaClasses

/-- A member for a value that is present. -/
def optionalMember {α : Type} (name : String) (value : Option α) (write : α → Json) :
    List (String × Json) :=
  (value.map fun value => (name, write value)).toList

/-- A member for a list that is not empty. -/
def listMember {α : Type} (name : String) (values : List α) (write : α → Json) :
    List (String × Json) :=
  if values.isEmpty then [] else [(name, .array (values.map write))]

/-- A member for a fact that holds. -/
def flagMember (name : String) (flag : Bool) : List (String × Json) :=
  if flag then [(name, .bool true)] else []

/-- The JSON form of a type: its kind beside what the kind needs. -/
def ValueType.toJson : ValueType → Json
  | generated path => .object [("kind", .string "class"), ("name", .string path)]
  | custom name => .object [("kind", .string "custom"), ("name", .string name)]
  | library type => .object [("kind", .string "system"), ("system", .string type.name)]
  | array items => .object [("kind", .string "array"), ("items", items.toJson)]
  | string => .object [("kind", .string "string")]
  | boolean => .object [("kind", .string "boolean")]
  | int32 => .object [("kind", .string "int32")]
  | int64 => .object [("kind", .string "int64")]
  | decimal => .object [("kind", .string "decimal")]
  | any => .object [("kind", .string "any")]

/-- The JSON form of an item or a map value. -/
def Element.toJson : Element → Json
  | mk type checks nullable items =>
    .object ([("type", type.toJson)] ++ listMember "validations" checks Check.toJson
      ++ flagMember "nullable" nullable
      ++ (match items with
        | some items => [("items", items.toJson)]
        | none => []))

/-- The JSON form of a property. -/
def Property.toJson (property : Property) : Json :=
  .object ([("name", .string property.name), ("identifier", .string property.identifier),
      ("type", property.type.toJson)]
    ++ listMember "validations" property.checks Check.toJson
    ++ optionalMember "items" property.items Element.toJson
    ++ [("required", .bool property.required), ("nullable", .bool property.nullable)]
    ++ optionalMember "default" property.default DefaultValue.toJson
    ++ flagMember "inherited" property.inherited ++ flagMember "extended" property.extended
    ++ flagMember "extends" property.overrides
    ++ optionalMember "description" property.description .string)

/-- The JSON form of a pattern property. -/
def PatternEntry.toJson (entry : PatternEntry) : Json :=
  .object ([("pattern", .string entry.pattern)]
    ++ optionalMember "static_name" entry.constant .string
    ++ [("value", entry.value.toJson)])

/-- The members for the body of a class; the map flag follows later. -/
def ClassBody.toMembers (body : ClassBody) : List (String × Json) :=
  listMember "properties" body.properties Property.toJson
    ++ listMember "enum_values" body.enumConstants .string
    ++ listMember "validations" body.checks Check.toJson
    ++ listMember "pattern_properties" body.patternProperties PatternEntry.toJson
    ++ optionalMember "additional_properties" body.additional Element.toJson

mutual

/-- The JSON form of a class. -/
def ClassEntry.toJson : ClassEntry → Json
  | { name, package, kind, description, body, base, derived, interfaces, nested, constants,
      libraryTypes, imports, isVariant } =>
    .object ([("name", .string name)] ++ optionalMember "package" package .string
      ++ [("kind", .string kind.name)] ++ optionalMember "description" description .string
      ++ body.toMembers ++ optionalMember "base" base .string
      ++ listMember "derived" derived .string ++ listMember "interfaces" interfaces .string
      ++ (if nested.isEmpty then [] else [("nested", .array (classesToJson nested))])
      ++ listMember "statics" constants Constant.toJson
      ++ listMember "system_types" libraryTypes (fun type => .string type.name)
      ++ listMember "imports" imports .string ++ [("map_backed", .bool body.mapBacked)]
      ++ flagMember "variant" isVariant)

/-- The JSON forms of classes. -/
def classesToJson : List ClassEntry → List Json
  | [] => []
  | entry :: rest => entry.toJson :: classesToJson rest

end

namespace Catalogue

/-- The JSON form. -/
def toJson (catalogue : Catalogue) : Json :=
  .object (optionalMember "generator_comment" catalogue.comment .string
    ++ [("language", .string catalogue.language.name),
      ("classes", .array (catalogue.classes.map ClassEntry.toJson)),
      ("diagnostics", catalogue.diagnostics.toJson)])

/-- The JSON text over several lines, ended by a line break. -/
def prettyText (catalogue : Catalogue) : String := catalogue.toJson.pretty 0 ++ "\n"

/-- The JSON text on one line, ended by a line break. -/
def compactText (catalogue : Catalogue) : String := catalogue.toJson.compact ++ "\n"

end Catalogue

end SchemaClasses
