import SchemaClasses.Json

/-! The drafts of the schema language, and which keywords and formats each of them has. -/

namespace SchemaClasses

/-- A draft of the schema language. -/
inductive Draft where
  | four
  | six
  | seven
deriving DecidableEq, Repr

namespace Draft

/-- The address by which schemas name a draft. -/
def address : Draft → String
  | four => "http://json-schema.org/draft-04/schema"
  | six => "http://json-schema.org/draft-06/schema"
  | seven => "http://json-schema.org/draft-07/schema"

/-- The draft that a schema names, up to number signs at the end; the latest one if it names none of
them. -/
def of (schema : Json) : Draft :=
  match (schema.member? "$schema").bind Json.text? with
  | some name =>
    let plain := String.ofList (name.toList.reverse.dropWhile (· == '#')).reverse
    ([four, six].find? fun draft => draft.address == plain).getD seven
  | none => seven

/-- The keyword that holds the identifier of a schema. -/
def identifier : Draft → String
  | four => "id"
  | _ => "$id"

/-- Whether a draft has a keyword that is not in all of them. -/
def knows (draft : Draft) (keyword : String) : Bool :=
  match keyword with
  | "const" | "contains" | "propertyNames" | "exclusiveMinimum" | "exclusiveMaximum"
  | "contentMediaType" | "contentEncoding" => draft != four
  | "if" => draft == seven
  | _ => true

/-- Whether a draft has a format that is not in all of them. -/
def knowsFormat (draft : Draft) (format : String) : Bool :=
  match format with
  | "json-pointer" | "uri-reference" | "uri-template" => draft != four
  | "idn-hostname" | "iri" | "iri-reference" | "relative-json-pointer" => draft == seven
  | _ => true

end Draft

end SchemaClasses
