import SchemaClasses.Quantity

/-! Schemas as a document states them, with their keywords in order and their references linked. -/

namespace SchemaClasses

/-- A type that the `type` keyword names. -/
inductive JsonType where
  | null
  | boolean
  | object
  | array
  | number
  | string
  | integer
deriving DecidableEq, Repr

namespace JsonType

/-- The name that documents use. -/
def name : JsonType → String
  | null => "null"
  | boolean => "boolean"
  | object => "object"
  | array => "array"
  | number => "number"
  | string => "string"
  | integer => "integer"

/-- All types. -/
def all : List JsonType := [null, boolean, object, array, number, string, integer]

/-- The type of a name. -/
def ofName? (text : String) : Option JsonType := all.find? fun type => type.name == text

end JsonType

/-- The number of a schema in its tree. -/
structure SchemaId where
  index : Nat
deriving DecidableEq, Repr, Inhabited

/-- What a count keyword counts. -/
inductive Countable where
  | length
  | items
  | properties
deriving DecidableEq, Repr

/-- One keyword of a schema object. -/
inductive Keyword where
  /-- A `$ref` with the schema it leads to. -/
  | reference (text : String) (target : SchemaId)
  | types (names : List JsonType)
  | constant (value : Json)
  | enumeration (values : List Json)
  | format (name : String)
  | pattern (text : String)
  | bound (side : Side) (bound : Bound)
  | multipleOf (value : Quantity)
  | minCount (counted : Countable) (least : Nat)
  | maxCount (counted : Countable) (most : Nat)
  | uniqueItems (unique : Bool)
  | default (value : Json)
  | examples (values : List Json)
  | required (names : List String)
  | properties (entries : List (String × SchemaId))
  | patternProperties (entries : List (String × SchemaId))
  | additionalProperties (schema : SchemaId)
  | items (schema : SchemaId)
  | allOf (branches : List SchemaId)
  | anyOf (branches : List SchemaId)
  | oneOf (branches : List SchemaId)
  | negation (schema : SchemaId)
  /-- A keyword whose name starts with `x-`. -/
  | extension (name : String) (value : Json)
deriving Repr

/-- A keyword at its place in a document. -/
structure Clause where
  location : String
  keyword : Keyword
deriving Repr

/-- What a schema states. -/
inductive SchemaBody where
  | boolean (value : Bool)
  /-- An object with its source text as JSON and the keywords that were recognised in it. -/
  | object (source : Json) (clauses : List Clause)
deriving Repr

/-- A schema at its place in a document. -/
structure Schema where
  location : String
  body : SchemaBody := .boolean true
deriving Repr, Inhabited

namespace Schema

/-- The keywords; a boolean schema has none. -/
def clauses (schema : Schema) : List Clause :=
  match schema.body with
  | .boolean _ => []
  | .object _ clauses => clauses

/-- The JSON object that the schema was read from. -/
def source? (schema : Schema) : Option Json :=
  match schema.body with
  | .boolean _ => none
  | .object source _ => some source

/-- A text among the members of the schema object. -/
def text? (schema : Schema) (name : String) : Option String :=
  (schema.source?.bind (·.member? name)).bind Json.text?

/-- The title. -/
def title? (schema : Schema) : Option String := schema.text? "title"

/-- The description. -/
def description? (schema : Schema) : Option String := schema.text? "description"

/-- Whether the whole schema asks for null and nothing else. -/
def isNullType (schema : Schema) : Bool :=
  match schema.clauses with
  | [⟨_, .types names⟩] => names = [.null]
  | _ => false

/-- The text and target of the reference among the keywords. -/
def reference? (schema : Schema) : Option (String × SchemaId) :=
  schema.clauses.findSome? fun clause =>
    match clause.keyword with
    | .reference text target => some (text, target)
    | _ => none

/-- The branches of the first `allOf`. -/
def allOf? (schema : Schema) : Option (List SchemaId) :=
  schema.clauses.findSome? fun clause =>
    match clause.keyword with
    | .allOf branches => some branches
    | _ => none

/-- The target of a schema that is a reference and nothing else, extensions aside. -/
def pureReference? (schema : Schema) : Option SchemaId :=
  let stated := schema.clauses.filter fun clause =>
    match clause.keyword with
    | .extension .. => false
    | _ => true
  match stated with
  | [⟨_, .reference _ target⟩] => some target
  | _ => none

end Schema

end SchemaClasses
