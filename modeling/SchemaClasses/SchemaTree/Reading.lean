import SchemaClasses.Documents
import SchemaClasses.Fault
import SchemaClasses.SchemaTree

/-! Schemas read from documents. Every location is read once, so references to one place share a
schema and may be circular. -/

namespace SchemaClasses

/-- Reading schemas into a tree, which keeps what was read before a fault. -/
abbrev Reading := EStateM Fault SchemaTree

namespace Reading

/-- A text, or the fault that there is none. -/
def expectText (location : String) (value : Json) : Except Fault String :=
  match value with
  | .string text => .ok text
  | found => .error (.invalidSchema location (.notAString found))

/-- A number, or the fault that there is none. -/
def expectNumber (location : String) (value : Json) : Except Fault Quantity :=
  match Quantity.ofJson? value with
  | some number => .ok number
  | none => .error (.invalidSchema location (.notANumber value))

/-- A whole number that is not negative, at most the largest of 64 bits. -/
def count? (value : Json) : Option Nat :=
  value.natural? <|> value.double?.bind fun x =>
    if x.isIntegral ∧ 0 ≤ x.trunc then some (min x.trunc.toNat 0xFFFFFFFFFFFFFFFF) else none

/-- A count, or the fault that there is none. -/
def expectCount (location : String) (value : Json) : Except Fault Nat :=
  match count? value with
  | some number => .ok number
  | none => .error (.invalidSchema location (.notACount value))

/-- The type of a name. -/
def expectType (location : String) (value : Json) : Except Fault JsonType := do
  let name ← expectText location value
  match JsonType.ofName? name with
  | some type => .ok type
  | none => .error (.invalidSchema location (.unknownType name))

/-- The types of one name or of a list of names. -/
def expectTypes (location : String) : Json → Except Fault (List JsonType)
  | .array names => names.mapM (expectType location)
  | name => return [← expectType location name]

/-- Whether a sibling keyword is `true`, which makes a bound exclusive. -/
def isTrue (siblings : List (String × Json)) (key : String) : Bool :=
  siblings.lookup key == some (.bool true)

/-- A bound that excludes its value where a sibling keyword is `true`. -/
def sideBound (location : String) (siblings : List (String × Json)) (side : Side)
    (exclusiveKey : String) (value : Json) : Except Fault (Option Keyword) := do
  let number ← expectNumber location value
  return some (.bound side ⟨number, isTrue siblings exclusiveKey⟩)

/-- A bound that excludes its value; a boolean only modifies its sibling. -/
def exclusiveBound (location : String) (side : Side) (value : Json) :
    Except Fault (Option Keyword) := do
  match value with
  | .bool _ => return none
  | value => return some (.bound side ⟨← expectNumber location value, true⟩)

/-- A keyword without schemas inside; nothing for one that is not recognised. -/
def plainKeyword (location : String) (siblings : List (String × Json)) (key : String)
    (value : Json) : Except Fault (Option Keyword) := do
  let wrong (form : Form) : Except Fault (Option Keyword) :=
    .error (.invalidSchema location (.wrongForm key form))
  match key, value with
  | "type", value => return some (.types (← expectTypes location value))
  | "const", value => return some (.constant value)
  | "enum", .array values => return some (.enumeration values)
  | "enum", _ => wrong .array
  | "format", value => return some (.format (← expectText location value))
  | "pattern", value => return some (.pattern (← expectText location value))
  | "minimum", value => sideBound location siblings .minimum "exclusiveMinimum" value
  | "maximum", value => sideBound location siblings .maximum "exclusiveMaximum" value
  | "exclusiveMinimum", value => exclusiveBound location .minimum value
  | "exclusiveMaximum", value => exclusiveBound location .maximum value
  | "multipleOf", value => return some (.multipleOf (← expectNumber location value))
  | "minLength", value => return some (.minCount .length (← expectCount location value))
  | "maxLength", value => return some (.maxCount .length (← expectCount location value))
  | "minItems", value => return some (.minCount .items (← expectCount location value))
  | "maxItems", value => return some (.maxCount .items (← expectCount location value))
  | "minProperties", value => return some (.minCount .properties (← expectCount location value))
  | "maxProperties", value => return some (.maxCount .properties (← expectCount location value))
  | "uniqueItems", .bool unique => return some (.uniqueItems unique)
  | "uniqueItems", _ => wrong .boolean
  | "default", value => return some (.default value)
  | "examples", .array values => return some (.examples values)
  | "examples", _ => wrong .array
  | "example", value => return some (.examples [value])
  | "required", .array names => return some (.required (← names.mapM (expectText location)))
  -- Where a property states that it is itself required, nothing is recorded.
  | "required", .bool _ => return none
  | "required", _ => wrong .array
  | key, value =>
    return if "x-".toList.isPrefixOf key.toList then some (.extension key value) else none

/-- How schemas lie inside the value of a keyword. -/
inductive Nesting where
  | none
  | schema (keyword : SchemaId → Keyword)
  | schemas (keyword : List SchemaId → Keyword)
  | table (keyword : List (String × SchemaId) → Keyword)
  | invalid (problem : SchemaProblem)

/-- How schemas lie inside this value. -/
def nesting (key : String) (value : Json) : Nesting :=
  match key, value with
  | "properties", .object _ => .table .properties
  | "patternProperties", .object _ => .table .patternProperties
  | "properties", _ | "patternProperties", _ => .invalid (.wrongForm key .object)
  | "additionalProperties", _ => .schema .additionalProperties
  | "items", .array _ => .invalid .tupleItems
  | "items", _ => .schema .items
  | "allOf", .array _ => .schemas .allOf
  | "anyOf", .array _ => .schemas .anyOf
  | "oneOf", .array _ => .schemas .oneOf
  | "allOf", _ | "anyOf", _ | "oneOf", _ => .invalid (.wrongForm key .array)
  | "not", _ => .schema .negation
  | _, _ => .none

/-- A reference, whose target is read as well. -/
def reference (documents : Documents) (follow : Place → Reading SchemaId) (place : Place)
    (value : Json) : Reading Keyword := do
  match value with
  | .string text =>
    match documents.resolve? place.document text with
    | some target => return .reference text (← follow target)
    | none => throw (.unresolvedReference place.location text)
  | _ => throw (.invalidSchema place.location (.wrongForm "$ref" .string))

/-- The schema at a location that has been met before. -/
def known? (place : Place) : Reading (Option SchemaId) := return (← get).find? place.location

/-- A new schema, not yet completed. -/
def reserve (place : Place) : Reading SchemaId :=
  modifyGet fun tree => tree.reserve place.location

mutual

/-- The schema of a value; references are followed by the function given. -/
def schema (documents : Documents) (follow : Place → Reading SchemaId) (place : Place) :
    Json → Reading SchemaId
  | .bool value => do
    if let some id ← known? place then return id
    let id ← reserve place
    modify fun tree => tree.complete id (.boolean value)
    return id
  | .object members => do
    if let some id ← known? place then return id
    -- References from inside find the schema before it is complete.
    let id ← reserve place
    let found ← clauses documents follow place members members
    modify fun tree => tree.complete id (.object (.object members) found)
    return id
  | value => do
    if let some id ← known? place then return id
    throw (.invalidSchema place.location (.notASchema value))

/-- The recognised keywords among the members of a schema object. -/
def clauses (documents : Documents) (follow : Place → Reading SchemaId) (place : Place)
    (siblings : List (String × Json)) : List (String × Json) → Reading (List Clause)
  | [] => return []
  | (key, value) :: rest => do
    let inner := place.member key
    let keyword ← match nesting key value, value with
      | .invalid problem, _ => throw (.invalidSchema inner.location problem)
      | .schema keyword, value => do
        pure (some (keyword (← schema documents follow inner value)))
      | .schemas keyword, .array items => do
        pure (some (keyword (← branches documents follow inner 0 items)))
      | .table keyword, .object members => do
        pure (some (keyword (← entries documents follow inner members)))
      | _, value =>
        if key == "$ref" then some <$> reference documents follow inner value
        else liftExcept (plainKeyword inner.location siblings key value)
    let others ← clauses documents follow place siblings rest
    return (keyword.map (Clause.mk inner.location)).toList ++ others

/-- The schemas of the items of an array. -/
def branches (documents : Documents) (follow : Place → Reading SchemaId) (place : Place)
    (index : Nat) : List Json → Reading (List SchemaId)
  | [] => return []
  | item :: rest => do
    let id ← schema documents follow (place.item index) item
    return id :: (← branches documents follow place (index + 1) rest)

/-- The schemas of the members of an object, with their names. -/
def entries (documents : Documents) (follow : Place → Reading SchemaId) (place : Place) :
    List (String × Json) → Reading (List (String × SchemaId))
  | [] => return []
  | (name, value) :: rest => do
    let id ← schema documents follow (place.member name) value
    return (name, id) :: (← entries documents follow place rest)

end

/-- The schema at a place, read together with the pending places that it refers to; while a place
is being read it is not pending, because references find it in the tree. -/
def follow (documents : Documents) (pending : List Place) (place : Place) : Reading SchemaId := do
  if let some id ← known? place then return id
  match documents.valueAt? place with
  | some value =>
    if _waiting : place ∈ pending then
      schema documents (fun next => follow documents (pending.erase place) next) place value
    else
      throw (.unresolvedReference place.location place.location)
  | none => throw (.unresolvedReference place.location place.location)
termination_by pending.length
decreasing_by exact length_erase_lt _waiting

end Reading

/-- The root schema of a document, read together with all that it refers to. -/
def Documents.root (documents : Documents) (uri : String) : Reading SchemaId :=
  match documents.canonical? uri with
  | some document =>
    let place : Place := ⟨document, ""⟩
    Reading.follow documents (place :: documents.targets) place
  | none => throw (.unresolvedReference uri uri)

end SchemaClasses
