import SchemaClasses.Format
import SchemaClasses.Validation.Value

/-! Which schemas a draft admits, and which of them a value can be held against. -/

namespace SchemaClasses

namespace Validation

/-- The address of a schema that has no identifier. -/
def defaultAddress : Url := ⟨"json-schema".toList, false⟩

mutual

/-- Whether all identifiers in a value are references relative to those around them. Values to
compare with are not looked into. -/
def identifies (draft : Draft) (base : Url) : Json → Bool
  | .array items => allIdentify draft base items
  | .object members =>
    match (members.lookup draft.identifier).bind Json.text? with
    | some identifier =>
      match Url.parse? (some base) identifier with
      | some base => membersIdentify draft base members
      | none => false
    | none => membersIdentify draft base members
  | _ => true

/-- Whether the identifiers in all items are references. -/
def allIdentify (draft : Draft) (base : Url) : List Json → Bool
  | [] => true
  | item :: rest => identifies draft base item && allIdentify draft base rest

/-- Whether the identifiers in the values of all members are references. -/
def membersIdentify (draft : Draft) (base : Url) : List (String × Json) → Bool
  | [] => true
  | (key, value) :: rest =>
    (key == "enum" || key == "const" || identifies draft base value)
      && membersIdentify draft base rest

end

/-- Whether the identifier of a schema is an absolute address, and those inside it are relative to
it. -/
def isIdentified (draft : Draft) (schema : Json) : Bool :=
  match (schema.member? draft.identifier).bind Json.text? with
  | some identifier =>
    match Url.parse? none identifier with
    | some base => identifies draft base schema
    | none => false
  | none => identifies draft defaultAddress schema

/-- Whether a value can be a count; where it is put to use it is written without a fraction. -/
def isCount (draft : Draft) (used : Bool) (value : Json) : Bool :=
  if used || draft == .four then value.natural?.isSome
  else isWhole value && (compareNumbers? (.integer 0) value).any (· != .gt)

/-- A regular expression. -/
def isPattern (value : Json) : Bool := value.text?.any Format.isRegex

/-- A list of different texts; draft 4 asks for one at least. -/
def isTextSet (draft : Draft) (value : Json) : Bool :=
  match value with
  | .array names =>
    names.all Json.isString && !hasRepetition names && (draft != .four || !names.isEmpty)
  | _ => false

/-- A list of values to choose from; drafts before the last ask for different ones, and one at
least. -/
def isChoice (draft : Draft) (value : Json) : Bool :=
  match value with
  | .array items => draft == .seven || (!items.isEmpty && !hasRepetition items)
  | _ => false

/-- The name of a type. -/
def isTypeName (value : Json) : Bool := value.text?.any (· ∈ typeNames)

/-- The name of a type, or a list of different names that is not empty. -/
def isTypeList (value : Json) : Bool :=
  match value with
  | .array names => !names.isEmpty && names.all isTypeName && !hasRepetition names
  | value => isTypeName value

/-- A number. -/
def isNumber (value : Json) : Bool := (rational? value).isSome

/-- A limit that may be said to be beyond the range itself: in draft 4 by a mark beside the limit,
later by a number. -/
def isExclusive (draft : Draft) (siblings : List (String × Json)) (limit : String)
    (value : Json) : Bool :=
  if draft = .four then value.bool?.isSome && (siblings.lookup limit).isSome else isNumber value

/-- A value for a keyword without schemas inside, as its draft describes it. -/
def isDescribed (draft : Draft) (used : Bool) (siblings : List (String × Json)) (key : String)
    (value : Json) : Bool :=
  match key with
  | "title" | "description" => value.isString
  | "id" => draft != .four || value.isString
  | "$id" => draft == .four || value.text?.any Format.reference.admits
  | "$schema" =>
    if draft = .four then value.isString else value.text?.any Format.isUri
  | "format" => value.isString
  | "contentMediaType" | "contentEncoding" =>
    draft == .four || (draft == .six && !used) || value.isString
  | "$comment" => draft != .seven || value.isString
  | "readOnly" | "writeOnly" => draft != .seven || value.bool?.isSome
  | "uniqueItems" => value.bool?.isSome
  | "examples" => draft == .four || value.items?.isSome
  | "enum" => isChoice draft value
  | "minimum" | "maximum" => isNumber value
  | "exclusiveMinimum" => isExclusive draft siblings "minimum" value
  | "exclusiveMaximum" => isExclusive draft siblings "maximum" value
  | "multipleOf" => (compareNumbers? value (.integer 0)).any (· == .gt)
  | "minLength" | "maxLength" | "minItems" | "maxItems" | "minProperties" | "maxProperties" =>
    isCount draft used value
  | "pattern" => isPattern value
  | "required" => isTextSet draft value
  | "type" => isTypeList value
  | _ => true

/-- Whether the schema of a keyword is put to use beside its siblings. -/
def isUsed (draft : Draft) (siblings : List (String × Json)) (key : String) : Bool :=
  let present (name : String) : Bool := (siblings.lookup name).isSome
  match key with
  | "if" => draft.knows "if" && (present "then" || present "else")
  | "then" | "else" => draft.knows "if" && present "if"
  | "definitions" => false
  | "additionalItems" =>
    match siblings.lookup "items" with
    | some (.array _) => true
    | _ => false
  | key => draft.knows key

mutual

/-- Whether a value is a schema that a draft admits, and can be put to use if it is to be. -/
def admits (draft : Draft) (used : Bool) : Json → Bool
  | .bool _ => draft != .four
  | .object members => admitsMembers draft used members members
  | _ => false

/-- Whether a value is a boolean or an admitted schema. -/
def admitsOrFlag (draft : Draft) (used : Bool) : Json → Bool
  | .bool _ => true
  | .object members => admitsMembers draft used members members
  | _ => false

/-- Whether the members of a schema object are admitted. A keyword that a draft does not know may
have any value. -/
def admitsMembers (draft : Draft) (used : Bool) (siblings : List (String × Json)) :
    List (String × Json) → Bool
  | [] => true
  | (key, value) :: rest =>
    let inUse := used && isUsed draft siblings key
    (match key, value with
      | "additionalItems", value | "additionalProperties", value => admitsOrFlag draft inUse value
      | "contains", value | "propertyNames", value => draft == .four || admits draft inUse value
      | "if", value | "then", value | "else", value =>
        draft != .seven || admits draft inUse value
      | "not", value => admits draft inUse value
      | "items", .array schemas => !schemas.isEmpty && admitsAll draft inUse schemas
      | "items", value => admits draft inUse value
      | "allOf", .array schemas | "anyOf", .array schemas | "oneOf", .array schemas =>
        !schemas.isEmpty && admitsAll draft inUse schemas
      | "properties", .object schemas | "definitions", .object schemas =>
        admitsTable draft inUse schemas
      | "patternProperties", .object schemas =>
        schemas.all (fun (pattern, _) =>
            (draft != .seven || isPattern (.string pattern))
              && (!used || (Expression.ofList? pattern.toList).isSome))
          && admitsTable draft inUse schemas
      | "dependencies", .object schemas => admitsDependencies draft inUse schemas
      | "allOf", _ | "anyOf", _ | "oneOf", _ | "properties", _ | "definitions", _
      | "patternProperties", _ | "dependencies", _ => false
      | key, value => isDescribed draft used siblings key value)
      && admitsMembers draft used siblings rest

/-- Whether all items are admitted schemas. -/
def admitsAll (draft : Draft) (used : Bool) : List Json → Bool
  | [] => true
  | schema :: rest => admits draft used schema && admitsAll draft used rest

/-- Whether the values of all members are admitted schemas. -/
def admitsTable (draft : Draft) (used : Bool) : List (String × Json) → Bool
  | [] => true
  | (_, schema) :: rest => admits draft used schema && admitsTable draft used rest

/-- Whether the values of all members are admitted schemas or lists of different names. -/
def admitsDependencies (draft : Draft) (used : Bool) : List (String × Json) → Bool
  | [] => true
  | (_, value) :: rest =>
    (match value with
      | .array names => isTextSet draft (.array names)
      | value => admits draft used value) && admitsDependencies draft used rest

end

end Validation

end SchemaClasses
