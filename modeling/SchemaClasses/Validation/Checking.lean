import SchemaClasses.Validation.Violation
import SchemaClasses.Validation.WellFormed

/-! A value held against a schema. -/

namespace SchemaClasses

namespace Validation

/-- What a schema finds wrong with a value. -/
abbrev Validator := Json → List Violation

/-- The value of a keyword, with the schemas that it is or holds. -/
structure Part where
  source : Json
  whole : Validator
  items : List Validator
  members : List (String × Validator)
  /-- The regular expressions that the names of the members spell. -/
  patterns : Thunk (List (String × Option Expression))

/-- Whether a value passes. -/
def Validator.accepts (validator : Validator) (value : Json) : Bool := (validator value).isEmpty

/-- A finding where a condition fails. -/
def demand (holds : Bool) (violation : Violation) : List Violation :=
  if holds then [] else [violation]

/-- A number against a limit. -/
def checkLimit (side : Excess) (exclusive : Bool) (limit value : Json) : List Violation :=
  match compareNumbers? value limit with
  | none => []
  | some order =>
    let beyond := match side with
      | .below => order == .lt
      | .above => order == .gt
    demand (!beyond && !(exclusive && order == .eq)) (.beyondLimit value side exclusive limit)

/-- The size that a count keyword speaks of. -/
def sizeOf? (counted : Counted) (value : Json) : Option Nat :=
  match counted, value with
  | .characters, .string text => some text.toList.length
  | .items, .array items => some items.length
  | .properties, .object members => some members.length
  | _, _ => none

/-- A count against a limit. -/
def checkCount (side : Excess) (counted : Counted) (limit value : Json) : List Violation :=
  match sizeOf? counted value, limit.natural? with
  | some size, some limit =>
    let within := match side with
      | .below => limit ≤ size
      | .above => size ≤ limit
    demand within (.miscounted value side counted limit)
  | _, _ => []

/-- A value against the names of types. -/
def checkType (draft : Draft) (allowed value : Json) : List Violation :=
  let names := match allowed with
    | .array names => names.filterMap Json.text?
    | name => name.text?.toList
  demand (names.any fun name => hasType draft name value)
    (.wrongType value (typeNames.filter (· ∈ names)))

/-- An object against the names of properties that must be present. -/
def checkRequired (names value : Json) : List Violation :=
  match value with
  | .object members =>
    ((names.items?.getD []).filterMap Json.text?).flatMap fun name =>
      demand (members.lookup name).isSome (.missingProperty name)
  | _ => []

/-- A text against a regular expression. -/
def checkPattern (pattern value : Json) : List Violation :=
  match pattern, value with
  | .string pattern, .string text =>
    match schemaPattern? pattern with
    | none => []
    | some expression =>
      match expression.search text with
      | .found => []
      | .absent => [.patternMismatch value pattern]
      | .tooManyRetreats => [.tooManyRetreats]
      | .tooManyBranches => [.tooManyBranches]
  | _, _ => []

/-- A text against a format. -/
def checkFormat (draft : Draft) (format value : Json) : List Violation :=
  match format, value with
  | .string format, .string text =>
    match Format.test? draft format with
    | some test => demand (test text) (.formatMismatch value format)
    | none => []
  | _, _ => []

/-- A text against a type of content. -/
def checkMediaType (encoding : Option Json) (mediaType value : Json) : List Violation :=
  match mediaType, value with
  | .string "application/json", .string text =>
    let mismatch := Violation.mediaTypeMismatch value "application/json"
    match encoding with
    | none => demand (isJsonText text) mismatch
    | some (.string "base64") =>
      match Base64.decode? text.toList with
      | none => [.encodingMismatch value "base64"]
      | some bytes =>
        match Utf8.decode bytes with
        | .error fault => [.textMismatch fault]
        | .ok text => demand (isJsonText text) mismatch
    -- What an unknown encoding stands for is not looked at.
    | some _ => []
  | _, _ => []

/-- A text against an encoding. -/
def checkEncoding (encoding value : Json) : List Violation :=
  match encoding, value with
  | .string "base64", .string text =>
    demand (Base64.decode? text.toList).isSome (.encodingMismatch value "base64")
  | _, _ => []

/-- The part of a schema object under a keyword. -/
def part? (parts : List (String × Part)) (key : String) : Option Part := parts.lookup key

/-- The named schemas under a keyword. -/
def namedSchemas (parts : List (String × Part)) (key : String) : List (String × Validator) :=
  ((part? parts key).map Part.members).getD []

/-- The schemas of a keyword whose names spell regular expressions, with those expressions. -/
def patternedSchemas (part : Part) : List (Option Expression × Validator) :=
  (part.patterns.get.zip part.members).map fun (spelled, member) => (spelled.2, member.2)

/-- Whether a name matches a regular expression. -/
def matchesName (name : String) (expression : Option Expression) : Bool :=
  expression.any fun expression => expression.isMatch name

/-- One member of an object against the schemas that describe it by name or pattern, of which
there may be none. -/
def describe (parts : List (String × Part)) (name : String) (value : Json) :
    Option (List Violation) :=
  let named := ((namedSchemas parts "properties").filter (·.1 == name)).map (·.2)
  let patterned := match part? parts "patternProperties" with
    | some part => ((patternedSchemas part).filter (matchesName name ·.1)).map (·.2)
    | none => []
  match named ++ patterned with
  | [] => none
  | schemas => some (schemas.flatMap fun validator => validator value)

/-- Whether the members of an object are described where additional properties are. -/
def closesProperties (parts : List (String × Part)) : Bool :=
  match (part? parts "additionalProperties").map Part.source with
  | some (.bool false) | some (.object _) => true
  | _ => false

/-- The members of an object where no others are allowed: those that are described, in their
order, and then all the others together. -/
def checkClosed (parts : List (String × Part)) (members : List (String × Json)) :
    List Violation :=
  let described := members.flatMap fun (name, value) => (describe parts name value).getD []
  let unexpected := members.filterMap fun (name, value) =>
    if (describe parts name value).isNone then some name else none
  let describesNone := (part? parts "properties").isNone && (part? parts "patternProperties").isNone
  match members with
  | (_, first) :: _ =>
    if describesNone then [.refused first]
    else described ++ demand unexpected.isEmpty (.unexpectedProperties unexpected)
  | [] => []

/-- The members of an object, also those that are not described. -/
def checkAdditional (parts : List (String × Part)) (part : Part) (value : Json) :
    List Violation :=
  match part.source, value with
  | .bool false, .object members => checkClosed parts members
  | .object _, .object members =>
    members.flatMap fun (name, value) => (describe parts name value).getD (part.whole value)
  | _, _ => []

/-- The members of an object against the schemas of their names. -/
def checkProperties (part : Part) (value : Json) : List Violation :=
  part.members.flatMap fun (name, validator) =>
    match value.member? name with
    | some member => validator member
    | none => []

/-- The members of an object against the schemas of the patterns that match their names. -/
def checkPatterns (part : Part) (value : Json) : List Violation :=
  (patternedSchemas part).flatMap fun (expression, validator) =>
    (value.members?.getD []).flatMap fun (name, member) =>
      if matchesName name expression then validator member else []

/-- The items of an array against one schema, or by position against several. -/
def checkItems (part : Part) (value : Json) : List Violation :=
  match value, part.source with
  | .array items, .array _ =>
    (items.zip part.items).flatMap fun (item, validator) => validator item
  | .array items, _ => items.flatMap part.whole
  | _, _ => []

/-- The items of an array behind those that are described by position. -/
def checkFurtherItems (parts : List (String × Part)) (part : Part) (value : Json) :
    List Violation :=
  match (part? parts "items").map Part.source, value with
  | some (.array described), .array items =>
    let further := items.drop described.length
    match part.source with
    | .bool false => demand further.isEmpty (.unexpectedItems further)
    | _ => further.flatMap part.whole
  -- Where no items are allowed, nothing else is.
  | some (.bool false), value => [.refused value]
  | _, _ => []

/-- A value against alternatives of which exactly one must hold. -/
def checkOneOf (part : Part) (value : Json) : List Violation :=
  match part.items.countP fun branch => branch.accepts value with
  | 0 => [.noBranch value "oneOf"]
  | 1 => []
  | _ => [.severalBranches value]

/-- The names of the members of an object as values of their own. -/
def checkNames (part : Part) (value : Json) : List Violation :=
  match value, part.source with
  | .object (_ :: _), .bool false => [.refused value]
  | .object members, _ => members.flatMap fun (name, _) => part.whole (.string name)
  | _, _ => []

/-- What follows from the presence of members: other members, or a schema for the object. -/
def checkDependencies (part : Part) (value : Json) : List Violation :=
  part.members.flatMap fun (name, validator) =>
    if (value.member? name).isSome then
      match part.source.member? name with
      | some (.array names) => checkRequired (.array names) value
      | _ => validator value
    else []

/-- What follows from a schema that holds, and from one that does not. -/
def checkCondition (parts : List (String × Part)) (part : Part) (value : Json) : List Violation :=
  let branch := if Validator.accepts part.whole value then "then" else "else"
  match part? parts branch with
  | some branch => branch.whole value
  | none => []

/-- Whether the limit of a range is beyond it, as a mark beside the limit says. -/
def isMarkedExclusive (draft : Draft) (parts : List (String × Part)) (mark : String) : Bool :=
  draft == .four && (match (part? parts mark).map Part.source with
    | some (.bool true) => true
    | _ => false)

/-- A value against one keyword that its draft knows. -/
def checkKeyword (draft : Draft) (parts : List (String × Part)) (key : String) (part : Part)
    (value : Json) : List Violation :=
  let source := part.source
  match key with
  | "type" => checkType draft source value
  | "const" => demand (isConstant source value) (.notConstant source)
  | "enum" =>
    let allowed := source.items?.getD []
    demand (allowed.any (equal value)) (.notListed value allowed)
  | "minimum" =>
    checkLimit .below (isMarkedExclusive draft parts "exclusiveMinimum") source value
  | "maximum" =>
    checkLimit .above (isMarkedExclusive draft parts "exclusiveMaximum") source value
  | "exclusiveMinimum" => checkLimit .below true source value
  | "exclusiveMaximum" => checkLimit .above true source value
  | "multipleOf" =>
    match value.double?, source.double? with
    | some number, some divisor => demand (isMultiple number divisor) (.notMultiple value divisor)
    | _, _ => []
  | "minLength" => checkCount .below .characters source value
  | "maxLength" => checkCount .above .characters source value
  | "minItems" => checkCount .below .items source value
  | "maxItems" => checkCount .above .items source value
  | "minProperties" => checkCount .below .properties source value
  | "maxProperties" => checkCount .above .properties source value
  | "pattern" => checkPattern source value
  | "format" => checkFormat draft source value
  | "contentMediaType" =>
    checkMediaType ((part? parts "contentEncoding").map Part.source) source value
  | "contentEncoding" =>
    if (part? parts "contentMediaType").isSome then [] else checkEncoding source value
  | "uniqueItems" =>
    demand (source != .bool true || !hasRepetition (value.items?.getD [])) (.repeatedItems value)
  | "required" => checkRequired source value
  | "properties" => if closesProperties parts then [] else checkProperties part value
  | "patternProperties" => if closesProperties parts then [] else checkPatterns part value
  | "additionalProperties" => checkAdditional parts part value
  | "propertyNames" => checkNames part value
  | "dependencies" => checkDependencies part value
  | "items" => checkItems part value
  | "additionalItems" => checkFurtherItems parts part value
  | "contains" =>
    match value with
    | .array items => demand (items.any part.whole.accepts) (.nothingContained value)
    | _ => []
  | "allOf" => part.items.flatMap fun branch => branch value
  | "anyOf" =>
    demand (part.items.any fun branch => branch.accepts value) (.noBranch value "anyOf")
  | "oneOf" => checkOneOf part value
  | "not" => demand (!Validator.accepts part.whole value) (.excluded source value)
  | "if" => checkCondition parts part value
  | _ => []

mutual

/-- What a schema finds wrong with a value, keyword by keyword in the order of the document. -/
def violations (draft : Draft) : Json → Validator
  | .bool false, value => [.refused value]
  | .object members, value =>
    let parts := partsOf draft members
    parts.flatMap fun (key, part) =>
      if draft.knows key then checkKeyword draft parts key part value else []
  | _, _ => []

/-- The keywords of a schema object with the schemas in them. -/
def partsOf (draft : Draft) : List (String × Json) → List (String × Part)
  | [] => []
  | (key, source) :: rest =>
    let part : Part :=
      { source
        whole := violations draft source
        items := itemsOf draft source
        members := membersOf draft source
        patterns := Thunk.mk fun _ => (source.members?.getD []).map fun (name, _) =>
          (name, Expression.ofList? name.toList) }
    (key, part) :: partsOf draft rest

/-- The items of an array as schemas. -/
def itemsOf (draft : Draft) : Json → List Validator
  | .array items => validators draft items
  | _ => []

/-- The members of an object as schemas. -/
def membersOf (draft : Draft) : Json → List (String × Validator)
  | .object members => namedValidators draft members
  | _ => []

/-- Values as schemas. -/
def validators (draft : Draft) : List Json → List Validator
  | [] => []
  | schema :: rest => violations draft schema :: validators draft rest

/-- Named values as schemas. -/
def namedValidators (draft : Draft) : List (String × Json) → List (String × Validator)
  | [] => []
  | (name, schema) :: rest => (name, violations draft schema) :: namedValidators draft rest

end

/-- The complaints of a schema about values, if its draft admits it. -/
def validator? (schema : Json) : Option (Json → List String) :=
  let draft := Draft.of schema
  if isIdentified draft schema && admits draft true schema then
    some fun value => (violations draft schema value).map Violation.message
  else none

end Validation

end SchemaClasses
