import SchemaClasses.Json.Writer
import SchemaClasses.Validation.Content

/-! The ways in which a value can fail a schema. -/

namespace SchemaClasses

namespace Validation

/-- The end of a range that a value lies beyond. -/
inductive Excess where
  | below
  | above
deriving DecidableEq, Repr

/-- What is counted in a value. -/
inductive Counted where
  | characters
  | items
  | properties
deriving DecidableEq, Repr

/-- One failure of a value. -/
inductive Violation where
  | wrongType (value : Json) (allowed : List String)
  /-- The limit itself is beyond the range where it is exclusive. -/
  | beyondLimit (value : Json) (side : Excess) (exclusive : Bool) (limit : Json)
  | notMultiple (value : Json) (divisor : Binary64)
  | notConstant (expected : Json)
  | notListed (value : Json) (allowed : List Json)
  | patternMismatch (value : Json) (pattern : String)
  /-- The search for a pattern was given up: too many alternatives were tried, or put off. -/
  | tooManyRetreats
  | tooManyBranches
  | encodingMismatch (value : Json) (encoding : String)
  | mediaTypeMismatch (value : Json) (mediaType : String)
  /-- The bytes that a text encodes are no text themselves. -/
  | textMismatch (fault : TextFault)
  | miscounted (value : Json) (side : Excess) (counted : Counted) (limit : Nat)
  | repeatedItems (value : Json)
  | missingProperty (name : String)
  | formatMismatch (value : Json) (format : String)
  | unexpectedProperties (names : List String)
  | unexpectedItems (items : List Json)
  | noBranch (value : Json) (keyword : String)
  | severalBranches (value : Json)
  | excluded (schema value : Json)
  | refused (value : Json)
  | nothingContained (value : Json)
deriving Repr

/-- Pieces of text behind commas. -/
def listed (texts : List String) : String := String.intercalate ", " texts

/-- A word for one or for several. -/
def agreeing (count : Nat) (one several : String) : String := if count = 1 then one else several

/-- The limit of a count, with the noun that agrees with it. -/
def Counted.phrase (limit : Nat) : Counted → String
  | characters => toString limit ++ agreeing limit " character" " characters"
  | items => toString limit ++ agreeing limit " item" " items"
  | properties => toString limit ++ agreeing limit " property" " properties"

/-- How a count compares with its limit. -/
def Counted.comparison (side : Excess) : Counted → String
  | characters => match side with
    | .below => " is shorter than "
    | .above => " is longer than "
  | _ => match side with
    | .below => " has less than "
    | .above => " has more than "

/-- How a number compares with its limit. -/
def comparison (side : Excess) (exclusive : Bool) : String :=
  match side, exclusive with
  | .below, false => " is less than the minimum of "
  | .below, true => " is less than or equal to the minimum of "
  | .above, false => " is greater than the maximum of "
  | .above, true => " is greater than or equal to the maximum of "

/-- The failure in words; values are shown as compact JSON. -/
def Violation.message : Violation → String
  | wrongType value [name] => value.compact ++ " is not of type " ++ Json.quote name
  | wrongType value names =>
    value.compact ++ " is not of types " ++ listed (names.map Json.quote)
  | beyondLimit value side exclusive limit =>
    value.compact ++ comparison side exclusive ++ limit.compact
  | notMultiple value divisor =>
    value.compact ++ " is not a multiple of " ++ DecimalLayout.plain.render divisor
  | notConstant expected => expected.compact ++ " was expected"
  | notListed value allowed =>
    value.compact ++ " is not one of " ++ (Json.array allowed).compact
  | patternMismatch value pattern => value.compact ++ " does not match \"" ++ pattern ++ "\""
  | tooManyRetreats =>
    "Error executing regex: Max limit for backtracking count exceeded"
  | tooManyBranches => "Error executing regex: Max stack size exceeded for backtracking"
  | encodingMismatch value encoding =>
    value.compact ++ " is not compliant with \"" ++ encoding ++ "\" content encoding"
  | mediaTypeMismatch value mediaType =>
    value.compact ++ " is not compliant with \"" ++ mediaType ++ "\" media type"
  | textMismatch fault => fault.message
  | miscounted value side counted limit =>
    value.compact ++ counted.comparison side ++ counted.phrase limit
  | repeatedItems value => value.compact ++ " has non-unique elements"
  | missingProperty name => Json.quote name ++ " is a required property"
  | formatMismatch value format => value.compact ++ " is not a \"" ++ format ++ "\""
  | unexpectedProperties names =>
    "Additional properties are not allowed ("
      ++ listed (names.map fun name => "'" ++ name ++ "'")
      ++ agreeing names.length " was" " were" ++ " unexpected)"
  | unexpectedItems items =>
    "Additional items are not allowed (" ++ listed (items.map Json.compact)
      ++ agreeing items.length " was" " were" ++ " unexpected)"
  | noBranch value keyword =>
    value.compact ++ " is not valid under any of the schemas listed in the '" ++ keyword
      ++ "' keyword"
  | severalBranches value =>
    value.compact ++ " is valid under more than one of the schemas listed in the 'oneOf' keyword"
  | excluded schema value => schema.compact ++ " is not allowed for " ++ value.compact
  | refused value => "False schema does not allow " ++ value.compact
  | nothingContained value =>
    "None of " ++ value.compact ++ " are valid under the given schema"

end Validation

end SchemaClasses
