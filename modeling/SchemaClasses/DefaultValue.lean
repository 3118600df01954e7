import SchemaClasses.Json
import SchemaClasses.Decimal
import SchemaClasses.Text.Printable

/-! The default values that a generated class can carry. -/

namespace SchemaClasses

/-- A typed default value. -/
inductive DefaultValue where
  | null
  | boolean (value : Bool)
  | integer (value : Int)
  | decimal (value : Binary64)
  | string (text : String)
  | array (items : List DefaultValue)
deriving Repr, Inhabited

namespace DefaultValue

mutual

/-- The default value for a JSON value, if no object occurs in it. -/
def ofJson? : Json → Option DefaultValue
  | .null => some null
  | .bool value => some (boolean value)
  | .integer n =>
    -- An integer beyond 64 signed bits is kept as a double.
    some (if (Json.integer n).signed?.isSome then integer n else decimal (.ofInt n))
  | .float x => some (decimal x)
  | .string text => some (string text)
  | .array items => (ofItems? items).map array
  | .object _ => none

/-- The default values for the items of an array. -/
def ofItems? : List Json → Option (List DefaultValue)
  | [] => some []
  | item :: rest => do
    let value ← ofJson? item
    let values ← ofItems? rest
    return value :: values

end

mutual

/-- Equality of values; an integer never equals a decimal. -/
def same : DefaultValue → DefaultValue → Bool
  | null, null => true
  | boolean a, boolean b => a == b
  | integer a, integer b => a == b
  | decimal a, decimal b => a.equals b
  | string a, string b => a == b
  | array a, array b => sameItems a b
  | _, _ => false

/-- Item by item equality. -/
def sameItems : List DefaultValue → List DefaultValue → Bool
  | [], [] => true
  | a :: as, b :: bs => same a b && sameItems as bs
  | _, _ => false

end

instance : BEq DefaultValue := ⟨same⟩

mutual

/-- The text that error messages show. -/
def diagnosticText : DefaultValue → String
  | null => "Null"
  | boolean value => "Boolean(" ++ toString value ++ ")"
  | integer n => "Integer(" ++ toString n ++ ")"
  | decimal x => "Decimal(" ++ DecimalLayout.diagnostic.render x ++ ")"
  | string text => "String(" ++ diagnosticQuote text ++ ")"
  | array items => "Array([" ++ diagnosticItems true items ++ "])"

/-- Items behind commas, the first of them without one. -/
def diagnosticItems (first : Bool) : List DefaultValue → String
  | [] => ""
  | item :: rest =>
    (if first then "" else ", ") ++ diagnosticText item ++ diagnosticItems false rest

end

mutual

/-- The JSON form: the type's name beside the value. -/
def toJson : DefaultValue → Json
  | null => .object [("type", .string "null")]
  | boolean value => .object [("type", .string "boolean"), ("value", .bool value)]
  | integer n => .object [("type", .string "integer"), ("value", .integer n)]
  | decimal x => .object [("type", .string "decimal"), ("value", .float x)]
  | string text => .object [("type", .string "string"), ("value", .string text)]
  | array items => .object [("type", .string "array"), ("value", .array (itemsToJson items))]

/-- The JSON forms of items. -/
def itemsToJson : List DefaultValue → List Json
  | [] => []
  | item :: rest => toJson item :: itemsToJson rest

end

end DefaultValue

end SchemaClasses
