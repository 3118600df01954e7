import SchemaClasses.Check

/-! The named constants of a class, each value stored once. -/

namespace SchemaClasses

/-- What a constant is used for. -/
inductive ConstantKind where
  | regex
  | stringArray
  | numberArray
  | decimal
  | string
deriving DecidableEq, Repr

namespace ConstantKind

/-- The name that output uses. -/
def name : ConstantKind → String
  | regex => "regex"
  | stringArray => "string_array"
  | numberArray => "number_array"
  | decimal => "decimal"
  | string => "string"

/-- All kinds. -/
def all : List ConstantKind := [regex, stringArray, numberArray, decimal, string]

/-- The start of a constant's name; both kinds of arrays share one. -/
def stem : ConstantKind → String
  | regex => "cg_regex"
  | stringArray | numberArray => "cg_array"
  | decimal => "cg_dec"
  | string => "cg_str"

end ConstantKind

/-- The value of a constant. -/
inductive ConstantValue where
  | text (value : String)
  | texts (values : List String)
  | numbers (values : List Quantity)
  | number (value : Quantity)
deriving DecidableEq, Repr

/-- A named constant. -/
structure Constant where
  name : String
  kind : ConstantKind
  value : ConstantValue
deriving DecidableEq, Repr

/-- Constants in order of insertion, none of them with the kind and value of another. -/
structure ConstantPool where
  entries : List Constant := []
deriving DecidableEq, Repr, Inhabited

namespace ConstantPool

/-- The constant of a kind and value. -/
def holding? (pool : ConstantPool) (kind : ConstantKind) (value : ConstantValue) :
    Option Constant :=
  pool.entries.find? fun entry => entry.kind = kind ∧ entry.value = value

/-- The constant of a name. -/
def get? (pool : ConstantPool) (name : String) : Option Constant :=
  pool.entries.find? fun entry => entry.name = name

/-- The name for a value, which joins the pool when it is new; new names are numbered by the size
of the pool. -/
def add (pool : ConstantPool) (kind : ConstantKind) (value : ConstantValue) :
    String × ConstantPool :=
  match pool.holding? kind value with
  | some entry => (entry.name, pool)
  | none =>
    let name := kind.stem ++ toString pool.entries.length
    (name, ⟨pool.entries ++ [⟨name, kind, value⟩]⟩)

/-- The number of constants. -/
def size (pool : ConstantPool) : Nat := pool.entries.length

/-- Whether there is no constant. -/
def isEmpty (pool : ConstantPool) : Bool := pool.entries.isEmpty

end ConstantPool

/-- The plain JSON value. -/
def ConstantValue.toJson : ConstantValue → Json
  | text value => .string value
  | texts values => .ofTexts values
  | numbers values => .array (values.map Quantity.toJson)
  | number value => value.toJson

/-- The JSON form. -/
def Constant.toJson (constant : Constant) : Json :=
  .object [("name", .string constant.name), ("kind", .string constant.kind.name),
    ("value", constant.value.toJson)]

/-- The constants as a JSON array. -/
def ConstantPool.toJson (pool : ConstantPool) : Json :=
  .array (pool.entries.map Constant.toJson)

end SchemaClasses
