import SchemaClasses.Constants
import SchemaClasses.Declaration
import SchemaClasses.DefaultValue
import SchemaClasses.Diagnostics
import SchemaClasses.Language

/-! The catalogue: the generated classes with all that a renderer needs to write them. -/

namespace SchemaClasses

/-- The type of a property, an item or a map value. -/
inductive ValueType where
  /-- A generated class by its dotted path. -/
  | generated (path : String)
  | custom (name : String)
  | library (type : LibraryType)
  | array (items : ValueType)
  | string
  | boolean
  | int32
  | int64
  | decimal
  | any
deriving DecidableEq, Repr, Inhabited

/-- An item of an array or a value of a map, with its own checks. -/
inductive Element where
  | mk (type : ValueType) (checks : List Check) (nullable : Bool) (items : Option Element)
deriving Repr, Inhabited

/-- A property of a class. -/
structure Property where
  /-- The name that the schema uses. -/
  name : String
  /-- The name as an identifier of the language. -/
  identifier : String
  type : ValueType
  checks : List Check
  /-- The items of an array. -/
  items : Option Element
  required : Bool
  nullable : Bool
  default : Option DefaultValue
  /-- Whether the base class has the property in the same shape. -/
  inherited : Bool
  extended : Bool
  overrides : Bool
  description : Option String
deriving Repr, Inhabited

/-- The value of properties whose names match a pattern. -/
structure PatternEntry where
  pattern : String
  /-- The constant that holds the pattern. -/
  constant : Option String
  value : Element
deriving Repr

/-- What a class holds, apart from its relations to other classes. -/
structure ClassBody where
  properties : List Property := []
  enumConstants : List String := []
  checks : List Check := []
  patternProperties : List PatternEntry := []
  /-- The value of the properties that nothing else describes. -/
  additional : Option Element := none
  mapBacked : Bool := false
deriving Repr, Inhabited

/-- A generated class, with the classes nested in it. -/
structure ClassEntry where
  name : String
  package : Option String := none
  kind : ClassKind
  description : Option String := none
  body : ClassBody := {}
  base : Option String := none
  derived : List String := []
  interfaces : List String := []
  nested : List ClassEntry := []
  constants : List Constant := []
  libraryTypes : List LibraryType := []
  imports : List String := []
  isVariant : Bool := false
deriving Repr, Inhabited

/-- The result of a run. -/
structure Catalogue where
  comment : Option String
  language : Language
  classes : List ClassEntry
  diagnostics : Diagnostics
deriving Inhabited

namespace ClassEntry

/-- The property of a name. -/
def property? (entry : ClassEntry) (name : String) : Option Property :=
  entry.body.properties.find? fun property => property.name == name

/-- The nested class of a name. -/
def nested? (entry : ClassEntry) (name : String) : Option ClassEntry :=
  entry.nested.find? fun nested => nested.name == name

end ClassEntry

/-- The class of a name, the first of several. -/
def Catalogue.class? (catalogue : Catalogue) (name : String) : Option ClassEntry :=
  catalogue.classes.find? fun entry => entry.name == name

/-! The constants that a class mentions. -/

/-- The constant that a check compares with. -/
def Check.constant? (check : Check) : Option String :=
  match check.operand with
  | some (.constant name) => some name
  | _ => none

/-- The constants mentioned in the checks of an element and of its items. -/
def Element.constants : Element → List String
  | mk _ checks _ none => checks.filterMap Check.constant?
  | mk _ checks _ (some items) => checks.filterMap Check.constant? ++ items.constants

/-- The constants mentioned in the checks of a property and of its items. -/
def Property.constants (property : Property) : List String :=
  property.checks.filterMap Check.constant? ++ (property.items.map Element.constants).getD []

/-- The constants mentioned in a pattern property. -/
def PatternEntry.constants (entry : PatternEntry) : List String :=
  entry.constant.toList ++ entry.value.constants

/-- The constants mentioned in the body of a class. -/
def ClassBody.constants (body : ClassBody) : List String :=
  body.checks.filterMap Check.constant? ++ body.properties.flatMap Property.constants
    ++ body.patternProperties.flatMap PatternEntry.constants
    ++ (body.additional.map Element.constants).getD []

mutual

/-- The constants mentioned in a class or in one nested in it. -/
def ClassEntry.mentioned : ClassEntry → List String
  | { body, nested, .. } => body.constants ++ mentionedInAll nested

/-- The constants mentioned in some classes. -/
def mentionedInAll : List ClassEntry → List String
  | [] => []
  | entry :: rest => entry.mentioned ++ mentionedInAll rest

end

end SchemaClasses
