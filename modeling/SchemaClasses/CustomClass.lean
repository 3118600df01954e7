import SchemaClasses.Identifier
import SchemaClasses.Keyed
import SchemaClasses.Text.Segments

/-! Classes supplied by the user, and the tables that map schemas to them. -/

namespace SchemaClasses

/-- What a custom class supports, which decides the checks that still apply to it. -/
inductive Capability where
  | sequence
  | comparable
  | charSequence
deriving DecidableEq, Repr

namespace Capability

/-- The name that settings and output use. -/
def name : Capability → String
  | sequence => "sequence"
  | comparable => "comparable"
  | charSequence => "char_sequence"

/-- All capabilities. -/
def all : List Capability := [sequence, comparable, charSequence]

end Capability

/-- A class that stands for a generated or library type. -/
structure CustomClass where
  className : String
  capabilities : List Capability := []
deriving DecidableEq, Repr, Inhabited

namespace CustomClass

/-- Whether the class supports something. -/
def has (custom : CustomClass) (capability : Capability) : Bool :=
  capability ∈ custom.capabilities

/-- The package of a qualified class name. -/
def package? (custom : CustomClass) : Option String :=
  (cutLast '.' custom.className).map (·.1)

/-- Whether the class name is a dotted sequence of identifiers. -/
def isValid (custom : CustomClass) : Bool :=
  (cut '.' custom.className.toList).all spellsIdentifier

end CustomClass

/-- Custom classes by schema location, by format, and by extension keyword and its value. -/
structure CustomClassTables where
  uri : Keyed CustomClass := {}
  format : Keyed CustomClass := {}
  extension : Keyed (Keyed CustomClass) := {}
deriving Repr, Inhabited

namespace CustomClassTables

/-- Whether no class is mapped and no extension is named. -/
def isEmpty (tables : CustomClassTables) : Bool :=
  tables.uri.isEmpty && tables.format.isEmpty && tables.extension.isEmpty

/-- All mapped classes with their keys. -/
def classes (tables : CustomClassTables) : List (String × CustomClass) :=
  tables.uri.entries ++ tables.format.entries ++ tables.extension.values.flatMap (·.entries)

/-- Refuses the first class whose name is not valid. -/
def validate (tables : CustomClassTables) : Except Fault Unit :=
  match tables.classes.find? fun (_, custom) => !custom.isValid with
  | some (key, custom) => .error (.invalidCustomClass key custom.className)
  | none => .ok ()

/-- Whether a key of the location table names a location: in full, by its fragment, or by the
document alone where the location is a document root. -/
def keyMatches (key location : String) : Bool :=
  key == location
    || (key.startsWith "#" && location.endsWith key)
    || ('#' ∉ key.toList && location == key ++ "#")

/-- The class of the first entry that names a location. -/
def atLocation? (tables : CustomClassTables) (location : String) : Option CustomClass :=
  (tables.uri.entries.find? fun (key, _) => keyMatches key location).map (·.2)

/-- The class of an extension keyword with a string value. -/
def atExtension? (tables : CustomClassTables) (name : String) (value : Json) :
    Option CustomClass := do
  let text ← value.text?
  let values ← tables.extension.find? name
  values.find? text

/-- The class for a schema: by location first, then by format, then by extension. -/
def lookup (tables : CustomClassTables) (locations formats : List String)
    (extensions : List (String × Json)) : Option CustomClass :=
  (locations.findSome? tables.atLocation?)
    <|> (formats.findSome? tables.format.find?)
    <|> (extensions.findSome? fun (name, value) => tables.atExtension? name value)

end CustomClassTables

end SchemaClasses
