import SchemaClasses.CustomClass

/-! The kinds of types that generated code gives to values. -/

namespace SchemaClasses

/-- A type of the target language's library. -/
inductive LibraryType where
  | decimal
  | list
  | map
  | regex
  | dateTime
  | date
  | time
  | duration
  | uuid
  | uri
deriving DecidableEq, Repr

namespace LibraryType

/-- The name that output uses. -/
def name : LibraryType → String
  | decimal => "DECIMAL"
  | list => "LIST"
  | map => "MAP"
  | regex => "REGEX"
  | dateTime => "DATE_TIME"
  | date => "DATE"
  | time => "TIME"
  | duration => "DURATION"
  | uuid => "UUID"
  | uri => "URI"

/-- All library types, in the order in which output lists them. -/
def all : List LibraryType :=
  [decimal, list, map, regex, dateTime, date, time, duration, uuid, uri]

end LibraryType

/-- How a `format` bears on generated code. -/
inductive FormatRole where
  /-- The value gets a library type instead of a check. -/
  | library (type : LibraryType)
  | checked
  /-- The format only describes numbers. -/
  | numeric
  | unknown
deriving DecidableEq, Repr

/-- The role of a format. -/
def FormatRole.ofFormat : String → FormatRole
  | "date-time" => library .dateTime
  | "date" => library .date
  | "time" => library .time
  | "duration" => library .duration
  | "uuid" => library .uuid
  | "uri" | "uri-reference" => library .uri
  | "email" | "hostname" | "ipv4" | "ipv6" | "idn-email" | "idn-hostname" | "iri"
  | "iri-reference" | "json-pointer" | "relative-json-pointer" | "regex" | "uri-template" =>
    checked
  | "int32" | "int64" | "float" | "double" => numeric
  | _ => unknown

/-- The library type that a format stands for. -/
def libraryType? (format : String) : Option LibraryType :=
  match FormatRole.ofFormat format with
  | .library type => some type
  | _ => none

/-- The number of a declaration. -/
structure DeclarationId where
  index : Nat
deriving DecidableEq, Repr, Inhabited

/-- A generated class: a declaration, or a class nested in one. -/
inductive ClassRef where
  | declaration (id : DeclarationId)
  | nested (owner : DeclarationId) (index : Nat)
deriving DecidableEq, Repr

/-- A class that a value has. -/
inductive TypeRef where
  | generated (ref : ClassRef)
  | custom (custom : CustomClass)
deriving DecidableEq, Repr

/-- The kind of type that a value gets. -/
inductive Shape where
  | object
  | array
  | string
  | boolean
  | int32
  | int64
  | decimal
  /-- Texts that can all name constants of an enum. -/
  | identifierEnum
  | reference (type : TypeRef)
  | library (type : LibraryType)
  | untyped
deriving DecidableEq, Repr

end SchemaClasses
