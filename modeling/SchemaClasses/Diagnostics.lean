import SchemaClasses.Json.Writer

/-! Advisory findings, which never stop a run by themselves. -/

namespace SchemaClasses

/-- What kind of finding a diagnostic reports. -/
inductive DiagnosticCode where
  | invalidExample
  | invalidDefault
  | invalidPattern
  | unknownFormat
  | ignoredAnyOf
  | skippedSchema
deriving DecidableEq, Repr

/-- How serious a finding is. -/
inductive Severity where
  | info
  | warning
deriving DecidableEq, Repr

namespace DiagnosticCode

/-- The short code that reports show. -/
def label : DiagnosticCode → String
  | invalidExample => "W001"
  | invalidDefault => "W002"
  | invalidPattern => "W003"
  | unknownFormat => "W004"
  | ignoredAnyOf => "I001"
  | skippedSchema => "I002"

/-- The name that the JSON form shows. -/
def name : DiagnosticCode → String
  | invalidExample => "InvalidExample"
  | invalidDefault => "InvalidDefault"
  | invalidPattern => "InvalidPattern"
  | unknownFormat => "UnknownFormat"
  | ignoredAnyOf => "IgnoredAnyOf"
  | skippedSchema => "SkippedSchema"

/-- All codes. -/
def all : List DiagnosticCode :=
  [invalidExample, invalidDefault, invalidPattern, unknownFormat, ignoredAnyOf, skippedSchema]

/-- Findings about unused parts of a schema are information, the others warnings. -/
def severity : DiagnosticCode → Severity
  | invalidExample | invalidDefault | invalidPattern | unknownFormat => .warning
  | ignoredAnyOf | skippedSchema => .info

/-- Whether the finding is about an example or a default that fails its own schema. -/
def isExampleCheck : DiagnosticCode → Bool
  | invalidExample | invalidDefault => true
  | _ => false

end DiagnosticCode

/-- The word for a severity. -/
def Severity.word : Severity → String
  | info => "info"
  | warning => "warning"

/-- One finding at a schema location, with details. -/
structure Diagnostic where
  location : String
  code : DiagnosticCode
  message : String
  context : List String := []
deriving DecidableEq, Repr

namespace Diagnostic

/-- The finding on one line, with one line for each detail. -/
def text (d : Diagnostic) : String :=
  "[" ++ d.code.label ++ "] " ++ d.code.severity.word ++ ": " ++ d.message
    ++ " (" ++ d.location ++ ")" ++ String.join (d.context.map ("\n  - " ++ ·))

/-- The JSON form, without an empty list of details. -/
def toJson (d : Diagnostic) : Json :=
  .object ([("location", .string d.location), ("code", .string d.code.name),
    ("message", .string d.message)]
    ++ if d.context.isEmpty then [] else [("context", Json.ofTexts d.context)])

/-- An example that fails its own schema. -/
def invalidExample (location : String) (shown : Json) (errors : List String) : Diagnostic :=
  ⟨location, .invalidExample, "Example " ++ shown.compact ++ " does not match its schema", errors⟩

/-- A default value that fails its own schema. -/
def invalidDefault (location : String) (value : Json) (errors : List String) : Diagnostic :=
  ⟨location, .invalidDefault, "Default " ++ value.compact ++ " does not match its schema", errors⟩

/-- A pattern that is no regular expression. -/
def invalidPattern (location pattern : String) : Diagnostic :=
  ⟨location, .invalidPattern, "Invalid regex '" ++ pattern ++ "'", ["not a regular expression"]⟩

/-- A format tag without a known treatment. -/
def unknownFormat (location format : String) : Diagnostic :=
  ⟨location, .unknownFormat, "Unrecognised format '" ++ format ++ "'", []⟩

/-- Alternatives that do not shape the generated classes. -/
def ignoredAnyOf (location : String) (branches : Nat) : Diagnostic :=
  ⟨location, .ignoredAnyOf,
    "anyOf with " ++ toString branches ++ " branches is not used for code generation", []⟩

/-- A document root that yields no class. -/
def skippedSchema (location reason : String) : Diagnostic :=
  ⟨location, .skippedSchema, reason, []⟩

end Diagnostic

/-- Findings in order, none of them twice. -/
structure Diagnostics where
  items : List Diagnostic := []
deriving DecidableEq, Repr, Inhabited

namespace Diagnostics

/-- A finding at the end, unless the same one is present. -/
def push (found : Diagnostics) (d : Diagnostic) : Diagnostics :=
  if d ∈ found.items then found else ⟨found.items ++ [d]⟩

/-- The number of findings. -/
def size (found : Diagnostics) : Nat := found.items.length

/-- Whether nothing was found. -/
def isEmpty (found : Diagnostics) : Bool := found.items.isEmpty

/-- The number of warnings. -/
def warnings (found : Diagnostics) : Nat :=
  found.items.countP fun d => d.code.severity == .warning

/-- The number of findings that block generation where examples must be valid. -/
def blocking (found : Diagnostics) : Nat := found.items.countP (·.code.isExampleCheck)

/-- All findings on lines of their own, then the number of warnings. -/
def text (found : Diagnostics) : String :=
  String.join (found.items.map (·.text ++ "\n"))
    ++ if found.isEmpty then "" else "\n" ++ toString found.warnings ++ " warning(s)\n"

/-- The JSON form. -/
def toJson (found : Diagnostics) : Json := .array (found.items.map Diagnostic.toJson)

end Diagnostics

end SchemaClasses
