import SchemaClasses.DefaultValue
import SchemaClasses.Json.Writer

/-! The causes that stop a run, and how they are reported. -/

namespace SchemaClasses

/-- The form that a keyword's value must have. -/
inductive Form where
  | string
  | boolean
  | array
  | object
deriving DecidableEq, Repr

/-- What makes a schema document unusable. -/
inductive SchemaProblem where
  | notASchema (found : Json)
  | notAString (found : Json)
  | notANumber (found : Json)
  | notACount (found : Json)
  | unknownType (name : String)
  | wrongForm (keyword : String) (expected : Form)
  | tupleItems
deriving Repr

/-- Two declarations of one keyword that cannot both hold. -/
inductive Conflict where
  | constants (existing incoming : Json)
  | enumerations (existing incoming : List Json)
  | defaults (existing : DefaultValue) (incoming : Json)
deriving Repr

/-- A cause that stops a run. -/
inductive Fault where
  | contradiction (location : String) (conflict : Conflict)
  | unresolvedReference (location reference : String)
  | unrepresentableDefault (location : String)
  | circularBase (className : String)
  | invalidSchema (location : String) (problem : SchemaProblem)
  | invalidCustomClass (key className : String)
  | namesExhausted (candidate : String)
  | blockingDiagnostics (count : Nat)
  | pathNotFound (path : String)
  | inaccessible (path reason : String)
  | malformedJson (reason : String)
  | badConfiguration (reason : String)
deriving Repr

/-- The broad class of a fault. -/
inductive FaultCategory where
  | contradiction
  | resolution
  | exhaustion
  | advisory
  | environment
deriving DecidableEq, Repr

/-- The word for a form, with its article. -/
def Form.phrase : Form → String
  | string => "a string"
  | boolean => "a boolean"
  | array => "an array"
  | object => "an object"

/-- The problem in words. -/
def SchemaProblem.message : SchemaProblem → String
  | notASchema found => "schema must be an object or boolean, found " ++ found.compact
  | notAString found => "expected string, found " ++ found.compact
  | notANumber found => "expected number, found " ++ found.compact
  | notACount found => "expected non-negative integer, found " ++ found.compact
  | unknownType name => "unknown type " ++ name
  | wrongForm keyword expected => keyword ++ " must be " ++ expected.phrase
  | tupleItems => "tuple-form items is not supported"

/-- The keyword, the value that stands and the value that contradicts it. -/
def Conflict.parts : Conflict → String × String × String
  | constants existing incoming => ("const", existing.compact, incoming.compact)
  | enumerations existing incoming =>
    ("enum", (Json.array existing).compact, (Json.array incoming).compact)
  | defaults existing incoming => ("default", existing.diagnosticText, incoming.compact)

namespace Fault

/-- The class that a fault belongs to. -/
def category : Fault → FaultCategory
  | contradiction .. => .contradiction
  | unresolvedReference .. | unrepresentableDefault .. | circularBase .. | invalidSchema ..
  | invalidCustomClass .. => .resolution
  | namesExhausted .. => .exhaustion
  | blockingDiagnostics .. => .advisory
  | pathNotFound .. | inaccessible .. | malformedJson .. | badConfiguration .. => .environment

/-- The schema location that a fault comes from, where one is known. -/
def location? : Fault → Option String
  | contradiction location _ | unresolvedReference location _ | unrepresentableDefault location
  | invalidSchema location _ => some location
  | _ => none

/-- What the environment reported behind a fault. -/
def cause? : Fault → Option String
  | pathNotFound path => some ("schema path not found: " ++ path)
  | inaccessible _ reason | malformedJson reason | badConfiguration reason => some reason
  | _ => none

/-- The fault in words. -/
def message : Fault → String
  | contradiction location conflict =>
    let (keyword, existing, incoming) := conflict.parts
    "Contradictory " ++ keyword ++ " at " ++ location ++ ": " ++ existing ++ " vs " ++ incoming
  | unresolvedReference location reference =>
    "Can't resolve reference " ++ reference ++ " at " ++ location
  | unrepresentableDefault location =>
    "Can't represent default value at " ++ location
      ++ ": object default values are not supported"
  | circularBase className => "Circular base class chain involving " ++ className
  | invalidSchema location problem => "Invalid schema at " ++ location ++ ": " ++ problem.message
  | invalidCustomClass key className => "Invalid custom class " ++ className ++ " for " ++ key
  | namesExhausted candidate => "Too many identically named classes - " ++ candidate
  | blockingDiagnostics count => toString count ++ " blocking diagnostic(s) reported"
  | pathNotFound path => "IO error: schema path not found: " ++ path
  | inaccessible _ reason => "IO error: " ++ reason
  | malformedJson reason => "JSON error: " ++ reason
  | badConfiguration reason => "Config error: " ++ reason

/-- The fault in words, and once more the words of what the environment reported. -/
def report (fault : Fault) : String :=
  fault.message ++ match fault.cause? with
    | some cause => ": " ++ cause
    | none => ""

end Fault

end SchemaClasses
