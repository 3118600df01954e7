/-! The languages that classes are generated for, and the words each of them reserves. -/

namespace SchemaClasses

/-- A language that classes are generated for. -/
inductive Language where
  | kotlin
  | java
  | typescript
  | rust
deriving DecidableEq, Repr, Inhabited

namespace Language

/-- The name that settings and output use. -/
def name : Language → String
  | kotlin => "kotlin"
  | java => "java"
  | typescript => "typescript"
  | rust => "rust"

/-- All languages. -/
def all : List Language := [kotlin, java, typescript, rust]

/-- The language of a name or file extension, in letters of any case. -/
def ofName? (text : String) : Option Language :=
  match String.ofList (text.toList.map Char.toLower) with
  | "kotlin" | "kt" => some kotlin
  | "java" => some java
  | "typescript" | "ts" => some typescript
  | "rust" | "rs" => some rust
  | _ => none

/-- The words that cannot name a field. -/
def reservedWords : Language → List String
  | kotlin => [
    "as", "break", "class", "continue", "do", "else", "false", "for", "fun", "if", "in",
    "interface", "is", "null", "object", "package", "return", "super", "this", "throw", "true",
    "try", "typealias", "typeof", "val", "var", "when", "while"]
  | java => [
    "abstract", "assert", "boolean", "break", "byte", "case", "catch", "char", "class", "const",
    "continue", "default", "do", "double", "else", "enum", "extends", "false", "final", "finally",
    "float", "for", "goto", "if", "implements", "import", "instanceof", "int", "interface",
    "long", "native", "new", "null", "package", "private", "protected", "public", "return",
    "short", "static", "strictfp", "super", "switch", "synchronized", "this", "throw", "throws",
    "transient", "true", "try", "void", "volatile", "while"]
  | typescript => [
    "break", "case", "catch", "class", "const", "continue", "debugger", "default", "delete", "do",
    "else", "enum", "export", "extends", "false", "finally", "for", "function", "if", "import",
    "in", "instanceof", "new", "null", "return", "super", "switch", "this", "throw", "true",
    "try", "typeof", "var", "void", "while", "with", "as", "implements", "interface", "let",
    "package", "private", "protected", "public", "static", "yield", "any", "boolean",
    "constructor", "declare", "get", "module", "require", "number", "set", "string", "symbol",
    "type", "from", "of"]
  | rust => [
    "as", "break", "const", "continue", "crate", "else", "enum", "extern", "false", "fn", "for",
    "if", "impl", "in", "let", "loop", "match", "mod", "move", "mut", "pub", "ref", "return",
    "self", "Self", "static", "struct", "super", "trait", "true", "type", "unsafe", "use",
    "where", "while", "async", "await", "dyn", "abstract", "become", "box", "do", "final",
    "macro", "override", "priv", "typeof", "unsized", "virtual", "yield"]

/-- Whether a word is reserved. -/
def isReserved (language : Language) (word : String) : Bool :=
  word ∈ language.reservedWords

/-- The reserved words that no raw identifier can spell. -/
def unrawable : List String := ["self", "Self", "super", "crate"]

/-- A reserved word in its escaped form; any other name as it is. -/
def escapeReserved (language : Language) (word : String) : String :=
  if language.isReserved word then
    match language with
    | kotlin => "`" ++ word ++ "`"
    | java | typescript => word ++ "_"
    | rust => if word ∈ unrawable then word ++ "_" else "r#" ++ word
  else word

end Language

end SchemaClasses
