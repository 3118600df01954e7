import SchemaClasses.Json.Writer

/-! JSON objects written as TOML. -/

namespace SchemaClasses

namespace Toml

/-- A character inside a string. -/
def escapeChar (c : Char) : List Char :=
  match c with
  | '"' => ['\\', '"']
  | '\\' => ['\\', '\\']
  | '\n' => ['\\', 'n']
  | '\r' => ['\\', 'r']
  | '\t' => ['\\', 't']
  | c =>
    if c.toNat < 0x20 || c.toNat == 0x7f then
      ['\\', 'u', '0', '0', Json.hexDigit (c.toNat / 16), Json.hexDigit c.toNat]
    else [c]

/-- A quoted string. -/
def quote (text : String) : String :=
  "\"" ++ String.ofList (text.toList.flatMap escapeChar) ++ "\""

/-- A key, in quotes where it needs them. -/
def keyText (key : String) : String :=
  let isPlain := key.toList.all fun c => c.isAlphanum || c == '_' || c == '-'
  if key != "" && isPlain then key else quote key

mutual

/-- A value that is no table; there is no way to write null. -/
def valueText : Json → String
  | .null => "\"\""
  | .bool flag => toString flag
  | .integer n => toString n
  | .float x => DecimalLayout.json.render x
  | .string text => quote text
  | .array items => "[" ++ itemsText true items ++ "]"
  | .object _ => "\x7b\x7d"

/-- Values behind commas, the first of them without one. -/
def itemsText (first : Bool) : List Json → String
  | [] => ""
  | item :: rest => (if first then "" else ", ") ++ valueText item ++ itemsText false rest

end

/-- The lines for the members of a table that are no tables and not null. -/
def plainLines (members : List (String × Json)) : String :=
  String.join (members.map fun (key, value) =>
    match value with
    | .null | .object _ => ""
    | value => keyText key ++ " = " ++ valueText value ++ "\n")

mutual

/-- A table under its header, and the tables in it. -/
def blocks (header : List String) : Json → List String
  | .object members =>
    ("[" ++ String.intercalate "." (header.map keyText) ++ "]\n" ++ plainLines members)
      :: memberBlocks header members
  | _ => []

/-- The tables among the members of a table. -/
def memberBlocks (header : List String) : List (String × Json) → List String
  | [] => []
  | (key, value) :: rest => blocks (header ++ [key]) value ++ memberBlocks header rest

end

/-- A whole document, with empty lines between its tables. -/
def document : Json → String
  | .object members =>
    let plain := plainLines members
    String.intercalate "\n" ((if plain == "" then [] else [plain]) ++ memberBlocks [] members)
  | _ => ""

end Toml

end SchemaClasses
