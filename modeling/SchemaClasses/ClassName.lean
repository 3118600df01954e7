import SchemaClasses.Identifier
import SchemaClasses.Text.Casing
import SchemaClasses.Text.Segments

/-! Class names made from document URIs, titles and property names. -/

namespace SchemaClasses

/-- How class names treat words in capitals. -/
structure NamingSettings where
  /-- Words that are written in capitals wherever they occur. -/
  acronyms : List String :=
    ["ID", "URL", "UUID", "API", "HTTP", "JSON", "XML", "SQL", "URI", "UI", "IO"]
  /-- Whether other words in capitals stay so. -/
  preserveScreamingCase : Bool := true
deriving Repr, Inhabited

/-- Whether a character separates the words of a name. -/
def isWordBreak (c : Char) : Bool := c == '_' || c == '-' || c == ' '

/-- The pieces of a text between characters of a class, empty pieces included. -/
def cutWhere (separates : Char → Bool) : List Char → List (List Char)
  | [] => [[]]
  | c :: rest =>
    if separates c then [] :: cutWhere separates rest
    else match cutWhere separates rest with
      | [] => [[c]]
      | piece :: pieces => (c :: piece) :: pieces

/-- A text without the given ending, as often as it stands there. -/
def trimEnding (ending text : List Char) : List Char :=
  if ending.isEmpty then text
  else go text.length text
where
  /-- At most `steps` endings can stand in a text of that length. -/
  go : Nat → List Char → List Char
    | 0, text => text
    | steps + 1, text =>
      if ending.isSuffixOf text then go steps (text.take (text.length - ending.length)) else text

/-- A plural without its ending `es` or else `s`, where more than the ending is there. -/
def singular (text : String) : String :=
  let letters := text.toList
  let without (ending : List Char) : Option String :=
    if ending.isSuffixOf letters && ending.length < letters.length then
      some (String.ofList (letters.take (letters.length - ending.length)))
    else none
  (without ['e', 's']).getD ((without ['s']).getD text)

namespace NamingSettings

/-- One word with a capital first letter; acronyms are written in capitals throughout. -/
def caseWord (naming : NamingSettings) (word : List Char) : List Char :=
  let upper := word.flatMap upperChar
  if String.ofList upper ∈ naming.acronyms then upper
  else match word with
    | [] => []
    | first :: rest =>
      if !naming.preserveScreamingCase && word.all (!·.isLower) then
        upperChar first ++ rest.map Char.toLower
      else upperChar first ++ rest

/-- The words of a text, each with a capital first letter, without the breaks between them. -/
def pascalCase (naming : NamingSettings) (text : String) : String :=
  String.ofList ((cutWhere isWordBreak text.toList).flatMap naming.caseWord)

/-- The class name for free text such as a title or a property name. -/
def className (naming : NamingSettings) (text : String) : String :=
  sanitize (naming.pascalCase text)

/-- The class name for the items of an array property. -/
def itemClassName (naming : NamingSettings) (property : String) : String :=
  naming.className (singular property)

/-- The class name from the last segment of a document URI, without schema file endings. -/
def classNameOfUri? (naming : NamingSettings) (uri : String) : Option String :=
  let document := uri.toList.takeWhile (· != '#')
  let path := trimEnding ['/'] document
  let segment := (cutWhere (fun c => c == '/' || c == ':') path).getLast?.getD []
  let stem := trimEnding ".json".toList (trimEnding ".schema.json".toList segment)
  if stem.isEmpty then none
  else
    some (naming.className (String.ofList (stem.map fun c => if c == '.' then '_' else c)))

end NamingSettings

end SchemaClasses
