import SchemaClasses.Files
import SchemaClasses.Ini.Reader
import SchemaClasses.Json5.Reader
import SchemaClasses.Ron.Reader
import SchemaClasses.Settings.KeyPath
import SchemaClasses.Settings.Reading
import SchemaClasses.Settings.Writing
import SchemaClasses.Toml.Reader
import SchemaClasses.Toml.Writer
import SchemaClasses.Yaml.Reader

/-! Settings gathered from files and the environment, of which later ones win value by value. -/

namespace SchemaClasses

/-- The formats of settings files. -/
inductive SettingsFormat where
  | toml
  | json
  | yaml
  | ini
  | ron
  | json5
deriving DecidableEq, Repr, Inhabited

namespace SettingsFormat

/-- All formats. -/
def all : List SettingsFormat := [toml, json, yaml, ini, ron, json5]

/-- The endings of the names of files in a format. -/
def extensions : SettingsFormat → List String
  | toml => ["toml"]
  | json => ["json"]
  | yaml => ["yaml", "yml"]
  | ini => ["ini"]
  | ron => ["ron"]
  | json5 => ["json5"]

/-- The format of files whose names have an ending. -/
def ofExtension? (extension : String) : Option SettingsFormat :=
  all.find? fun format => extension ∈ format.extensions

/-- The value of a file. -/
def parse? (format : SettingsFormat) (text : String) : Option Setting :=
  match format with
  | toml => Toml.parse? text
  | json => (Json.parse? text).map Setting.ofJson
  | yaml => Yaml.parse? text
  | ini => Ini.parse? text
  | ron => Ron.parse? text
  | json5 => Json5.parse? text

end SettingsFormat

namespace Layers

/-- The name of settings files, and of the settings file of a user. -/
def baseName : String := "schema-codegen"

/-- The places of settings files, without their endings, from the working directory. -/
def locations : List String := [baseName, "." ++ baseName, "config/" ++ baseName]

/-- What the names of environment variables start with, and what separates their parts. -/
def environmentPrefix : List Char := "schema_codegen__".toList

/-- The name of a path without slashes and single dots at its end. -/
def stem (path : String) : String :=
  let pieces := (cutText '/' path).reverse.dropWhile fun piece => piece == "" || piece == "."
  joinText "/" pieces.reverse

/-- The paths of settings files for a name that lacks its ending, with their formats. -/
def completions (name : String) : List (String × SettingsFormat) :=
  let stem := stem name
  if lastPiece '/' stem ∈ ["", ".."] then []
  else SettingsFormat.all.flatMap fun format =>
    format.extensions.map fun extension => (stem ++ "." ++ extension, format)

/-- The settings file that a name stands for: the file of that name, or else one of which it lacks
the ending. -/
def locate? (files : Files) (name : String) : Option (String × SettingsFormat) :=
  if files.isFile name then do
    let extension ← Files.extension? (lastPiece '/' name)
    return (name, ← SettingsFormat.ofExtension? extension)
  else (completions name).find? fun (path, _) => files.isFile path

/-- All paths where a settings file may be found under a name. -/
def candidates (name : String) : List String := name :: (completions name).map Prod.fst

/-- The fault of a settings file that must exist. -/
def missingFile (files : Files) (name : String) : Fault :=
  .badConfiguration ("configuration file " ++ Json.quote name
    ++ if files.isFile name then " is not of a registered file format" else " not found")

/-- The text of a settings file, which may begin with a byte order mark. -/
def fileText? (files : Files) (path : String) : Option String :=
  ((files.content? path).bind FileContent.anyText?).map fun text =>
    match text.toList with
    | '\ufeff' :: rest => String.ofList rest
    | _ => text

/-- The layer of a settings file; one that need not exist counts as empty where it cannot be
found or read. -/
def fileLayer (files : Files) (needed : Bool) (name : String) :
    Except Fault (List (String × Setting)) :=
  match (locate? files name).bind fun (path, format) =>
      (fileText? files path).map fun text => (format, text) with
  | some (format, text) =>
    match (format.parse? text).bind Setting.entries? with
    | some entries => .ok entries
    | none => .error (.badConfiguration ("cannot use the settings file " ++ name))
  | none => if needed then .error (missingFile files name) else .ok []

/-- A text without the given start. -/
def withoutStart? (start text : List Char) : Option (List Char) :=
  if start.isPrefixOf text then some (text.drop start.length) else none

/-- Two underscores, which separate the parts of a name, written as a dot. -/
def dotted : List Char → List Char
  | '_' :: '_' :: rest => '.' :: dotted rest
  | c :: rest => c :: dotted rest
  | [] => []

/-- The value that the text of an environment variable stands for: a boolean or a number where it
can be read as one. -/
def environmentValue (text : String) : Setting :=
  let letters := text.toList
  let word := lowerText text
  if word = "true" then .bool true
  else if word = "false" then .bool false
  else match int64OfText? 10 letters, AnyDouble.ofText? letters with
    | some n, _ => .whole n
    | none, some x => .decimal x
    | none, none => .text text

/-- The layer of the environment. -/
def environmentLayer (environment : List (String × String)) : List (String × Setting) :=
  environment.filterMap fun (name, text) =>
    (withoutStart? environmentPrefix (lowerText name).toList).map fun rest =>
      (String.ofList (dotted rest), environmentValue text)

end Layers

/-- What a run finds around it. -/
structure Surroundings where
  files : Files
  /-- The environment, by name. -/
  environment : List (String × String) := []
deriving Inhabited

/-- The path of the user's settings file, below the directory that the environment names for
settings or else below the home directory. -/
def Surroundings.userFile? (surroundings : Surroundings) : Option String :=
  let named := (surroundings.environment.lookup "XDG_CONFIG_HOME").filter fun path =>
    path.toList.head? = some '/'
  let usual := (surroundings.environment.lookup "HOME").map (Files.join · ".config")
  (named <|> usual).map fun directory =>
    Files.join (Files.join directory Layers.baseName) (Layers.baseName ++ ".toml")

/-- The settings of a run: from the working directory, from the user's file, from a file named
explicitly, and from the environment. -/
def Settings.load (surroundings : Surroundings) (explicit : Option String) :
    Except Fault Settings := do
  let files := surroundings.files
  let found ← Layers.locations.mapM (Layers.fileLayer files false)
  let isThere (path : String) := (files.find? path).isSome
  let users ← (surroundings.userFile?.toList.filter isThere).mapM (Layers.fileLayer files false)
  let named ← explicit.toList.mapM (Layers.fileLayer files true)
  let layers := found ++ users ++ named ++ [Layers.environmentLayer surroundings.environment]
  let stated := layers.foldlM Setting.applyLayer? (.table [])
  match stated.bind ReadingRules.forgiving.settings? with
  | none => throw (.badConfiguration "the settings have a value of the wrong type")
  | some settings =>
    settings.validate
    return settings

/-- The settings as a settings file. -/
def Settings.toToml (settings : Settings) : String := Toml.document settings.toJson

end SchemaClasses
