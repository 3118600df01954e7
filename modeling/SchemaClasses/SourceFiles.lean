import SchemaClasses.Fault
import SchemaClasses.Files
import SchemaClasses.Generation
import SchemaClasses.Json.Reader

/-! Schema documents loaded from files, singly or from all of a directory. -/

namespace SchemaClasses

/-- Which files of a directory are schema documents. -/
structure LoadRules where
  /-- Beginnings of paths, counted from the directory, that are passed over. -/
  skipped : List String := ["target/", ".git/", "node_modules/"]
  extensions : List String := ["json"]
deriving Repr

/-- A schema document with the path that it was loaded from. -/
structure LoadedDocument where
  path : String
  source : SourceDocument

/-- A file below a loaded directory, with the directories between. -/
structure FoundFile where
  path : String
  directories : List String
  content : FileContent

/-- Things in the order of the names they stand under. -/
def inNameOrder {α : Type} (named : List (String × α)) : List α :=
  (named.mergeSort fun a b => a.1 ≤ b.1).map Prod.snd

/-- A path with slashes in place of backslashes. -/
def withSlashes (path : String) : String :=
  String.ofList (path.toList.map fun c => if c == '\\' then '/' else c)

namespace Files

/-- The document in a file. -/
def read (files : Files) (found : FoundFile) : Except Fault LoadedDocument :=
  match found.content.text? with
  | .error reason => .error (.inaccessible found.path reason)
  | .ok text =>
    match Json.parse? text with
    | none => .error (.malformedJson ("no JSON document in " ++ found.path))
    | some content =>
      let location := "file://" ++ withSlashes (files.absolute found.path)
      .ok ⟨found.path, ⟨location, content, found.directories⟩⟩

/-- Whether a file below a loaded directory is a schema document. -/
def isDocument (rules : LoadRules) (directories : List String) (name : String) : Bool :=
  let path := withSlashes (joinText "/" (directories ++ [name]))
  (extension? name).any (· ∈ rules.extensions)
    && rules.skipped.all fun skipped => !skipped.toList.isPrefixOf path.toList

mutual

/-- The schema documents that a node below a loaded directory is or holds. -/
def collect (rules : LoadRules) (path name : String) (directories : List String) :
    FileNode → List FoundFile
  | .file content =>
    if isDocument rules directories name then [⟨path, directories, content⟩] else []
  | .directory entries =>
    (inNameOrder (collectAll rules path (directories ++ [name]) entries)).flatten

/-- The schema documents of each entry of a directory. -/
def collectAll (rules : LoadRules) (path : String) (directories : List String) :
    List (String × FileNode) → List (String × List FoundFile)
  | [] => []
  | (name, node) :: rest =>
    (name, collect rules (join path name) name directories node)
      :: collectAll rules path directories rest

end

/-- The documents at a path: a file whatever it is called, or those of a directory, at each level
in the order of the names. -/
def load (files : Files) (rules : LoadRules) (path : String) :
    Except Fault (List LoadedDocument) :=
  match files.find? path with
  | none => .error (.pathNotFound path)
  | some (.file content) => return [← files.read ⟨path, [], content⟩]
  | some (.directory entries) =>
    (inNameOrder (collectAll rules path [] entries)).flatten.mapM files.read

/-- The documents at several paths. -/
def loadAll (files : Files) (rules : LoadRules) (paths : List String) :
    Except Fault (List LoadedDocument) :=
  return (← paths.mapM (files.load rules)).flatten

end Files

/-- The catalogue for the documents at some paths. -/
def Settings.generatePaths (settings : Settings) (files : Files) (paths : List String) :
    Except Fault Catalogue := do
  settings.validate
  let documents ← files.loadAll {} paths
  settings.generate (documents.map LoadedDocument.source)

end SchemaClasses
