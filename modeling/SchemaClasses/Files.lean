import SchemaClasses.Text.Segments
import SchemaClasses.Text.Utf8

/-! Files and directories as they were when a run started. -/

namespace SchemaClasses

/-- What a file holds. -/
inductive FileContent where
  | text (text : String)
  /-- Bytes that are not all text, with a replacement character in place of each fault. -/
  | binary (repaired : String)
  /-- A file that cannot be read, for a reason. -/
  | unreadable (reason : String)
deriving Repr, Inhabited

namespace FileContent

/-- Bytes as content. -/
def ofBytes (bytes : ByteArray) : FileContent :=
  match String.fromUTF8? bytes with
  | some content => text content
  | none => binary (Utf8.repaired (bytes.size + 1) (bytes.toList.map UInt8.toNat))

/-- The text of a file that holds nothing else. -/
def text? : FileContent → Except String String
  | text content => .ok content
  | binary _ => .error "stream did not contain valid UTF-8"
  | unreadable reason => .error reason

/-- The text of a file as far as it is text. -/
def anyText? : FileContent → Option String
  | text content | binary content => some content
  | unreadable _ => none

end FileContent

/-- A file or a directory. -/
inductive FileNode where
  | file (content : FileContent)
  | directory (entries : List (String × FileNode))
deriving Repr, Inhabited

/-- The file system below its root, with the directory that relative paths start from. -/
structure Files where
  root : FileNode
  workingDirectory : List String
deriving Repr, Inhabited

/-- Why a path does not lead to what is wanted. -/
inductive PathRefusal where
  | noSuchEntry
  | notADirectory
  | isDirectory
deriving DecidableEq, Repr

/-- The refusal in the words of the operating system. -/
def PathRefusal.message : PathRefusal → String
  | noSuchEntry => "No such file or directory (os error 2)"
  | notADirectory => "Not a directory (os error 20)"
  | isDirectory => "Is a directory (os error 21)"

namespace FileNode

/-- The entry of a directory. -/
def entry? (node : FileNode) (name : String) : Option FileNode :=
  match node with
  | directory entries => entries.lookup name
  | file _ => none

/-- The node reached through names of entries. -/
def descend? (node : FileNode) : List String → Option FileNode
  | [] => some node
  | name :: rest => (node.entry? name).bind fun entry => entry.descend? rest

/-- Whether this is a directory. -/
def isDirectory : FileNode → Bool
  | directory _ => true
  | file _ => false

/-- The tree with a new node at a path, below directories that are made where none stand. -/
def put : FileNode → List String → FileNode → FileNode
  | _, [], new => new
  | node, name :: rest, new =>
    let entries := match node with
      | directory entries => entries
      | file _ => []
    let held := (entries.lookup name).getD (directory [])
    directory ((name, held.put rest new) :: entries.filter fun entry => entry.1 != name)

end FileNode

namespace Files

/-- The names from the root that a path stands for where all directories on its way exist. -/
def resolve (files : Files) (path : String) : List String :=
  let start := if path.toList.head? = some '/' then [] else files.workingDirectory
  (cutText '/' path).foldl
    (fun names name =>
      if name == "" || name == "." then names
      else if name == ".." then names.dropLast
      else names ++ [name])
    start

/-- The names from the root behind some steps; each step must start from a directory. -/
def walk (root : FileNode) : (names steps : List String) → Except PathRefusal (List String)
  | names, [] => .ok names
  | names, step :: rest =>
    match root.descend? names with
    | none => .error .noSuchEntry
    | some (.file _) => .error .notADirectory
    | some (.directory _) =>
      walk root
        (if step == "" || step == "." then names
          else if step == ".." then names.dropLast
          else names ++ [step])
        rest

/-- The names from the root that a path leads to; only at the last one there may be nothing. -/
def locate (files : Files) (path : String) : Except PathRefusal (List String) :=
  let start := if path.toList.head? = some '/' then [] else files.workingDirectory
  if path == "" then .error .noSuchEntry else walk files.root start (cutText '/' path)

/-- What stands at a path; a path that ends with a slash names a directory. -/
def find? (files : Files) (path : String) : Option FileNode :=
  match files.locate path with
  | .ok names => files.root.descend? names
  | .error _ => none

/-- The content of a file at a path. -/
def content? (files : Files) (path : String) : Option FileContent :=
  match files.find? path with
  | some (.file content) => some content
  | _ => none

/-- Whether a file stands at a path. -/
def isFile (files : Files) (path : String) : Bool := (files.content? path).isSome

/-- The text of a file at a path. -/
def text? (files : Files) (path : String) : Option String :=
  (files.content? path).bind fun content => content.text?.toOption

/-- The absolute path of a path. -/
def absolute (files : Files) (path : String) : String :=
  String.join ((files.resolve path).map ("/" ++ ·))

/-- The files with a node put at a path. -/
def put (files : Files) (path : String) (node : FileNode) : Files :=
  { files with root := files.root.put (files.resolve path) node }

/-- The directory and the name that a path leads to, of which the name is the last piece. -/
def cutName (path : String) : String × String :=
  match cutLast '/' path with
  | some (directory, name) => (directory ++ "/", name)
  | none => (".", path)

/-- The files with a text written to a path, if a file can be written there; a path that ends with
a slash names a directory. -/
def write (files : Files) (path text : String) : Except PathRefusal Files := do
  if path == "" then throw .noSuchEntry
  let trimmed := String.ofList ((path.toList.reverse.dropWhile (· == '/')).reverse)
  let (directory, name) := cutName trimmed
  let names ← files.locate directory
  match files.root.descend? names with
  | none => throw .noSuchEntry
  | some (.file _) => throw .notADirectory
  | some (.directory entries) =>
    let isStep := name ∈ ["", ".", ".."]
    let leadsToDirectory := (entries.lookup name).any FileNode.isDirectory
    if isStep || leadsToDirectory || trimmed != path then throw .isDirectory
    return files.put path (.file (.text text))

/-- A path with a name added. -/
def join (path name : String) : String :=
  if path.toList.getLast? = some '/' then path ++ name else path ++ "/" ++ name

/-- The text behind the last dot of a file name, unless that dot is its first character. -/
def extension? (name : String) : Option String :=
  match cutLast '.' name with
  | some (stem, extension) => if stem == "" then none else some extension
  | none => none

end Files

end SchemaClasses
