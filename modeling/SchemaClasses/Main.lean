import SchemaClasses.CommandLine

/-! The program itself: what surrounds a run is read, and what the run leaves is written. -/

namespace SchemaClasses

namespace Program

/-- What stands at a path; links to directories are not followed below the first one. -/
partial def snapshot (path : String) (isFirst : Bool) : IO (Option FileNode) := do
  let place := (← IO.currentDir) / path
  if ← place.isDir then
    if !isFirst && (← place.symlinkMetadata).type == .symlink then return none
    let entries ← (← place.readDir).toList.filterMapM fun entry => do
      let node ← snapshot (Files.join path entry.fileName) false
      return node.map fun node => (entry.fileName, node)
    return some (.directory entries)
  else if ← place.pathExists then
    match ← (IO.FS.readBinFile place).toBaseIO with
    | .ok bytes => return some (.file (.ofBytes bytes))
    | .error (.permissionDenied ..) =>
      return some (.file (.unreadable "Permission denied (os error 13)"))
    | .error fault => return some (.file (.unreadable (toString fault)))
  else return none

/-- The paths that a path leads through, the path itself at the end. -/
def stations (path : String) : List String :=
  let pieces := cutText '/' path
  ((List.range pieces.length).map fun count => joinText "/" (pieces.take (count + 1))).filter
    (· != "")

/-- The files with what a path leads through: directories as far as they are not known yet, with
nothing in them, and files that cannot be read. -/
def withStations (files : Files) (path : String) : IO Files :=
  (stations path).foldlM (fun files (station : String) => do
    let place := (← IO.currentDir) / station
    if (files.find? station).isSome then return files
    else if ← place.isDir then return files.put station (.directory [])
    else if ← place.pathExists then return files.put station (.file (.unreadable ""))
    else return files) files

/-- The files with what stands at some paths. -/
def withPaths (files : Files) (paths : List String) : IO Files :=
  paths.foldlM (fun files path => do
    let files ← withStations files path
    match ← snapshot path true with
    | some node => return files.put path node
    | none => return files) files

/-- The variables of the environment. -/
def readEnvironment : IO (List (String × String)) := do
  match ← (IO.FS.readFile "/proc/self/environ").toBaseIO with
  | .ok text => return (cutText '\x00' text).filterMap (cutOnce '=')
  | .error _ => return []

/-- What a run with some arguments may read. -/
def readSurroundings (arguments : List String) : IO Surroundings := do
  let here ← IO.currentDir
  let nowhere : Files := ⟨.directory [], here.components.filter (· != "")⟩
  let files := nowhere.put "." (.directory [])
  let bare : Surroundings := { files, environment := ← readEnvironment }
  match CommandLine.parse arguments with
  | .error _ => return bare
  | .ok invocation =>
    let named := Layers.locations ++ bare.userFile?.toList ++ invocation.settingsFile.toList
    let files ← withPaths files (named.flatMap Layers.candidates)
    let files ← withPaths files invocation.command.sources
    match invocation.command.target? with
    | none => return { bare with files }
    | some path => return { bare with files := ← withStations files path }

end Program

end SchemaClasses

/-- Runs the program. -/
def main (arguments : List String) : IO UInt32 := do
  let surroundings ← SchemaClasses.Program.readSurroundings arguments
  let outcome := SchemaClasses.CommandLine.run surroundings arguments
  match outcome.written with
  | some (path, text) => IO.FS.writeFile path text
  | none => pure ()
  IO.print outcome.output
  IO.eprint outcome.notes
  return UInt32.ofNat outcome.code
