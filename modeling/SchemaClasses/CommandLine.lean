import SchemaClasses.Catalogue.Writing
import SchemaClasses.CommandLine.Arguments
import SchemaClasses.SourceFiles

/-! The program as a function from what it finds to what it leaves. -/

namespace SchemaClasses

/-- What a run of the program leaves. -/
structure Outcome where
  code : Nat := 0
  /-- The text on standard output. -/
  output : String := ""
  /-- The text on standard error. -/
  notes : String := ""
  /-- A file that was written, by path and text. -/
  written : Option (String × String) := none
deriving DecidableEq, Repr

namespace CommandLine

/-- How the program is used. -/
def usage : String :=
  "Usage: schema-codegen [--config FILE] COMMAND\n\n"
    ++ "Commands:\n"
    ++ "  generate PATHS... [--strict] [--language NAME] [--package NAME] [--output FILE]\n"
    ++ "  check PATHS...\n"
    ++ "  init-config [FILE]\n"

/-- The outcome of arguments that are no command. -/
def refused : Refusal → Outcome
  | .helpWanted => { output := usage }
  | .misuse reason => { code := 2, notes := "error: " ++ reason ++ "\n\n" ++ usage }

/-- The outcome of a run that failed for a reason. -/
def failed (reason : String) : Outcome := { code := 1, notes := "Error: " ++ reason ++ "\n" }

/-- The settings with the options of the generating command; an unknown language is handed back. -/
def withOptions (settings : Settings) (strict : Bool) (language package : Option String) :
    Except String Settings := do
  let generator := settings.generator
  let language ← match language with
    | none => pure generator.language
    | some name =>
      match Language.ofName? name with
      | some language => pure language
      | none => throw name
  return { settings with generator := { generator with
    language
    strictAdditional := generator.strictAdditional || strict
    basePackage := package <|> generator.basePackage } }

/-- The outcome of a catalogue that is written to a file or to standard output. -/
def deliver (files : Files) (catalogue : Catalogue) (path : Option String) : Outcome :=
  let notes := catalogue.diagnostics.text
  let text := catalogue.prettyText
  match path with
  | none => { output := text, notes }
  | some path =>
    match files.write path text with
    | .error refusal =>
      let failure := failed ("writing " ++ path ++ ": " ++ refusal.message)
      { failure with notes := notes ++ failure.notes }
    | .ok _ =>
      { notes := notes ++ "✅ Wrote " ++ toString catalogue.classes.length ++ " classes to " ++ path
          ++ "\n"
        written := some (path, text) }

/-- The outcome of a report. -/
def reported (catalogue : Catalogue) : Outcome :=
  { output := catalogue.diagnostics.text ++ "✅ " ++ toString catalogue.classes.length
      ++ " classes, " ++ toString catalogue.diagnostics.size ++ " diagnostic(s)\n" }

/-- The outcome of settings that are written to a file. -/
def saved (files : Files) (settings : Settings) (path : String) : Outcome :=
  let text := settings.toToml
  match files.write path text with
  | .error refusal =>
    failed ("writing " ++ path ++ ": " ++ (Fault.inaccessible path refusal.message).report)
  | .ok _ =>
    { output := "✅ Wrote configuration to " ++ path ++ "\n", written := some (path, text) }

/-- The outcome of a command under settings. -/
def perform (files : Files) (settings : Settings) : Command → Outcome
  | .generate paths strict language package output =>
    match withOptions settings strict language package with
    | .error name => failed ("unknown target language '" ++ name ++ "'")
    | .ok settings =>
      match settings.generatePaths files paths with
      | .error fault => failed fault.report
      | .ok catalogue => deliver files catalogue output
  | .check paths =>
    match settings.generatePaths files paths with
    | .error fault => failed fault.report
    | .ok catalogue => reported catalogue
  | .initConfig path => saved files settings path

/-- The outcome of the program for its arguments. -/
def run (surroundings : Surroundings) (arguments : List String) : Outcome :=
  match parse arguments with
  | .error refusal => refused refusal
  | .ok invocation =>
    match Settings.load surroundings invocation.settingsFile with
    | .error fault => failed ("loading configuration: " ++ fault.report)
    | .ok settings => perform surroundings.files settings invocation.command

end CommandLine

end SchemaClasses
