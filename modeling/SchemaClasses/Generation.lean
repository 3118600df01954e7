import SchemaClasses.Catalogue.Projection
import SchemaClasses.Resolution
import SchemaClasses.SchemaTree.Reading

/-! A run: documents are read, surveyed, declared and resolved, and the catalogue is made. -/

namespace SchemaClasses

/-- A document to generate a class for. -/
structure SourceDocument where
  uri : String
  content : Json
  /-- The directories between the place where loading started and the document. -/
  directories : List String := []
deriving Inhabited

/-- A document that has been read. -/
structure RootSchema where
  uri : String
  directories : List String
  schema : SchemaId

namespace Settings

/-- The package of a class: the base package, then the directories of its document, reduced to
letters and digits. -/
def package? (settings : Settings) (directories : List String) : Option String :=
  let base := settings.generator.basePackage.toList.filter (· ≠ "")
  let below := if settings.generator.packageFromStructure then
      (directories.map fun name => String.ofList (name.toList.filter Char.isAlphanum)).filter (· ≠ "")
    else []
  match base ++ below with
  | [] => none
  | parts => some (joinText "." parts)

end Settings

namespace Modelling

/-- The name of a class: the one set for its document, else from the document's URI, else from the
title, else a counted one. -/
def className (context : Context) (root : RootSchema) : Modelling String := do
  let naming := context.settings.naming
  match context.settings.classNames.find? root.uri <|> naming.classNameOfUri? root.uri
      <|> (context.tree.schema root.schema).title?.map naming.className with
  | some name => return name
  | none => countedName

/-- The kind of class that a document becomes, if any. -/
def rootKind? (ledger : Ledger) (id : RecordId) : Shape → Option ClassKind
  | .object => some .concrete
  | .identifierEnum => some .enumeration
  | .untyped => if (ledger.record id).oneOf.isEmpty then none else some .interface
  | _ => none

/-- The class of a document; one that is no object, enum or union is reported. -/
def declareRoot (context : Context) (root : RootSchema) : Modelling Unit := do
  let id ← survey (Survey.begin context.tree root.schema)
  let ledger ← ledger
  match rootKind? ledger id (context.classify ledger id true) with
  | some kind =>
    let name ← className context root
    let _ ← declare name (context.settings.package? root.directories) root.uri root.schema id kind
  | none =>
    survey (Survey.report (.skippedSchema (context.tree.location root.schema)
      "not an object, enum or union schema"))

/-- All classes of the documents, resolved. -/
def build (context : Context) (roots : List RootSchema) : Modelling Unit := do
  roots.forM (declareRoot context)
  resolve context

end Modelling

/-- The documents of a run in the order given, each with its own URI. -/
def registerDocuments (sources : List SourceDocument) :
    List (String × List String) × Documents :=
  sources.foldl
    (fun (inputs, documents) source =>
      let (uri, documents) := documents.add source.uri source.content
      (inputs ++ [(uri, source.directories)], documents))
    ([], {})

/-- The root schemas of the documents, read in order. -/
def readRoots (sources : List SourceDocument) : Reading (List RootSchema) :=
  let (inputs, documents) := registerDocuments sources
  inputs.mapM fun (uri, directories) => do
    return ⟨uri, directories, ← documents.root uri⟩

/-- The catalogue for documents. Settings are refused before anything is read, and invalid
examples at the very end. -/
def Settings.generate (settings : Settings) (sources : List SourceDocument) :
    Except Fault Catalogue := do
  settings.validate
  match (readRoots sources).run {} with
  | .error fault _ => throw fault
  | .ok roots tree =>
    match (Modelling.build { tree, settings } roots).run {} with
    | .error fault _ => throw fault
    | .ok _ model =>
      let diagnostics := model.survey.diagnostics
      if settings.generator.examplesBlocking && diagnostics.blocking > 0 then
        throw (.blockingDiagnostics diagnostics.blocking)
      return {
        comment := settings.generator.comment
        language := settings.generator.language
        classes := model.entries settings.generator.language
        diagnostics }

end SchemaClasses
