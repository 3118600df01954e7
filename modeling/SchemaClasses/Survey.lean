import SchemaClasses.Diagnostics
import SchemaClasses.Ledger
import SchemaClasses.Pattern.Reader
import SchemaClasses.SchemaTree
import SchemaClasses.Validation.Checking

/-! The survey: the keywords of schemas merged into records, through references and branches. -/

namespace SchemaClasses

/-- What a survey has gathered. -/
structure Survey where
  ledger : Ledger := {}
  diagnostics : Diagnostics := {}
deriving Inhabited

/-- A step of a survey, which keeps what was gathered before a fault. -/
abbrev Surveying := EStateM Fault Survey

namespace Survey

/-- A change of the ledger with a result. -/
def onLedger {α : Type} (change : Ledger → α × Ledger) : Surveying α :=
  modifyGet fun survey =>
    let (result, ledger) := change survey.ledger
    (result, { survey with ledger })

/-- A record of the ledger. -/
def record (id : RecordId) : Surveying Record := return (← get).ledger.record id

/-- One record changed. -/
def update (id : RecordId) (change : Record → Record) : Surveying Unit :=
  modify fun survey => { survey with ledger := survey.ledger.update id change }

/-- A finding. -/
def report (found : Diagnostic) : Surveying Unit :=
  modify fun survey => { survey with diagnostics := survey.diagnostics.push found }

/-- A pattern that is no regular expression is reported. -/
def checkPattern (location pattern : String) : Surveying Unit := do
  unless Pattern.isValid pattern do report (.invalidPattern location pattern)

mutual

/-- Whether a `$ref` occurs anywhere inside a value. -/
def refers : Json → Bool
  | .array items => itemsRefer items
  | .object members => membersRefer members
  | _ => false

/-- Whether a `$ref` occurs inside the items of an array. -/
def itemsRefer : List Json → Bool
  | [] => false
  | item :: rest => refers item || itemsRefer rest

/-- Whether a `$ref` occurs among the members of an object or inside them. -/
def membersRefer : List (String × Json) → Bool
  | [] => false
  | (key, value) :: rest => key == "$ref" || refers value || membersRefer rest

end

/-- The examples among the members of a schema object. -/
def examplesOf (source : Json) : List Json :=
  match source.member? "examples" with
  | some (.array values) => values
  | _ => (source.member? "example").toList

/-- The default and the examples of a schema object held against the object itself; nothing is
said about a schema with references or one that its draft does not admit. -/
def checkExamples (location : String) (source : Json) : Surveying Unit := do
  let default := source.member? "default"
  let examples := examplesOf source
  if (default.isSome || !examples.isEmpty) && !refers source then
    if let some complaints := Validation.validator? source then
      if let some value := default then
        let errors := complaints value
        unless errors.isEmpty do report (.invalidDefault location value errors)
      examples.forM fun value => do
        let errors := complaints value
        unless errors.isEmpty do report (.invalidExample location value errors)

/-- A record made for a schema notes the reference that stands directly in it. -/
def noteReference (tree : SchemaTree) (schema : SchemaId) (id : RecordId) : Surveying Unit := do
  let held ← record id
  if held.schema = some schema ∧ held.target = none then
    if let some (text, target) := (tree.schema schema).reference? then
      update id fun record =>
        { record with
          target := some target
          references := record.references ++ [text, tree.location target] }

/-- The first title and the first description that reach a record are kept. -/
def noteTitles (schema : Schema) (id : RecordId) : Surveying Unit :=
  update id fun record =>
    { record with
      title := record.title <|> schema.title?
      description := record.description <|> schema.description? }

/-- One record for each branch that has none yet. -/
def addBranches (visit : SchemaId → RecordId → Surveying Unit) (id : RecordId)
    (branches : List SchemaId) : Surveying Unit :=
  branches.forM fun branch => do
    let ledger := (← get).ledger
    unless (ledger.record id).oneOf.any fun known => (ledger.record known).schema == some branch do
      let record ← onLedger (·.create (some branch) none)
      visit branch record
      update id fun held => { held with oneOf := held.oneOf ++ [record] }

/-- Two branches of which one only admits null: the other is merged as a nullable value. -/
def nullableForm? (tree : SchemaTree) : List SchemaId → Option SchemaId
  | [first, second] =>
    if (tree.schema first).isNullType then some second
    else if (tree.schema second).isNullType then some first
    else none
  | _ => none

/-- What additional properties may be: forbidding them wins over all else, and the first schema
takes in those that follow. -/
def mergeAdditional (tree : SchemaTree) (visit : SchemaId → RecordId → Surveying Unit)
    (schema : SchemaId) (id : RecordId) : Surveying Unit := do
  match (← record id).additional, (tree.schema schema).body with
  | some .forbidden, _ => pure ()
  | _, .boolean false => update id fun record => { record with additional := some .forbidden }
  | some _, .boolean true => pure ()
  | none, .boolean true => update id fun record => { record with additional := some .allowed }
  | some (.schema held), _ => visit schema held
  | _, _ =>
    let inner ← onLedger (·.create (some schema) none)
    update id fun record => { record with additional := some (.schema inner) }
    visit schema inner

/-- A keyword merged into a record. Schemas inside it are visited by the function given, and a
reference only if its target is not being visited already. -/
def mergeClause (tree : SchemaTree) (visit : SchemaId → RecordId → Surveying Unit)
    (isBusy : SchemaId → Bool) (id : RecordId) (clause : Clause) : Surveying Unit := do
  match clause.keyword with
  | .reference _ target => unless isBusy target do visit target id
  | .allOf branches => branches.forM fun branch => visit branch id
  | .anyOf branches =>
    match nullableForm? tree branches with
    | some branch =>
      visit branch id
      update id fun record => { record with nullable := some true }
    | none => report (.ignoredAnyOf clause.location branches.length)
  | .oneOf branches =>
    match nullableForm? tree branches with
    | some branch =>
      visit branch id
      update id fun record => { record with nullable := some true }
    | none => addBranches visit id branches
  | .negation schema =>
    let negation ← onLedger (·.negation id)
    visit schema negation
  | .properties entries =>
    entries.forM fun (name, schema) => do
      let property ← onLedger (·.property id name schema)
      visit schema property
  | .patternProperties entries =>
    entries.forM fun (pattern, schema) => do
      checkPattern clause.location pattern
      let value ← onLedger (·.patternProperty id pattern schema)
      visit schema value
  | .additionalProperties schema => mergeAdditional tree visit schema id
  | .items schema =>
    let items ← onLedger (·.items id schema)
    visit schema items
  | keyword =>
    if let .pattern text := keyword then checkPattern clause.location text
    match (← record id).absorb clause.location keyword with
    | .ok merged => update id fun _ => merged
    | .error fault => throw fault

/-- Whether a schema object is not open, so that it is being visited. -/
def isBusy (tree : SchemaTree) (opened : List SchemaId) (schema : SchemaId) : Bool :=
  match (tree.schema schema).body with
  | .boolean _ => false
  | .object .. => schema ∉ opened

/-- A schema merged into a record. A schema object is closed while it is visited, so a schema that
leads back to itself is not entered again. -/
def visit (tree : SchemaTree) (opened : List SchemaId) (schema : SchemaId) (id : RecordId) :
    Surveying Unit := do
  noteReference tree schema id
  match (tree.schema schema).body with
  | .boolean _ => update id fun record => { record with nullable := some true }
  | .object source clauses =>
    if _isOpen : schema ∈ opened then
      let rest := opened.erase schema
      noteTitles (tree.schema schema) id
      clauses.forM fun clause =>
        mergeClause tree (fun inner record => visit tree rest inner record) (isBusy tree rest) id
          clause
      checkExamples (tree.location schema) source
termination_by opened.length
decreasing_by exact length_erase_lt _isOpen

/-- A schema merged into a record. -/
def merge (tree : SchemaTree) (schema : SchemaId) (id : RecordId) : Surveying Unit :=
  visit tree tree.ids schema id

/-- A schema merged into a fresh record. -/
def begin (tree : SchemaTree) (schema : SchemaId) : Surveying RecordId := do
  let id ← onLedger (·.create (some schema) none)
  merge tree schema id
  return id

end Survey

end SchemaClasses
