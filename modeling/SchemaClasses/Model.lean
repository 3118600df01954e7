import SchemaClasses.Classification
import SchemaClasses.Declaration
import SchemaClasses.Settings
import SchemaClasses.Survey

/-! The model of a run: what was surveyed, and the classes declared for it. -/

namespace SchemaClasses

/-- What stays fixed during a run. -/
structure Context where
  tree : SchemaTree := {}
  settings : Settings := {}
deriving Inhabited

/-- What a run has built. -/
structure Model where
  survey : Survey := {}
  declarations : Array Declaration := #[]
  /-- The number of classes that were named by counting. -/
  counted : Nat := 0
deriving Inhabited

/-- A step that builds a model, which keeps what was built before a fault. -/
abbrev Modelling := EStateM Fault Model

namespace Context

/-- The shape of a record. -/
def classify (context : Context) (ledger : Ledger) (id : RecordId) (promoteEnums : Bool) : Shape :=
  ledger.classify context.tree context.settings.customClasses id promoteEnums

/-- The custom class of a record. -/
def customClass? (context : Context) (ledger : Ledger) (id : RecordId) : Option CustomClass :=
  ledger.customClass? context.tree context.settings.customClasses id

end Context

namespace Model

/-- The records. -/
def ledger (model : Model) : Ledger := model.survey.ledger

/-- The declaration of a number. -/
def declaration (model : Model) (id : DeclarationId) : Declaration :=
  model.declarations.getD id.index default

/-- The numbers of all declarations. -/
def ids (model : Model) : List DeclarationId :=
  (List.range model.declarations.size).map DeclarationId.mk

/-- The latest declaration made for a schema. -/
def declared? (model : Model) (schema : SchemaId) : Option DeclarationId :=
  model.ids.reverse.find? fun id => (model.declaration id).schema == schema

/-- The declaration for a schema, or for the one that it leads to by references alone. -/
def declarationAlong? (model : Model) (tree : SchemaTree) : Nat → SchemaId → Option DeclarationId
  | 0, schema => model.declared? schema
  | steps + 1, schema =>
    match model.declared? schema with
    | some id => some id
    | none => (tree.pureReference? schema).bind (declarationAlong? model tree steps)

/-- The declaration for a schema, or for the one that it leads to by references alone; a chain
longer than the number of schemas runs in a circle. -/
def declarationFor? (model : Model) (tree : SchemaTree) (schema : SchemaId) :
    Option DeclarationId :=
  model.declarationAlong? tree tree.schemas.size schema

/-- The model with one record changed. -/
def updateRecord (model : Model) (id : RecordId) (change : Record → Record) : Model :=
  { model with survey := { model.survey with ledger := model.survey.ledger.update id change } }

/-- The model with one declaration changed. -/
def updateDeclaration (model : Model) (id : DeclarationId) (change : Declaration → Declaration) :
    Model :=
  { model with declarations := model.declarations.modify id.index change }

end Model

namespace Modelling

/-- A step of the survey. -/
def survey {α : Type} (step : Surveying α) : Modelling α := fun model =>
  match step model.survey with
  | .ok result survey => .ok result { model with survey }
  | .error fault survey => .error fault { model with survey }

/-- The ledger so far. -/
def ledger : Modelling Ledger := return (← get).ledger

/-- A record. -/
def record (id : RecordId) : Modelling Record := return (← get).ledger.record id

/-- A declaration. -/
def declaration (id : DeclarationId) : Modelling Declaration := return (← get).declaration id

/-- One record changed. -/
def updateRecord (id : RecordId) (change : Record → Record) : Modelling Unit :=
  modify fun model => model.updateRecord id change

/-- One declaration changed. -/
def updateDeclaration (id : DeclarationId) (change : Declaration → Declaration) :
    Modelling Unit :=
  modify fun model => model.updateDeclaration id change

/-- The candidate, or its first free numbered form. -/
def allocateName (candidate : String) (taken : String → Bool) : Modelling String :=
  match allocate candidate taken with
  | .ok name => return name
  | .error fault => throw fault

/-- A class declared under a name that is free in its package. -/
def declare (name : String) (package : Option String) (uri : String) (schema : SchemaId)
    (record : RecordId) (kind : ClassKind) : Modelling DeclarationId := do
  let declared := (← get).declarations
  let name ← allocateName name fun candidate =>
    declared.any fun other => other.package == package && other.name == candidate
  modify fun model =>
    { model with declarations := model.declarations.push { name, package, uri, schema, record, kind } }
  return ⟨declared.size⟩

/-- The next name made by counting. -/
def countedName : Modelling String :=
  modifyGet fun model =>
    ("GeneratedClass" ++ toString model.counted, { model with counted := model.counted + 1 })

end Modelling

end SchemaClasses
