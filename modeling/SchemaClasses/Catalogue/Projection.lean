import SchemaClasses.Catalogue
import SchemaClasses.Model

/-! The catalogue entries of a resolved model. -/

namespace SchemaClasses

namespace Model

/-- The names of a nested class and of the classes around it, the outermost first. -/
def enclosingNames (declaration : Declaration) : Nat → Option Nat → List String
  | 0, _ | _, none => []
  | steps + 1, some index =>
    match declaration.nested[index]? with
    | some nested => enclosingNames declaration steps nested.parent ++ [nested.name]
    | none => []

/-- The dotted path of a generated class: the qualified name of its declaration, then the names of
the nested classes down to it. -/
def classPath (model : Model) : ClassRef → String
  | .declaration id => (model.declaration id).qualifiedName
  | .nested owner index =>
    let declaration := model.declaration owner
    joinText "." (declaration.qualifiedName
      :: enclosingNames declaration declaration.nested.size (some index))

/-- The type of an analysed record; arrays lie at most as deep as there are records. -/
def typeWithin (model : Model) : Nat → RecordId → ValueType
  | steps, id =>
    let record := model.ledger.record id
    match record.shape.getD .untyped, steps with
    | .reference (.generated ref), _ => .generated (model.classPath ref)
    | .reference (.custom custom), _ => .custom custom.className
    | .library type, _ => .library type
    | .array, steps + 1 => .array ((record.items.map (typeWithin model steps)).getD .any)
    | .string, _ => .string
    | .boolean, _ => .boolean
    | .int32, _ => .int32
    | .int64, _ => .int64
    | .decimal, _ => .decimal
    | _, _ => .any

/-- The type of an analysed record. -/
def typeOf (model : Model) (id : RecordId) : ValueType :=
  model.typeWithin (model.ledger.size + 1) id

/-- Whether a nested class was made from this very record. -/
def ownsClass (model : Model) (id : RecordId) : Bool :=
  match (model.ledger.record id).typeRef with
  | some (.generated (.nested owner index)) =>
    (model.declaration owner).nested[index]?.any fun nested => nested.record == id
  | _ => false

/-- The checks of a record, unless a class made from it performs them itself. -/
def ownChecks (model : Model) (id : RecordId) : List Check :=
  if model.ownsClass id then [] else (model.ledger.checks id).items

/-- The items of a record that is an array. -/
def itemsOf? (record : Record) : Option RecordId :=
  if record.shape = some .array then record.items else none

/-- An item or a map value, with the items in it. -/
def elementWithin (model : Model) : Nat → RecordId → Element
  | steps, id =>
    let record := model.ledger.record id
    let items := match steps, itemsOf? record with
      | steps + 1, some items => some (elementWithin model steps items)
      | _, _ => none
    .mk (model.typeOf id) (model.ownChecks id) (record.nullable == some true) items

/-- An item or a map value. -/
def elementOf (model : Model) (id : RecordId) : Element :=
  model.elementWithin (model.ledger.size + 1) id

/-- A property. -/
def propertyOf (model : Model) (language : Language) (id : RecordId) : Property :=
  let record := model.ledger.record id
  let name := record.name.getD ""
  { name
    identifier := fieldName name language
    type := model.typeOf id
    checks := model.ownChecks id
    items := (itemsOf? record).map model.elementOf
    required := record.isRequired
    nullable := record.nullable == some true
    default := record.default
    inherited := record.baseProperty.isSome
    extended := record.extended
    overrides := record.overrides
    description := record.description }

/-- The body of a class of some kind made for a record. -/
def bodyOf (model : Model) (language : Language) (kind : ClassKind) (id : RecordId) : ClassBody :=
  let record := model.ledger.record id
  match kind with
  | .concrete =>
    { properties := record.properties.map (model.propertyOf language)
      checks := (model.ledger.checks id).items
      patternProperties := record.patternProperties.map fun entry =>
        ⟨entry.pattern, entry.constant, model.elementOf entry.record⟩
      additional := match record.additional with
        | some (.schema value) => some (model.elementOf value)
        | _ => none
      mapBacked := record.mapBacked }
  | .enumeration =>
    { enumConstants := (record.enumeration.getD []).filterMap Json.text?
      mapBacked := record.mapBacked }
  | .interface => { mapBacked := record.mapBacked }

/-- The classes nested in a scope; they lie at most as deep as there are nested classes. -/
def nestedWithin (model : Model) (language : Language) (declaration : Declaration) :
    Nat → Option Nat → List ClassEntry
  | 0, _ => []
  | steps + 1, scope =>
    (declaration.nested.toList.zipIdx.filter fun (nested, _) => nested.parent == scope).map
      fun (nested, index) =>
        { name := nested.name
          kind := nested.kind
          description := (model.ledger.record nested.record).description
          body := model.bodyOf language nested.kind nested.record
          interfaces := nested.interfaces.map model.classPath
          nested := nestedWithin model language declaration steps (some index)
          isVariant := nested.isVariant }

/-- A declaration as a catalogue entry, with those of its constants that are mentioned in it. -/
def entryOf (model : Model) (language : Language) (declaration : Declaration) : ClassEntry :=
  let entry : ClassEntry :=
    { name := declaration.name
      package := declaration.package
      kind := declaration.kind
      description := (model.ledger.record declaration.record).description
      body := model.bodyOf language declaration.kind declaration.record
      base := declaration.base.map fun base => (model.declaration base).qualifiedName
      derived := declaration.derived.map fun derived => (model.declaration derived).qualifiedName
      interfaces := declaration.interfaces.map model.classPath
      nested := model.nestedWithin language declaration (declaration.nested.size + 1) none
      libraryTypes := declaration.sortedLibraryTypes
      imports := declaration.sortedImports }
  let mentioned := entry.mentioned
  { entry with
    constants := declaration.constants.entries.filter fun constant => constant.name ∈ mentioned }

/-- All declarations as catalogue entries, in order. -/
def entries (model : Model) (language : Language) : List ClassEntry :=
  model.declarations.toList.map (model.entryOf language)

end Model

end SchemaClasses
