import SchemaClasses.Plan
import SchemaClasses.SchemaTree

/-! The members of classes: their shapes, the classes nested for them, and the checks they keep. -/

namespace SchemaClasses

/-- Where a record lies in a class, which decides what a class for it is called. -/
inductive Role where
  | property (name : String)
  /-- The items of the named array property. -/
  | item (name : String)
  /-- A value without a name. -/
  | value
deriving DecidableEq, Repr

/-- Enums get a class of their own only for named properties. -/
def Role.promotesEnums : Role → Bool
  | property _ => true
  | _ => false

/-- The role of the items of an array. -/
def Role.ofItems : Role → Role
  | property name => item name
  | _ => value

/-- The class that a member belongs to: a declaration, or a class nested in it. -/
structure Site where
  owner : DeclarationId
  scope : Option Nat := none
deriving DecidableEq, Repr

namespace Modelling

/-- The checks of a record planned for a declaration. -/
def plan (context : Context) (owner : DeclarationId) (id : RecordId) (shape : Shape) :
    Modelling Unit :=
  modify fun model => model.plan context owner id shape

/-- A record settled on a generated class. -/
def settle (id : RecordId) (ref : ClassRef) : Modelling Shape := do
  let type := TypeRef.generated ref
  updateRecord id fun record => { record with typeRef := some type, shape := some (.reference type) }
  return .reference type

/-- The checks of a record's negation, which is classified by itself and without enums. -/
def planNegation (context : Context) (owner : DeclarationId) (id : RecordId) : Modelling Unit := do
  if let some negation := (← record id).negation then
    if (← record negation).shape.isNone then
      let shape := context.classify (← ledger) negation false
      updateRecord negation fun record => { record with shape := some shape }
      plan context owner negation shape

/-- A declaration of another package is imported. -/
def importDeclaration (owner other : DeclarationId) : Modelling Unit := do
  let used ← declaration other
  if used.package.isSome ∧ used.package ≠ (← declaration owner).package then
    updateDeclaration owner (·.addImport used.qualifiedName)

/-- What a class nested for a record is called, before collisions are resolved. -/
def nestedName (context : Context) (record : Record) (role : Role) : String :=
  let naming := context.settings.naming
  match context.settings.generator.nestedNaming, record.target, role with
  | .refSchema, some target, _ => naming.className (context.tree.lastSegment target)
  | _, _, .property name => naming.className name
  | _, _, .item name => naming.itemClassName name
  | _, _, .value => (record.title.map naming.className).getD "Value"

/-- A nested class added to a declaration under a name that is free in its scope. -/
def pushNested (owner : DeclarationId) (candidate : String) (nested : String → NestedClass) :
    Modelling Nat := do
  let declared ← declaration owner
  let scope := (nested candidate).parent
  let name ← allocateName candidate (declared.isNestedNameTaken scope)
  updateDeclaration owner fun declaration =>
    { declaration with nested := declaration.nested.push (nested name) }
  return declared.nested.size

/-- The class nested for a record, and whether it is new: one made for the same schema or reached
through the same reference is used again. -/
def nestedClass (context : Context) (site : Site) (id : RecordId) (kind : ClassKind) (role : Role) :
    Modelling (Nat × Bool) := do
  let held ← record id
  match (← declaration site.owner).findNested? held.schema held.target with
  | some index => return (index, false)
  | none =>
    let index ← pushNested site.owner (nestedName context held role) fun name =>
      { name, parent := site.scope, kind, record := id, origin := held.schema, target := held.target }
    return (index, true)

/-- A record that refers to a declared schema takes that class; one that refers to the schema of a
nested class takes the nested one, which ends the descent into recursive schemas. -/
def linkTarget (context : Context) (owner : DeclarationId) (id : RecordId) : Modelling Unit := do
  let held ← record id
  let custom := context.customClass? (← ledger) id
  if custom.isNone ∧ held.typeRef.isNone then
    if let some target := held.target then
      match (← get).declarationFor? context.tree target with
      | some declared =>
        updateRecord id fun record =>
          { record with typeRef := some (.generated (.declaration declared)) }
        importDeclaration owner declared
      | none =>
        if let some index := (← declaration owner).findNested? none (some target) then
          updateRecord id fun record =>
            { record with typeRef := some (.generated (.nested owner index)) }

/-- A property of a base class gives its nested class to the property that repeats it. -/
def inheritNestedClass (property baseProperty : RecordId) : Modelling Unit := do
  let held ← record property
  if held.typeRef.isNone then
    if let some (.generated (.nested owner index)) := (← record baseProperty).typeRef then
      let nested := (← declaration owner).nested.getD index default
      if (held.schema.isSome && nested.origin == held.schema)
          || (held.target.isSome && nested.target == held.target) then
        updateRecord property fun record =>
          { record with typeRef := some (.generated (.nested owner index)) }

end Modelling

/-- A check with the value of its constant in place of the constant's name. -/
def Check.pooled (pool : ConstantPool) (check : Check) :
    CheckKind × Bool × Option Operand × Option ConstantValue :=
  match check.operand with
  | some (.constant name) => (check.kind, check.negated, none, (pool.get? name).map (·.value))
  | operand => (check.kind, check.negated, operand, none)

/-- The checks of one class that another class makes as well. -/
def CheckSet.sharedWith (own : CheckSet) (pool : ConstantPool) (other : CheckSet)
    (otherPool : ConstantPool) : CheckSet :=
  ⟨own.items.filter fun check =>
    other.items.any fun inherited => inherited.pooled otherPool = check.pooled pool⟩

namespace Modelling

/-- A property of the same shape as in the base class keeps only the checks that the base class
does not make; one of another shape is a new declaration of it. -/
def compareWithBase (owner : DeclarationId) (property baseProperty : RecordId) :
    Modelling Unit := do
  if (← record property).shape = (← record baseProperty).shape then
    let model ← get
    let declaration := model.declaration owner
    let base := model.declaration (declaration.base.getD owner)
    let inherited := (model.ledger.checks property).sharedWith declaration.constants
      (model.ledger.checks baseProperty) base.constants
    survey (modify fun survey =>
      { survey with ledger := survey.ledger.updateChecks property (·.removeAll inherited) })
    updateRecord property fun record => { record with baseProperty := some baseProperty }
  else
    updateRecord baseProperty fun record => { record with extended := true }
    updateRecord property fun record => { record with overrides := true }

end Modelling

/-- A property against the list of required names: one that may be absent becomes nullable, unless
it has a default. -/
def Record.reconciled (record : Record) (required : List String) : Record :=
  if record.name.any fun name => required.contains name then { record with isRequired := true }
  else if record.nullable ≠ some true ∧ record.default.isNone then { record with nullable := some true }
  else record

namespace Modelling

/-- All properties of a record against its list of required names. -/
def reconcileRequired (id : RecordId) : Modelling Unit := do
  let held ← record id
  held.properties.forM fun property => updateRecord property (·.reconciled held.required)

/-- The analysis of a record in its role at a site. -/
abbrev Analysis := Site → RecordId → Role → Modelling Unit

/-- The members of an object, its own checks and its required properties; with a base record,
properties of the same name are compared. -/
def analyseObject (context : Context) (analyse : Analysis) (site : Site) (id : RecordId)
    (base : Option RecordId) : Modelling Unit := do
  (← record id).properties.forM fun property => do
    let name := (← record property).name.getD ""
    let ledger ← ledger
    let inherited := base.bind (ledger.property? · name)
    if let some baseProperty := inherited then inheritNestedClass property baseProperty
    analyse site property (.property name)
    if let some baseProperty := inherited then compareWithBase site.owner property baseProperty
  (← record id).patternProperties.forM fun entry => analyse site entry.record .value
  if let some (.schema value) := (← record id).additional then analyse site value .value
  plan context site.owner id .object
  planNegation context site.owner id
  reconcileRequired id

/-- A record of a decided shape: classes are nested for objects and enums, and the records inside
are analysed by the function given. -/
def develop (context : Context) (inner : Analysis) (site : Site) (id : RecordId) (role : Role) :
    Shape → Modelling Shape
  | .object => do
    let (index, isNew) ← nestedClass context site id .concrete role
    let shape ← settle id (.nested site.owner index)
    if isNew then analyseObject context inner { site with scope := some index } id none
    return shape
  | .identifierEnum => do
    let (index, _) ← nestedClass context site id .enumeration role
    settle id (.nested site.owner index)
  | .array => do
    updateRecord id fun record => { record with shape := some .array }
    if let some items := (← record id).items then inner site items role.ofItems
    return .array
  | .reference (.custom custom) => do
    if custom.package?.isSome then updateDeclaration site.owner (·.addImport custom.className)
    return .reference (.custom custom)
  | shape => return shape

/-- The analysis of a record, once: its class, its shape and its checks. While a record is analysed
it is not pending, because it has a shape before the records inside it are entered. -/
def analyse (context : Context) (pending : List RecordId) (site : Site) (id : RecordId)
    (role : Role) : Modelling Unit := do
  if (← record id).shape.isNone then
    if _waiting : id ∈ pending then
      linkTarget context site.owner id
      let rest := pending.erase id
      let shape ← develop context (fun site record role => analyse context rest site record role)
        site id role (context.classify (← ledger) id role.promotesEnums)
      updateRecord id fun record => { record with shape := some shape }
      plan context site.owner id shape
      planNegation context site.owner id
termination_by pending.length
decreasing_by exact length_erase_lt _waiting

/-- The analysis of any record. -/
def analyseAny (context : Context) : Analysis := fun site id role => do
  analyse context (← ledger).ids site id role

end Modelling

end SchemaClasses
