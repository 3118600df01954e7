import SchemaClasses.Resolution.Members

/-! Branches: the classes that implement a union, and the variants of a class with alternatives. -/

namespace SchemaClasses

namespace Modelling

/-- A variant class for a branch, named by its title. -/
def pushVariant (context : Context) (owner : DeclarationId) (scope : Option Nat)
    (record branch : RecordId) (implements : ClassRef) : Modelling Nat := do
  let held ← Modelling.record branch
  let candidate := (held.title.map context.settings.naming.className).getD "Variant"
  pushNested owner candidate fun name =>
    { name, parent := scope, kind := .concrete, record, origin := held.schema, target := none,
      interfaces := [implements], isVariant := true }

/-- A branch of a union: a declared class implements it, and an object that is not declared
becomes a nested class that does. -/
def resolveBranch (context : Context) (owner : DeclarationId) (branch : RecordId) :
    Modelling Unit := do
  let origin := (← record branch).schema
  match origin.bind ((← get).declarationFor? context.tree) with
  | some implementor =>
    if implementor ≠ owner then
      updateDeclaration implementor (·.addInterface (.declaration owner))
      updateDeclaration owner (·.addDerived implementor)
      importDeclaration implementor owner
  | none =>
    let isKnown := ((← declaration owner).findNested? origin none).isSome
    if !isKnown && context.classify (← ledger) branch false == .object then
      let index ← pushVariant context owner none branch branch (.declaration owner)
      let _ ← settle branch (.nested owner index)
      analyseObject context (analyseAny context) ⟨owner, some index⟩ branch none

/-- A copy of a record for a variant, with copies of its properties and without alternatives. -/
def copyForVariant (container : RecordId) (origin : Option SchemaId) : Modelling RecordId := do
  let variant ← survey (Survey.onLedger (·.duplicate container))
  let properties ← (← record variant).properties.mapM fun property =>
    survey (Survey.onLedger (·.duplicate property))
  updateRecord variant fun record =>
    { record with schema := origin, properties, oneOf := [], typeRef := none, shape := none }
  return variant

/-- A property of a branch joins a variant: its checks are added to a property of the same name. -/
def joinProperty (context : Context) (site : Site) (variant property : RecordId) :
    Modelling Unit := do
  let name := (← record property).name.getD ""
  analyseAny context site property (.property name)
  let ledger ← ledger
  match ledger.property? variant name with
  | some existing =>
    survey (modify fun survey =>
      { survey with
        ledger := survey.ledger.updateChecks existing (·.extend (ledger.checks property)) })
  | none =>
    updateRecord variant fun record => { record with properties := record.properties ++ [property] }

/-- A name that a branch requires: where the container did not, the property is no longer nullable
on its account. -/
def joinRequired (variant : RecordId) (already : List String) (name : String) :
    Modelling Unit := do
  if !already.contains name then
    if let some property := (← ledger).property? variant name then
      updateRecord property fun record => { record with nullable := none }
  updateRecord variant (·.addRequired name)

/-- The variant of a class for one of its branches, with the members of both. -/
def addVariant (context : Context) (site : Site) (container branch : RecordId) :
    Modelling Unit := do
  let origin := (← record branch).schema
  if ((← declaration site.owner).findNested? origin none).isNone then
    let variant ← copyForVariant container origin
    let implements := match site.scope with
      | some index => ClassRef.nested site.owner index
      | none => .declaration site.owner
    let index ← pushVariant context site.owner site.scope variant branch implements
    let _ ← settle variant (.nested site.owner index)
    (← record branch).properties.forM
      (joinProperty context { site with scope := some index } variant)
    let already := (← record container).required
    (← record branch).required.forM (joinRequired variant already)
    plan context site.owner variant .object
    reconcileRequired variant

/-- The variants of a class, one for each branch. -/
def addVariants (context : Context) (site : Site) (container : RecordId) : Modelling Unit := do
  (← record container).oneOf.forM (addVariant context site container)

/-- The variants of the nested classes from one of them on, also of those that are added on the
way. -/
def addNestedVariants (context : Context) (owner : DeclarationId) :
    Nat → Nat → Modelling Unit
  | 0, _ => pure ()
  | steps + 1, index => do
    match (← declaration owner).nested[index]? with
    | none => pure ()
    | some nested =>
      if nested.kind == .concrete && !nested.isVariant then
        addVariants context ⟨owner, some index⟩ nested.record
      addNestedVariants context owner steps (index + 1)

/-- The branches of a declaration and of the classes nested in it. -/
def resolveVariants (context : Context) (id : DeclarationId) : Modelling Unit := do
  let declared ← declaration id
  if !declared.hasVariants then
    updateDeclaration id fun declaration => { declaration with hasVariants := true }
    if declared.kind ≠ .enumeration then
      match declared.kind with
      | .interface => (← record declared.record).oneOf.forM (resolveBranch context id)
      | _ => addVariants context ⟨id, none⟩ declared.record
      -- Each nested class is there already, or a variant for a schema, or made for a record.
      let bound := (← declaration id).nested.size + context.tree.schemas.size + (← ledger).size
      addNestedVariants context id (bound + 1) 0

end Modelling

end SchemaClasses
