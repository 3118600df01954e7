import SchemaClasses.Model
import SchemaClasses.Resolution.Variants

/-! The resolution of all declarations: bases, members and branches. -/

namespace SchemaClasses

/-! Base classes: which class a declaration extends, and chains of them that run in a circle. -/

namespace Model

/-- The base of a class: the declaration that its first `allOf` branch refers to and does nothing
else. -/
def base? (model : Model) (tree : SchemaTree) (id : DeclarationId) : Option DeclarationId := do
  let declaration := model.declaration id
  guard (declaration.kind = .concrete)
  let branches ← (tree.schema declaration.schema).allOf?
  let first ← branches.head?
  let _ ← tree.pureReference? first
  model.declarationFor? tree first

/-- The bases met from a declaration on, at most as many as given. -/
def bases (model : Model) (tree : SchemaTree) : Nat → DeclarationId → List DeclarationId
  | 0, _ => []
  | steps + 1, id =>
    match model.base? tree id with
    | some base => base :: bases model tree steps base
    | none => []

/-- All bases of a declaration, more than once where they run in a circle. -/
def allBases (model : Model) (tree : SchemaTree) (id : DeclarationId) : List DeclarationId :=
  model.bases tree model.declarations.size id

/-- Whether a declaration is the first one of a circle of bases. -/
def leadsCircle (model : Model) (tree : SchemaTree) (id : DeclarationId) : Bool :=
  let met := model.allBases tree id
  id ∈ met && (met.takeWhile (· ≠ id)).all fun other => id.index < other.index

/-- A circle of bases, by its first declaration; of several circles the one that starts last. -/
def circularBase? (model : Model) (tree : SchemaTree) : Option DeclarationId :=
  model.ids.reverse.find? (model.leadsCircle tree)

end Model

/-! The resolution of all declarations: bases, members and branches. -/

namespace Modelling

/-- The members of a class, whose base has been analysed before. -/
def analyseClass (context : Context) (id : DeclarationId) : Modelling Unit := do
  let held ← declaration id
  let base := (← get).base? context.tree id
  if let some base := base then
    updateDeclaration id fun declaration => { declaration with base := some base }
    updateDeclaration base (·.addDerived id)
    importDeclaration id base
  updateRecord held.record fun record => { record with shape := some .object }
  let model ← get
  analyseObject context (analyseAny context) ⟨id, none⟩ held.record
    (base.map fun base => (model.declaration base).record)

/-- The members of a declaration, if it has any. -/
def analyseDeclaration (context : Context) (id : DeclarationId) : Modelling Unit := do
  let held ← declaration id
  match held.kind with
  | .enumeration =>
    updateRecord held.record fun record => { record with shape := some .identifierEnum }
  | .interface => updateRecord held.record fun record => { record with shape := some .untyped }
  | .concrete => analyseClass context id

/-- A declaration analysed after its bases, each of them once. -/
def resolveMembers (context : Context) (id : DeclarationId) : Modelling Unit := do
  let model ← get
  let fresh := (id :: model.allBases context.tree id).takeWhile fun id =>
    !(model.declaration id).isAnalysed
  fresh.forM fun id =>
    updateDeclaration id fun declaration => { declaration with isAnalysed := true }
  fresh.reverse.forM (analyseDeclaration context)

/-- All declarations: first their members, then their branches. Bases that run in a circle are
refused. -/
def resolve (context : Context) : Modelling Unit := do
  let model ← get
  if let some id := model.circularBase? context.tree then
    throw (.circularBase (model.declaration id).qualifiedName)
  model.ids.forM (resolveMembers context)
  model.ids.forM (resolveVariants context)

end Modelling

end SchemaClasses
