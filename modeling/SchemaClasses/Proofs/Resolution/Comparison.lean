import SchemaClasses.Proofs.Resolution.Members

/-! A run that tells which properties it compares with those of a base class, and which checks these
had before: it does what the plain run does. -/

namespace SchemaClasses

/-- A property of a class compared with the property of the same name in the base class. -/
structure Comparison where
  owner : DeclarationId
  base : DeclarationId
  property : RecordId
  baseProperty : RecordId
  /-- The checks planned on the property by then. -/
  planned : CheckSet
deriving Repr

/-- A part of a run for each item, with all that they tell. -/
def gather {ε σ α β : Type} (round : α → EStateM ε σ (List β)) : List α → EStateM ε σ (List β)
  | [] => pure []
  | item :: rest => do
    let told ← round item
    let told' ← gather round rest
    return told ++ told'

/-- What is told for two lists is told for the first and then for the second. -/
theorem gather_append {ε σ α β : Type} {round : α → EStateM ε σ (List β)} {items more : List α} :
    gather round (items ++ more) = (do
      let told ← gather round items
      let told' ← gather round more
      return told ++ told') := by
  induction items with
  | nil => simp [gather]
  | cons item rest ih =>
    simp only [List.cons_append, gather, ih, bind_assoc, pure_bind, List.append_assoc]

/-- What every round keeps of all that was told so far holds at the end. -/
theorem Ends.gather {ε σ α β : Type} {items : List α} {round : α → EStateM ε σ (List β)} {start : σ}
    {failed : σ → Prop} {told : List β} (kept : List α → List β → σ → Prop)
    (holds : kept items told start)
    (keeps : ∀ item rest told state, kept (item :: rest) told state →
      Ends (round item) state (fun more last => kept rest (told ++ more) last) failed) :
    Ends (gather round items) start (fun more last => kept [] (told ++ more) last) failed := by
  -- One round after the other: what is told by then joins the accumulator of the induction.
  induction items generalizing start told with
  | nil => simpa [SchemaClasses.gather] using holds
  | cons item rest ih =>
    rw [SchemaClasses.gather, ends_bind]
    refine (keeps item rest told start holds).imp (fun more last kept => ?_) fun _ failure => failure
    rw [ends_bind]
    refine (ih kept).imp (fun more' last' kept' => ?_) fun _ failure => failure
    -- Telling is associative: what was told before, in this round and behind it.
    rw [ends_pure, ← List.append_assoc]
    exact kept'

namespace Modelling

/-- Whether a run that tells something does the same as a plain one. -/
def Tells {α : Type} (telling : Modelling α) (plain : Modelling Unit) : Prop :=
  (fun _ => ()) <$> telling = plain

/-- What is told in the end changes nothing. -/
theorem tells_pure {α : Type} {result : α} : Tells (pure result) (pure ()) := rfl

/-- After a common beginning the telling part does the same. -/
theorem Tells.after {α β : Type} {first : Modelling α} {telling : α → Modelling β}
    {plain : α → Modelling Unit} (same : ∀ result, Tells (telling result) (plain result)) :
    Tells (first >>= telling) (first >>= plain) := by
  unfold Tells at *
  rw [map_bind]
  exact congrArg (first >>= ·) (funext same)

/-- A telling part with a common end. -/
theorem Tells.before {α β : Type} {telling : Modelling α} {first : Modelling Unit}
    {last : α → Modelling β} {plain : Modelling Unit} (same : Tells telling first)
    (same' : ∀ result, Tells (last result) plain) :
    Tells (telling >>= last) (first >>= fun _ => plain) := by
  unfold Tells at *
  rw [map_bind, ← same, bind_map_left]
  exact congrArg (telling >>= ·) (funext same')

/-- What is made of all that a part tells. -/
theorem Tells.map {α β : Type} {telling : Modelling α} {plain : Modelling Unit}
    (same : Tells telling plain) {result : α → β} :
    Tells (do let told ← telling; return result told) plain := by
  unfold Tells at *
  rw [map_bind, ← same, map_eq_pure_bind]
  rfl

/-- A plain part that something is told about behind it. -/
theorem tells_plain {α : Type} {plain : Modelling Unit} {result : α} :
    Tells (do plain; return result) plain := by
  have same : Tells plain plain := id_map plain
  exact same.map

/-- A loop that tells what its rounds tell. -/
theorem Tells.gather {α β : Type} {items : List α} {round : α → Modelling (List β)}
    {plain : α → Modelling Unit} (same : ∀ item, Tells (round item) (plain item)) :
    Tells (gather round items) (items.forM plain) := by
  induction items with
  | nil => exact tells_pure
  | cons item rest ih => exact (same item).before fun told => ih.map

/-- A comparison with a base class that tells which checks there were. -/
def comparing (owner : DeclarationId) (property baseProperty : RecordId) :
    Modelling (List Comparison) := do
  let model ← get
  compareWithBase owner property baseProperty
  if (model.ledger.record property).shape = (model.ledger.record baseProperty).shape then
    return [{ owner, property, baseProperty
              base := (model.declaration owner).base.getD owner
              planned := model.ledger.checks property }]
  else return []

theorem tells_comparing {owner : DeclarationId} {property baseProperty : RecordId} :
    Tells (comparing owner property baseProperty) (compareWithBase owner property baseProperty) := by
  -- Whether the shapes are the same is read before the comparison and does not change it.
  have each (model : Model) : Tells (do
      compareWithBase owner property baseProperty
      if (model.ledger.record property).shape = (model.ledger.record baseProperty).shape then
        return [(⟨owner, (model.declaration owner).base.getD owner, property, baseProperty,
          model.ledger.checks property⟩ : Comparison)]
      else return []) (compareWithBase owner property baseProperty) := by
    -- Both branches end with what is told, behind the same comparison.
    split
    · exact tells_plain
    · exact tells_plain
  funext model
  exact congrFun (each model) model

/-- The analysis of one property, which tells its comparison. -/
def comparingProperty (context : Context) (site : Site) (base : Option RecordId)
    (property : RecordId) : Modelling (List Comparison) := do
  let name := (← record property).name.getD ""
  let ledger ← ledger
  match base.bind (ledger.property? · name) with
  | some baseProperty => do
    inheritNestedClass property baseProperty
    analyseAny context site property (.property name)
    comparing site.owner property baseProperty
  | none => do
    analyseAny context site property (.property name)
    return []

theorem tells_comparingProperty {context : Context} {site : Site} {base : Option RecordId}
    {property : RecordId} :
    Tells (comparingProperty context site base property)
      (analyseProperty (analyseAny context) site base property) := by
  unfold comparingProperty analyseProperty
  refine Tells.after fun held => Tells.after fun ledger => ?_
  dsimp only
  -- Without a property in the base class there is nothing to compare with and nothing to tell.
  cases base.bind (ledger.property? · (held.name.getD "")) with
  | some baseProperty => exact Tells.after fun _ => Tells.after fun _ => tells_comparing
  | none => exact Tells.after fun _ => tells_pure

/-- The analysis of an object, which tells the comparisons of its properties. -/
def comparingObject (context : Context) (site : Site) (id : RecordId) (base : Option RecordId) :
    Modelling (List Comparison) := do
  let told ← gather (comparingProperty context site base) (← record id).properties
  closeObject context (analyseAny context) site id
  return told

theorem tells_comparingObject {context : Context} {site : Site} {id : RecordId}
    {base : Option RecordId} :
    Tells (comparingObject context site id base)
      (analyseObject context (analyseAny context) site id base) := by
  rw [analyseObject_eq]
  -- The loop over the properties tells all; closing the object adds nothing to it.
  refine Tells.after fun held => (Tells.gather fun _ => tells_comparingProperty).before fun told => ?_
  exact tells_plain

/-- What an analysis notes about a class before it comes to the members: the base class. -/
def openClass (context : Context) (id : DeclarationId) (record : RecordId) :
    Modelling (Option RecordId) := do
  let base := (← get).base? context.tree id
  if let some base := base then
    updateDeclaration id fun declaration => { declaration with base := some base }
    updateDeclaration base (·.addDerived id)
    importDeclaration id base
  updateRecord record fun record => { record with shape := some .object }
  let model ← get
  return base.map fun base => (model.declaration base).record

/-- A class is opened, and then its members are analysed. -/
theorem analyseClass_eq {context : Context} {id : DeclarationId} :
    analyseClass context id = (do
      let held ← declaration id
      let base ← openClass context id held.record
      analyseObject context (analyseAny context) ⟨id, none⟩ held.record base) := by
  unfold analyseClass openClass
  -- A base class is noted and imported before the members, in the same order as in one run.
  refine bind_congr fun held => ?_
  rw [bind_assoc]
  refine bind_congr fun model => ?_
  dsimp only
  cases model.base? context.tree id with
  | some base => simp only [bind_assoc, pure_bind]
  | none => simp only [bind_assoc, pure_bind]

/-- The analysis of a class, which tells its comparisons. -/
def comparingClass (context : Context) (id : DeclarationId) : Modelling (List Comparison) := do
  let held ← declaration id
  let base ← openClass context id held.record
  comparingObject context ⟨id, none⟩ held.record base

/-- The analysis of a declaration, which tells its comparisons. -/
def comparingDeclaration (context : Context) (id : DeclarationId) :
    Modelling (List Comparison) := do
  let held ← declaration id
  match held.kind with
  | .enumeration => do
    updateRecord held.record fun record => { record with shape := some .identifierEnum }
    return []
  | .interface => do
    updateRecord held.record fun record => { record with shape := some .untyped }
    return []
  | .concrete => comparingClass context id

theorem tells_comparingDeclaration {context : Context} {id : DeclarationId} :
    Tells (comparingDeclaration context id) (analyseDeclaration context id) := by
  refine Tells.after fun held => ?_
  -- Enumerations and interfaces tell nothing, since they have no members.
  cases held.kind with
  | enumeration => exact tells_plain
  | interface => exact tells_plain
  | concrete =>
    show Tells (comparingClass context id) (analyseClass context id)
    rw [analyseClass_eq]
    exact Tells.after fun held => Tells.after fun base => tells_comparingObject

/-- The declarations that are still to be analysed for one of them: it and its bases. -/
def fresh (context : Context) (id : DeclarationId) (model : Model) : List DeclarationId :=
  (id :: model.allBases context.tree id).takeWhile fun id => !(model.declaration id).isAnalysed

/-- The analysis of a declaration after its bases, which tells their comparisons. -/
def comparingMembers (context : Context) (id : DeclarationId) : Modelling (List Comparison) := do
  let model ← get
  (fresh context id model).forM fun id =>
    updateDeclaration id fun declaration => { declaration with isAnalysed := true }
  gather (comparingDeclaration context) (fresh context id model).reverse

theorem tells_comparingMembers {context : Context} {id : DeclarationId} :
    Tells (comparingMembers context id) (resolveMembers context id) :=
  Tells.after fun _ => Tells.after fun _ => Tells.gather fun _ => tells_comparingDeclaration

/-- The resolution of all declarations, which tells all comparisons. -/
def comparingResolve (context : Context) : Modelling (List Comparison) := do
  let model ← get
  if let some id := model.circularBase? context.tree then
    throw (.circularBase (model.declaration id).qualifiedName)
  let told ← gather (comparingMembers context) model.ids
  model.ids.forM (resolveVariants context)
  return told

theorem tells_comparingResolve {context : Context} :
    Tells (comparingResolve context) (resolve context) := by
  -- Behind the check for circular bases both runs do the same, whether it is passed or not.
  have members (model : Model) : Tells (do
      let told ← gather (comparingMembers context) model.ids
      model.ids.forM (resolveVariants context)
      return told) (do
      model.ids.forM (resolveMembers context)
      model.ids.forM (resolveVariants context)) :=
    (Tells.gather fun _ => tells_comparingMembers).before fun told => tells_plain
  unfold comparingResolve resolve
  refine Tells.after fun model => ?_
  -- A circle ends either run at once.
  cases model.circularBase? context.tree with
  | some id => exact Tells.after fun _ => members model
  | none => exact members model

/-- A run that tells all its comparisons. -/
def comparingBuild (context : Context) (roots : List RootSchema) :
    Modelling (List Comparison) := do
  roots.forM (declareRoot context)
  comparingResolve context

/-- A run that tells its comparisons does what the plain run does. -/
theorem tells_comparingBuild {context : Context} {roots : List RootSchema} :
    Tells (comparingBuild context roots) (build context roots) :=
  Tells.after fun _ => tells_comparingResolve

end Modelling

end SchemaClasses
