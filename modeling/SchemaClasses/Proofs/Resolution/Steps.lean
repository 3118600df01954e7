import SchemaClasses.Proofs.Plan
import SchemaClasses.Resolution

/-! The analysis of a class is a sequence of small steps on the records inside it, each of which
says all that it does to the model. -/

namespace SchemaClasses

/-- A later state of a record of which nothing has changed but what the resolution of classes
decides; a shape is decided once. -/
structure Record.Settles (before after : Record) : Prop where
  record : after =
    { before with
      typeRef := after.typeRef
      shape := after.shape
      nullable := after.nullable
      isRequired := after.isRequired
      patternProperties := after.patternProperties
      mapBacked := after.mapBacked
      baseProperty := after.baseProperty
      extended := after.extended
      overrides := after.overrides }
  patternProperties : after.patternProperties.map (fun entry => (entry.pattern, entry.record)) =
    before.patternProperties.map fun entry => (entry.pattern, entry.record)
  shape : ∀ shape, before.shape = some shape → after.shape = some shape

namespace Record.Settles

variable {a b c : Record}

theorem refl (record : Record) : record.Settles record := ⟨rfl, rfl, fun _ held => held⟩

theorem trans (first : a.Settles b) (second : b.Settles c) : a.Settles c :=
  ⟨by rw [second.record, first.record], second.patternProperties.trans first.patternProperties,
    fun shape held => second.shape shape (first.shape shape held)⟩

/-- The values of patterns stay the same, whatever constants the patterns get. -/
theorem patternRecords_eq (settles : a.Settles b) :
    b.patternProperties.map (·.record) = a.patternProperties.map (·.record) := by
  have pairs := congrArg (List.map (·.2)) settles.patternProperties
  simpa only [List.map_map, Function.comp_def] using pairs

/-- The records inside stay inside. -/
theorem children_eq (settles : a.Settles b) : b.children = a.children := by
  rw [settles.record]
  simp only [children, settles.patternRecords_eq]

/-- A record stays what it was made for. -/
theorem sameOrigin (settles : a.Settles b) : a.SameOrigin b := by
  rw [settles.record]
  exact ⟨rfl, rfl, rfl, rfl⟩

theorem target_eq (settles : a.Settles b) : b.target = a.target := by rw [settles.record]

theorem negation_eq (settles : a.Settles b) : b.negation = a.negation := by rw [settles.record]

theorem properties_eq (settles : a.Settles b) : b.properties = a.properties := by
  rw [settles.record]

theorem items_eq (settles : a.Settles b) : b.items = a.items := by rw [settles.record]

theorem name_eq (settles : a.Settles b) : b.name = a.name := by rw [settles.record]

theorem additional_eq (settles : a.Settles b) : b.additional = a.additional := by
  rw [settles.record]

theorem oneOf_eq (settles : a.Settles b) : b.oneOf = a.oneOf := by rw [settles.record]

end Record.Settles

/-- What an analysis may settle about a record by itself. -/
inductive Record.Marked (record : Record) : Record → Prop where
  | shaped {shape : Shape} (first : record.shape = none ∨ record.shape = some shape)
      (typed : ∀ ref, shape = .reference (.generated ref) → record.typeRef = some (.generated ref)) :
      Marked record { record with shape := some shape }
  | reconciled (required : List String) : Marked record (record.reconciled required)

/-- A property that is reconciled with the required names changes only in what these decide. -/
theorem Record.reconciled_eq (record : Record) (required : List String) :
    record.reconciled required =
      { record with
        isRequired := (record.reconciled required).isRequired
        nullable := (record.reconciled required).nullable } := by
  unfold reconciled
  -- The flags depend on whether the name is listed and whether there is a default.
  split
  · rfl
  · split
    · rfl
    · rfl

/-- What an analysis settles by itself is neither a class nor a base property. -/
theorem Record.Marked.eq {record marked : Record} (marks : record.Marked marked) :
    marked =
      { record with
        shape := marked.shape
        isRequired := marked.isRequired
        nullable := marked.nullable } := by
  cases marks with
  | shaped first typed => rfl
  | reconciled required =>
    -- The record on the left is taken apart, but not the one in the flags.
    conv_lhs => rw [Record.reconciled_eq]
    rw [Record.reconciled_eq]

theorem Record.Marked.baseProperty_eq {record marked : Record} (marks : record.Marked marked) :
    marked.baseProperty = record.baseProperty := by rw [marks.eq]

theorem Record.Marked.typeRef_eq {record marked : Record} (marks : record.Marked marked) :
    marked.typeRef = record.typeRef := by rw [marks.eq]

/-- What an analysis settles by itself settles the record. -/
theorem Record.Marked.settles {record marked : Record} (marks : record.Marked marked) :
    record.Settles marked := by
  -- A shape that is decided was none before, or the same one.
  refine ⟨by rw [marks.eq], by rw [marks.eq], fun shape held => ?_⟩
  cases marks with
  | shaped first typed =>
    rcases first with unset | same
    · rw [unset] at held
      cases held
    · exact same.symm.trans held
  | reconciled required =>
    rw [Record.reconciled_eq]
    exact held

/-- A later state of a declaration: nested classes and constants may have joined it. -/
structure Declaration.Grows (before after : Declaration) : Prop where
  schema : after.schema = before.schema
  record : after.record = before.record
  kind : after.kind = before.kind
  nested : before.nested.toList <+: after.nested.toList
  constants : before.constants.entries <+: after.constants.entries
  libraryTypes : before.libraryTypes ⊆ after.libraryTypes
  numbered : before.constants.Numbered → after.constants.Numbered

namespace Declaration.Grows

variable {a b c : Declaration}

theorem refl (declaration : Declaration) : declaration.Grows declaration :=
  ⟨rfl, rfl, rfl, List.prefix_rfl, List.prefix_rfl, List.Subset.refl _, id⟩

theorem trans (first : a.Grows b) (second : b.Grows c) : a.Grows c :=
  ⟨second.schema.trans first.schema, second.record.trans first.record,
    second.kind.trans first.kind, first.nested.trans second.nested,
    first.constants.trans second.constants,
    List.Subset.trans first.libraryTypes second.libraryTypes, second.numbered ∘ first.numbered⟩

/-- No nested class is taken away. -/
theorem size_le (grows : a.Grows b) : a.nested.size ≤ b.nested.size := by
  simpa using grows.nested.length_le

/-- A nested class keeps its number. -/
theorem getElem?_nested (grows : a.Grows b) {index : Nat} {nested : NestedClass}
    (there : a.nested[index]? = some nested) : b.nested[index]? = some nested := by
  -- New classes come behind those that are there.
  obtain ⟨more, same⟩ := grows.nested
  rw [← Array.getElem?_toList] at there ⊢
  rw [← same]
  obtain ⟨inside, -⟩ := List.getElem?_eq_some_iff.mp there
  rw [List.getElem?_append_left inside, there]

end Declaration.Grows

/-- Whether a declaration goes on holding the same nested classes, constants and library types, and
its branches have been resolved if they had been before. -/
structure Declaration.Keeps (before after : Declaration) : Prop where
  nested : after.nested = before.nested
  constants : after.constants = before.constants
  libraryTypes : after.libraryTypes = before.libraryTypes
  hasVariants : after.hasVariants = before.hasVariants

namespace Declaration.Keeps

variable {a b c : Declaration}

theorem refl (declaration : Declaration) : declaration.Keeps declaration := ⟨rfl, rfl, rfl, rfl⟩

theorem trans (first : a.Keeps b) (second : b.Keeps c) : a.Keeps c :=
  ⟨second.nested.trans first.nested, second.constants.trans first.constants,
    second.libraryTypes.trans first.libraryTypes, second.hasVariants.trans first.hasVariants⟩

end Declaration.Keeps

/-- Whether a reference leads to a class that is there. -/
def Model.HasClass (model : Model) : ClassRef → Prop
  | .declaration id => id.index < model.declarations.size
  | .nested owner index => index < (model.declaration owner).nested.size

/-- What is noted about a declaration beside its members: its relations to classes that are there. -/
structure Model.Notes (model : Model) (before after : Declaration) : Prop where
  same : after =
    { before with
      derived := after.derived
      interfaces := after.interfaces
      imports := after.imports }
  derived : ∀ other ∈ after.derived, other ∈ before.derived ∨
    model.HasClass (.declaration other)
  interfaces : ∀ ref ∈ after.interfaces, ref ∈ before.interfaces ∨ model.HasClass ref

/-- What is noted about a declaration leaves its classes and constants alone. -/
theorem Model.Notes.grows {model : Model} {before after : Declaration}
    (notes : model.Notes before after) : before.Grows after := by
  rw [notes.same]
  exact ⟨rfl, rfl, rfl, List.prefix_rfl, List.prefix_rfl, List.Subset.refl _, id⟩

/-- Whether a class suits a record: it is declared for the target of its reference, or nested for the
same schema or for one with the same target. -/
inductive Model.Suits (context : Context) (model : Model) (id : RecordId) : ClassRef → Prop where
  | declared {target : SchemaId} {declared : DeclarationId}
      (refers : (model.ledger.record id).target = some target)
      (stands : model.declarationFor? context.tree target = some declared) :
      Suits context model id (.declaration declared)
  | origin {owner : DeclarationId} {index : Nat} {nested : NestedClass} {schema : SchemaId}
      (there : (model.declaration owner).nested[index]? = some nested)
      (made : (model.ledger.record id).schema = some schema) (same : nested.origin = some schema) :
      Suits context model id (.nested owner index)
  | target {owner : DeclarationId} {index : Nat} {nested : NestedClass} {target : SchemaId}
      (there : (model.declaration owner).nested[index]? = some nested)
      (refers : (model.ledger.record id).target = some target)
      (same : nested.target = some target) : Suits context model id (.nested owner index)

/-- Whether a nested class is made from a record: for its schema, and for the target of its reference
unless it is a variant. -/
structure NestedClass.MadeFrom (nested : NestedClass) (record : Record) : Prop where
  origin : nested.origin = record.schema
  target : nested.target = none ∨ nested.target = record.target

/-- Records for schemas that hold no records but each other. -/
structure Ledger.Closed (ledger : Ledger) (scope : Set RecordId) : Prop where
  present : ∀ id ∈ scope, id.index < ledger.size
  schema : ∀ id ∈ scope, (ledger.record id).schema.isSome
  inside : ∀ id ∈ scope, ∀ child ∈ (ledger.record id).children, child ∈ scope

/-- A later state of a ledger: the records that were there are settled. -/
structure Ledger.Settles (before after : Ledger) : Prop where
  size_le : before.size ≤ after.size
  record : ∀ id : RecordId, id.index < before.size → (before.record id).Settles (after.record id)

/-- Records that hold only each other go on doing so while they are settled. -/
theorem Ledger.Settles.closed {before after : Ledger} {scope : Set RecordId}
    (settles : before.Settles after) (closed : before.Closed scope) : after.Closed scope where
  present id acts := Nat.lt_of_lt_of_le (closed.present id acts) settles.size_le
  schema id acts := by
    rw [(settles.record id (closed.present id acts)).sameOrigin.schema]
    exact closed.schema id acts
  inside id acts child member := by
    rw [(settles.record id (closed.present id acts)).children_eq] at member
    exact closed.inside id acts child member

/-- Whether a class may have branches of its own: a declaration, or a class nested in it that is no
variant; with its kind and the record that it was made for. -/
inductive Model.Hosts (model : Model) (owner : DeclarationId) :
    ClassRef → ClassKind → RecordId → Prop where
  | declared : Hosts model owner (.declaration owner) (model.declaration owner).kind
      (model.declaration owner).record
  | nested {index : Nat} {nested : NestedClass}
      (there : (model.declaration owner).nested[index]? = some nested)
      (plain : nested.isVariant = false) :
      Hosts model owner (.nested owner index) nested.kind nested.record

/-- Whether a class nested in a declaration stands for a branch of a class that may have some, and
implements that class only. -/
def Model.VariantOf (model : Model) (owner : DeclarationId) (nested : NestedClass) (ref : ClassRef) :
    Prop :=
  nested.interfaces = [ref] ∧ ∃ kind container, model.Hosts owner ref kind container ∧
    ∃ branch ∈ (model.ledger.record container).oneOf, branch.index < model.ledger.size ∧
      (model.ledger.record branch).schema = nested.origin

section

variable {before after : Model} {owner : DeclarationId} {ref : ClassRef}

/-- A class that may have branches may still have them when more classes are nested. -/
theorem Model.Hosts.of_grown {kind : ClassKind} {container : RecordId}
    (hosts : before.Hosts owner ref kind container)
    (grows : (before.declaration owner).Grows (after.declaration owner)) :
    after.Hosts owner ref kind container := by
  cases hosts with
  | declared =>
    rw [← grows.kind, ← grows.record]
    exact .declared
  | nested there plain => exact .nested (grows.getElem?_nested there) plain

/-- A variant of a class stays one while the records that are there keep their schemas and
alternatives. -/
theorem Model.VariantOf.of_grown {nested : NestedClass} (variant : before.VariantOf owner nested ref)
    (grows : (before.declaration owner).Grows (after.declaration owner))
    (size : before.ledger.size ≤ after.ledger.size)
    (kept : ∀ id : RecordId, id.index < before.ledger.size →
      (after.ledger.record id).oneOf = (before.ledger.record id).oneOf ∧
        (after.ledger.record id).schema = (before.ledger.record id).schema) :
    after.VariantOf owner nested ref := by
  obtain ⟨implements, kind, container, hosts, branch, held, present, made⟩ := variant
  -- A record with alternatives is not past the end, where all records are empty.
  have there : container.index < before.ledger.size := by
    by_contra absent
    rw [Ledger.record_of_size_le (Nat.le_of_not_lt absent)] at held
    exact absurd held List.not_mem_nil
  refine ⟨implements, kind, container, hosts.of_grown grows, branch, ?_,
    Nat.lt_of_lt_of_le present size, (kept branch present).2.trans made⟩
  rw [(kept container there).1]
  exact held

end

/-- Whether a nested class may join those of a declaration: it lies in one made before it, implements
classes that are there, is the first one for its schema, and stands for a branch if it is a variant. -/
structure Model.Places (model : Model) (owner : DeclarationId) (nested : NestedClass) : Prop where
  parent : ∀ parent, nested.parent = some parent → model.HasClass (.nested owner parent)
  interfaces : ∀ ref ∈ nested.interfaces, model.HasClass ref
  fresh : ∀ other ∈ (model.declaration owner).nested, other.origin ≠ nested.origin
  variant : nested.isVariant = true → ∃ ref, model.VariantOf owner nested ref

namespace Modelling

/-- All that the analysis of a class does at once to the records in its scope. -/
inductive Step (context : Context) (owner : DeclarationId) (scope : Set RecordId) :
    Model → Model → Prop where
  | mark {model : Model} {id : RecordId} {marked : Record} (acts : id ∈ scope)
      (marks : (model.ledger.record id).Marked marked) :
      Step context owner scope model (model.updateRecord id fun _ => marked)
  | type {model : Model} {id : RecordId} {ref : ClassRef} {shape : Option Shape}
      (acts : id ∈ scope) (unset : (model.ledger.record id).typeRef = none)
      (suits : model.Suits context id ref)
      (shaped : shape = (model.ledger.record id).shape ∨
        (model.ledger.record id).shape = none ∧ shape = some (.reference (.generated ref))) :
      Step context owner scope model
        (model.updateRecord id fun record =>
          { record with typeRef := some (.generated ref), shape })
  | plan {model : Model} {id : RecordId} (acts : id ∈ scope) (shape : Shape) :
      Step context owner scope model (model.plan context owner id shape)
  | nest {model : Model} {nested : NestedClass} (acts : nested.record ∈ scope)
      (made : nested.MadeFrom (model.ledger.record nested.record))
      (places : model.Places owner nested) :
      Step context owner scope model
        (model.updateDeclaration owner fun declaration =>
          { declaration with nested := declaration.nested.push nested })
  | note {model : Model} (id : DeclarationId) {change : Declaration → Declaration}
      (notes : model.Notes (model.declaration id) (change (model.declaration id))) :
      Step context owner scope model (model.updateDeclaration id change)

/-- Any number of steps. -/
abbrev Steps (context : Context) (owner : DeclarationId) (scope : Set RecordId) :
    Model → Model → Prop :=
  Relation.ReflTransGen (Step context owner scope)

variable {context : Context} {owner : DeclarationId} {scope : Set RecordId}
variable {before after : Model}

/-- A step settles records and changes nothing else in them. -/
theorem Step.settles (taken : Step context owner scope before after) (id : RecordId) :
    (before.ledger.record id).Settles (after.ledger.record id) := by
  cases taken with
  | mark acts marks => exact Ledger.rel_update Record.Settles.refl marks.settles
  | type acts unset suits shaped =>
    -- A shape that comes with the class is the first one.
    rw [Model.ledger_updateRecord]
    refine Ledger.rel_update Record.Settles.refl ⟨rfl, rfl, fun shape held => ?_⟩
    rcases shaped with same | first
    · exact same.trans held
    · rw [first.1] at held
      cases held
  | @plan other acts shape =>
    -- A plan names constants in the entries of patterns, but it keeps what they are for.
    have grows : Plan.Grows _ (before.planned context owner other shape) := Model.planned_grows
    rw [Model.record_plan_eq_update]
    refine Ledger.rel_update Record.Settles.refl ⟨?_, grows.patternProperties, fun shape held => ?_⟩
    · rw [grows.record]
    · rw [grows.record]
      exact held
  | nest acts made places => exact .refl _
  | note other notes => exact .refl _

/-- A step keeps the base properties. -/
theorem Step.baseProperty_eq (taken : Step context owner scope before after) (id : RecordId) :
    (after.ledger.record id).baseProperty = (before.ledger.record id).baseProperty := by
  -- Base properties are set when a class is compared with its base, and that is no step.
  cases taken with
  | mark acts marks => exact Ledger.field_update Record.baseProperty marks.baseProperty_eq
  | type acts unset suits shaped => exact Ledger.field_update Record.baseProperty rfl
  | plan acts shape => exact Model.field_plan Record.baseProperty fun _ _ _ => rfl
  | nest acts made places => rfl
  | note other notes => rfl

/-- A class decided before is not decided again. -/
theorem Step.typeRef_eq (taken : Step context owner scope before after) {id : RecordId}
    {type : TypeRef} (held : (before.ledger.record id).typeRef = some type) :
    (after.ledger.record id).typeRef = some type := by
  cases taken with
  | mark acts marks => exact (Ledger.field_update Record.typeRef marks.typeRef_eq).trans held
  | @type other ref shape acts unset suits shaped =>
    -- The record whose class is decided had none, so it is not the one that is looked at.
    have apart : id ≠ other := by
      rintro rfl
      rw [unset] at held
      cases held
    rw [Model.ledger_updateRecord, Ledger.record_update_of_ne apart]
    exact held
  | plan acts shape => exact (Model.field_plan Record.typeRef fun _ _ _ => rfl).trans held
  | nest acts made places => exact held
  | note other notes => exact held

/-- A step adds no record and no declaration. -/
theorem Step.size_eq (taken : Step context owner scope before after) :
    after.ledger.size = before.ledger.size ∧
      after.declarations.size = before.declarations.size := by
  -- Records and declarations are changed in place.
  cases taken with
  | mark acts marks => exact ⟨Ledger.size_update, rfl⟩
  | type acts unset suits shaped => exact ⟨Ledger.size_update, rfl⟩
  | plan acts shape => exact ⟨Model.size_plan, Model.declarations_size_plan⟩
  | nest acts made places => exact ⟨rfl, Model.size_updateDeclaration⟩
  | note other notes => exact ⟨rfl, Model.size_updateDeclaration⟩

/-- A step adds to declarations only. -/
theorem Step.grows (taken : Step context owner scope before after) (id : DeclarationId) :
    (before.declaration id).Grows (after.declaration id) := by
  cases taken with
  | mark acts marks => exact .refl _
  | type acts unset suits shaped => exact .refl _
  | plan acts shape =>
    rw [Model.declaration_plan_eq_update]
    -- Constants and library types come from the plan, and the rest is as it was.
    exact Model.rel_updateDeclaration Declaration.Grows.refl
      ⟨rfl, rfl, rfl, List.prefix_rfl, Model.planned_grows.constants,
        Model.planned_grows.libraryTypes, Model.planned_grows.numbered⟩
  | nest acts made places =>
    exact Model.rel_updateDeclaration Declaration.Grows.refl
      ⟨rfl, rfl, rfl, by simp, List.prefix_rfl, List.Subset.refl _, fun held => held⟩
  | note other notes => exact Model.rel_updateDeclaration Declaration.Grows.refl notes.grows

/-- How far a declaration has come, and its base class: nothing that a step notes. -/
def stage (declaration : Declaration) : Option DeclarationId × Bool × Bool :=
  (declaration.base, declaration.isAnalysed, declaration.hasVariants)

/-- A step notes neither a base class nor an analysis nor a resolution of branches. -/
theorem Step.stage_eq (taken : Step context owner scope before after) (id : DeclarationId) :
    stage (after.declaration id) = stage (before.declaration id) := by
  cases taken with
  | mark acts marks => rfl
  | type acts unset suits shaped => rfl
  | plan acts shape =>
    rw [Model.declaration_plan_eq_update]
    exact Model.field_updateDeclaration stage rfl
  | nest acts made places => exact Model.field_updateDeclaration stage rfl
  | note other notes =>
    -- The stage is not among what is noted.
    refine Model.field_updateDeclaration stage ?_
    rw [notes.same]
    rfl

/-- A later model of the same records and declarations. -/
structure Later (before after : Model) : Prop where
  settles : ∀ id, (before.ledger.record id).Settles (after.ledger.record id)
  size : after.ledger.size = before.ledger.size
  declarations : after.declarations.size = before.declarations.size
  grows : ∀ id, (before.declaration id).Grows (after.declaration id)

namespace Later

variable {a b c : Model}

theorem refl (model : Model) : Later model model :=
  ⟨fun _ => .refl _, rfl, rfl, fun _ => .refl _⟩

theorem trans (first : Later a b) (second : Later b c) : Later a c where
  settles id := (first.settles id).trans (second.settles id)
  size := second.size.trans first.size
  declarations := second.declarations.trans first.declarations
  grows id := (first.grows id).trans (second.grows id)

/-- All records are settled. -/
theorem ledger (later : Later a b) : a.ledger.Settles b.ledger :=
  ⟨Nat.le_of_eq later.size.symm, fun id _ => later.settles id⟩

/-- Records that hold only each other go on doing so. -/
theorem closed (later : Later a b) (closed : a.ledger.Closed scope) : b.ledger.Closed scope :=
  later.ledger.closed closed

end Later

/-- A record that is settled leads to a later model. -/
theorem later_updateRecord {id : RecordId} {change : Record → Record}
    (settles : (before.ledger.record id).Settles (change (before.ledger.record id))) :
    Later before (before.updateRecord id change) where
  settles _ := Ledger.rel_update Record.Settles.refl settles
  size := Ledger.size_update
  declarations := rfl
  grows _ := .refl _

/-- What a sequence of steps leaves behind. -/
structure Ahead (before after : Model) : Prop extends Later before after where
  baseProperty : ∀ id, (after.ledger.record id).baseProperty = (before.ledger.record id).baseProperty
  typeRef : ∀ id type, (before.ledger.record id).typeRef = some type →
    (after.ledger.record id).typeRef = some type
  base : ∀ id, (after.declaration id).base = (before.declaration id).base
  isAnalysed : ∀ id, (after.declaration id).isAnalysed = (before.declaration id).isAnalysed
  hasVariants : ∀ id, (after.declaration id).hasVariants = (before.declaration id).hasVariants

namespace Ahead

variable {a b c : Model}

theorem refl (model : Model) : Ahead model model :=
  ⟨.refl model, fun _ => rfl, fun _ _ held => held, fun _ => rfl, fun _ => rfl, fun _ => rfl⟩

theorem trans (first : Ahead a b) (second : Ahead b c) : Ahead a c where
  toLater := first.toLater.trans second.toLater
  baseProperty id := (second.baseProperty id).trans (first.baseProperty id)
  typeRef id type held := second.typeRef id type (first.typeRef id type held)
  base id := (second.base id).trans (first.base id)
  isAnalysed id := (second.isAnalysed id).trans (first.isAnalysed id)
  hasVariants id := (second.hasVariants id).trans (first.hasVariants id)

end Ahead

/-- One step leads ahead. -/
theorem Step.ahead (taken : Step context owner scope before after) : Ahead before after where
  -- Each part was shown for a step of any kind.
  settles := taken.settles
  size := taken.size_eq.1
  declarations := taken.size_eq.2
  grows := taken.grows
  baseProperty := taken.baseProperty_eq
  typeRef _ _ := taken.typeRef_eq
  base id := congrArg Prod.fst (taken.stage_eq id)
  isAnalysed id := congrArg (·.2.1) (taken.stage_eq id)
  hasVariants id := congrArg (·.2.2) (taken.stage_eq id)

/-- Steps lead ahead. -/
theorem Steps.ahead (steps : Steps context owner scope before after) : Ahead before after := by
  -- One step after the other, from the first one on.
  induction steps with
  | refl => exact .refl before
  | tail _ taken ih => exact ih.trans taken.ahead

variable {scope' : Set RecordId}

/-- A step in a scope is one in any larger scope. -/
theorem Step.mono (taken : Step context owner scope before after) (larger : scope ⊆ scope') :
    Step context owner scope' before after := by
  cases taken with
  | mark acts marks => exact .mark (larger acts) marks
  | type acts unset suits shaped => exact .type (larger acts) unset suits shaped
  | plan acts shape => exact .plan (larger acts) shape
  | nest acts made places => exact .nest (larger acts) made places
  | note other notes => exact .note other notes

/-- Steps in a scope are steps in any larger scope. -/
theorem Steps.mono (steps : Steps context owner scope before after) (larger : scope ⊆ scope') :
    Steps context owner scope' before after :=
  Relation.ReflTransGen.mono (fun _ _ taken => Step.mono taken larger) _ _ steps

/-- A step leaves the records outside of its scope alone. -/
theorem Step.record_eq (taken : Step context owner scope before after) {id : RecordId}
    (outside : id ∉ scope) : after.ledger.record id = before.ledger.record id := by
  -- A record outside of the scope is not the one that is acted on.
  have apart {other : RecordId} (acts : other ∈ scope) : id ≠ other := by
    rintro rfl
    exact outside acts
  cases taken with
  | mark acts marks => exact Ledger.record_update_of_ne (apart acts)
  | type acts unset suits shaped => exact Ledger.record_update_of_ne (apart acts)
  | plan acts shape =>
    rw [Model.record_plan_eq_update]
    exact Ledger.record_update_of_ne (apart acts)
  | nest acts made places => rfl
  | note other notes => rfl

/-- A class that a step nests is made from a record of its scope. -/
theorem Step.nested_mem (taken : Step context owner scope before after) {other : DeclarationId}
    {nested : NestedClass} (member : nested ∈ (after.declaration other).nested) :
    nested ∈ (before.declaration other).nested ∨ other = owner ∧ nested.record ∈ scope := by
  cases taken with
  | mark acts marks => exact .inl member
  | type acts unset suits shaped => exact .inl member
  | plan acts shape =>
    -- Plans and notes change no list of nested classes.
    rw [Model.declaration_plan_eq_update,
      Model.field_updateDeclaration Declaration.nested rfl] at member
    exact .inl member
  | nest acts made places =>
    rw [Model.declaration_updateDeclaration] at member
    split at member
    · rename_i same
      -- Among the classes of the owner, only the one that was nested is new.
      rcases Array.mem_push.mp member with earlier | new
      · exact .inl (same.1 ▸ earlier)
      · exact .inr ⟨same.1, new ▸ acts⟩
    · exact .inl member
  | note id notes =>
    rw [Model.field_updateDeclaration Declaration.nested (by rw [notes.same])] at member
    exact .inl member

/-- Classes that steps nest are made from records of their scope. -/
theorem Steps.nested_mem (steps : Steps context owner scope before after) {other : DeclarationId}
    {nested : NestedClass} (member : nested ∈ (after.declaration other).nested) :
    nested ∈ (before.declaration other).nested ∨ other = owner ∧ nested.record ∈ scope := by
  -- A class was nested by the last step or was there before it.
  induction steps with
  | refl => exact .inl member
  | tail _ taken ih => exact (taken.nested_mem member).elim ih .inr

/-- Steps leave the records outside of their scope alone. -/
theorem Steps.record_eq (steps : Steps context owner scope before after) {id : RecordId}
    (outside : id ∉ scope) : after.ledger.record id = before.ledger.record id := by
  induction steps with
  | refl => rfl
  | tail _ taken ih => exact (taken.record_eq outside).trans ih

/-- A step of one class leaves what other classes hold alone. -/
theorem Step.keeps (taken : Step context owner scope before after) {other : DeclarationId}
    (apart : other ≠ owner) : (before.declaration other).Keeps (after.declaration other) := by
  cases taken with
  | mark acts marks => exact .refl _
  | type acts unset suits shaped => exact .refl _
  -- Every other kind of step acts on the owner alone.
  | plan acts shape =>
    rw [Model.declaration_plan_eq_update, Model.declaration_updateDeclaration_of_ne apart]
    exact .refl _
  | nest acts made places =>
    rw [Model.declaration_updateDeclaration_of_ne apart]
    exact .refl _
  | note id notes =>
    -- Only relations between classes are noted, whatever class they are noted about.
    refine Model.rel_updateDeclaration Declaration.Keeps.refl ?_
    rw [notes.same]
    exact ⟨rfl, rfl, rfl, rfl⟩

/-- Steps of one class leave what other classes hold alone. -/
theorem Steps.keeps (steps : Steps context owner scope before after) {other : DeclarationId}
    (apart : other ≠ owner) : (before.declaration other).Keeps (after.declaration other) := by
  induction steps with
  | refl => exact .refl _
  | tail _ taken ih => exact ih.trans (taken.keeps apart)

end Modelling

end SchemaClasses
