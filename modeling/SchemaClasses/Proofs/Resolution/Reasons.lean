import SchemaClasses.Proofs.Negation.Checks
import SchemaClasses.Proofs.Resolution.Elements

/-! Why the value of a record has its shape, and why an element has its class: the reasons for which a
resolution decides them, and what single changes leave of them. -/

namespace SchemaClasses

/-! Nothing that a resolution does changes what a shape is told by. -/

/-- A later state of a record of which nothing has changed that its shape is told by, that has lost neither
properties nor elements, and that has kept a class that was decided. -/
structure Record.Abides (before after : Record) : Prop where
  record : after =
    { before with
      nullable := after.nullable
      required := after.required
      properties := after.properties
      patternProperties := after.patternProperties
      typeRef := after.typeRef
      shape := after.shape
      isRequired := after.isRequired
      baseProperty := after.baseProperty
      extended := after.extended
      overrides := after.overrides
      mapBacked := after.mapBacked }
  properties : before.properties ⊆ after.properties
  patterns : after.patternProperties.map (·.record) = before.patternProperties.map (·.record)
  typeRef : ∀ type, before.typeRef = some type → after.typeRef = some type

namespace Record.Abides

variable {a b c : Record} {id : RecordId}

theorem refl (record : Record) : record.Abides record :=
  ⟨rfl, List.Subset.refl _, rfl, fun _ held => held⟩

theorem trans (first : a.Abides b) (second : b.Abides c) : a.Abides c :=
  ⟨by rw [second.record, first.record], List.Subset.trans first.properties second.properties,
    second.patterns.trans first.patterns, fun type held => second.typeRef type (first.typeRef type held)⟩

/-- What is not among what a resolution decides stays as it is. -/
theorem field {α : Type} (abides : a.Abides b) (field : Record → α)
    (kept : ∀ (record : Record) nullable required properties patternProperties typeRef shape isRequired
      baseProperty extended overrides mapBacked,
      field { record with
        nullable, required, properties, patternProperties, typeRef, shape, isRequired, baseProperty,
        extended, overrides, mapBacked } = field record) : field b = field a := by
  rw [abides.record]
  exact kept ..

/-- Elements stay where they are. -/
theorem hasElement (abides : a.Abides b) : b.HasElement id ↔ a.HasElement id := by
  unfold HasElement
  rw [abides.patterns, abides.field Record.items fun _ _ _ _ _ _ _ _ _ _ _ _ => rfl,
    abides.field Record.additional fun _ _ _ _ _ _ _ _ _ _ _ _ => rfl]

/-- An analysis goes on to all that it went on to before. -/
theorem leadsTo (abides : a.Abides b) (leads : a.LeadsTo id) : b.LeadsTo id := by
  rw [leadsTo_iff] at leads ⊢
  exact leads.imp (fun held => abides.properties held) abides.hasElement.mpr

end Record.Abides

/-- A later model in which all records abide, and those that an analysis leads to have kept their
properties. -/
structure Model.Abides (before after : Model) : Prop where
  size_le : before.ledger.size ≤ after.ledger.size
  declarations : after.declarations.size = before.declarations.size
  grows : ∀ id, (before.declaration id).Grows (after.declaration id)
  record : ∀ id : RecordId, id.index < before.ledger.size →
    (before.ledger.record id).Abides (after.ledger.record id)
  properties : ∀ holder id : RecordId, (before.ledger.record holder).LeadsTo id →
    (after.ledger.record id).properties = (before.ledger.record id).properties

/-- An analysis of a record leads on only from one that is there. -/
theorem Ledger.lt_size_of_leadsTo {ledger : Ledger} {holder id : RecordId}
    (leads : (ledger.record holder).LeadsTo id) : holder.index < ledger.size := by
  by_contra absent
  rw [record_of_size_le (Nat.le_of_not_lt absent)] at leads
  rcases leads with (property | pattern | additional) | items
  · exact absurd property List.not_mem_nil
  · exact absurd pattern List.not_mem_nil
  · cases additional
  · cases items

namespace Model.Abides

variable {a b c model before after : Model} {id holder : RecordId}

theorem refl (model : Model) : model.Abides model :=
  ⟨Nat.le_refl _, rfl, fun _ => .refl _, fun _ _ => .refl _, fun _ _ _ => rfl⟩

/-- An analysis goes on to all that it went on to before. -/
theorem leadsTo (abides : a.Abides b) (leads : (a.ledger.record holder).LeadsTo id) :
    (b.ledger.record holder).LeadsTo id :=
  (abides.record holder (Ledger.lt_size_of_leadsTo leads)).leadsTo leads

theorem trans (first : a.Abides b) (second : b.Abides c) : a.Abides c where
  size_le := Nat.le_trans first.size_le second.size_le
  declarations := second.declarations.trans first.declarations
  grows id := (first.grows id).trans (second.grows id)
  record id present := (first.record id present).trans
    (second.record id (Nat.lt_of_lt_of_le present first.size_le))
  properties holder id leads :=
    (second.properties holder id (first.leadsTo leads)).trans (first.properties holder id leads)

/-- A record changes and abides. -/
theorem updateRecord {change : Record → Record}
    (abides : (model.ledger.record id).Abides (change (model.ledger.record id)))
    (same : (change (model.ledger.record id)).properties = (model.ledger.record id).properties) :
    model.Abides (model.updateRecord id change) where
  size_le := Nat.le_of_eq Ledger.size_update.symm
  declarations := rfl
  grows _ := .refl _
  record _ _ := Ledger.rel_update Record.Abides.refl abides
  properties _ _ _ := Ledger.field_update Record.properties same

/-- A declaration grows. -/
theorem updateDeclaration {owner : DeclarationId} {change : Declaration → Declaration}
    (grows : (model.declaration owner).Grows (change (model.declaration owner))) :
    model.Abides (model.updateDeclaration owner change) where
  size_le := Nat.le_refl _
  declarations := size_updateDeclaration
  grows _ := rel_updateDeclaration Declaration.Grows.refl grows
  record _ _ := .refl _
  properties _ _ _ := rfl

/-- A record is planned. -/
theorem plan {context : Context} {owner : DeclarationId} {shape : Shape} :
    model.Abides (model.plan context owner id shape) where
  size_le := Nat.le_of_eq size_plan.symm
  declarations := declarations_size_plan
  grows other := by
    rw [declaration_plan_eq_update]
    exact rel_updateDeclaration Declaration.Grows.refl
      ⟨rfl, rfl, rfl, List.prefix_rfl, planned_grows.constants, planned_grows.libraryTypes,
        planned_grows.numbered⟩
  record other _ := by
    -- A plan writes into the record that it is for, and there only what grows.
    have grows : Plan.Grows _ (model.planned context owner id shape) := planned_grows
    rw [record_plan_eq_update]
    refine Ledger.rel_update Record.Abides.refl ⟨?_, ?_, ?_, fun type held => ?_⟩
    · -- The other parts of the record are the same.
      rw [grows.record]
    · rw [grows.record]
      exact List.Subset.refl _
    · -- Patterns are given constants, but they lead to the records that they led to.
      have pairs := congrArg (List.map (·.2)) grows.patternProperties
      simpa only [List.map_map, Function.comp_def] using pairs
    · rw [grows.record]
      exact held
  properties _ _ _ := field_plan Record.properties fun _ _ _ => rfl

/-- Checks change, and no record. -/
theorem updateChecks {change : CheckSet → CheckSet} :
    model.Abides (model.withLedger (model.ledger.updateChecks id change)) where
  size_le := Nat.le_refl _
  declarations := rfl
  grows _ := .refl _
  record _ _ := .refl _
  properties _ _ _ := rfl

end Model.Abides

section Telling

variable {context : Context} {before after : Ledger} {id : RecordId}

/-- The custom class of a record that abides is the same. -/
theorem Record.Abides.customClass?_eq (abides : (before.record id).Abides (after.record id)) :
    context.customClass? after id = context.customClass? before id := by
  unfold Context.customClass? Ledger.customClass?
  rw [abides.record]
  rfl

/-- The shape that keywords imply is the same for a record that abides, if its properties are and it is no
negation. -/
theorem Record.Abides.inferShape_eq (abides : (before.record id).Abides (after.record id))
    (positive : (before.record id).negationOf = none)
    (same : (after.record id).properties = (before.record id).properties) (promoteEnums : Bool) :
    after.inferShape id promoteEnums = before.inferShape id promoteEnums := by
  -- Types are effective by the record and what it negates, and it negates nothing.
  have types : after.effectiveTypes id = before.effectiveTypes id := by
    unfold Ledger.effectiveTypes
    rw [abides.record]
    simp only [positive]
  unfold Ledger.inferShape
  dsimp only
  rw [types, same, abides.record]
  rfl

end Telling

/-! What the shape of a value is decided by. -/

/-- Why the value of a record has its shape: a custom class is mapped to the record, else a class was
decided for it, else its keywords imply the shape, where enums are promoted for properties only. -/
inductive Context.Shapes (context : Context) (ledger : Ledger) (id : RecordId) : Shape → Prop where
  | custom {custom : CustomClass} (mapped : context.customClass? ledger id = some custom) :
      Shapes context ledger id (.reference (.custom custom))
  | typed {type : TypeRef} (unmapped : context.customClass? ledger id = none)
      (held : (ledger.record id).typeRef = some type) : Shapes context ledger id (.reference type)
  | inferred {promoteEnums : Bool} (unmapped : context.customClass? ledger id = none)
      (property : promoteEnums = true → ∃ holder, id ∈ (ledger.record holder).properties) :
      Shapes context ledger id (ledger.inferShape id promoteEnums)

/-- A shape is decided by what a classification looks at. -/
theorem Context.shapes_classify {context : Context} {ledger : Ledger} {id : RecordId}
    {promoteEnums : Bool}
    (property : promoteEnums = true → ∃ holder, id ∈ (ledger.record holder).properties) :
    context.Shapes ledger id (context.classify ledger id promoteEnums) := by
  unfold classify Ledger.classify
  -- A custom class comes first, a decided type next, and else the keywords are asked.
  split
  · rename_i mapped
    exact .custom mapped
  · rename_i unmapped held
    exact .typed unmapped held
  · rename_i unmapped _
    exact .inferred unmapped property

/-- How a class answers a reference: it is declared for the schema that this leads to, or it was nested for a
record that refers to the same one. -/
inductive Model.Answers (context : Context) (model : Model) (target : SchemaId) : ClassRef → Prop where
  | declared {declared : DeclarationId}
      (stands : model.declarationFor? context.tree target = some declared) :
      Answers context model target (.declaration declared)
  | nested {owner : DeclarationId} {index : Nat} {nested : NestedClass}
      (there : (model.declaration owner).nested[index]? = some nested)
      (same : nested.target = some target) : Answers context model target (.nested owner index)

/-- How an element comes by a class: one answers its reference, or it is an object itself. -/
inductive Model.Lends (context : Context) (model : Model) (id : RecordId) (ref : ClassRef) : Prop where
  | linked {target : SchemaId} (refers : (model.ledger.record id).target = some target)
      (answers : model.Answers context target ref)
  | object (own : model.ledger.inferShape id false = .object)

/-- Whether the checks of a record compare its value with an enumeration of texts. -/
def Ledger.ChecksTexts (ledger : Ledger) (id : RecordId) : Prop :=
  ∃ check ∈ (ledger.checks id).items, check.kind = .enumString ∧ check.negated = false

/-- A model in which shapes and classes were decided for a reason: those of the records that an analysis
leads to, among which are no records of declarations and variants. -/
structure Model.Reasoned (context : Context) (model : Model) : Prop where
  placed : model.ledger.Placed
  roots : ∀ owner : DeclarationId, owner.index < model.declarations.size →
    (model.declaration owner).record.index < model.ledger.size ∧
      ∀ holder, ¬(model.ledger.record holder).LeadsTo (model.declaration owner).record
  present : ∀ owner, ∀ nested ∈ (model.declaration owner).nested,
    nested.record.index < model.ledger.size
  variants : ∀ owner, ∀ nested ∈ (model.declaration owner).nested, nested.isVariant = true →
    ∀ holder, ¬(model.ledger.record holder).LeadsTo nested.record
  plain : ∀ owner, ∀ nested ∈ (model.declaration owner).nested, nested.isVariant = false →
    (∃ holder, (model.ledger.record holder).LeadsTo nested.record) ∧
      nested.target = (model.ledger.record nested.record).target
  linked : ∀ holder id, (model.ledger.record holder).LeadsTo id →
    (model.ledger.record id).IsLinked context.tree
  shapes : ∀ holder id shape, (model.ledger.record holder).LeadsTo id →
    (model.ledger.record id).shape = some shape → context.Shapes model.ledger id shape
  types : ∀ id type, (model.ledger.record id).typeRef = some type →
    ∃ ref, type = .generated ref ∧
      ∀ holder, (model.ledger.record holder).HasElement id → model.Lends context id ref
  checks : ∀ holder id, (model.ledger.record holder).HasElement id →
    (model.ledger.record id).shape = some .string →
    (model.ledger.record id).textEnumeration?.isSome = true → model.ledger.ChecksTexts id

namespace Model

variable {context : Context} {before after model : Model} {holder id : RecordId}

/-- What decides a shape goes on doing so. -/
theorem Abides.shapes (abides : before.Abides after) (placed : before.ledger.Placed)
    (leads : (before.ledger.record holder).LeadsTo id) {shape : Shape}
    (shapes : context.Shapes before.ledger id shape) : context.Shapes after.ledger id shape := by
  -- What a reason looks at is the standing of the record, which abides.
  have record := abides.record id (placed.present leads)
  cases shapes with
  | custom mapped => exact .custom (record.customClass?_eq.trans mapped)
  | typed unmapped held =>
    exact .typed (record.customClass?_eq.trans unmapped) (record.typeRef _ held)
  | @inferred promoteEnums unmapped property =>
    -- Keywords imply the same shape, because members and sign of the record are the same.
    rw [← record.inferShape_eq (placed.positive holder id leads) (abides.properties holder id leads)]
    refine .inferred (record.customClass?_eq.trans unmapped) fun promotes => ?_
    obtain ⟨other, held⟩ := property promotes
    have leads' : (before.ledger.record other).LeadsTo id := Record.leadsTo_of_mem held
    exact ⟨other, (abides.record other (Ledger.lt_size_of_leadsTo leads')).properties held⟩

/-- A class that answers a reference goes on doing so. -/
theorem Abides.answers (abides : before.Abides after) {target : SchemaId} {ref : ClassRef}
    (answers : before.Answers context target ref) : after.Answers context target ref := by
  cases answers with
  | declared stands =>
    refine .declared ?_
    rw [declarationFor?_congr abides.declarations fun other => (abides.grows other).schema]
    exact stands
  | nested there same => exact .nested ((abides.grows _).getElem?_nested there) same

/-- A class that an element has come by it may have come by later as well. -/
theorem Abides.lends (abides : before.Abides after) (placed : before.ledger.Placed)
    (element : (before.ledger.record holder).HasElement id) {ref : ClassRef}
    (lends : before.Lends context id ref) : after.Lends context id ref := by
  have leads : (before.ledger.record holder).LeadsTo id := element.leadsTo
  have record := abides.record id (placed.present leads)
  -- A target is part of what abides.
  have target : (after.ledger.record id).target = (before.ledger.record id).target :=
    record.field Record.target fun _ _ _ _ _ _ _ _ _ _ _ _ => rfl
  cases lends with
  | linked refers answers => exact .linked (target.trans refers) (abides.answers answers)
  | object own =>
    refine .object ?_
    rw [record.inferShape_eq (placed.positive holder id leads) (abides.properties holder id leads)]
    exact own

/-- A change after which an analysis goes on to no other records keeps the reasons of a model, if what it
decides has one. -/
theorem Reasoned.change (reasoned : before.Reasoned context) (abides : before.Abides after)
    (placed : after.ledger.Placed)
    (leadsTo : ∀ holder id, (after.ledger.record holder).LeadsTo id →
      ∃ holder, (before.ledger.record holder).LeadsTo id)
    (hasElement : ∀ holder id, (after.ledger.record holder).HasElement id →
      ∃ holder, (before.ledger.record holder).HasElement id)
    (nested : ∀ owner, ∀ nested ∈ (after.declaration owner).nested,
      nested ∈ (before.declaration owner).nested ∨ nested.record.index < before.ledger.size ∧
        (nested.isVariant = true → ∀ holder, ¬(before.ledger.record holder).LeadsTo nested.record) ∧
        (nested.isVariant = false → (∃ holder, (before.ledger.record holder).LeadsTo nested.record) ∧
          nested.target = (before.ledger.record nested.record).target))
    (shapes : ∀ holder id shape, (before.ledger.record holder).LeadsTo id →
      (after.ledger.record id).shape = some shape →
      (before.ledger.record id).shape = some shape ∨ context.Shapes after.ledger id shape)
    (types : ∀ id type, (after.ledger.record id).typeRef = some type →
      (before.ledger.record id).typeRef = some type ∨ ∃ ref, type = .generated ref ∧
        ∀ holder, (before.ledger.record holder).HasElement id → after.Lends context id ref)
    (checks : ∀ holder id, (before.ledger.record holder).HasElement id →
      (after.ledger.record id).shape = some .string →
      (after.ledger.record id).textEnumeration?.isSome = true → after.ledger.ChecksTexts id ∨
        (before.ledger.record id).shape = some .string ∧
          (before.ledger.ChecksTexts id → after.ledger.ChecksTexts id)) :
    after.Reasoned context where
  placed := placed
  -- What is known of a record is known of it before the change: what leads to it now had one that led to it.
  roots owner inside := by
    -- A root had no record leading to it, and it still has none.
    obtain ⟨present, apart⟩ := reasoned.roots owner (abides.declarations ▸ inside)
    rw [(abides.grows owner).record]
    refine ⟨Nat.lt_of_lt_of_le present abides.size_le, fun holder leads => ?_⟩
    obtain ⟨holder, leads⟩ := leadsTo holder _ leads
    exact apart holder leads
  present owner class' member := Nat.lt_of_lt_of_le
    ((nested owner class' member).elim (reasoned.present owner class') And.left) abides.size_le
  variants owner class' member isVariant holder leads := by
    -- A variant made before is reached by nothing, and neither is a new one.
    obtain ⟨holder, leads⟩ := leadsTo holder _ leads
    rcases nested owner class' member with old | new
    · exact reasoned.variants owner class' old isVariant holder leads
    · exact new.2.1 isVariant holder leads
  plain owner class' member plain := by
    -- An old class and a new one were both nested for a record that was reached before.
    have before' : (∃ holder, (before.ledger.record holder).LeadsTo class'.record) ∧
        class'.target = (before.ledger.record class'.record).target :=
      (nested owner class' member).elim (fun old => reasoned.plain owner class' old plain)
        fun new => new.2.2 plain
    obtain ⟨⟨holder, leads⟩, target⟩ := before'
    refine ⟨⟨holder, abides.leadsTo leads⟩, target.trans ?_⟩
    exact ((abides.record class'.record (reasoned.placed.present leads)).field Record.target
      fun _ _ _ _ _ _ _ _ _ _ _ _ => rfl).symm
  linked holder id leads := by
    -- Links are a matter of what a record stands for, which the change keeps.
    obtain ⟨holder, leads⟩ := leadsTo holder id leads
    exact (reasoned.linked holder id leads).congr
      ((abides.record id (reasoned.placed.present leads)).field Record.standing
        fun _ _ _ _ _ _ _ _ _ _ _ _ => rfl)
  shapes holder id shape leads held := by
    -- The shape has its reason from before or a new one, and old reasons go on.
    obtain ⟨holder, leads⟩ := leadsTo holder id leads
    exact (shapes holder id shape leads held).elim
      (fun old => abides.shapes reasoned.placed leads (reasoned.shapes holder id shape leads old))
      fun new => new
  types id type held := by
    -- A type of before was lent to the elements, and is lent to them still.
    rcases types id type held with old | ⟨ref, same, lends⟩
    · obtain ⟨ref, same, lends⟩ := reasoned.types id type old
      refine ⟨ref, same, fun holder element => ?_⟩
      obtain ⟨holder, element⟩ := hasElement holder id element
      exact abides.lends reasoned.placed element (lends holder element)
    · refine ⟨ref, same, fun holder element => ?_⟩
      obtain ⟨holder, element⟩ := hasElement holder id element
      exact lends holder element
  checks holder id element held enumerated := by
    obtain ⟨holder, element⟩ := hasElement holder id element
    -- The texts are checked now, or they were checked before and the change keeps that.
    refine (checks holder id element held enumerated).elim (fun new => new) fun old => old.2 ?_
    have present := reasoned.placed.present element.leadsTo
    rw [(abides.record id present).field Record.textEnumeration? fun _ _ _ _ _ _ _ _ _ _ _ _ => rfl]
      at enumerated
    exact reasoned.checks holder id element old.1 enumerated

/-- A change that leaves all records in their places and nests no class keeps the reasons of a model, if what
it decides has one. -/
theorem Reasoned.congr (reasoned : before.Reasoned context) (abides : before.Abides after)
    (same : before.ledger.SameLayout after.ledger)
    (nested : ∀ owner, (after.declaration owner).nested = (before.declaration owner).nested)
    (shapes : ∀ holder id shape, (before.ledger.record holder).LeadsTo id →
      (after.ledger.record id).shape = some shape →
      (before.ledger.record id).shape = some shape ∨ context.Shapes after.ledger id shape)
    (types : ∀ id type, (after.ledger.record id).typeRef = some type →
      (before.ledger.record id).typeRef = some type ∨ ∃ ref, type = .generated ref ∧
        ∀ holder, (before.ledger.record holder).HasElement id → after.Lends context id ref)
    (checks : ∀ holder id, (before.ledger.record holder).HasElement id →
      (after.ledger.record id).shape = some .string →
      (after.ledger.record id).textEnumeration?.isSome = true → after.ledger.ChecksTexts id ∨
        (before.ledger.record id).shape = some .string ∧
          (before.ledger.ChecksTexts id → after.ledger.ChecksTexts id)) :
    after.Reasoned context :=
  reasoned.change abides (reasoned.placed.congr same)
    (fun holder _ leads => ⟨holder, same.leadsTo.mp leads⟩)
    (fun holder _ element => ⟨holder, same.hasElement.mp element⟩)
    (fun owner _ member => .inl (nested owner ▸ member)) shapes types checks

/-- Nothing is decided in a model as it was declared. -/
theorem Declared.reasoned (declared : model.Declared) (linked : model.ledger.Linked context.tree) :
    model.Reasoned context where
  placed := declared.sound.placed
  -- A root lies in no other record, and all that could have been decided is yet unset.
  roots owner inside := by
    -- A root is no child, while what is led to is one.
    obtain ⟨present, isRoot⟩ := declared.root owner inside
    exact ⟨present, fun holder leads => isRoot holder leads.mem_children⟩
  present owner nested member := by
    -- Nothing has been nested yet.
    rw [(declared.raw owner).nested] at member
    exact absurd member (Array.not_mem_empty _)
  variants owner nested member := by
    rw [(declared.raw owner).nested] at member
    exact absurd member (Array.not_mem_empty _)
  plain owner nested member := by
    rw [(declared.raw owner).nested] at member
    exact absurd member (Array.not_mem_empty _)
  linked _ id _ := linked id
  shapes holder id shape leads held := by
    -- No shape has been decided, and no type.
    rw [(declared.sound.raw id).shape] at held
    cases held
  types id type held := by
    rw [(declared.sound.raw id).typeRef] at held
    cases held
  checks holder id element held := by
    rw [(declared.sound.raw id).shape] at held
    cases held

/-- A property of one record becomes one of another that no analysis leads to. -/
theorem Abides.join {variant property : RecordId}
    (apart : ∀ holder, ¬(model.ledger.record holder).LeadsTo variant) :
    model.Abides (model.updateRecord variant fun record =>
      { record with properties := record.properties ++ [property] }) where
  size_le := Nat.le_of_eq Ledger.size_update.symm
  declarations := rfl
  grows _ := .refl _
  record _ _ := Ledger.rel_update Record.Abides.refl
    ⟨rfl, List.subset_append_left _ _, rfl, fun _ held => held⟩
  properties holder other leads := by
    -- The variant is led to by nothing, hence another record.
    have different : other ≠ variant := fun same => apart holder (same ▸ leads)
    rw [ledger_updateRecord, Ledger.record_update_of_ne different]

/-- Nothing is decided by that. -/
theorem Reasoned.join (reasoned : model.Reasoned context) {parent variant property : RecordId}
    (held : property ∈ (model.ledger.record parent).properties)
    (apart : ∀ holder, ¬(model.ledger.record holder).LeadsTo variant) :
    (model.updateRecord variant fun record =>
      { record with properties := record.properties ++ [property] }).Reasoned context := by
  refine reasoned.change (.join apart) (reasoned.placed.join held)
    (fun _ _ leads => Ledger.leadsTo_join held leads) (fun _ _ element => Ledger.hasElement_join held element)
    (fun _ _ member => .inl member) (fun _ other _ _ shaped => .inl ?_) (fun other _ typed => .inl ?_)
    fun _ other _ shaped _ => .inr ⟨?_, fun checks => ?_⟩
  · -- Shapes and types are not touched by a property that joins.
    rw [ledger_updateRecord, Ledger.field_update Record.shape rfl] at shaped
    exact shaped
  · rw [ledger_updateRecord, Ledger.field_update Record.typeRef rfl] at typed
    exact typed
  · rw [ledger_updateRecord, Ledger.field_update Record.shape rfl] at shaped
    exact shaped
  · -- Neither are checks.
    unfold Ledger.ChecksTexts at checks ⊢
    rw [ledger_updateRecord, Ledger.checks_update rfl]
    exact checks

section Variants

variable {container : RecordId} {origin : Option SchemaId} {copies : List RecordId} {ledger : Ledger}

/-- A variant joins with its copies, behind all records. -/
theorem Abides.vary (placed : model.ledger.Placed)
    (varies : model.ledger.Varies container origin copies ledger) :
    model.Abides (model.withLedger ledger) where
  size_le := varies.size_le
  declarations := rfl
  grows _ := .refl _
  record id present := by
    rw [ledger_withLedger, varies.record id present]
    exact .refl _
  properties holder id leads := by
    -- What is led to was there, and so it is not one of those that join.
    rw [ledger_withLedger, varies.record id (placed.present leads)]

/-- What decides the shape of a property decides that of its copy. -/
theorem shapes_copy (placed : model.ledger.Placed)
    (varies : model.ledger.Varies container origin copies ledger) {source copy : RecordId}
    (copied : copy ∈ copies) (member : source ∈ (model.ledger.record container).properties)
    (repeats : model.ledger.Repeats ledger source copy) {shape : Shape}
    (shapes : context.Shapes model.ledger source shape) : context.Shapes ledger copy shape := by
  have mapped : context.customClass? ledger copy = context.customClass? model.ledger source := by
    -- A custom class is found by the schema, which source and copy share.
    unfold Context.customClass? Ledger.customClass?
    rw [repeats.record]
    rfl
  have positive := placed.positive container source (Record.leadsTo_of_mem member)
  -- Each reason of the source is one of the copy.
  cases shapes with
  | custom custom => exact .custom (mapped.trans custom)
  | typed unmapped held =>
    refine .typed (mapped.trans unmapped) ?_
    rw [repeats.record]
    exact held
  | @inferred promoteEnums unmapped property =>
    -- A copy differs from its source only in what has no part in inferring a shape.
    have inferred : ledger.inferShape copy promoteEnums =
        model.ledger.inferShape source promoteEnums := by
      have types : ledger.effectiveTypes copy = model.ledger.effectiveTypes source := by
        unfold Ledger.effectiveTypes
        rw [repeats.record]
        simp only [positive]
      unfold Ledger.inferShape
      dsimp only
      rw [types, repeats.record]
      rfl
    rw [← inferred]
    refine .inferred (mapped.trans unmapped) fun _ => ⟨⟨model.ledger.size⟩, ?_⟩
    rw [varies.record_variant]
    exact copied

/-- A variant and its copies have what was decided for the records that they are made from. -/
theorem Reasoned.vary (reasoned : model.Reasoned context)
    (varies : model.ledger.Varies container origin copies ledger) :
    (model.withLedger ledger).Reasoned context := by
  have placed := reasoned.placed
  have abides : model.Abides (model.withLedger ledger) := .vary placed varies
  -- Copies come behind all that was there.
  have late {id : RecordId} (present : id.index < model.ledger.size) : id ∉ copies := by
    intro copied
    obtain ⟨source, -, repeats⟩ := varies.repeats id copied
    exact absurd present (Nat.not_lt.mpr repeats.late)
  -- What nothing led to is led to by nothing still.
  have apart {id : RecordId} (present : id.index < model.ledger.size)
      (apart : ∀ holder, ¬(model.ledger.record holder).LeadsTo id) (holder : RecordId) :
      ¬(ledger.record holder).LeadsTo id := fun leads =>
    (varies.leadsTo leads).elim (fun old => old.elim apart) (late present)
  refine ⟨placed.vary varies, fun owner inside => ?_, fun owner nested member => ?_,
    fun owner nested member isVariant => ?_, fun owner nested member plain => ?_,
    fun holder id leads => ?_, fun holder id shape leads held => ?_, fun id type held => ?_,
    fun holder id element held enumerated => ?_⟩
  · obtain ⟨present, leads⟩ := reasoned.roots owner inside
    -- A root is no record that joins.
    exact ⟨Nat.lt_of_lt_of_le present varies.size_le, apart present leads⟩
  · exact Nat.lt_of_lt_of_le (reasoned.present owner nested member) varies.size_le
  · exact apart (reasoned.present owner nested member) (reasoned.variants owner nested member isVariant)
  · obtain ⟨⟨holder, leads⟩, target⟩ := reasoned.plain owner nested member plain
    -- A class was nested for a record that was there, and it is as it was.
    rw [ledger_withLedger, varies.record _ (reasoned.present owner nested member)]
    exact ⟨⟨holder, abides.leadsTo leads⟩, target⟩
  · rcases varies.leadsTo leads with ⟨source, leads⟩ | copied
    · rw [ledger_withLedger, varies.record id (placed.present leads)]
      exact reasoned.linked source id leads
    · -- A copy stands for the same schema with the same link.
      obtain ⟨source, member, repeats⟩ := varies.repeats id copied
      rw [ledger_withLedger, repeats.record]
      exact reasoned.linked container source (Record.leadsTo_of_mem member)
  · rcases varies.leadsTo leads with ⟨source, leads⟩ | copied
    · -- A record from before keeps its shape and the reason for it.
      rw [ledger_withLedger, varies.record id (placed.present leads)] at held
      exact abides.shapes placed leads (reasoned.shapes source id shape leads held)
    · obtain ⟨source, member, repeats⟩ := varies.repeats id copied
      rw [ledger_withLedger, repeats.record] at held
      -- A copy has the shape of its source, for the same reason.
      exact shapes_copy placed varies copied member repeats
        (reasoned.shapes container source shape (Record.leadsTo_of_mem member) held)
  · have lent (source : RecordId) (typed : (model.ledger.record source).typeRef = some type)
        (own : id.index < model.ledger.size → source = id) : ∃ ref, type = .generated ref ∧
          ∀ holder, (ledger.record holder).HasElement id →
            (model.withLedger ledger).Lends context id ref := by
      obtain ⟨ref, same, lends⟩ := reasoned.types source type typed
      refine ⟨ref, same, fun holder element => ?_⟩
      -- The elements were there before the variant and its copies.
      obtain ⟨holder, element⟩ := varies.hasElement element
      rw [own (placed.present element.leadsTo)] at lends
      exact abides.lends placed element (lends holder element)
    rw [ledger_withLedger] at held
    -- The record was there, or it is the variant without a type, or it is a copy.
    by_cases old : id.index < model.ledger.size
    · rw [varies.record id old] at held
      exact lent id held fun _ => rfl
    · by_cases present : id.index < ledger.size
      · rcases varies.cases old present with rfl | ⟨source, -, repeats⟩
        · rw [varies.record_variant] at held
          cases held
        · rw [repeats.record] at held
          exact lent source held fun old' => absurd old' old
      · rw [Ledger.record_of_size_le (Nat.not_lt.mp present)] at held
        cases held
  · -- An element is one from before, and its checks are where they were.
    obtain ⟨source, element⟩ := varies.hasElement element
    have present := placed.present element.leadsTo
    rw [ledger_withLedger, varies.record id present] at held enumerated
    unfold Ledger.ChecksTexts
    rw [ledger_withLedger, varies.checks_eq (congrArg Record.checks (varies.record id present))
      (placed.inRange id present)]
    exact reasoned.checks source id element held enumerated

end Variants

end Model

/-! Single changes of records, and plans. -/

/-- A later state of a record about which nothing was noted that its shape or its class depends on. -/
def Record.IsRemark (before after : Record) : Prop :=
  after =
    { before with
      nullable := after.nullable
      required := after.required
      isRequired := after.isRequired
      baseProperty := after.baseProperty
      extended := after.extended
      overrides := after.overrides }

/-- A record that is reconciled is remarked upon. -/
theorem Record.isRemark_reconciled {record : Record} {required : List String} :
    record.IsRemark (record.reconciled required) := by
  unfold IsRemark
  conv_lhs => rw [reconciled_eq]
  rw [reconciled_eq]

namespace Model

variable {context : Context} {model : Model} {owner : DeclarationId} {id other : RecordId}
variable {change : Record → Record} {shape : Shape}

/-- A record that changes keeps the reasons of a model if its new shape and its new class have one. -/
theorem Reasoned.updateRecord (reasoned : model.Reasoned context)
    (abides : (model.ledger.record id).Abides (change (model.ledger.record id)))
    (layout : (change (model.ledger.record id)).layout = (model.ledger.record id).layout)
    (shapes : ∀ holder shape, (model.ledger.record holder).LeadsTo id →
      (change (model.ledger.record id)).shape = some shape →
      (model.ledger.record id).shape = some shape ∨
        shape ≠ .string ∧ context.Shapes (model.updateRecord id change).ledger id shape)
    (types : ∀ type, (change (model.ledger.record id)).typeRef = some type →
      (model.ledger.record id).typeRef = some type ∨ ∃ ref, type = .generated ref ∧
        ∀ holder, (model.ledger.record holder).HasElement id →
          (model.updateRecord id change).Lends context id ref) :
    (model.updateRecord id change).Reasoned context := by
  refine reasoned.congr (.updateRecord abides (congrFun (congrArg Prod.fst layout) .property))
    (.update layout) (fun _ => rfl) (fun holder other shape leads shaped => ?_)
    (fun other type typed => ?_) fun holder other element shaped _ => .inr ⟨?_, fun checks => ?_⟩
  · -- A shape that is not from before is that of the record that changes.
    rw [ledger_updateRecord, Ledger.record_update] at shaped
    split at shaped
    · rename_i same
      rw [same.1] at leads ⊢
      exact (shapes holder shape leads shaped).imp_right And.right
    · exact .inl shaped
  · -- The class of the record that changes has a reason, and all others are as they were.
    rw [ledger_updateRecord, Ledger.record_update] at typed
    split at typed
    · rename_i same
      rw [same.1]
      exact types type typed
    · exact .inl typed
  · rw [ledger_updateRecord, Ledger.record_update] at shaped
    split at shaped
    · rename_i same
      rw [same.1] at element ⊢
      -- No text is shaped anew, so that there is nothing more to be checked.
      exact (shapes holder _ element.leadsTo shaped).resolve_right
        fun new => new.1 rfl
    · exact shaped
  · unfold Ledger.ChecksTexts at checks ⊢
    -- The change keeps the set of the record.
    rw [ledger_updateRecord, Ledger.checks_update (congrArg (·.2.1) layout)]
    exact checks

/-- A remark about a record decides nothing. -/
theorem Reasoned.remark (reasoned : model.Reasoned context)
    (remark : (model.ledger.record id).IsRemark (change (model.ledger.record id))) :
    model.Abides (model.updateRecord id change) ∧ (model.updateRecord id change).Reasoned context := by
  have abides : (model.ledger.record id).Abides (change (model.ledger.record id)) := by
    -- A remark writes none of the fields that decide anything.
    rw [remark]
    exact ⟨rfl, List.Subset.refl _, rfl, fun _ held => held⟩
  refine ⟨.updateRecord abides (by rw [remark]), reasoned.updateRecord abides (by rw [remark]; rfl)
    (fun _ _ _ shaped => .inl ?_) fun _ typed => .inl ?_⟩
  · rw [remark] at shaped
    exact shaped
  · rw [remark] at typed
    exact typed

/-- A plan adds to the checks of all records that share its set. -/
theorem checks_prefix_plan : (model.ledger.checks other).items <+:
    ((model.plan context owner id shape).ledger.checks other).items := by
  rw [checks_plan]
  split
  · rename_i shares
    have grows : Plan.Grows _ (model.planned context owner id shape) := planned_grows
    obtain ⟨added, items, -⟩ := grows.checks
    -- Whoever shares the set of the planned record has its checks.
    have own : model.ledger.checks other = model.ledger.checks id := by
      unfold Ledger.checks
      rw [shares.1]
    rw [items, own]
    exact List.prefix_append _ _
  · exact List.prefix_rfl

/-- A plan leaves all records in their places. -/
theorem sameLayout_plan : model.ledger.SameLayout (model.plan context owner id shape).ledger where
  size := size_plan
  sets := by
    rw [plan_eq, ledger_updateDeclaration]
    exact Array.size_modify
  record other := by
    have grows : Plan.Grows _ (model.planned context owner id shape) := planned_grows
    rw [record_plan_eq_update]
    refine Ledger.field_update Record.layout ?_
    -- Only patterns are written anew, and the records under them stay the same.
    have patterns := congrArg (List.map (·.2)) grows.patternProperties
    simp only [List.map_map, Function.comp_def] at patterns
    refine Prod.ext (funext fun place => ?_) ?_
    · cases place with
      | patternProperty => exact patterns
      | _ =>
        show Prod.fst (Record.layout (model.planned context owner id shape).record) _ = _
        rw [grows.record]
        rfl
    · -- Checks and sign are those of before.
      show Prod.snd (Record.layout (model.planned context owner id shape).record) = _
      rw [grows.record]
      rfl

/-- A plan nests no class. -/
theorem nested_plan (other : DeclarationId) :
    ((model.plan context owner id shape).declaration other).nested =
      (model.declaration other).nested := by
  rw [declaration_plan_eq_update]
  exact field_updateDeclaration Declaration.nested rfl

/-- A plan decides nothing. -/
theorem Reasoned.plan (reasoned : model.Reasoned context) :
    (model.plan context owner id shape).Reasoned context := by
  refine reasoned.congr .plan sameLayout_plan nested_plan (fun _ other shape _ shaped => .inl ?_)
    (fun other _ typed => .inl ?_) fun _ other _ shaped _ => .inr ⟨?_, fun checks => ?_⟩
  · -- A plan writes neither shape nor type.
    rw [field_plan Record.shape fun _ _ _ => rfl] at shaped
    exact shaped
  · rw [field_plan Record.typeRef fun _ _ _ => rfl] at typed
    exact typed
  · rw [field_plan Record.shape fun _ _ _ => rfl] at shaped
    exact shaped
  · -- A check that was planned stays planned.
    obtain ⟨check, member, made⟩ := checks
    exact ⟨check, checks_prefix_plan.subset member, made⟩

end Model

/-- A text is compared with the texts that are enumerated for it. -/
theorem Plan.exists_enumString {plan : Plan} (location : String)
    (enumerated : plan.record.textEnumeration?.isSome = true) :
    ∃ check ∈ (plan.string location none).checks.items,
      check.kind = .enumString ∧ check.negated = plan.record.isNegation := by
  obtain ⟨texts, read⟩ := Option.isSome_iff_exists.mp enumerated
  unfold Plan.string
  dsimp only
  rw [read]
  -- The comparison is the last check, on the side that the record was on from the start.
  refine ⟨_, CheckSet.mem_add.mpr (.inr rfl), rfl, ?_⟩
  have grows : Grows plan (formats location none plan.record.formats plan).lengths.patterns :=
    ((Grows.formats location none _ plan).trans (.lengths _)).trans (.patterns _)
  cases plan.record.textConstant? with
  | none => exact grows.isNegation
  -- A constant adds a check of its own before the texts.
  | some text =>
    have constant : Grows _ (checkConstant .constString .string (.text text)
        (formats location none plan.record.formats plan).lengths.patterns) :=
      .checkConstant _ rfl (by simp)
    exact (grows.trans constant).isNegation

namespace Model

variable {context : Context} {model : Model} {owner : DeclarationId} {id : RecordId} {shape : Shape}

/-- The plan for a text compares it with the texts that are enumerated for it. -/
theorem checksTexts_plan
    (owned : (model.ledger.record id).checks.index < model.ledger.checkSets.size)
    (positive : (model.ledger.record id).negationOf = none)
    (enumerated : (model.ledger.record id).textEnumeration?.isSome = true) :
    (model.plan context owner id .string).ledger.ChecksTexts id := by
  have found : ∃ check ∈ (model.planned context owner id .string).checks.items,
      check.kind = .enumString ∧ check.negated = (model.ledger.record id).isNegation :=
    Plan.exists_enumString _ enumerated
  rw [Record.isNegation, positive] at found
  -- The set is in range, and the plan puts its checks there.
  unfold Ledger.ChecksTexts
  rw [checks_plan, if_pos ⟨rfl, owned⟩]
  exact found

/-- The shape of a record that is decided and planned has a reason if it had one before. -/
theorem Reasoned.shapeAndPlan (reasoned : model.Reasoned context)
    (shapes : ∀ holder, (model.ledger.record holder).LeadsTo id → context.Shapes model.ledger id shape) :
    model.Abides (model.shapeAndPlan context owner id shape) ∧
      (model.shapeAndPlan context owner id shape).Reasoned context := by
  have noted : (model.ledger.record id).Abides { model.ledger.record id with shape := some shape } :=
    ⟨rfl, List.Subset.refl _, rfl, fun _ held => held⟩
  -- First the shape is noted, then the plan is made, and each of the two abides.
  have abides : model.Abides (model.shapeAndPlan context owner id shape) :=
    (Abides.updateRecord noted rfl).trans .plan
  have marked : model.ledger.SameLayout (model.updateRecord id fun record =>
      { record with shape := some shape }).ledger := .update rfl
  have same : model.ledger.SameLayout (model.shapeAndPlan context owner id shape).ledger :=
    marked.trans sameLayout_plan
  have record (other : RecordId) :
      ((model.shapeAndPlan context owner id shape).ledger.record other).shape =
        if other = id ∧ id.index < model.ledger.size then some shape
        else (model.ledger.record other).shape := by
    unfold Model.shapeAndPlan
    rw [field_plan Record.shape fun _ _ _ => rfl, ledger_updateRecord, Ledger.record_update]
    split <;> rfl
  refine ⟨abides, reasoned.congr abides same (fun _ => ?_) (fun holder other shape' leads shaped => ?_)
    (fun other type typed => .inl ?_) fun holder other element shaped enumerated => ?_⟩
  · unfold Model.shapeAndPlan
    exact nested_plan _
  · -- The shape is the new one, with its reason, or one from before.
    rw [record] at shaped
    split at shaped
    · rename_i same
      cases shaped
      rw [same.1] at leads ⊢
      exact .inr (abides.shapes reasoned.placed leads (shapes holder leads))
    · exact .inl shaped
  · unfold Model.shapeAndPlan at typed
    rw [field_plan Record.typeRef fun _ _ _ => rfl, ledger_updateRecord,
      Ledger.field_update Record.typeRef rfl] at typed
    exact typed
  · rw [record] at shaped
    split at shaped
    · -- The text that is planned is an element, so it is no negation and owns a set of checks.
      rename_i here
      obtain ⟨rfl, present⟩ := here
      cases shaped
      have leads : (model.ledger.record holder).LeadsTo other := element.leadsTo
      have own : (model.updateRecord other fun record =>
          { record with shape := some .string }).ledger.record other =
            { model.ledger.record other with shape := some .string } := Ledger.record_update_self present
      refine .inl (checksTexts_plan ?_ ?_ ?_)
      · -- Its set is in range because the record is in its place.
        rw [own]
        exact reasoned.placed.inRange other present
      · rw [own]
        exact reasoned.placed.positive holder other leads
      · rw [own]
        rw [(abides.record other present).field Record.textEnumeration?
          fun _ _ _ _ _ _ _ _ _ _ _ _ => rfl] at enumerated
        exact enumerated
    · -- A text that was shaped before had its texts checked before.
      refine .inr ⟨shaped, fun checks => ?_⟩
      obtain ⟨check, member, made⟩ := checks
      refine ⟨check, checks_prefix_plan.subset ?_, made⟩
      rw [ledger_updateRecord, Ledger.checks_update rfl]
      exact member

/-- What is noted about a declaration decides nothing. -/
theorem Reasoned.note (reasoned : model.Reasoned context) {change : Declaration → Declaration}
    (grows : (model.declaration owner).Grows (change (model.declaration owner)))
    (same : (change (model.declaration owner)).nested = (model.declaration owner).nested) :
    model.Abides (model.updateDeclaration owner change) ∧
      (model.updateDeclaration owner change).Reasoned context :=
  have abides : model.Abides (model.updateDeclaration owner change) := .updateDeclaration grows
  ⟨abides, reasoned.congr abides (.refl _) (fun _ => field_updateDeclaration Declaration.nested same)
    (fun _ _ _ _ held => .inl held) (fun _ _ held => .inl held)
    fun _ _ _ held _ => .inr ⟨held, fun checks => checks⟩⟩

/-- A class may be nested for a record that is there: for a variant if no analysis leads to it, and else
for one that an analysis leads to, with its target. -/
theorem Reasoned.nest (reasoned : model.Reasoned context) {added : NestedClass}
    (present : added.record.index < model.ledger.size)
    (apart : added.isVariant = true → ∀ holder, ¬(model.ledger.record holder).LeadsTo added.record)
    (plain : added.isVariant = false → (∃ holder, (model.ledger.record holder).LeadsTo added.record) ∧
      added.target = (model.ledger.record added.record).target) :
    model.Abides (model.updateDeclaration owner fun declaration =>
      { declaration with nested := declaration.nested.push added }) ∧
    (model.updateDeclaration owner fun declaration =>
      { declaration with nested := declaration.nested.push added }).Reasoned context := by
  -- Nesting changes no record.
  have abides : model.Abides (model.updateDeclaration owner fun declaration =>
      { declaration with nested := declaration.nested.push added }) :=
    .updateDeclaration
      ⟨rfl, rfl, rfl, by simp, List.prefix_rfl, List.Subset.refl _, fun held => held⟩
  refine ⟨abides, reasoned.change abides reasoned.placed (fun holder _ leads => ⟨holder, leads⟩)
    (fun holder _ element => ⟨holder, element⟩) (fun _ nested member => ?_)
    (fun _ _ _ _ held => .inl held) (fun _ _ held => .inl held)
    fun _ _ _ held _ => .inr ⟨held, fun checks => checks⟩⟩
  -- The new class comes with what is asked of it.
  rcases Modelling.mem_push member with old | ⟨-, rfl⟩
  · exact .inl old
  · exact .inr ⟨present, apart, plain⟩

/-- A class is decided for a record that has none yet. -/
theorem Reasoned.lend (reasoned : model.Reasoned context) {ref : ClassRef}
    (unset : (model.ledger.record id).typeRef = none)
    (lends : ∀ holder, (model.ledger.record holder).HasElement id → model.Lends context id ref) :
    model.Abides (model.updateRecord id fun record => { record with typeRef := some (.generated ref) }) ∧
      (model.updateRecord id fun record =>
        { record with typeRef := some (.generated ref) }).Reasoned context := by
  have lent : (model.ledger.record id).Abides
      { model.ledger.record id with typeRef := some (.generated ref) } := by
    refine ⟨rfl, List.Subset.refl _, rfl, fun type held => ?_⟩
    -- There was no class, so none can have been lost.
    rw [unset] at held
    cases held
  have abides : model.Abides (model.updateRecord id fun record =>
      { record with typeRef := some (.generated ref) }) := .updateRecord lent rfl
  refine ⟨abides, reasoned.updateRecord lent rfl (fun _ _ _ held => .inl held) fun _ held => .inr ?_⟩
  cases held
  exact ⟨ref, rfl, fun holder element => abides.lends reasoned.placed element (lends holder element)⟩

/-- A record that has no class yet is settled on one. -/
theorem Reasoned.settle (reasoned : model.Reasoned context) {ref : ClassRef}
    (unset : (model.ledger.record id).typeRef = none)
    (unmapped : ∀ holder, (model.ledger.record holder).LeadsTo id →
      context.customClass? model.ledger id = none)
    (lends : ∀ holder, (model.ledger.record holder).HasElement id → model.Lends context id ref) :
    model.Abides (model.updateRecord id fun record =>
      { record with typeRef := some (.generated ref), shape := some (.reference (.generated ref)) }) ∧
    (model.updateRecord id fun record =>
      { record with
        typeRef := some (.generated ref)
        shape := some (.reference (.generated ref)) }).Reasoned context := by
  have settled : (model.ledger.record id).Abides
      { model.ledger.record id with
        typeRef := some (.generated ref)
        shape := some (.reference (.generated ref)) } := by
    refine ⟨rfl, List.Subset.refl _, rfl, fun type held => ?_⟩
    rw [unset] at held
    cases held
  -- The record had no class, so it gives none up.
  have abides : model.Abides (model.updateRecord id fun record =>
      { record with
        typeRef := some (.generated ref)
        shape := some (.reference (.generated ref)) }) := .updateRecord settled rfl
  refine ⟨abides, reasoned.updateRecord settled rfl (fun holder shape leads held => .inr ?_)
    fun _ held => .inr ?_⟩
  · -- The new type is the reason for the new shape.
    have present := reasoned.placed.present leads
    cases held
    refine ⟨nofun, .typed ((abides.record id present).customClass?_eq.trans (unmapped holder leads)) ?_⟩
    rw [ledger_updateRecord, Ledger.record_update_self present]
  · cases held
    exact ⟨ref, rfl, fun holder element => abides.lends reasoned.placed element (lends holder element)⟩

/-- A record gets a shape for which there is a reason; texts are planned at once. -/
theorem Reasoned.mark (reasoned : model.Reasoned context)
    (shapes : ∀ holder, (model.ledger.record holder).LeadsTo id →
      shape ≠ .string ∧ context.Shapes model.ledger id shape) :
    model.Abides (model.updateRecord id fun record => { record with shape := some shape }) ∧
      (model.updateRecord id fun record => { record with shape := some shape }).Reasoned context := by
  -- A shape is nothing that others rely on.
  have shaped : (model.ledger.record id).Abides { model.ledger.record id with shape := some shape } :=
    ⟨rfl, List.Subset.refl _, rfl, fun _ held => held⟩
  have abides : model.Abides (model.updateRecord id fun record => { record with shape := some shape }) :=
    .updateRecord shaped rfl
  refine ⟨abides, reasoned.updateRecord shaped rfl (fun holder _ leads held => .inr ?_)
    fun _ held => .inl held⟩
  cases held
  obtain ⟨noText, shapes⟩ := shapes holder leads
  exact ⟨noText, abides.shapes reasoned.placed leads shapes⟩

/-- A change of checks decides nothing if those of elements stay. -/
theorem Reasoned.updateChecks (reasoned : model.Reasoned context) {change : CheckSet → CheckSet}
    (keeps : ∀ holder element, (model.ledger.record holder).HasElement element →
      model.ledger.ChecksTexts element → (model.ledger.updateChecks id change).ChecksTexts element) :
    model.Abides (model.withLedger (model.ledger.updateChecks id change)) ∧
      (model.withLedger (model.ledger.updateChecks id change)).Reasoned context :=
  have abides : model.Abides (model.withLedger (model.ledger.updateChecks id change)) := .updateChecks
  ⟨abides, reasoned.congr abides ⟨rfl, Array.size_modify, fun _ => rfl⟩ (fun _ => rfl)
    (fun _ _ _ _ held => .inl held) (fun _ _ held => .inl held)
    fun holder element place held _ => .inr ⟨held, keeps holder element place⟩⟩

/-- Checks that a property loses are not those of an element. -/
theorem Reasoned.thin (reasoned : model.Reasoned context) {parent : RecordId}
    {change : CheckSet → CheckSet}
    (held : id ∈ (model.ledger.record parent).properties) :
    model.Abides (model.withLedger (model.ledger.updateChecks id change)) ∧
      (model.withLedger (model.ledger.updateChecks id change)).Reasoned context := by
  refine reasoned.updateChecks fun holder element place checks => ?_
  unfold Ledger.ChecksTexts at checks ⊢
  -- A property shares no set with an element.
  rw [Ledger.checks_updateChecks,
    if_neg fun same => reasoned.placed.apart holder parent element id place held same.1]
  exact checks

/-- More checks take none away. -/
theorem Reasoned.extend (reasoned : model.Reasoned context) {more : CheckSet} :
    model.Abides (model.withLedger (model.ledger.updateChecks id (·.extend more))) ∧
      (model.withLedger (model.ledger.updateChecks id (·.extend more))).Reasoned context := by
  refine reasoned.updateChecks fun _ element _ checks => ?_
  obtain ⟨check, member, made⟩ := checks
  refine ⟨check, ?_, made⟩
  rw [Ledger.checks_updateChecks]
  -- Checks that were there stand first in the set that is extended.
  split
  · rename_i shares
    have own : model.ledger.checks element = model.ledger.checks id := by
      unfold Ledger.checks
      rw [shares.1]
    exact (CheckSet.prefix_extend _ _).subset (own ▸ member)
  · exact member

end Model

end SchemaClasses
