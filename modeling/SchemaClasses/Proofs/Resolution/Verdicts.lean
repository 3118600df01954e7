import SchemaClasses.Proofs.Catalogue.Closure
import SchemaClasses.Proofs.Resolution.Decisions
import SchemaClasses.Proofs.Resolution.Presence

/-! What a run makes of the values in its classes: which of them have a custom class, what becomes of texts
that could name constants where no enum is promoted, and which of them share a nested class. -/

namespace SchemaClasses

/-! Custom classes. -/

/-- Where nothing is mapped, nothing is found. -/
theorem CustomClassTables.lookup_of_isEmpty {tables : CustomClassTables} (empty : tables.isEmpty = true)
    (locations formats : List String) (extensions : List (String × Json)) :
    tables.lookup locations formats extensions = none := by
  -- Tables are empty if all three of them are.
  simp only [isEmpty, Keyed.isEmpty, Bool.and_eq_true, List.isEmpty_iff] at empty
  obtain ⟨⟨uri, format⟩, extension⟩ := empty
  have atLocation (location : String) : tables.atLocation? location = none := by
    simp [atLocation?, uri]
  have atFormat (name : String) : tables.format.find? name = none := by
    simp [Keyed.find?, format]
  have atExtension (name : String) (value : Json) : tables.atExtension? name value = none := by
    -- Only a text is looked up, and the table of extensions is empty.
    unfold atExtension?
    cases value.text? <;> simp [Keyed.find?, extension]
  simp [lookup, List.findSome?_eq_none_iff.mpr fun location _ => atLocation location,
    List.findSome?_eq_none_iff.mpr fun name _ => atFormat name,
    List.findSome?_eq_none_iff.mpr fun (entry : String × Json) _ => atExtension entry.1 entry.2]

/-- The class that is mapped to a value: by the location of its schema, else by that of the schema which
this refers to itself, else by a format or by an extension. -/
def Context.mapped? (context : Context) (record : Record) : Option CustomClass :=
  context.settings.customClasses.lookup
    ((record.schema.toList ++ (record.schema.bind context.tree.target?).toList).map context.tree.location)
    record.formats record.extensions

namespace Model

variable {context : Context} {model : Model} {id holder : RecordId}

/-- A value links to the schema that its own schema refers to. -/
theorem Reasoned.target_eq (reasoned : model.Reasoned context)
    (leads : (model.ledger.record holder).LeadsTo id) :
    (model.ledger.record id).target = (model.ledger.record id).schema.bind context.tree.target? := by
  refine (reasoned.linked holder id leads).resolve_right fun negative => ?_
  rw [reasoned.placed.positive holder id leads] at negative
  cases negative.2

/-- The custom class of a value is the one that is mapped to it. -/
theorem Reasoned.customClass?_eq (reasoned : model.Reasoned context)
    (leads : (model.ledger.record holder).LeadsTo id) :
    context.customClass? model.ledger id = context.mapped? (model.ledger.record id) := by
  unfold Context.customClass? Ledger.customClass? Context.mapped?
  dsimp only
  rw [Record.isNegation, reasoned.placed.positive holder id leads, reasoned.target_eq leads]
  cases empty : context.settings.customClasses.isEmpty with
  | true => exact (CustomClassTables.lookup_of_isEmpty empty _ _ _).symm
  | false => rfl

/-- A type is a custom class for a record of which the shape is one. -/
theorem typeOf_eq_custom_iff {name : String} :
    model.typeOf id = .custom name ↔
      ∃ custom, (model.ledger.record id).shape = some (.reference (.custom custom)) ∧
        custom.className = name := by
  unfold typeOf typeWithin
  dsimp only
  -- The type is read off the shape, so the shapes are gone through.
  cases held : (model.ledger.record id).shape with
  | none => simp
  | some shape =>
    cases shape with
    | reference type => cases type <;> simp
    | _ => simp

/-- A value has a custom class where one is mapped to it. -/
theorem Reasoned.typeOf_eq_custom_iff (reasoned : model.Reasoned context)
    (leads : (model.ledger.record holder).LeadsTo id)
    (shaped : (model.ledger.record id).shape.isSome = true) {name : String} :
    model.typeOf id = .custom name ↔
      ∃ custom, context.mapped? (model.ledger.record id) = some custom ∧ custom.className = name := by
  obtain ⟨shape, held⟩ := Option.isSome_iff_exists.mp shaped
  -- By the reason of its shape, the value is mapped exactly where the type is custom.
  rw [Model.typeOf_eq_custom_iff, ← reasoned.customClass?_eq leads, held]
  cases reasoned.shapes holder id shape leads held with
  | custom mapped => simp [mapped]
  | typed unmapped typed =>
    -- A shape that comes from a type refers to a class of the run.
    obtain ⟨ref, rfl, -⟩ := reasoned.types id _ typed
    simp [unmapped]
  | inferred unmapped => simp [unmapped, Ledger.inferShape_ne_reference]

end Model

/-! Elements that could name constants. -/

/-- A text that could be promoted is plain text where it is not. -/
theorem Ledger.inferShape_false_of_identifierEnum {ledger : Ledger} {id : RecordId}
    (enum : ledger.inferShape id true = .identifierEnum) :
    ledger.inferShape id false = .string ∧ (ledger.record id).textEnumeration?.isSome = true := by
  have implied := inferShape_of_identifierEnum enum
  rw [implied] at enum ⊢
  unfold Record.stringShape at enum ⊢
  -- The promotion can only come from the list of texts.
  split at enum
  · cases enum
  · refine ⟨by simp, ?_⟩
    unfold Record.isIdentifierEnum at enum
    cases texts : (ledger.record id).textEnumeration? with
    | none => simp [texts] at enum
    | some texts => rfl

/-- What becomes of an element without a custom class whose texts could all name constants: it is plain text
that is compared with them, or its schema refers to one that a class answers for. -/
inductive Model.KeepsTexts (context : Context) (model : Model) (id : RecordId) : Prop where
  | checked (typed : model.typeOf id = .string) (checks : model.ledger.ChecksTexts id)
  | linked {target : SchemaId} {ref : ClassRef}
      (refers : (model.ledger.record id).schema.bind context.tree.target? = some target)
      (answers : model.Answers context target ref)
      (typed : model.typeOf id = .generated (model.classPath ref))

namespace Model

variable {context : Context} {model : Model} {id holder : RecordId}

/-- Enums of elements are not promoted; a class that an element has comes from its reference. -/
theorem Reasoned.keepsTexts (reasoned : model.Reasoned context)
    (element : (model.ledger.record holder).HasElement id)
    (shaped : (model.ledger.record id).shape.isSome = true)
    (unmapped : context.mapped? (model.ledger.record id) = none)
    (enum : model.ledger.inferShape id true = .identifierEnum) : model.KeepsTexts context id := by
  have leads : (model.ledger.record holder).LeadsTo id := element.leadsTo
  -- If enums are not promoted, the shape is that of a text.
  obtain ⟨text, texts⟩ := Ledger.inferShape_false_of_identifierEnum enum
  obtain ⟨shape, held⟩ := Option.isSome_iff_exists.mp shaped
  rw [← reasoned.customClass?_eq leads] at unmapped
  cases reasoned.shapes holder id shape leads held with
  -- A custom class would be one that the value is mapped to.
  | custom mapped =>
    rw [unmapped] at mapped
    cases mapped
  | typed _ typed =>
    obtain ⟨ref, rfl, lends⟩ := reasoned.types id _ typed
    -- The type was lent by the declaration or by the class of an object.
    cases lends holder element with
    | linked refers answers =>
      refine .linked ((reasoned.target_eq leads).symm.trans refers) answers ?_
      simp [typeOf, typeWithin, held]
    -- Plain texts are no objects.
    | object own =>
      rw [text] at own
      cases own
  | @inferred promoteEnums _ property =>
    -- Only properties are promoted.
    cases promoteEnums with
    | true =>
      obtain ⟨parent, held⟩ := property rfl
      exact absurd element (reasoned.placed.not_hasElement held)
    -- Without promotion the texts are left to the checks.
    | false =>
      rw [text] at held
      refine .checked ?_ (reasoned.checks holder id element held texts)
      simp [typeOf, typeWithin, held]

end Model

/-! Shared classes. -/

/-- Whether the type of a value is a class nested in a declaration that is no variant. -/
structure Model.HasNested (model : Model) (owner : DeclarationId) (index : Nat) (id : RecordId) :
    Prop where
  leads : ∃ holder, (model.ledger.record holder).LeadsTo id
  shape : (model.ledger.record id).shape = some (.reference (.generated (.nested owner index)))
  plain : ∃ nested, (model.declaration owner).nested[index]? = some nested ∧ nested.isVariant = false

/-- The schema that a value refers to itself, if any. -/
def Model.refersTo (model : Model) (context : Context) (id : RecordId) : Option SchemaId :=
  (model.ledger.record id).schema.bind context.tree.target?

namespace Model

variable {context : Context} {first model : Model} {owner : DeclarationId} {a b id : RecordId}
variable {i j : Nat}

/-- A value refers to the same schema as the record that its nested class was made for; without a reference
both stand for one schema. -/
theorem Reasoned.exists_nested (reasoned : model.Reasoned context) (sane : model.Sane context)
    (has : model.HasNested owner i id) :
    ∃ nested, (model.declaration owner).nested[i]? = some nested ∧
      nested.target = model.refersTo context id ∧
      (nested.target = none → nested.origin = (model.ledger.record id).schema) := by
  obtain ⟨⟨holder, leads⟩, shape, nested, there, plain⟩ := has
  -- The class was pushed for a value with a target of its own.
  obtain ⟨⟨holder', leads'⟩, target⟩ := reasoned.plain owner nested (Array.mem_of_getElem? there) plain
  have made := (sane.nested owner i nested there).2.origin
  refine ⟨nested, there, ?_⟩
  unfold refersTo
  rw [← reasoned.target_eq leads]
  -- The type of the value suits it by its schema or by its target.
  cases sane.suits id _ (sane.shaped id _ shape) with
  | @origin _ _ nested' schema there' own same =>
    rw [there] at there'
    cases there'
    -- Records for the same schema link alike.
    refine ⟨?_, fun _ => same.trans own.symm⟩
    rw [target, reasoned.target_eq leads', reasoned.target_eq leads, own, ← made, same]
  -- Both targets are the one that the value refers to.
  | @target _ _ nested' target' there' refers same =>
    rw [there] at there'
    cases there'
    refine ⟨same.trans refers.symm, fun none => ?_⟩
    rw [none] at same
    cases same

/-- No two nested classes are reached through the same reference. -/
theorem index_eq_of_target {declaration : Declaration} (orderly : declaration.Orderly)
    {nested nested' : NestedClass} (there : declaration.nested[i]? = some nested)
    (there' : declaration.nested[j]? = some nested') (known : nested.target ≠ none)
    (same : nested.target = nested'.target) : i = j := by
  -- Targets are distinct in pairs, which excludes both orders of two numbers.
  have apart {i j : Nat} {nested nested' : NestedClass} (there : declaration.nested[i]? = some nested)
      (there' : declaration.nested[j]? = some nested') (known : nested.target ≠ none)
      (same : nested.target = nested'.target) : ¬i < j := by
    intro earlier
    obtain ⟨inside, rfl⟩ := Array.getElem?_eq_some_iff.mp there
    obtain ⟨inside', rfl⟩ := Array.getElem?_eq_some_iff.mp there'
    exact List.pairwise_iff_getElem.mp orderly.targets i j inside inside' earlier
      (Option.isSome_iff_ne_none.mpr known) same
  exact Nat.le_antisymm (Nat.not_lt.mp (apart there' there (same ▸ known) same.symm))
    (Nat.not_lt.mp (apart there there' known same))

/-- Two values have the same nested class exactly if their own schemas refer to the same one, or both refer
to none and are the same. -/
theorem Reasoned.hasNested_iff (reasoned : model.Reasoned context) (sane : model.Sane context)
    (orderly : (model.declaration owner).Orderly) (has : model.HasNested owner i a)
    (has' : model.HasNested owner j b) :
    i = j ↔ model.refersTo context a = model.refersTo context b ∧
      (model.refersTo context a = none →
        (model.ledger.record a).schema = (model.ledger.record b).schema) := by
  obtain ⟨nested, there, target, origin⟩ := reasoned.exists_nested sane has
  obtain ⟨nested', there', target', origin'⟩ := reasoned.exists_nested sane has'
  -- The same class has the same target and the same origin.
  constructor
  · rintro rfl
    rw [there] at there'
    cases there'
    refine ⟨target.symm.trans target', fun none => ?_⟩
    rw [← target] at none
    exact (origin none).symm.trans (origin' none)
  · -- The other way, the classes have the same target at least.
    rintro ⟨same, schema⟩
    have same' : nested.target = nested'.target := (target.trans same).trans target'.symm
    -- A class for a target is known by that, any other by the schema that it was made for.
    cases known : nested.target with
    | none =>
      have made := (origin known).trans (schema (target ▸ known))
      exact (sane.links owner).distinct i j nested nested' there there'
        (made.trans (origin' (same' ▸ known)).symm)
    | some schema => exact index_eq_of_target orderly there there' (by simp [known]) same'

end Model

/-! All runs. -/

/-- What is known at the end of a run: all was decided for a reason, classes suit their records, and nested
classes are in order. -/
structure Model.Judged (context : Context) (model : Model) : Prop where
  reasoned : model.Reasoned context
  sane : model.Sane context
  closed : model.Closed
  orderly : ∀ owner, (model.declaration owner).Orderly

namespace Model

variable {context : Context} {model : Model} {made value : RecordId}

/-- An analysis of a class leads to its values. -/
theorem Values.leadsTo (values : model.Values made value) :
    ∃ holder, (model.ledger.record holder).LeadsTo value := by
  cases values with
  | member held => exact ⟨made, .inl held⟩
  | @items array _ _ _ held => exact ⟨array, .inr held⟩

end Model

namespace Modelling

open Model

variable {context : Context}

/-- Every run that succeeds ends so. -/
theorem judged_build {roots : List RootSchema} :
    Ends (build context roots) {} (fun _ last => last.Judged context) (fun _ => True) := by
  -- Classes are in order from the declarations on and stay so during resolution.
  have orderly : Ends (build context roots) {}
      (fun _ last => ∀ owner, (last.declaration owner).Orderly) (fun _ => True) := by
    rw [build, ends_bind]
    refine declared_roots.imp (fun _ first declared => ?_) fun _ _ => trivial
    exact (proceeds_resolve declared).mono fun _ _ proceeding => proceeding.arranged.orderly
  -- Three facts about the same run are joined.
  refine ((reasoned_build.and estates_build).and orderly).imp (fun _ last done => ?_) fun _ _ => trivial
  obtain ⟨⟨reasoned, _, _, estates⟩, orderly⟩ := done
  exact ⟨reasoned, estates.sane, estates.closed, orderly⟩

/-- A value of a class has a custom class exactly where the tables of a run map one to its schema, to the
schema that this refers to itself, or to a format or an extension gathered for it. The location of a schema
further along a chain of references is not looked up. -/
theorem customises_build {roots : List RootSchema} :
    Ends (build context roots) {}
      (fun _ last => ∀ owner : DeclarationId, owner.index < last.declarations.size → ∀ made,
        last.Makes owner .concrete made → ∀ value, last.Values made value → ∀ name,
          last.typeOf value = .custom name ↔
            ∃ custom, context.mapped? (last.ledger.record value) = some custom ∧ custom.className = name)
      (fun _ => True) := by
  refine judged_build.mono fun _ last judged owner inside made makes value values name => ?_
  -- A value of a class has been given its shape.
  obtain ⟨shape, shaped, -⟩ := (judged.closed.values owner inside made makes value values).settled
  obtain ⟨holder, leads⟩ := values.leadsTo
  exact judged.reasoned.typeOf_eq_custom_iff leads (Option.isSome_iff_exists.mpr ⟨shape, shaped⟩)

/-- Elements keep their texts: in a class of a run, the items of an array and the values of properties
without a name are never promoted to an enum of their own. One whose texts could all name constants is plain
text that is compared with them, unless its schema refers to one for which a class is declared, or to one for
which a class is nested already. -/
theorem keepsTexts_build {roots : List RootSchema} :
    Ends (build context roots) {}
      (fun _ last => ∀ owner : DeclarationId, owner.index < last.declarations.size → ∀ made,
        last.Makes owner .concrete made → ∀ value, last.Values made value →
          (∃ holder, (last.ledger.record holder).HasElement value) →
          context.mapped? (last.ledger.record value) = none →
          last.ledger.inferShape value true = .identifierEnum → last.KeepsTexts context value)
      (fun _ => True) := by
  refine judged_build.mono fun _ last judged owner inside made makes value values element => ?_
  -- Elements have theirs as well, as they are values of the class.
  obtain ⟨shape, shaped, -⟩ := (judged.closed.values owner inside made makes value values).settled
  obtain ⟨holder, element⟩ := element
  exact judged.reasoned.keepsTexts element (Option.isSome_iff_exists.mpr ⟨shape, shaped⟩)

/-- Two values with classes nested in one declaration have the same one exactly if their own schemas refer
to the same schema, or are the same and refer to none. Where chains of references only meet further along,
the classes differ. -/
theorem shares_build {roots : List RootSchema} :
    Ends (build context roots) {}
      (fun _ last => ∀ owner i j a b, last.HasNested owner i a → last.HasNested owner j b →
        (i = j ↔ last.refersTo context a = last.refersTo context b ∧
          (last.refersTo context a = none →
            (last.ledger.record a).schema = (last.ledger.record b).schema)))
      (fun _ => True) :=
  judged_build.mono fun _ _ judged owner _ _ _ _ has has' =>
    judged.reasoned.hasNested_iff judged.sane (judged.orderly owner) has has'

end Modelling

end SchemaClasses
