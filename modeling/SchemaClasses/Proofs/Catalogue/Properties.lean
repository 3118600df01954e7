import SchemaClasses.Proofs.Catalogue.Closure
import SchemaClasses.Proofs.Resolution.Decisions
import SchemaClasses.Proofs.Resolution.Presence

/-! The properties of a class. They have different names, and each has the identifier that the language
makes of its name; different names may share an identifier, as no class keeps track of those that it has.
What a property inherits: its base class has a property of the same name with the same type, but for the
items of arrays, which each class analyses anew. Which properties are required, and what stands in for the
others, which may be absent. -/

namespace SchemaClasses

/-- Whether the properties of a class are told apart by their names, which their identifiers follow. -/
structure ClassBody.Labelled (body : ClassBody) (language : Language) : Prop where
  names : (body.properties.map (·.name)).Nodup
  identifiers : ∀ property ∈ body.properties,
    property.identifier = fieldName property.name language

namespace ClassBody.Labelled

variable {body : ClassBody} {language : Language}

/-- The identifiers of a class are those that its names have in the language. -/
theorem map_identifier (labelled : body.Labelled language) :
    body.properties.map (·.identifier) =
      (body.properties.map (·.name)).map fun name => fieldName name language := by
  rw [List.map_map]
  exact List.map_congr_left labelled.identifiers

/-- The identifiers of a class are different just if the language makes different ones of its names. -/
theorem nodup_identifiers_iff (labelled : body.Labelled language) :
    (body.properties.map (·.identifier)).Nodup ↔
      ∀ a ∈ body.properties, ∀ b ∈ body.properties,
        fieldName a.name language = fieldName b.name language → a.name = b.name := by
  -- The names differ, so that only the map to identifiers could let two of them meet.
  rw [labelled.map_identifier, List.nodup_map_iff_inj_on labelled.names]
  simp only [List.forall_mem_map]

/-- Names that are identifiers themselves, none of them reserved, are never mixed up. -/
theorem nodup_identifiers (labelled : body.Labelled language)
    (plain : ∀ property ∈ body.properties,
      isIdentifier property.name = true ∧ language.isReserved property.name = false) :
    (body.properties.map (·.identifier)).Nodup := by
  -- Such names are their own identifiers.
  refine labelled.nodup_identifiers_iff.mpr fun a held b held' same => ?_
  rwa [fieldName_of_isIdentifier (plain a held).1 (plain a held).2,
    fieldName_of_isIdentifier (plain b held').1 (plain b held').2] at same

end ClassBody.Labelled

namespace Model

variable {model : Model} {language : Language} {kind : ClassKind} {id : RecordId}

/-- A class that is made for a record bears the names of its properties. -/
theorem labelled_bodyOf (named : model.ledger.Named) :
    (model.bodyOf language kind id).Labelled language := by
  cases kind with
  | concrete =>
    refine ⟨?_, fun property member => ?_⟩
    · -- All properties have names, so none is called by default.
      have same : (model.bodyOf language .concrete id).properties.map (·.name) =
          (model.ledger.names id).map (·.getD "") := by
        simp only [bodyOf, Ledger.names, List.map_map]
        rfl
      rw [same]
      refine (named.nodup id).map_on fun name held other held' equal => ?_
      cases name with
      | none => exact absurd held (named.named id)
      | some name =>
        cases other with
        | none => exact absurd held' (named.named id)
        | some other => exact congrArg some equal
    · -- The identifier is made of the same name when the property is.
      obtain ⟨source, -, rfl⟩ := List.mem_map.mp member
      rfl
  -- No other class has properties.
  | enumeration => exact ⟨List.nodup_nil, fun _ member => absurd member List.not_mem_nil⟩
  | interface => exact ⟨List.nodup_nil, fun _ member => absurd member List.not_mem_nil⟩

end Model

namespace Modelling

open Model

variable {context : Context}

/-- In the catalogue of every run, the properties of each class, at any depth, have different names, and
the identifiers that the language makes of them. -/
theorem labelled_build {roots : List RootSchema} :
    Ends (build context roots) {}
      (fun _ last => ∀ language, ∀ top ∈ last.entries language, ∀ entry, top.Contains entry →
        entry.body.Labelled language)
      (fun _ => True) := by
  refine estates_build.imp (fun _ last built language top member entry contains => ?_)
    fun _ _ => trivial
  obtain ⟨first, homes, estates⟩ := built
  -- An entry at any depth shows the class of one record.
  obtain ⟨owner, -, rfl⟩ := mem_entries.mp member
  obtain ⟨kind, made, shows⟩ := exists_shows contains
  rw [shows.body]
  exact labelled_bodyOf estates.named

end Modelling

/-- A document in which two properties differ by a hyphen and an underscore. -/
def hyphenSources : List SourceDocument :=
  [{ uri := "a"
     content := .object [("type", .string "object"),
       ("properties", .object [("a-b", .object [("type", .string "string")]),
         ("a_b", .object [("type", .string "string")])])] }]

/-- Properties with different names may have one identifier, in every language. -/
theorem not_nodup_identifiers_hyphenSources :
    ∃ roots tree last, (readRoots hyphenSources).run {} = .ok roots tree ∧
      (Modelling.build { tree } roots).run {} = .ok () last ∧
        ∀ language, ∃ top ∈ last.entries language,
          ¬ (top.body.properties.map (·.identifier)).Nodup := by
  -- Both names become the same identifier, whatever the language.
  have clash : (built? hyphenSources).any fun last =>
      Language.all.all fun language =>
        (last.entries language).any fun top =>
          decide (¬ (top.body.properties.map (·.identifier)).Nodup) := by
    decide +kernel
  obtain ⟨last, built, clash⟩ := (Option.any_eq_true _ _).mp clash
  obtain ⟨roots, tree, read, ran⟩ := exists_run_of_built? built
  refine ⟨roots, tree, last, read, ran, fun language => ?_⟩
  obtain ⟨top, member, apart⟩ := List.any_eq_true.mp
    (List.all_eq_true.mp clash language (by cases language <;> decide))
  exact ⟨top, member, of_decide_eq_true apart⟩

namespace Model

variable {context : Context} {model : Model} {id a b : RecordId}

/-- What a record itself tells of the type of an element: the custom class that is mapped to it, and the shape
that its keywords imply. -/
def told (context : Context) (model : Model) (id : RecordId) : Option CustomClass × Shape :=
  (context.customClass? model.ledger id, model.ledger.inferShape id false)

/-- Whether the type of a record is a generated class. -/
def IsClassed (model : Model) (id : RecordId) : Prop :=
  ∃ ref, (model.ledger.record id).shape = some (.reference (.generated ref))

/-- How the types of two values may differ that are compared item by item: only from where on one of them is a
generated class, or the records of two elements tell different types, or one of two arrays has no items. -/
inductive Concordant (context : Context) (model : Model) : RecordId → RecordId → Prop where
  | same {a b : RecordId} (same : model.typeOf a = model.typeOf b) : Concordant context model a b
  | classed {a b : RecordId} (classed : model.IsClassed a ∨ model.IsClassed b) :
    Concordant context model a b
  | restated {a b : RecordId} (differs : model.told context a ≠ model.told context b) :
    Concordant context model a b
  | bare {a b : RecordId} (bare : (model.ledger.record a).items = none ∨
      (model.ledger.record b).items = none) : Concordant context model a b
  | arrays {a b items items' : RecordId} (typed : model.typeOf a = .array (model.typeOf items))
      (typed' : model.typeOf b = .array (model.typeOf items'))
      (within : Concordant context model items items') : Concordant context model a b

/-- An element has the shape that its record tells, or a generated class. -/
theorem Reasoned.shape_element (reasoned : model.Reasoned context) {holder : RecordId} {shape : Shape}
    (element : (model.ledger.record holder).HasElement id)
    (shaped : (model.ledger.record id).shape = some shape) :
    model.IsClassed id ∨ shape = match model.told context id with
      | (some custom, _) => .reference (.custom custom)
      | (none, implied) => implied := by
  -- Its shape is a mapped one, one of a reference, or inferred from what it says itself.
  unfold told
  cases reasoned.shapes holder id shape element.leadsTo shaped with
  | custom mapped => exact .inr (by rw [mapped])
  | typed _ typed =>
    -- A settled type is only ever that of a generated class.
    obtain ⟨ref, rfl, -⟩ := reasoned.types id _ typed
    exact .inl ⟨ref, shaped⟩
  | @inferred promoteEnums unmapped property =>
    -- Only properties are promoted, and no element is one.
    cases promoteEnums with
    | true =>
      obtain ⟨parent, held⟩ := property rfl
      exact absurd element (reasoned.placed.not_hasElement held)
    | false => exact .inr (by rw [unmapped])

/-- Values of one shape have one type, but for the items of arrays. -/
theorem Stacked.concordant {bound : Nat} (stacked : model.Stacked bound)
    (low : bound ≤ model.ledger.size)
    (same : (model.ledger.record a).shape = (model.ledger.record b).shape)
    (inner : (model.ledger.record a).shape = some .array → ∀ items items',
      (model.ledger.record a).items = some items → (model.ledger.record b).items = some items' →
        model.Concordant context items items') : model.Concordant context a b := by
  have typed := @Stacked.typeOf_eq model a bound stacked low
  have typed' := @Stacked.typeOf_eq model b bound stacked low
  by_cases array : (model.ledger.record a).shape = some .array
  · rw [array] at typed
    rw [← same, array] at typed'
    -- Two arrays without items on one side agree on what is there of both.
    cases held : (model.ledger.record a).items with
    | none => exact .bare (.inl held)
    | some items =>
      cases held' : (model.ledger.record b).items with
      | none => exact .bare (.inr held')
      | some items' =>
        rw [held] at typed
        rw [held'] at typed'
        exact .arrays typed typed' (inner array items items' held held')
  · -- Items make no difference to any other shape.
    refine .same ?_
    rw [typed, typed', ← same]
    cases shaped : (model.ledger.record a).shape with
    | none => rfl
    | some shape =>
      cases shape with
      | array => exact absurd shaped array
      | reference type => cases type <;> rfl
      | _ => rfl

/-- Two elements of classes have types that differ only for a reason. -/
theorem Closed.concordant (closed : model.Closed) (reasoned : model.Reasoned context) {bound : Nat}
    (stacked : model.Stacked bound) (low : bound ≤ model.ledger.size)
    {owner owner' : DeclarationId} {made made' : RecordId}
    (inside : owner.index < model.declarations.size) (inside' : owner'.index < model.declarations.size)
    (makes : model.Makes owner .concrete made) (makes' : model.Makes owner' .concrete made')
    (values : model.Values made a) (values' : model.Values made' b) {holder holder' : RecordId}
    (element : (model.ledger.record holder).HasElement a)
    (element' : (model.ledger.record holder').HasElement b) : model.Concordant context a b := by
  -- Items lie less deep than their array, so the induction is on the depth of the first value.
  generalize deep : depth bound a = steps
  induction steps using Nat.strong_induction_on generalizing a b holder holder' with
  | _ steps ih =>
    by_cases differs : model.told context a = model.told context b
    · obtain ⟨shape, shaped, -⟩ := (closed.values owner inside made makes a values).settled
      obtain ⟨shape', shaped', -⟩ := (closed.values owner' inside' made' makes' b values').settled
      rcases reasoned.shape_element element shaped with classed | told
      · exact .classed (.inl classed)
      rcases reasoned.shape_element element' shaped' with classed | told'
      · exact .classed (.inr classed)
      -- What the records tell is the same, and neither has a class.
      have same : (model.ledger.record a).shape = (model.ledger.record b).shape := by
        rw [shaped, shaped', told, told', differs]
      refine stacked.concordant low same fun array items items' held held' => ?_
      exact ih _ (deep ▸ stacked.depth_items held) (.items values array held)
        (.items values' (same ▸ array) held') (.inl held) (.inl held') rfl
    · exact .restated differs

end Model

/-- Whether a property of the catalogue entry of a class is that of a record which has its like in the base
class: a property of the same name. -/
def Model.Inherits (model : Model) (language : Language) (id : DeclarationId) (property : Property)
    (alike : RecordId → RecordId → Prop) : Prop :=
  ∃ base, (model.declaration id).base = some base ∧
    ∃ source origin, model.propertyOf language source = property ∧
      model.propertyOf language origin ∈ (model.entryOf language (model.declaration base)).body.properties ∧
        (model.propertyOf language origin).name = property.name ∧ alike source origin

namespace Modelling

open Model

variable {context : Context} {first middle last : Model} {told : List Comparison}
variable {done : Set DeclarationId} {id : DeclarationId} {property base : RecordId}

/-- The records of declarations keep the properties that they were declared with. -/
theorem Branching.properties_eq (branching : Branching context first last)
    (declared : first.Declared) (inside : id.index < first.declarations.size) :
    (last.ledger.record (last.declaration id).record).properties =
      (first.ledger.record (first.declaration id).record).properties := by
  rw [(branching.grows id).record]
  exact (branching.ledger.record _ (declared.root id inside).1).properties_eq

/-- A property of a class that has a base property was compared for that class. -/
theorem owner_eq (rest : AtRest context first done done told middle) (declared : first.Declared)
    {comparison : Comparison} (member : comparison ∈ told)
    (inside : id.index < first.declarations.size)
    (owned : comparison.property ∈ (first.ledger.record (first.declaration id).record).properties) :
    comparison.owner = id := by
  have known := rest.progress.compared comparison member
  -- No record is a property of two records, and no record has two classes declared for it.
  have same := declared.sound.forest.single _ _ _ (Record.mem_children.mpr (.inl known.owned))
    (Record.mem_children.mpr (.inl owned))
  exact declared.apart _ _ known.declared inside same

/-- What is compared with belongs to a concrete class: nothing inside the record of another class is
analysed. -/
theorem kind_eq_of_compared (rest : AtRest context first done done told middle)
    (declared : first.Declared) {comparison : Comparison} (member : comparison ∈ told) :
    (first.declaration comparison.base).kind = .concrete := by
  -- Every comparison was made with a property that the base has a shape for.
  have known := rest.progress.compared comparison member
  have held : comparison.baseProperty ∈
      (first.ledger.record (first.declaration comparison.base).record).children :=
    Record.mem_children.mpr (.inl known.inherited)
  -- Were the base of another kind, none of its values would have been analysed.
  by_contra other
  obtain ⟨shape, -, shaped⟩ := known.shaped
  have behind := (declared.sound.forest.inside _ _ held).1
  have unshaped := rest.progress.bare comparison.base (rest.inside _ known.done) other
    comparison.baseProperty (Ledger.mem_scope_of_child Ledger.mem_scope_self held) fun same => by
      rw [same] at behind
      exact absurd behind (Nat.lt_irrefl _)
  rw [unshaped] at shaped
  cases shaped

end Modelling

/-- What is known of a property that has a base property: it has the name and the shape of that one, which is a
property of a class that is the base of each declaration that the property is one of. -/
structure Model.Descends (model : Model) (property base : RecordId) : Prop where
  named : (model.ledger.record base).name = some ((model.ledger.record property).name.getD "")
  shape : (model.ledger.record property).shape = (model.ledger.record base).shape
  owned : ∃ owner : DeclarationId, owner.index < model.declarations.size ∧
    (model.declaration owner).kind = .concrete ∧
    base ∈ (model.ledger.record (model.declaration owner).record).properties ∧
    ∀ id : DeclarationId, id.index < model.declarations.size →
      property ∈ (model.ledger.record (model.declaration id).record).properties →
      (model.declaration id).base = some owner

namespace Modelling

open Model

variable {context : Context} {first middle last : Model} {told : List Comparison}
variable {done : Set DeclarationId} {id : DeclarationId} {property base holder : RecordId}

/-- A property of a class descends from the base property that it has. -/
theorem descends_of_turns (rest : AtRest context first done done told middle)
    (declared : first.Declared) (turns : Turns context first middle last)
    (held : property ∈ (last.ledger.record holder).properties)
    (linked : (last.ledger.record property).baseProperty = some base) : last.Descends property base := by
  have branching := (rest.progress.branching declared).turns turns
  have carried := (rest.carried declared).turns turns
  obtain ⟨named, shape, shaped, shaped'⟩ := branching.paired holder property base held linked
  -- The base property was compared with this very property, or with one that it is a copy of.
  obtain ⟨comparison, member, rfl, -, own⟩ := carried.linked property base linked
  have stands := carried.stands comparison member
  refine ⟨named, shaped.trans shaped'.symm, comparison.base, ?_, ?_, stands.inherited, ?_⟩
  · rw [branching.declarations]
    exact rest.inside _ (rest.progress.compared comparison member).done
  · exact (branching.grows _).kind.trans (kind_eq_of_compared rest declared member)
  · intro id inside owned
    -- The link is that of the comparison itself unless the property is a copy.
    have same : comparison.property = property := own ((carried.owners id inside).2 property owned)
    have declared' : id.index < first.declarations.size := branching.declarations ▸ inside
    have owner : comparison.owner = id := by
      refine owner_eq rest declared member declared' ?_
      rw [same, ← branching.properties_eq declared declared']
      exact owned
    exact owner ▸ stands.based

/-- Every property with a base property descends from it at the end of a run. -/
theorem descends_build {roots : List RootSchema} :
    Ends (build context roots) {}
      (fun _ last => (∃ bound, last.Stacked bound ∧ bound ≤ last.ledger.size) ∧
        ∀ holder property base, property ∈ (last.ledger.record holder).properties →
          (last.ledger.record property).baseProperty = some base → last.Descends property base)
      (fun _ => True) := by
  -- The run is told together with what it compares, and each comparison knows the base property.
  rw [← tells_comparingBuild, ends_map, comparingBuild, ends_bind]
  refine declared_roots.imp (fun _ first declared => ?_) fun _ _ => trivial
  refine (ends_comparingResolve declared).imp (fun told last resolved => ?_) fun _ _ => trivial
  obtain ⟨done, middle, rest, turns⟩ := resolved
  have branching := (rest.progress.branching declared).turns turns
  exact ⟨⟨_, branching.stacked, branching.ledger.size_le⟩, fun holder property base held linked =>
    descends_of_turns rest declared turns held linked⟩

/-- Every inherited property of a class has one of the same name in the base class, and so has wherever else a
property with a base property lies in a class, as in a variant. Their types are the same, but for the items of
arrays, which each class analyses anew: at any depth these may differ from where on one of them has a class of
its own, or their records tell different types. -/
theorem inherits_build {roots : List RootSchema} :
    Ends (build context roots) {}
      (fun _ last =>
        (∀ language, ∀ id : DeclarationId, id.index < last.declarations.size →
          ∀ property ∈ (last.entryOf language (last.declaration id)).body.properties,
            property.inherited = true →
              last.Inherits language id property (last.Concordant context)) ∧
        ∀ owner : DeclarationId, owner.index < last.declarations.size → ∀ made,
          last.Makes owner .concrete made → ∀ property ∈ (last.ledger.record made).properties,
            ∀ base, (last.ledger.record property).baseProperty = some base →
              (last.ledger.record base).name = some ((last.ledger.record property).name.getD "") ∧
                last.Concordant context property base)
      (fun _ => True) := by
  refine ((descends_build.and closed_build).and reasoned_build).imp (fun _ last known => ?_)
    fun _ _ => trivial
  obtain ⟨⟨⟨⟨bound, stacked, low⟩, descends⟩, closed⟩, reasoned⟩ := known
  -- What both parts need is that the types agree from a property to its base.
  have concordant (owner : DeclarationId) (inside : owner.index < last.declarations.size)
      (made : RecordId) (makes : last.Makes owner .concrete made) (property base : RecordId)
      (held : property ∈ (last.ledger.record made).properties)
      (linked : (last.ledger.record property).baseProperty = some base) :
      last.Concordant context property base := by
    obtain ⟨-, shape, origin, present, concrete, inherited, -⟩ := descends made property base held linked
    have makes' : last.Makes origin .concrete (last.declaration origin).record := concrete ▸ .declared
    -- The properties themselves have one shape, and the items of arrays are elements of both classes.
    refine stacked.concordant low shape fun array items items' listed listed' => ?_
    exact closed.concordant reasoned stacked low inside present makes makes'
      (.items (.member (.inl held)) array listed)
      (.items (.member (.inl inherited)) (shape ▸ array) listed') (.inl listed) (.inl listed')
  refine ⟨fun language id inside property held inherited => ?_,
    fun owner inside made makes property held base linked =>
      ⟨(descends made property base held linked).named,
        concordant owner inside made makes property base held linked⟩⟩
  -- The property is made from a record, which has a base property.
  cases kind : (last.declaration id).kind with
  | enumeration => simp [entryOf, bodyOf, kind] at held
  | interface => simp [entryOf, bodyOf, kind] at held
  | concrete =>
    simp only [entryOf, bodyOf, kind] at held
    obtain ⟨source, owned, rfl⟩ := List.mem_map.mp held
    obtain ⟨base, linked⟩ := Option.isSome_iff_exists.mp inherited
    -- The class that is extended lists the base property, as it is concrete too.
    obtain ⟨named, -, origin, -, concrete, listed, based⟩ := descends _ source base owned linked
    refine ⟨origin, based id inside owned, source, base, rfl, ?_, ?_,
      concordant id inside _ (kind ▸ .declared) source base owned linked⟩
    · simp only [entryOf, bodyOf, concrete]
      exact List.mem_map_of_mem listed
    · show (last.ledger.record base).name.getD "" = _
      rw [named]
      rfl

end Modelling

/-- Whether every inherited property has the type of the one in the base class. -/
def Model.InheritsTypes (model : Model) : Prop :=
  ∀ language, ∀ id : DeclarationId, id.index < model.declarations.size →
    ∀ property ∈ (model.entryOf language (model.declaration id)).body.properties,
      property.inherited = true →
        model.Inherits language id property fun source origin => model.typeOf source = model.typeOf origin

/-- Two documents: a class with an array of objects, and one that extends it. -/
def extendingArraySources : List SourceDocument :=
  [{ uri := "a"
     content := .object [("type", .string "object"), ("properties", .object [("list",
       .object [("type", .string "array"), ("items", .object [("type", .string "object"),
         ("properties", .object [("x", .object [("type", .string "string")])])])])])] },
   { uri := "b"
     content := .object [("allOf", .array [.object [("$ref", .string "a")]])] }]

/-- The items of an inherited array get a class of their own in the class that inherits it. -/
theorem not_inheritsTypes_extendingArraySources :
    ∃ roots tree last, (readRoots extendingArraySources).run {} = .ok roots tree ∧
      (Modelling.build { tree } roots).run {} = .ok () last ∧ ¬ last.InheritsTypes := by
  -- That the types differ is computed for the second document, which extends the first.
  have differs : (built? extendingArraySources).any fun last => decide
      (1 < last.declarations.size ∧ (last.declaration ⟨1⟩).base = some ⟨0⟩ ∧
        ∃ property ∈ (last.entryOf .java (last.declaration ⟨1⟩)).body.properties,
          property.inherited = true ∧
            ∀ inherited ∈ (last.entryOf .java (last.declaration ⟨0⟩)).body.properties,
              inherited.name = property.name → property.type ≠ inherited.type) := by
    decide +kernel
  obtain ⟨last, built, differs⟩ := (Option.any_eq_true _ _).mp differs
  obtain ⟨roots, tree, read, ran⟩ := exists_run_of_built? built
  refine ⟨roots, tree, last, read, ran, fun inherits => ?_⟩
  -- Every property of that name in the base class has another type.
  obtain ⟨inside, based, property, held, marked, other⟩ := of_decide_eq_true differs
  obtain ⟨base, based', source, origin, rfl, held', named, same⟩ :=
    inherits .java ⟨1⟩ inside property held marked
  rw [based] at based'
  cases based'
  exact other _ held' named same

namespace Model

/-- Whether a class of the catalogue accounts for its properties: those are required that the record of
the class lists by name, and each other one is nullable or has a default value of a kind that serves. -/
structure Accounts (model : Model) (serves : DefaultValue → Prop) (language : Language)
    (entry : ClassEntry) : Prop where
  /-- The class is made for a record. -/
  shown : ∃ owner : DeclarationId, owner.index < model.declarations.size ∧
    ∃ kind made, model.Shows language owner entry kind made
  /-- Whichever record it is made for lists the names of the required properties. -/
  required : ∀ owner : DeclarationId, owner.index < model.declarations.size → ∀ kind made,
    model.Shows language owner entry kind made → ∀ property ∈ entry.body.properties,
      (property.required = true ↔ property.name ∈ (model.ledger.record made).required)
  /-- Something stands in for each of the others. -/
  absent : ∀ property ∈ entry.body.properties, property.required = false →
    property.nullable = true ∨ ∃ value, property.default = some value ∧ serves value

variable {model first : Model} {language : Language} {owner : DeclarationId} {entry : ClassEntry}
variable {kind : ClassKind} {id made holder : RecordId}

/-- A property of a class is one of the record that the class is made for, and the class is concrete. -/
theorem exists_of_mem_properties {property : Property}
    (member : property ∈ (model.bodyOf language kind made).properties) :
    kind = .concrete ∧ ∃ id ∈ (model.ledger.record made).properties,
      property = model.propertyOf language id := by
  -- Only the projection of a concrete class has properties.
  cases kind with
  | concrete =>
    obtain ⟨id, held, rfl⟩ := List.mem_map.mp member
    exact ⟨rfl, id, held, rfl⟩
  | enumeration => exact absurd member List.not_mem_nil
  | interface => exact absurd member List.not_mem_nil

/-- A record requires a property that has a name if it lists that. -/
theorem requires_iff_mem (named : model.ledger.Named)
    (held : id ∈ (model.ledger.record holder).properties) :
    model.ledger.Requires holder id ↔
      (model.propertyOf language id).name ∈ (model.ledger.record holder).required := by
  obtain ⟨name, called⟩ := Option.ne_none_iff_exists'.mp fun absent =>
    named.named holder (List.mem_map.mpr ⟨id, held, absent⟩)
  have called : (model.ledger.record id).name = some name := called
  simp [Ledger.Requires, Record.isListed, propertyOf, called]

/-- Something stands in for a record that is not required where it is a property of a class. -/
theorem stands_of_isCovered (covered : (model.ledger.record id).IsCovered)
    (optional : (model.propertyOf language id).required = false) :
    (model.propertyOf language id).nullable = true ∨
      ∃ value, (model.propertyOf language id).default = some value := by
  rcases covered with marked | nullable | default
  · rw [propertyOf, marked] at optional
    cases optional
  · exact .inl (beq_iff_eq.mpr nullable)
  · exact .inr (Option.isSome_iff_exists.mp default)

end Model

namespace Modelling

open Model

variable {context : Context} {first last : Model} {owner : DeclarationId} {made : RecordId}

/-- A concrete class was entered when all members were analysed. -/
theorem Proceeding.entered (proceeding : Proceeding first last)
    (inside : owner.index < last.declarations.size) (makes : last.Makes owner .concrete made) :
    last.Entered made := by
  generalize concrete : ClassKind.concrete = kind at makes
  cases makes with
  | declared =>
    exact .declared concrete.symm (proceeding.begun owner (proceeding.arranged.size ▸ inside))
  | nested member => exact .nested member concrete.symm

/-- Whatever documents say, every class of a run accounts for its properties: those are required whose
names are merged into the record of the class, and each other one is nullable or has a default, which may
be null. -/
theorem accounts_build {roots : List RootSchema} :
    Ends (build context roots) {}
      (fun _ last => ∀ language, ∀ top ∈ last.entries language, ∀ entry, top.Contains entry →
        last.Accounts (fun _ => True) language entry)
      (fun _ => True) := by
  -- Two facts of the run are used: how classes were entered, and that each is in its home.
  have resolved : Ends (build context roots) {} (fun _ last => ∃ first, Proceeding first last)
      (fun _ => True) := by
    rw [build, ends_bind]
    refine declared_roots.imp (fun _ first declared => ?_) fun _ _ => trivial
    exact (proceeds_resolve declared).mono fun _ _ proceeding => ⟨first, proceeding⟩
  refine (resolved.and estates_build).imp (fun _ last done => ?_) fun _ _ => trivial
  obtain ⟨⟨first, proceeding⟩, _, _, estates⟩ := done
  intro language top member entry contains
  -- A property of a class that was entered is marked if it is listed, and it is covered.
  have known {owner : DeclarationId} {kind : ClassKind} {made : RecordId} {property : Property}
      (inside : owner.index < last.declarations.size)
      (shows : last.Shows language owner entry kind made) (held : property ∈ entry.body.properties) :
      ∃ id ∈ (last.ledger.record made).properties, property = last.propertyOf language id ∧
        last.Entered made := by
    rw [shows.body] at held
    obtain ⟨rfl, id, inner, rfl⟩ := exists_of_mem_properties held
    exact ⟨id, inner, rfl, proceeding.entered inside shows.makes⟩
  have shown := exists_shows_of_mem_entries member contains
  refine ⟨shown, fun owner inside kind made shows property held => ?_, fun property held optional => ?_⟩
  · -- The marks of an entered class are those of its listed names, and names are unique.
    obtain ⟨id, inner, rfl, entered⟩ := known inside shows held
    rw [← requires_iff_mem estates.named inner]
    exact proceeding.tidy.isRequired_iff proceeding.arranged entered inner
  · -- What is not marked was made nullable or has a default.
    obtain ⟨owner, inside, kind, made, shows⟩ := shown
    obtain ⟨id, inner, rfl, entered⟩ := known inside shows held
    have covered := proceeding.tidy.covered entered inner
    refine (stands_of_isCovered covered optional).imp_right fun stands => ?_
    obtain ⟨value, given⟩ := stands
    exact ⟨value, given, trivial⟩

end Modelling

/-- A document whose property has a null default that its schema does not admit. -/
def nullDefaultSources : List SourceDocument :=
  [{ uri := "a"
     content := .object [("type", .string "object"), ("properties", .object [("p",
       .object [("type", .string "string"), ("default", .null)])])] }]

/-- A null default counts as a default, so that the property does not become nullable. -/
theorem not_accounts_nullDefaultSources :
    ∃ roots tree last, (readRoots nullDefaultSources).run {} = .ok roots tree ∧
      (Modelling.build { tree } roots).run {} = .ok () last ∧
      ¬ ∀ language, ∀ top ∈ last.entries language, ∀ entry, top.Contains entry →
        last.Accounts (· ≠ .null) language entry := by
  -- The default is computed to be null, while the property is not made nullable.
  have differs : (built? nullDefaultSources).any fun last =>
      (last.entries .kotlin).any fun entry => entry.body.properties.any fun property =>
        !property.required && !property.nullable && property.default == some .null := by
    decide +kernel
  obtain ⟨last, built, differs⟩ := (Option.any_eq_true _ _).mp differs
  obtain ⟨roots, tree, read, ran⟩ := exists_run_of_built? built
  refine ⟨roots, tree, last, read, ran, fun accounts => ?_⟩
  simp only [List.any_eq_true, Bool.and_eq_true, Bool.not_eq_true'] at differs
  obtain ⟨entry, member, property, held, ⟨optional, bare⟩, null⟩ := differs
  -- The property is not nullable, and the only default that it has is null.
  rcases (accounts .kotlin entry member entry .self).absent property held optional with
    nullable | ⟨value, given, other⟩
  · rw [bare] at nullable
    cases nullable
  · rw [given] at null
    cases value with
    | null => exact other rfl
    | _ => exact absurd null Bool.false_ne_true

end SchemaClasses
