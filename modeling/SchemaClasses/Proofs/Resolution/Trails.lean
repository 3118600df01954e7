import SchemaClasses.Proofs.Resolution.Members
import SchemaClasses.Proofs.Resolution.Nesting

/-! The parts of a resolution that analyse no other record go along trails: all that they write leaves
the nested classes in order, also where they fail. -/

namespace SchemaClasses

/-- A raw record stays settled whatever the resolution decides about it. -/
theorem Record.Settles.further {raw record decided : Record} (settles : raw.Settles record)
    (unset : raw.shape = none)
    (same : decided =
      { record with
        typeRef := decided.typeRef
        shape := decided.shape
        nullable := decided.nullable
        isRequired := decided.isRequired
        patternProperties := decided.patternProperties
        mapBacked := decided.mapBacked
        baseProperty := decided.baseProperty
        extended := decided.extended
        overrides := decided.overrides })
    (patterns : decided.patternProperties = record.patternProperties) : raw.Settles decided where
  -- None of the fields that may be decided is part of what the survey says.
  record := by rw [same, settles.record]
  patternProperties := by rw [patterns, settles.patternProperties]
  shape shape held := by
    rw [unset] at held
    cases held

namespace Ledger.Settles

variable {first ledger : Ledger}

/-- A change of a record keeps the records settled if it keeps that one settled. -/
theorem update (settles : first.Settles ledger) {id : RecordId} {change : Record → Record}
    (changed : id.index < first.size → (first.record id).Settles (change (ledger.record id))) :
    first.Settles (ledger.update id change) where
  size_le := by
    rw [size_update]
    exact settles.size_le
  record other inside := by
    rw [record_update]
    -- The changed record is settled by assumption.
    split
    · rename_i same
      rw [same.1] at inside ⊢
      exact changed inside
    · exact settles.record other inside

/-- A copy of a record joins behind all others. -/
theorem duplicate (settles : first.Settles ledger) {id : RecordId} :
    first.Settles (ledger.duplicate id).2 where
  size_le := by
    rw [size_duplicate]
    exact Nat.le_succ_of_le settles.size_le
  record other inside := by
    rw [record_duplicate_of_lt (Nat.lt_of_lt_of_le inside settles.size_le)]
    exact settles.record other inside

end Ledger.Settles

/-- Where no nested class is found for a schema and a target, none is reached through that target. -/
theorem Declaration.target_ne_of_findNested? {declaration : Declaration}
    {origin target : Option SchemaId} (absent : declaration.findNested? origin target = none)
    {nested : NestedClass} (member : nested ∈ declaration.nested) (known : nested.target.isSome) :
    nested.target ≠ target := by
  intro same
  have other := Array.findIdx?_eq_none_iff.mp absent nested member
  simp [← same, known] at other

/-- Whether classes may be nested at a site: its declaration is there, and so is the class around it. -/
structure Site.Stands (site : Site) (first model : Model) : Prop where
  declared : site.owner.index < first.declarations.size
  placed : ∀ index, site.scope = some index → index < (model.declaration site.owner).nested.size

/-- Whether a class belongs to a declaration and is the first one for its schema and its target. -/
structure Model.Fits (first model : Model) (owner : DeclarationId) (added : NestedClass) : Prop where
  stands : (⟨owner, added.parent⟩ : Site).Stands first model
  originates : first.Originates owner added
  made : added.origin.isSome
  absent : (model.declaration owner).findNested? added.origin added.target = none

/-- A class that is the first one for its schema and its target may join under a free name. -/
theorem Model.Fits.admits {first model : Model} {owner : DeclarationId} {added : NestedClass}
    (fits : first.Fits model owner added) {name : String} (identifier : isIdentifier name = true)
    (free : (model.declaration owner).isNestedNameTaken added.parent name = false) :
    (model.declaration owner).Admits { added with name } where
  parent := fits.stands.placed
  -- A class beside it with the same name would have made the name taken.
  name nested member beside same := by
    have taken := Array.any_eq_false'.mp free nested member
    exact taken (by simp [show nested.parent = added.parent from beside, show nested.name = name from same])
  origin nested member := Declaration.origin_ne_of_findNested? fits.made fits.absent member
  target nested member := Declaration.target_ne_of_findNested? fits.absent member
  made := fits.made
  identifier := identifier

/-- A declaration that is there has one more class when one is nested in it. -/
theorem Model.size_nest {model : Model} {owner : DeclarationId} {added : NestedClass}
    (inside : owner.index < model.declarations.size) :
    ((model.updateDeclaration owner fun declaration =>
      { declaration with nested := declaration.nested.push added }).declaration owner).nested.size =
        (model.declaration owner).nested.size + 1 := by
  rw [declaration_updateDeclaration, if_pos ⟨rfl, inside⟩, Array.size_push]

/-- A title gives an identifier, and a word that is one may stand in its place. -/
theorem isIdentifier_titled {naming : NamingSettings} {title : Option String} {word : String}
    (identifier : isIdentifier word = true) :
    isIdentifier ((title.map naming.className).getD word) = true := by
  cases title with
  | none => exact identifier
  | some title => exact isIdentifier_className

/-- What a nested class is called is an identifier. -/
theorem Modelling.isIdentifier_nestedName {context : Context} {record : Record} {role : Role} :
    isIdentifier (nestedName context record role) = true := by
  unfold nestedName
  dsimp only
  split
  · exact isIdentifier_className
  · exact isIdentifier_className
  · exact isIdentifier_className
  · exact isIdentifier_titled rfl

namespace Modelling

variable {context : Context} {first start middle : Model} {α β : Type}

/-- A run from a state does what another one does, and however it ends it goes along a trail. If it
succeeds, a fact holds of its result and its last state. -/
def TracksTo (context : Context) (first start : Model) (step step' : Modelling α)
    (fact : α → Model → Prop) : Prop :=
  first.Arranged start → step start = step' start ∧
    Closes step start (fun result last => Trail context first start last ∧ fact result last)
      fun _ last => Trail context first start last

/-- A run does what another one does, along a trail. -/
abbrev Tracks (context : Context) (first start : Model) (step step' : Modelling α) : Prop :=
  TracksTo context first start step step' fun _ _ => True

namespace TracksTo

variable {step step' : Modelling α} {fact fact' : α → Model → Prop}

/-- What is known of an arranged state may be used. -/
theorem given (tracks : first.Arranged start → TracksTo context first start step step' fact) :
    TracksTo context first start step step' fact :=
  fun arranged => tracks arranged arranged

/-- A run may promise less of its results. -/
theorem mono (tracks : TracksTo context first start step step' fact)
    (weaker : ∀ result last, Trail context first start last → fact result last → fact' result last) :
    TracksTo context first start step step' fact' := fun arranged =>
  ⟨(tracks arranged).1, (tracks arranged).2.mono fun result last found =>
    ⟨found.1, weaker result last found.1 found.2⟩⟩

/-- A result alone leaves the state as it is. -/
theorem pure {result : α} (holds : fact result start) :
    TracksTo context first start (Pure.pure result) (Pure.pure result) fact :=
  fun _ => ⟨rfl, .refl, holds⟩

/-- A fault leaves the state as it is. -/
theorem throw {fault : Fault} :
    TracksTo context first start (MonadExcept.throw fault) (MonadExcept.throw fault) fact :=
  fun _ => ⟨rfl, .refl⟩

/-- One run after the other. -/
theorem bind {next next' : α → Modelling β} {fact' : β → Model → Prop}
    (tracks : TracksTo context first start step step' fact)
    (tracks' : ∀ result middle, Trail context first start middle → fact result middle →
      TracksTo context first middle (next result) (next' result) fact') :
    TracksTo context first start (step >>= next) (step' >>= next') fact' := by
  intro arranged
  obtain ⟨same, closes⟩ := tracks arranged
  rw [closes_bind]
  unfold Closes at closes ⊢
  simp only [Bind.bind, EStateM.bind, ← same]
  cases ran : step start with
  -- A failure of the first run is one of both.
  | error fault last =>
    rw [ran] at closes
    exact ⟨rfl, closes⟩
  | ok result middle =>
    rw [ran] at closes
    -- The second run starts from an arranged state, and its trail continues that of the first one.
    obtain ⟨same', closes'⟩ := tracks' result middle closes.1 closes.2 (closes.1.arranged arranged)
    refine ⟨same', closes'.imp (fun _ _ found => ⟨closes.1.trans found.1, found.2⟩)
      fun _ _ left => closes.1.trans left⟩

/-- A run for each item of a list, each of which brings about a fact that lasts along trails. -/
theorem forEach {items : List β} {round round' : β → Modelling Unit} {fact : β → Model → Prop}
    (lasts : ∀ item a b, Trail context first a b → fact item a → fact item b)
    (tracks : ∀ item ∈ items, ∀ middle, Trail context first start middle →
      TracksTo context first middle (round item) (round' item) fun _ => fact item) :
    TracksTo context first start (items.forM round) (items.forM round')
      fun _ last => ∀ item ∈ items, fact item last := by
  -- The loop is one round after the other, so the induction follows the list.
  induction items generalizing start with
  | nil => exact pure fun _ member => absurd member List.not_mem_nil
  | cons item rest ih =>
    rw [List.forM, List.forM]
    refine (tracks item List.mem_cons_self start .refl).bind fun _ middle trail holds => ?_
    refine (ih fun other member last further =>
      tracks other (List.mem_cons_of_mem _ member) last (trail.trans further)).mono
        fun _ last further others => ?_
    rintro other (_ | ⟨_, member⟩)
    · -- What the first round has brought about lasts through the others.
      exact lasts item middle last further holds
    · exact others other member

/-- A run for each item of a list. -/
theorem forM {items : List β} {round round' : β → Modelling Unit}
    (tracks : ∀ item ∈ items, ∀ middle, Trail context first start middle →
      Tracks context first middle (round item) (round' item)) :
    Tracks context first start (items.forM round) (items.forM round') :=
  (forEach (fun _ _ _ _ holds => holds) tracks).mono fun _ _ _ _ => trivial

/-- A single write. -/
theorem write {change : Model → Model} (write : Write context start (change start))
    (arranged : first.Arranged start → first.Arranged (change start)) :
    TracksTo context first start (modify change) (modify change) fun _ last => last = change start :=
  fun held => ⟨rfl, .single write (arranged held), rfl⟩

end TracksTo

namespace TracksTo

variable {fact : α → Model → Prop}

/-- A run that begins with a look at the model. -/
theorem get {next next' : Model → Modelling α}
    (tracks : TracksTo context first start (next start) (next' start) fact) :
    TracksTo context first start (MonadState.get >>= next) (MonadState.get >>= next') fact := tracks

/-- A run that begins with a look at the ledger. -/
theorem ledger {next next' : Ledger → Modelling α}
    (tracks : TracksTo context first start (next start.ledger) (next' start.ledger) fact) :
    TracksTo context first start (Modelling.ledger >>= next) (Modelling.ledger >>= next') fact := tracks

/-- A run that begins with a look at the ledger, beside one that does not. -/
theorem ledgerAside {next : Ledger → Modelling α} {step' : Modelling α}
    (tracks : TracksTo context first start (next start.ledger) step' fact) :
    TracksTo context first start (Modelling.ledger >>= next) step' fact := tracks

/-- A run beside one that begins with a look at the model. -/
theorem getAside {step : Modelling α} {next' : Model → Modelling α}
    (tracks : TracksTo context first start step (next' start) fact) :
    TracksTo context first start step (MonadState.get >>= next') fact := tracks

/-- A run beside one that begins with a look at a declaration. -/
theorem declarationAside {step : Modelling α} {id : DeclarationId} {next' : Declaration → Modelling α}
    (tracks : TracksTo context first start step (next' (start.declaration id)) fact) :
    TracksTo context first start step (Modelling.declaration id >>= next') fact := tracks

/-- A run that begins with a look at a record. -/
theorem record {id : RecordId} {next next' : Record → Modelling α}
    (tracks : TracksTo context first start (next (start.ledger.record id))
      (next' (start.ledger.record id)) fact) :
    TracksTo context first start (Modelling.record id >>= next) (Modelling.record id >>= next') fact :=
  tracks

/-- A run that begins with a look at a declaration. -/
theorem declaration {id : DeclarationId} {next next' : Declaration → Modelling α}
    (tracks : TracksTo context first start (next (start.declaration id))
      (next' (start.declaration id)) fact) :
    TracksTo context first start (Modelling.declaration id >>= next)
      (Modelling.declaration id >>= next') fact := tracks

end TracksTo

/-- A change of what was surveyed that leaves the records settled. -/
theorem tracks_survey {change : Model → Model}
    (same : change start = { start with survey := (change start).survey })
    (settles : first.Arranged start → first.ledger.Settles (change start).ledger) :
    Tracks context first start (modify change) (modify change) := by
  refine (TracksTo.write (same ▸ .survey _) fun arranged => ?_).mono fun _ _ _ _ => trivial
  rw [same]
  exact arranged.survey (settles arranged)

/-- A record is changed as the resolution of classes may change it. -/
theorem tracks_updateRecord {id : RecordId} {change : Record → Record}
    (settles : ∀ raw : Record, raw.shape = none → raw.Settles (start.ledger.record id) →
      raw.Settles (change (start.ledger.record id))) :
    Tracks context first start (updateRecord id change) (updateRecord id change) :=
  tracks_survey rfl fun arranged => arranged.ledger.update fun inside =>
    settles _ (arranged.declared.sound.raw id).shape (arranged.ledger.record id inside)

/-- A record that was not surveyed may be changed in any way. -/
theorem tracks_updateRecord_of_le {id : RecordId} {change : Record → Record}
    (late : first.ledger.size ≤ id.index) :
    Tracks context first start (updateRecord id change) (updateRecord id change) :=
  tracks_survey rfl fun arranged => arranged.ledger.update fun inside =>
    absurd inside (Nat.not_lt.mpr late)

/-- The checks of a record are changed, but no record. -/
theorem tracks_updateChecks {id : RecordId} {change : CheckSet → CheckSet} :
    Tracks context first start
      (modify fun model => { model with
        survey := { model.survey with ledger := model.survey.ledger.updateChecks id change } })
      (modify fun model => { model with
        survey := { model.survey with ledger := model.survey.ledger.updateChecks id change } }) :=
  tracks_survey rfl fun arranged => ⟨arranged.ledger.size_le, arranged.ledger.record⟩

/-- Something is noted about a declaration, and nothing else changes. -/
theorem tracksTo_note {id : DeclarationId} {change : Declaration → Declaration}
    (same : ∀ declaration, change declaration =
      { declaration with
        base := (change declaration).base
        derived := (change declaration).derived
        interfaces := (change declaration).interfaces
        imports := (change declaration).imports
        isAnalysed := (change declaration).isAnalysed
        hasVariants := (change declaration).hasVariants })
    (isAnalysed : ∀ declaration, declaration.isAnalysed → (change declaration).isAnalysed)
    (hasVariants : ∀ declaration, declaration.hasVariants → (change declaration).hasVariants) :
    TracksTo context first start (updateDeclaration id change) (updateDeclaration id change)
      fun _ last => last = start.updateDeclaration id change := by
  have write : Write context start (start.updateDeclaration id change) :=
    .note id same isAnalysed hasVariants
  refine .write write fun arranged => arranged.forward write.forward arranged.ledger fun other => ?_
  refine Model.field_updateDeclaration Declaration.nested ?_
  -- A note leaves the nested classes.
  rw [same]

/-- The base, the derived classes, the interfaces or the imports of a declaration are noted. -/
theorem tracks_note {id : DeclarationId} {change : Declaration → Declaration}
    (same : ∀ declaration, change declaration =
      { declaration with
        base := (change declaration).base
        derived := (change declaration).derived
        interfaces := (change declaration).interfaces
        imports := (change declaration).imports }) :
    Tracks context first start (updateDeclaration id change) (updateDeclaration id change) := by
  refine (tracksTo_note (fun declaration => ?_) (fun declaration held => ?_)
    fun declaration held => ?_).mono fun _ _ _ _ => trivial
  · -- The two marks are not among the four relations, so they stay.
    rw [same]
  · rw [same]
    exact held
  · rw [same]
    exact held

theorem tracks_addImport {id : DeclarationId} {name : String} :
    Tracks context first start (updateDeclaration id (·.addImport name))
      (updateDeclaration id (·.addImport name)) :=
  tracks_note fun _ => rfl

theorem tracks_plan {owner : DeclarationId} {id : RecordId} {shape : Shape} :
    Tracks context first start (plan context owner id shape) (plan context owner id shape) := by
  have write : Write context start (start.plan context owner id shape) := .plan owner id shape
  have step : Step context owner Set.univ start (start.plan context owner id shape) :=
    .plan (Set.mem_univ id) shape
  refine (TracksTo.write write fun arranged => arranged.forward write.forward ?_
    fun other => nested_plan).mono fun _ _ _ _ => trivial
  -- A plan settles records further.
  refine ⟨?_, fun other inside => (arranged.ledger.record other inside).trans (step.settles other)⟩
  rw [step.size_eq.1]
  exact arranged.ledger.size_le

theorem tracks_settle {id : RecordId} {ref : ClassRef} :
    Tracks context first start (settle id ref) (settle id ref) :=
  (tracks_updateRecord fun _ unset settles => settles.further unset rfl rfl).bind
    fun _ _ _ _ => .pure trivial

/-- A shape is noted for a record. -/
theorem tracks_shape {id : RecordId} {shape : Shape} :
    Tracks context first start (updateRecord id fun record => { record with shape := some shape })
      (updateRecord id fun record => { record with shape := some shape }) :=
  tracks_updateRecord fun _ unset settles => settles.further unset rfl rfl

/-- A class is noted for a record. -/
theorem tracks_typeRef {id : RecordId} {type : TypeRef} :
    Tracks context first start (updateRecord id fun record => { record with typeRef := some type })
      (updateRecord id fun record => { record with typeRef := some type }) :=
  tracks_updateRecord fun _ unset settles => settles.further unset rfl rfl

theorem tracks_planNegation {owner : DeclarationId} {id : RecordId} :
    Tracks context first start (planNegation context owner id) (planNegation context owner id) := by
  unfold planNegation
  refine .record ?_
  split
  · -- There may be no negation, or it may have been shaped.
    refine .record ?_
    split
    · refine .ledger ?_
      exact tracks_shape.bind fun _ _ _ _ => tracks_plan
    · exact .pure trivial
  · exact .pure trivial

theorem tracks_importDeclaration {owner other : DeclarationId} :
    Tracks context first start (importDeclaration owner other) (importDeclaration owner other) := by
  unfold importDeclaration
  refine .declaration (.declaration ?_)
  split
  · exact tracks_addImport
  · exact .pure trivial

theorem tracks_linkTarget {owner : DeclarationId} {id : RecordId} :
    Tracks context first start (linkTarget context owner id) (linkTarget context owner id) := by
  unfold linkTarget
  refine .record (.ledger ?_)
  dsimp only
  split
  · split
    · -- The target has a declaration, which is imported, or a class nested here.
      refine .get ?_
      split
      · exact tracks_typeRef.bind fun _ _ _ _ => tracks_importDeclaration
      · refine .declaration ?_
        split
        · exact tracks_typeRef
        · exact .pure trivial
    · exact .pure trivial
  · exact .pure trivial

theorem tracks_inheritNestedClass {property baseProperty : RecordId} :
    Tracks context first start (inheritNestedClass property baseProperty)
      (inheritNestedClass property baseProperty) := by
  unfold inheritNestedClass
  refine .record ?_
  split
  · -- Only where the base property has a class there is something to take over.
    refine .record ?_
    split
    · refine .declaration ?_
      dsimp only
      split
      · exact tracks_typeRef
      · exact .pure trivial
    · exact .pure trivial
  · exact .pure trivial

theorem tracks_compareWithBase {owner : DeclarationId} {property baseProperty : RecordId} :
    Tracks context first start (compareWithBase owner property baseProperty)
      (compareWithBase owner property baseProperty) := by
  unfold compareWithBase
  refine .record (.record ?_)
  -- Equal shapes are thinned, others are declared anew.
  split
  · refine .get (TracksTo.bind tracks_updateChecks fun _ _ _ _ => ?_)
    exact tracks_updateRecord fun _ unset settles => settles.further unset rfl rfl
  · refine TracksTo.bind (tracks_updateRecord fun _ unset settles =>
      settles.further unset rfl rfl) fun _ _ _ _ => ?_
    exact tracks_updateRecord fun _ unset settles => settles.further unset rfl rfl

theorem tracks_reconcileRequired {id : RecordId} :
    Tracks context first start (reconcileRequired id) (reconcileRequired id) := by
  unfold reconcileRequired
  refine .record ?_
  refine .forM fun property _ middle _ => tracks_updateRecord fun raw _ settles => ?_
  exact settles.trans (Record.Marked.reconciled _).settles

theorem tracks_joinRequired {variant : RecordId} {already : List String} {name : String}
    (late : first.ledger.size ≤ variant.index) :
    Tracks context first start (joinRequired variant already name)
      (joinRequired variant already name) := by
  unfold joinRequired
  split
  · -- A name that was not required yet may clear the property of the variant.
    refine .ledger ?_
    split
    · refine TracksTo.bind (tracks_updateRecord fun _ unset settles =>
        settles.further unset rfl rfl) fun _ _ _ _ => ?_
      exact tracks_updateRecord_of_le late
    · exact tracks_updateRecord_of_le late
  · exact tracks_updateRecord_of_le late

/-- A site stays where it is. -/
theorem Trail.stands {site : Site} (trail : Trail context first start middle)
    (stands : site.Stands first start) : site.Stands first middle where
  declared := stands.declared
  placed index held := Nat.lt_of_lt_of_le (stands.placed index held)
    (trail.forward.grows site.owner).size_le

/-- A name is found without a change, if there is one. -/
theorem tracksTo_allocateName {candidate : String} {taken : String → Bool}
    (identifier : isIdentifier candidate = true) :
    TracksTo context first start (allocateName candidate taken) (allocateName candidate taken)
      fun name last => last = start ∧ taken name = false ∧ isIdentifier name = true := by
  intro arranged
  unfold allocateName
  split
  · rename_i name allocated
    -- The allocation changes nothing, so the start is still the state.
    exact ⟨rfl, .refl, rfl, free_of_allocate allocated, isIdentifier_of_allocate identifier allocated⟩
  · exact ⟨rfl, .refl⟩

/-- A class is nested in a declaration under a free name. -/
theorem tracksTo_pushNested {owner : DeclarationId} {candidate : String} (added : NestedClass)
    (identifier : isIdentifier candidate = true)
    (fits : first.Arranged start → first.Fits start owner added) :
    TracksTo context first start (pushNested owner candidate fun name => { added with name })
      (pushNested owner candidate fun name => { added with name })
      fun index last => index < (last.declaration owner).nested.size := by
  refine .given fun arranged => .declaration ?_
  have fits := fits arranged
  refine (tracksTo_allocateName identifier).bind fun name middle _ found => ?_
  -- The number of the new class is the old count, and there is one more by then.
  obtain ⟨rfl, free, identifier⟩ := found
  have nests : TracksTo context first middle
      (updateDeclaration owner fun declaration =>
        { declaration with nested := declaration.nested.push { added with name } })
      (updateDeclaration owner fun declaration =>
        { declaration with nested := declaration.nested.push { added with name } })
      fun _ last => (middle.declaration owner).nested.size < (last.declaration owner).nested.size := by
    intro arranged
    -- The name that was found is free, which is all that the class needs to join.
    have belongs : first.Originates owner { added with name } :=
      ⟨fits.originates.origin, fits.originates.record⟩
    have joined := arranged.nest belongs (fits.admits identifier free)
    have inside : owner.index < middle.declarations.size := arranged.size ▸ fits.stands.declared
    exact ⟨rfl, .single (.nest owner _) joined,
      Nat.lt_of_lt_of_eq (Nat.lt_succ_self _) (Model.size_nest inside).symm⟩
  exact nests.bind fun _ _ _ grown => .pure grown

/-- The class nested for a record is there, whether it is new or not. -/
theorem tracksTo_nestedClass {site : Site} {id : RecordId} {kind : ClassKind} {role : Role}
    (stands : site.Stands first start) (member : id ∈ first.realm site.owner) :
    TracksTo context first start (nestedClass context site id kind role)
      (nestedClass context site id kind role)
      fun found last => found.1 < (last.declaration site.owner).nested.size := by
  refine .given fun arranged => .record (.declaration ?_)
  split
  · -- The class that is found stands under its number.
    rename_i index found
    obtain ⟨nested, there, -⟩ := Declaration.of_findNested? found
    exact .pure (Array.getElem?_eq_some_iff.mp there).1
  · rename_i absent
    refine (tracksTo_pushNested
      { name := "", parent := site.scope, kind, record := id
        origin := (start.ledger.record id).schema, target := (start.ledger.record id).target }
      isIdentifier_nestedName fun arranged => ⟨stands, ⟨⟨id, member, ?_⟩, fun _ => member⟩,
        arranged.schema_isSome stands.declared member, absent⟩).bind fun _ _ _ there => .pure there
    -- The class that joins has the schema of the record that was surveyed.
    exact (arranged.settles stands.declared member).sameOrigin.schema.symm

/-- The class nested for a branch is there, if none was made for its schema before. -/
theorem tracksTo_pushVariant {owner : DeclarationId} {scope : Option Nat} {record branch : RecordId}
    {implements : ClassRef} (stands : (⟨owner, scope⟩ : Site).Stands first start)
    (member : branch ∈ first.realm owner)
    (absent : (start.declaration owner).findNested? (start.ledger.record branch).schema none = none) :
    TracksTo context first start (pushVariant context owner scope record branch implements)
      (pushVariant context owner scope record branch implements)
      fun index last => index < (last.declaration owner).nested.size := by
  refine .given fun arranged => .record ?_
  refine tracksTo_pushNested
    { name := "", parent := scope, kind := .concrete, record
      origin := (start.ledger.record branch).schema, target := none, interfaces := [implements]
      isVariant := true }
    (isIdentifier_titled rfl) fun arranged => ⟨stands, ⟨⟨branch, member, ?_⟩, nofun⟩,
      arranged.schema_isSome stands.declared member, absent⟩
  -- The branch has kept its schema, by which no class was found.
  exact (arranged.settles stands.declared member).sameOrigin.schema.symm

/-- A copy of a record joins behind all others. -/
theorem tracksTo_duplicate {id : RecordId} :
    TracksTo context first start (survey (Survey.onLedger (·.duplicate id)))
      (survey (Survey.onLedger (·.duplicate id)))
      fun copy last => first.ledger.size ≤ copy.index ∧ last.declarations = start.declarations :=
  fun arranged => ⟨rfl, .single (.survey _) (arranged.survey arranged.ledger.duplicate),
    arranged.ledger.size_le, rfl⟩

/-- Copies of records join behind all others. -/
theorem tracksTo_duplicates {sources : List RecordId} :
    TracksTo context first start
      (sources.mapM fun source => survey (Survey.onLedger (·.duplicate source)))
      (sources.mapM fun source => survey (Survey.onLedger (·.duplicate source)))
      fun _ last => last.declarations = start.declarations := by
  induction sources generalizing start with
  | nil => exact .pure rfl
  | cons source rest ih =>
    rw [List.mapM_cons]
    refine tracksTo_duplicate.bind fun _ middle _ copied => ?_
    -- No copy touches a declaration.
    exact ih.bind fun _ _ _ same => .pure (same.trans copied.2)

/-- The copy for a variant was not surveyed, and it is no class yet. -/
theorem tracksTo_copyForVariant {container : RecordId} {origin : Option SchemaId} :
    TracksTo context first start (copyForVariant container origin) (copyForVariant container origin)
      fun variant last => first.ledger.size ≤ variant.index ∧
        last.declarations = start.declarations := by
  refine tracksTo_duplicate.bind fun variant copied _ joined => .record ?_
  refine tracksTo_duplicates.bind fun properties middle _ same => ?_
  -- The variant is late, hence writing to it is a step of a trail.
  have described : TracksTo context first middle
      (updateRecord variant fun record =>
        { record with schema := origin, properties, oneOf := [], typeRef := none, shape := none })
      (updateRecord variant fun record =>
        { record with schema := origin, properties, oneOf := [], typeRef := none, shape := none })
      fun _ last => last.declarations = middle.declarations := fun arranged =>
    ⟨rfl, (tracks_updateRecord_of_le joined.1 arranged).2.1, rfl⟩
  exact described.bind fun _ _ _ same' => .pure ⟨joined.1, same'.trans (same.trans joined.2)⟩

end Modelling

end SchemaClasses
