import SchemaClasses.Proofs.Resolution.Thinning

/-! The analysis of all declarations, base classes first: what was compared stays thinned rightly
until the last of them is done. -/

namespace SchemaClasses

namespace Modelling

/-- What is known of a comparison for as long as classes are analysed. -/
structure Told (context : Context) (first : Model) (done : Set DeclarationId) (model : Model)
    (comparison : Comparison) : Prop where
  declared : comparison.owner.index < first.declarations.size
  extends' : first.base? context.tree comparison.owner = some comparison.base
  done : comparison.base ∈ done
  owned : comparison.property ∈
    (first.ledger.record (first.declaration comparison.owner).record).properties
  inherited : comparison.baseProperty ∈
    (first.ledger.record (first.declaration comparison.base).record).properties
  named : (first.ledger.record comparison.baseProperty).name =
    some ((first.ledger.record comparison.property).name.getD "")
  based : (model.declaration comparison.owner).base = some comparison.base
  linked : (model.ledger.record comparison.property).baseProperty = some comparison.baseProperty
  shaped : ∃ shape, (model.ledger.record comparison.property).shape = some shape ∧
    (model.ledger.record comparison.baseProperty).shape = some shape
  kept : comparison.Kept model comparison.property
  exact' : comparison.Exact model

/-- How far the analysis has come since a first model: the classes that were begun are marked, all
base classes that were compared with are done, every class has what the records in its scope need,
and behind its root no analysis is half done. -/
structure Progress (context : Context) (first : Model) (begun done : Set DeclarationId)
    (told : List Comparison) (model : Model) : Prop where
  later : Later first model
  sets : model.ledger.checkSets.size = first.ledger.checkSets.size
  sane : model.Sane context
  marked : ∀ id : DeclarationId, id.index < first.declarations.size →
    ((model.declaration id).isAnalysed = true ↔ id ∈ begun)
  stocked : ∀ id : DeclarationId, id.index < first.declarations.size →
    model.Stocked id (first.ledger.scope (first.declaration id).record)
  compared : ∀ comparison ∈ told, Told context first done model comparison
  linked : ∀ id base, (model.ledger.record id).baseProperty = some base →
    ∃ comparison ∈ told, comparison.property = id ∧ comparison.baseProperty = base
  numbered : ∀ id : DeclarationId, id.index < first.declarations.size →
    (model.declaration id).constants.Numbered
  filled : ∀ id : DeclarationId, id.index < first.declarations.size → model.WholeFrom id 0
  clean : ∀ id : DeclarationId, id.index < first.declarations.size →
    model.CleanFrom id (first.ledger.scope (first.declaration id).record)
      ((first.declaration id).record.index + 1)
  housed : ∀ id : DeclarationId, id.index < first.declarations.size →
    ∀ nested ∈ (model.declaration id).nested,
      nested.record ∈ first.ledger.scope (first.declaration id).record
  whole : ∀ id ∈ done, (first.declaration id).kind = .concrete →
    model.Whole id (first.declaration id).record
  bare : ∀ id : DeclarationId, id.index < first.declarations.size →
    (first.declaration id).kind ≠ .concrete →
    ∀ record ∈ first.ledger.scope (first.declaration id).record,
      record ≠ (first.declaration id).record → (model.ledger.record record).shape = none
  nestless : ∀ id : DeclarationId, id.index < first.declarations.size →
    (first.declaration id).kind ≠ .concrete → (model.declaration id).nested = #[]
  unresolved : ∀ id, (model.declaration id).hasVariants = false

variable {context : Context} {first model next : Model} {begun done : Set DeclarationId}
variable {told : List Comparison} {id base : DeclarationId} {property baseProperty : RecordId}

namespace Progress

/-- Nothing has been compared in a model as it was declared. -/
theorem start (declared : first.Declared) : Progress context first ∅ ∅ [] first where
  later := .refl first
  sets := rfl
  sane := sane_of_declared declared
  marked id _ := by simp [(declared.raw id).isAnalysed]
  stocked id _ record _ := by
    have raw := declared.sound.raw record
    -- Nothing is planned yet, so that nothing is needed either.
    have empty : first.ledger.checks record = {} := by
      unfold Ledger.checks
      -- The set of a record is one of the idle sets, or it is out of range and empty.
      rw [Array.getD_eq_getD_getElem?]
      cases found : first.ledger.checkSets[(first.ledger.record record).checks.index]? with
      | none => rfl
      | some set => exact declared.sound.idle set (Array.mem_of_getElem? found)
    refine ⟨fun check member => ?_, fun entry member name named => ?_, fun backed => ?_⟩
    · rw [empty] at member
      cases member
    · rw [raw.constants entry member] at named
      cases named
    · rw [raw.mapBacked] at backed
      cases backed
  compared comparison member := absurd member List.not_mem_nil
  linked id base held := by
    rw [(declared.sound.raw id).baseProperty] at held
    cases held
  numbered id _ place constant found := by
    rw [(declared.raw id).constants] at found
    simp at found
  filled id _ index nested _ there := by
    rw [(declared.raw id).nested] at there
    simp at there
  clean id _ record _ _ _ := .inl (declared.sound.raw record).shape
  housed id _ nested member := by
    rw [(declared.raw id).nested] at member
    exact absurd member (Array.not_mem_empty _)
  whole _ member := absurd member (Set.notMem_empty _)
  bare _ _ _ record _ _ := (declared.sound.raw record).shape
  nestless id _ _ := (declared.raw id).nested
  unresolved id := (declared.raw id).hasVariants

/-- One declaration more is done. -/
theorem finish (progress : Progress context first begun done told model)
    (whole : (first.declaration id).kind = .concrete → model.Whole id (first.declaration id).record) :
    Progress context first begun (insert id done) told model :=
  { progress with
    compared := fun comparison member =>
      { progress.compared comparison member with
        done := .inr (progress.compared comparison member).done }
    whole := by
      -- The class just finished is whole by assumption, the others were so before.
      rintro other (rfl | member)
      · exact whole
      · exact progress.whole other member }

/-- What only adds checks and constants, but no check to what was compared, keeps what was compared. -/
theorem on {begun' : Set DeclarationId} (progress : Progress context first begun done told model)
    (later : Later model next)
    (sets : next.ledger.checkSets.size = model.ledger.checkSets.size) (sane : next.Sane context)
    (baseProperty : ∀ id, (next.ledger.record id).baseProperty =
      (model.ledger.record id).baseProperty)
    (checks : ∀ id, (model.ledger.checks id).items <+: (next.ledger.checks id).items)
    (spared : ∀ comparison ∈ told,
      next.ledger.checks comparison.property = model.ledger.checks comparison.property ∧
        next.ledger.checks comparison.baseProperty = model.ledger.checks comparison.baseProperty)
    (marked : ∀ id : DeclarationId, id.index < first.declarations.size →
      ((next.declaration id).isAnalysed = true ↔ id ∈ begun'))
    (based : ∀ comparison ∈ told,
      (next.declaration comparison.owner).base = some comparison.base)
    (stocked : ∀ id : DeclarationId, id.index < first.declarations.size →
      next.Stocked id (first.ledger.scope (first.declaration id).record))
    (filled : ∀ id : DeclarationId, id.index < first.declarations.size → next.WholeFrom id 0)
    (clean : ∀ id : DeclarationId, id.index < first.declarations.size →
      next.CleanFrom id (first.ledger.scope (first.declaration id).record)
        ((first.declaration id).record.index + 1))
    (housed : ∀ id : DeclarationId, id.index < first.declarations.size →
      ∀ nested ∈ (next.declaration id).nested, nested ∈ (model.declaration id).nested ∨
        nested.record ∈ first.ledger.scope (first.declaration id).record)
    (bare : ∀ id : DeclarationId, id.index < first.declarations.size →
      (first.declaration id).kind ≠ .concrete →
      ∀ record ∈ first.ledger.scope (first.declaration id).record,
        record ≠ (first.declaration id).record →
        (next.ledger.record record).shape = (model.ledger.record record).shape)
    (nestless : ∀ id : DeclarationId, id.index < first.declarations.size →
      (first.declaration id).kind ≠ .concrete →
      (next.declaration id).nested = (model.declaration id).nested)
    (resolved : ∀ id, (next.declaration id).hasVariants = (model.declaration id).hasVariants) :
    Progress context first begun' done told next where
  later := progress.later.trans later
  sets := sets.trans progress.sets
  sane := sane
  marked := marked
  stocked := stocked
  -- What was compared is told by checks that are spared, and by constants that only become more.
  compared comparison member :=
    { progress.compared comparison member with
      based := based comparison member
      linked := (baseProperty _).trans (progress.compared comparison member).linked
      shaped := (progress.compared comparison member).shaped.imp fun shape held =>
        ⟨(later.settles _).shape shape held.1, (later.settles _).shape shape held.2⟩
      kept := (progress.compared comparison member).kept.of_grown (checks _) (checks _).subset
        fun id => (later.grows id).constants
      exact' := (progress.compared comparison member).exact'.of_same (spared comparison member).1
        (spared comparison member).2 fun id => (later.grows id).constants }
  linked id base held := progress.linked id base ((baseProperty id).symm.trans held)
  numbered id inside := (later.grows id).numbered (progress.numbered id inside)
  filled := filled
  clean := clean
  housed id inside nested member :=
    (housed id inside nested member).elim (progress.housed id inside nested) fun new => new
  whole id member concrete := later.whole (progress.whole id member concrete)
  bare id inside kind record acts apart :=
    (bare id inside kind record acts apart).trans (progress.bare id inside kind record acts apart)
  nestless id inside kind := (nestless id inside kind).trans (progress.nestless id inside kind)
  unresolved id := (resolved id).trans (progress.unresolved id)

/-- What decides no shape and nests no class keeps all that is clean and whole. -/
theorem still {begun' : Set DeclarationId} (progress : Progress context first begun done told model)
    (later : Later model next)
    (sets : next.ledger.checkSets.size = model.ledger.checkSets.size) (sane : next.Sane context)
    (baseProperty : ∀ id, (next.ledger.record id).baseProperty =
      (model.ledger.record id).baseProperty)
    (shape : ∀ id, (next.ledger.record id).shape = (model.ledger.record id).shape)
    (checks : ∀ id, next.ledger.checks id = model.ledger.checks id)
    (nested : ∀ id, (next.declaration id).nested = (model.declaration id).nested)
    (marked : ∀ id : DeclarationId, id.index < first.declarations.size →
      ((next.declaration id).isAnalysed = true ↔ id ∈ begun'))
    (based : ∀ comparison ∈ told,
      (next.declaration comparison.owner).base = some comparison.base)
    (stocked : ∀ id : DeclarationId, id.index < first.declarations.size →
      next.Stocked id (first.ledger.scope (first.declaration id).record))
    (resolved : ∀ id, (next.declaration id).hasVariants = (model.declaration id).hasVariants) :
    Progress context first begun' done told next := by
  refine progress.on later sets sane baseProperty (fun id => ?_)
    (fun comparison _ => ⟨checks _, checks _⟩) marked based stocked (fun id inside => ?_)
    (fun id inside record acts above positive => ?_) (fun id inside class' member => ?_)
    (fun _ _ _ record _ _ => shape record) (fun id _ _ => nested id) resolved
  · -- Nothing is checked that was not checked before.
    rw [checks]
  · exact later.wholeFrom (progress.filled id inside) (nested id)
  · -- Being clean concerns shapes, and none is decided.
    rw [(later.settles record).sameOrigin.negationOf] at positive
    exact later.clean (progress.clean id inside record acts above positive) (shape record)
  · -- No class is nested.
    rw [nested] at member
    exact .inl member

/-- A class may be analysed in its scope. -/
theorem ready (progress : Progress context first begun done told model) (declared : first.Declared)
    (inside : id.index < first.declarations.size) :
    Ready ⟨id, none⟩ (first.ledger.scope (first.declaration id).record)
      ((first.declaration id).record.index + 1) model where
  declared := by
    rw [progress.later.declarations]
    exact inside
  -- The class itself is the outermost scope, so it is placed nowhere.
  placed _ held := absurd held Site.scope_outermost
  closed := progress.later.closed (declared.closed_scope inside)
  ordered := progress.later.ledger.ordered (declared.closed_scope inside) (declared.sound.ordered _)
  clean := progress.clean id inside

/-- A class may be analysed in the scope of any record inside its own. -/
theorem readyInside (progress : Progress context first begun done told model)
    (declared : first.Declared) (inside : id.index < first.declarations.size) {child : RecordId}
    (held : child ∈ (first.ledger.record (first.declaration id).record).children) :
    Ready ⟨id, none⟩ (first.ledger.scope child) 0 model where
  declared := (progress.ready declared inside).declared
  placed _ held := absurd held Site.scope_outermost
  closed := progress.later.closed (declared.sound.closed_inside held)
  ordered := progress.later.ledger.ordered (declared.sound.closed_inside held)
    (declared.sound.ordered _)
  clean record acts _ := by
    -- The scope of a child lies behind the root of its class.
    have behind := (declared.sound.forest.inside _ _ held).1
    have within := declared.sound.le_of_mem_scope acts
    exact progress.clean id inside record (Ledger.scope_subset held acts) (by omega)

/-- The scopes of different classes share no set of checks. -/
theorem apart (progress : Progress context first begun done told model) (declared : first.Declared)
    {other : DeclarationId} (inside : id.index < first.declarations.size)
    (inside' : other.index < first.declarations.size) (different : other ≠ id) :
    model.ledger.Apart (first.ledger.scope (first.declaration other).record)
      (first.ledger.scope (first.declaration id).record) :=
  progress.later.apart (declared.sound.apart_scope (declared.root other inside').2
    (declared.root id inside).2 (declared.root other inside').1 (declared.root id inside).1
    fun record => different (declared.apart other id inside' inside record))

/-- Steps in the scope of a class keep what was compared if the compared properties of the class keep
their checks. -/
theorem steps (progress : Progress context first begun done told model) (declared : first.Declared)
    (inside : id.index < first.declarations.size) (fresh : id ∉ done)
    (steps : Steps context id (first.ledger.scope (first.declaration id).record) model next)
    (spared : ∀ comparison ∈ told, comparison.owner = id →
      next.ledger.checks comparison.property = model.ledger.checks comparison.property)
    (whole : next.WholeFrom id (model.declaration id).nested.size)
    (clean : ∀ record, record ≠ (first.declaration id).record →
      (model.ledger.record record).negationOf = none → model.Clean id record →
      next.Clean id record)
    (bare : (first.declaration id).kind ≠ .concrete →
      (∀ record, record ≠ (first.declaration id).record →
        (next.ledger.record record).shape = (model.ledger.record record).shape) ∧
        (next.declaration id).nested = (model.declaration id).nested) :
    Progress context first begun done told next := by
  -- Steps look ahead, and from this most parts follow.
  have ahead := Steps.ahead steps
  have later := ahead.toLater
  have sane := Steps.sane steps (progress.ready declared inside).closed.present progress.sane
  -- What belongs to another class keeps its checks.
  have foreign {other : DeclarationId} (inside' : other.index < first.declarations.size)
      (different : other ≠ id) {property : RecordId}
      (member : property ∈ (first.ledger.record (first.declaration other).record).properties) :
      next.ledger.checks property = model.ledger.checks property :=
    steps.checks_eq (progress.apart declared inside inside' different property
      (Ledger.mem_scope_of_property member))
  -- The records of another class are as they were.
  have alien {other : DeclarationId} (inside' : other.index < first.declarations.size)
      (different : other ≠ id) {record : RecordId}
      (acts : record ∈ first.ledger.scope (first.declaration other).record) :
      next.ledger.record record = model.ledger.record record :=
    Steps.record_eq steps fun member =>
      progress.apart declared inside inside' different record acts record member rfl
  refine progress.on later (Steps.checkSets_size steps) sane ahead.baseProperty
    (Steps.checks_prefix steps) (fun comparison member => ?_) (fun other inside' => ?_)
    (fun comparison member => ?_) (fun other inside' => ?_) (fun other inside' => ?_)
    (fun other inside' => ?_)
    (fun other inside' nested member => ?_) (fun other inside' kind record acts away => ?_)
    (fun other inside' kind => ?_) ahead.hasVariants
  · -- The base property belongs to a class that is done, hence to another one than this.
    have known := progress.compared comparison member
    have inside' := Model.inside_of_base? known.extends'
    refine ⟨?_, foreign inside' (fun same => fresh (same ▸ known.done)) known.inherited⟩
    by_cases same : comparison.owner = id
    · exact spared comparison member same
    · exact foreign known.declared same known.owned
  · rw [ahead.isAnalysed]
    exact progress.marked other inside'
  · rw [ahead.base]
    exact (progress.compared comparison member).based
  · -- In the class at hand steps keep its stock; elsewhere they act on none of its records.
    by_cases same : other = id
    · subst same
      exact Steps.stocked steps (progress.ready declared inside').declared
        (progress.stocked other inside')
    · exact Steps.stocked_apart steps (progress.apart declared inside inside' same)
        (progress.stocked other inside')
  · -- What was nested before is still whole, and what is new is so by assumption.
    by_cases same : other = id
    · subst same
      exact wholeFrom_of_grown (later.grows other) (fun _ => later.whole) whole
        (progress.filled other inside')
    · exact later.wholeFrom (progress.filled other inside') (Steps.keeps steps same).nested
  · -- A record of this class is clean by assumption, one of another class is as it was.
    intro record acts above positive
    rw [(later.settles record).sameOrigin.negationOf] at positive
    have known := progress.clean other inside' record acts above positive
    by_cases same : other = id
    · subst same
      refine clean record ?_ positive known
      rintro rfl
      omega
    · exact later.clean known (congrArg Record.shape (alien inside' same acts))
  · -- A class is only nested by the steps for a record in their scope.
    refine (Steps.nested_mem steps member).imp_right fun new => ?_
    rw [new.1]
    exact new.2
  · by_cases same : other = id
    · subst same
      exact (bare kind).1 record away
    · exact congrArg Record.shape (alien inside' same acts)
  · by_cases same : other = id
    · subst same
      exact (bare kind).2
    · exact (Steps.keeps steps same).nested

/-- A walk inside the scope of a class keeps what was compared. -/
theorem walk (progress : Progress context first begun done told model) (declared : first.Declared)
    (inside : id.index < first.declarations.size) (fresh : id ∉ done)
    (concrete : (first.declaration id).kind = .concrete) {scope : Set RecordId}
    (walk : Walk context id scope model next)
    (within : scope ⊆ first.ledger.scope (first.declaration id).record)
    (spared : ∀ comparison ∈ told, comparison.owner = id →
      next.ledger.checks comparison.property = model.ledger.checks comparison.property) :
    Progress context first begun done told next :=
  progress.steps declared inside fresh (Steps.mono walk.steps within) spared walk.whole
    (fun record _ positive clean => walk.clean record positive clean)
    fun bare => absurd concrete bare

/-- An analysis inside one child of a class spares the checks of the properties that were compared
before. -/
theorem spared (progress : Progress context first begun done told model) (declared : first.Declared)
    (inside : id.index < first.declarations.size) {child : RecordId}
    (held : child ∈ (first.ledger.record (first.declaration id).record).children)
    (steps : Steps context id (first.ledger.scope child) model next) {comparison : Comparison}
    (member : comparison ∈ told) (owner : comparison.owner = id)
    (different : comparison.property ≠ child) :
    next.ledger.checks comparison.property = model.ledger.checks comparison.property := by
  -- The comparison is of a property of this class.
  have owned := (progress.compared comparison member).owned
  rw [owner] at owned
  -- The child that is analysed shares no set of checks with another property.
  have apart := progress.later.apart
    (declared.sound.apart_child (declared.root id inside).2 owned held different)
  exact steps.checks_eq (apart comparison.property rfl)

/-- The record of a class is shaped when its analysis begins. -/
theorem shapeRoot (progress : Progress context first begun done told model)
    (declared : first.Declared) (inside : id.index < first.declarations.size) (fresh : id ∉ done)
    {shape : Shape} (plain : ∀ ref, shape ≠ .reference (.generated ref))
    (unshaped : (model.ledger.record (first.declaration id).record).shape = none) :
    Progress context first begun done told
      (model.updateRecord (first.declaration id).record fun record =>
        { record with shape := some shape }) := by
  have taken : Step context id (first.ledger.scope (first.declaration id).record) model
      (model.updateRecord (first.declaration id).record fun record =>
        { record with shape := some shape }) :=
    step_mark Ledger.mem_scope_self
      (.shaped (.inl unshaped) fun ref same => absurd same (plain ref))
  -- Only the root itself gets a shape.
  have others {record : RecordId} (apart : record ≠ (first.declaration id).record) :
      ((model.updateRecord (first.declaration id).record fun record =>
        { record with shape := some shape }).ledger.record record).shape =
          (model.ledger.record record).shape := by
    rw [Model.ledger_updateRecord, Ledger.record_update_of_ne apart]
  refine progress.steps declared inside fresh (.single taken)
    (fun _ _ _ => Ledger.checks_update rfl) (fun index nested atLeast there _ => ?_)
    (fun record apart _ clean => taken.ahead.toLater.clean clean (others apart))
    fun _ => ⟨fun record apart => others apart, rfl⟩
  -- No class is nested by that, so that there is none to be whole.
  obtain ⟨present, -⟩ := Array.getElem?_eq_some_iff.mp there
  exact absurd present (Nat.not_lt.mpr atLeast)

/-- A property declared anew keeps what was compared. -/
theorem redeclared (progress : Progress context first begun done told model) :
    Progress context first begun done told (model.redeclared property baseProperty) := by
  refine progress.still later_redeclared rfl (sane_redeclared progress.sane)
    (fun _ => baseProperty_redeclared) (fun _ => shape_redeclared) (fun _ => checks_redeclared)
    (fun _ => rfl) progress.marked
    (fun comparison member => (progress.compared comparison member).based)
    (fun id inside record acts => ?_) fun _ => rfl
  exact (progress.stocked id inside record acts).of_grown (.refl _) checks_redeclared
    (field_redeclared Record.patternProperties rfl rfl) (field_redeclared Record.mapBacked rfl rfl)

/-- A property of a class that is done is another one than a property of a class that is not. -/
theorem foreign (declared : first.Declared) {other : DeclarationId} {record : RecordId}
    (finished : other ∈ done) (fresh : id ∉ done) (inside' : other.index < first.declarations.size)
    (inside : id.index < first.declarations.size)
    (owned : property ∈ (first.ledger.record (first.declaration id).record).properties)
    (member : record ∈ (first.ledger.record (first.declaration other).record).properties) :
    record ≠ property := by
  -- Otherwise both classes would have the property as a child of their records.
  rintro rfl
  have parent := declared.sound.forest.single _ _ _ (Record.mem_children.mpr (.inl member))
    (Record.mem_children.mpr (.inl owned))
  have same := declared.apart other id inside' inside parent
  rw [same] at finished
  exact fresh finished

/-- Checks are only taken away by a comparison, and what is left is supplied as before. -/
theorem stocked_thinned {scope : Set RecordId} {owner : DeclarationId}
    (stocked : model.Stocked owner scope) :
    (model.thinned id property baseProperty).Stocked owner scope := by
  intro record acts
  have supplied := stocked record acts
  -- Neither patterns nor maps are touched by a comparison.
  have patterns : ((model.thinned id property baseProperty).ledger.record
      record).patternProperties = (model.ledger.record record).patternProperties :=
    Ledger.field_update Record.patternProperties rfl
  have backed : ((model.thinned id property baseProperty).ledger.record record).mapBacked =
      (model.ledger.record record).mapBacked := Ledger.field_update Record.mapBacked rfl
  refine ⟨fun check member => supplied.checks check (checks_thinned_subset member), ?_, ?_⟩
  · rw [patterns]
    exact supplied.entries
  · rw [backed]
    exact supplied.mapBacked

/-- Earlier comparisons are about other properties, whose checks are not touched by one more. -/
theorem told_thinned_earlier {comparison : Comparison}
    (progress : Progress context first begun done told model) (declared : first.Declared)
    (fresh : id ∉ done) (inside : id.index < first.declarations.size)
    (owned : property ∈ (first.ledger.record (first.declaration id).record).properties)
    (once : ∀ comparison ∈ told, comparison.property ≠ property) (member : comparison ∈ told) :
    Told context first done (model.thinned id property baseProperty) comparison := by
  have known := progress.compared comparison member
  have checks (record : RecordId) := (progress.later.settles record).sameOrigin.checks
  -- Both sides of the earlier comparison are other records than this property.
  have away := foreign declared known.done fresh (Model.inside_of_base? known.extends') inside owned
    known.inherited
  have own := declared.sound.checks_ne known.owned owned (once comparison member)
  have other := declared.sound.checks_ne known.inherited owned away
  -- Neither side of the earlier comparison has its checks in the set that is thinned.
  rw [← checks, ← checks property] at own other
  -- Links, shapes and checks of the earlier comparison are not those that change here.
  refine { known with linked := ?_, shaped := ?_, kept := ?_, exact' := ?_ }
  · rw [record_thinned, if_neg fun same => once comparison member same.1]
    exact known.linked
  · rw [shape_thinned, shape_thinned]
    exact known.shaped
  · refine known.kept.of_grown ?_ ?_ fun id => List.prefix_rfl
    · rw [checks_thinned_of_ne own]
    · rw [checks_thinned_of_ne other]
      exact List.Subset.refl _
  · exact known.exact'.of_same (checks_thinned_of_ne own) (checks_thinned_of_ne other)
      fun id => List.prefix_rfl

/-- A comparison with a class that is done is exact, since all constants of both classes are in their
pools. -/
theorem told_thinned (progress : Progress context first begun done told model)
    (declared : first.Declared) (extends' : first.base? context.tree id = some base)
    (finished : base ∈ done) (fresh : id ∉ done) (inside : id.index < first.declarations.size)
    (based : (model.declaration id).base = some base)
    (owned : property ∈ (first.ledger.record (first.declaration id).record).properties)
    (inherited : baseProperty ∈ (first.ledger.record (first.declaration base).record).properties)
    (named : (first.ledger.record baseProperty).name =
      some ((first.ledger.record property).name.getD ""))
    (shaped : ∃ shape, (model.ledger.record property).shape = some shape ∧
      (model.ledger.record baseProperty).shape = some shape) :
    Told context first done (model.thinned id property baseProperty)
      ⟨id, base, property, baseProperty, model.ledger.checks property⟩ := by
  have inside' := Model.inside_of_base? extends'
  have checks (record : RecordId) := (progress.later.settles record).sameOrigin.checks
  -- The two properties share no set of checks, so that of the base class is left as it is.
  have apart : (model.ledger.record baseProperty).checks ≠ (model.ledger.record property).checks := by
    rw [checks, checks]
    exact declared.sound.checks_ne inherited owned
      (foreign declared finished fresh inside' inside owned inherited)
  -- Whatever is checked is pooled, since both classes are stocked.
  have pooled (check : Check) (planned : check ∈ (model.ledger.checks property).items) :=
    ((progress.stocked id inside property
      (Ledger.mem_scope_of_property owned)).checks check planned).pooled
  have pooled' (check : Check) (made : check ∈ (model.ledger.checks baseProperty).items) :=
    ((progress.stocked base inside' baseProperty
      (Ledger.mem_scope_of_property inherited)).checks check made).pooled
  refine ⟨inside, extends', finished, owned, inherited, named, based, ?_, ?_,
    kept_thinned based apart pooled pooled', exact_thinned based apart pooled pooled'⟩
  · -- The property is there, and so it is linked to the other one.
    have present := (declared.sound.forest.inside _ _ (Record.mem_children.mpr (.inl owned))).2
    rw [← progress.later.size] at present
    rw [record_thinned, if_pos ⟨rfl, present⟩]
  · rw [shape_thinned, shape_thinned]
    exact shaped

/-- A comparison with a class that is done keeps what was compared before, and is kept itself. -/
theorem thinned (progress : Progress context first begun done told model) (declared : first.Declared)
    (extends' : first.base? context.tree id = some base) (finished : base ∈ done)
    (fresh : id ∉ done) (inside : id.index < first.declarations.size)
    (based : (model.declaration id).base = some base)
    (owned : property ∈ (first.ledger.record (first.declaration id).record).properties)
    (inherited : baseProperty ∈ (first.ledger.record (first.declaration base).record).properties)
    (named : (first.ledger.record baseProperty).name =
      some ((first.ledger.record property).name.getD ""))
    (shaped : ∃ shape, (model.ledger.record property).shape = some shape ∧
      (model.ledger.record baseProperty).shape = some shape)
    (once : ∀ comparison ∈ told, comparison.property ≠ property) :
    Progress context first begun done
      (told ++ [⟨id, base, property, baseProperty, model.ledger.checks property⟩])
      (model.thinned id property baseProperty) where
  later := progress.later.trans later_thinned
  sets := by
    have same : (model.thinned id property baseProperty).ledger.checkSets.size =
        model.ledger.checkSets.size := Array.size_modify
    exact same.trans progress.sets
  sane := sane_thinned progress.sane
  marked := progress.marked
  stocked other inside := stocked_thinned (progress.stocked other inside)
  compared comparison member := by
    -- The comparison is one of the earlier ones, or the new one.
    rcases List.mem_append.mp member with member | member
    · exact progress.told_thinned_earlier declared fresh inside owned once member
    · rw [List.mem_singleton.mp member]
      exact progress.told_thinned declared extends' finished fresh inside based owned inherited named
        shaped
  linked record held linked := by
    -- The only record that is newly linked is the property of the new comparison.
    rw [record_thinned] at linked
    split at linked
    · rename_i same
      cases linked
      exact ⟨_, List.mem_append_right _ (List.mem_singleton.mpr rfl), same.1.symm, rfl⟩
    · obtain ⟨comparison, member, same⟩ := progress.linked record held linked
      exact ⟨comparison, List.mem_append_left _ member, same⟩
  numbered := progress.numbered
  filled other inside := later_thinned.wholeFrom (progress.filled other inside) rfl
  -- A comparison decides no shape, so that records stay clean.
  clean other inside record acts above positive := by
    rw [(later_thinned.settles record).sameOrigin.negationOf] at positive
    exact later_thinned.clean (progress.clean other inside record acts above positive) shape_thinned
  housed := progress.housed
  whole other member concrete := later_thinned.whole (progress.whole other member concrete)
  bare other inside kind record acts away :=
    shape_thinned.trans (progress.bare other inside kind record acts away)
  nestless := progress.nestless
  unresolved := progress.unresolved

/-- What is noted about a declaration keeps what was compared. -/
theorem updateDeclaration {begun' : Set DeclarationId} {change : Declaration → Declaration}
    (progress : Progress context first begun done told model)
    (grows : ∀ declaration : Declaration, declaration.Grows (change declaration))
    (nested : ∀ declaration : Declaration, (change declaration).nested = declaration.nested)
    (links : model.Links (change (model.declaration id)))
    (marked : ∀ other : DeclarationId, other.index < first.declarations.size →
      (((model.updateDeclaration id change).declaration other).isAnalysed = true ↔
        other ∈ begun'))
    (based : ∀ comparison ∈ told, comparison.owner = id →
      (change (model.declaration id)).base = some comparison.base)
    (resolved : ∀ declaration : Declaration,
      (change declaration).hasVariants = declaration.hasVariants) :
    Progress context first begun' done told (model.updateDeclaration id change) := by
  -- The ledger is the same, and declarations only grow.
  have later : Later model (model.updateDeclaration id change) :=
    ⟨fun _ => .refl _, rfl, Model.size_updateDeclaration,
      fun _ => Model.rel_updateDeclaration Declaration.Grows.refl (grows _)⟩
  have sane : (model.updateDeclaration id change).Sane context := by
    refine sane_updateDeclaration progress.sane later (fun index class' there => ?_) links
    rw [nested] at there
    exact .inl there
  refine progress.still later rfl sane (fun _ => rfl) (fun _ => rfl) (fun _ => rfl)
    (fun _ => Model.field_updateDeclaration Declaration.nested (nested _)) marked
    (fun comparison member => ?_) (fun other inside record acts => ?_)
    fun _ => Model.field_updateDeclaration Declaration.hasVariants (resolved _)
  · -- The base class may be noted anew, if it is the one that was compared with.
    rw [Model.declaration_updateDeclaration]
    split
    · rename_i here
      exact based comparison member here.1
    · exact (progress.compared comparison member).based
  · -- Records and checks are the same, so all that is needed is there as before.
    exact (progress.stocked other inside record acts).of_grown (later.grows other) rfl rfl rfl

end Progress

/-- A class whose base is noted, while its properties are analysed: the records of all classes behind
it have no shape yet. -/
structure Opened (context : Context) (first : Model) (begun done : Set DeclarationId)
    (told : List Comparison) (id : DeclarationId) (model : Model) : Prop where
  progress : Progress context first begun done told model
  concrete : (first.declaration id).kind = .concrete
  based : ∀ base, first.base? context.tree id = some base →
    (model.declaration id).base = some base
  unshaped : ∀ other : DeclarationId, other.index < first.declarations.size → other ∉ insert id done →
    (model.ledger.record (first.declaration other).record).shape = none

/-- The base record that the properties of a class are compared with. -/
def baseRecord? (context : Context) (first : Model) (id : DeclarationId) : Option RecordId :=
  (first.base? context.tree id).map fun base => (first.declaration base).record

/-- What is noted about a class leaves all records alone. -/
theorem ends_noteBase {id base : DeclarationId} (inside : id.index < model.declarations.size) :
    Ends (do
        Modelling.updateDeclaration base (·.addDerived id)
        importDeclaration id base) model
      (fun _ last => Walk context id ∅ model last ∧ last.ledger = model.ledger) (fun _ => True) := by
  have noted : Walk context id ∅ model (model.updateDeclaration base (·.addDerived id)) := by
    -- The base class gets one more derived class, which is declared.
    refine walk_note ⟨rfl, fun other member => ?_, fun _ member => .inl member⟩
    have joined : other ∈ addNew (model.declaration base).derived id := member
    refine (mem_addNew.mp joined).imp_right fun same => ?_
    rw [same]
    exact inside
  simp only [ends_bind, ends_updateDeclaration]
  exact (yields_importDeclaration.further noted).imp (fun _ _ walked => walked) fun _ _ => trivial

/-- A class is opened with the record of its base. -/
theorem opened_openClass (progress : Progress context first begun done told model)
    (declared : first.Declared) (inside : id.index < first.declarations.size) (fresh : id ∉ done)
    (concrete : (first.declaration id).kind = .concrete)
    (unshaped : ∀ other : DeclarationId, other.index < first.declarations.size → other ∉ done →
      (model.ledger.record (first.declaration other).record).shape = none) :
    Ends (openClass context id (first.declaration id).record) model
      (fun result last => result = baseRecord? context first id ∧
        Opened context first begun done told id last) (fun _ => True) := by
  -- The base is found by schemas and kinds, which are those of the start.
  have same : model.base? context.tree id = first.base? context.tree id :=
    Model.base?_congr progress.later.declarations (fun other => (progress.later.grows other).schema)
      fun other => (progress.later.grows other).kind
  -- Once the base is noted, the record of the class is marked as an object.
  have close (middle : Model) (advanced : Progress context first begun done told middle)
      (ledger : middle.ledger = model.ledger)
      (based : ∀ base, first.base? context.tree id = some base →
        (middle.declaration id).base = some base) :
      Opened context first begun done told id
        (middle.updateRecord (first.declaration id).record fun record =>
          { record with shape := some .object }) := by
    -- The record of the class is shaped here; those of the other classes are left as they are.
    rw [← ledger] at unshaped
    refine ⟨advanced.shapeRoot declared inside fresh (fun ref same => nomatch same)
      (unshaped id inside fresh), concrete, based, fun other inside' behind => ?_⟩
    have apart : (first.declaration other).record ≠ (first.declaration id).record := fun equal =>
      behind (.inl (declared.apart other id inside' inside equal))
    rw [Model.ledger_updateRecord, Ledger.record_update_of_ne apart]
    exact unshaped other inside' fun finished => behind (.inr finished)
  simp only [openClass, ends_bind, ends_get]
  rw [same]
  cases extends' : first.base? context.tree id with
  | none =>
    -- There is no base to note, and the class is opened at once.
    refine ⟨by simp [baseRecord?, extends'], close model progress rfl fun base held => ?_⟩
    rw [extends'] at held
    cases held
  | some base =>
    simp only [ends_bind, ends_updateDeclaration]
    have noted : Progress context first begun done told
        -- First the base is noted at the class, which changes no record.
        (model.updateDeclaration id fun declaration => { declaration with base := some base }) := by
      refine progress.updateDeclaration
        (fun _ => ⟨rfl, rfl, rfl, List.prefix_rfl, List.prefix_rfl, List.Subset.refl _, fun held => held⟩)
        (fun _ => rfl) { progress.sane.links id with base := ?_ } (fun other inside' => ?_)
        (fun comparison member owner => ?_) fun _ => rfl
      · rintro other held
        cases held
        show base.index < model.declarations.size
        rw [progress.later.declarations]
        exact Model.inside_of_base? extends'
      · rw [← progress.marked other inside', Model.field_updateDeclaration Declaration.isAnalysed rfl]
      · have known := (progress.compared comparison member).extends'
        rw [owner, extends'] at known
        exact known
    -- Then the class is noted at the base and the import is made.
    have inside' := inside
    rw [← noted.later.declarations] at inside'
    have ends' := @ends_noteBase context _ id base inside'
    simp only [ends_bind, ends_updateDeclaration] at ends'
    refine ends'.imp (fun _ middle walked => ?_) fun _ _ => trivial
    obtain ⟨walk, ledger⟩ := walked
    -- Neither note touches the ledger, and so all comparisons are spared.
    have advanced : Progress context first begun done told middle :=
      noted.walk declared inside fresh concrete walk (Set.empty_subset _) fun _ _ _ => by rw [ledger]
    simp only [ends_updateRecord, ends_get, ends_pure]
    refine ⟨?_, close middle advanced ledger fun other held => ?_⟩
    · simp only [baseRecord?, extends', Option.map_some, Model.declaration_updateRecord,
        (advanced.later.grows base).record]
    · -- The base that was noted is still there in the end.
      rw [extends'] at held
      cases held
      rw [walk.ahead.base, Model.declaration_updateDeclaration,
        if_pos ⟨rfl, by rw [progress.later.declarations]; exact inside⟩]

/-- A walk in an opened class that spares the checks of what was compared leaves it opened. -/
theorem Opened.walk (opened : Opened context first begun done told id model)
    (declared : first.Declared) (inside : id.index < first.declarations.size) (fresh : id ∉ done)
    {scope : Set RecordId} (walk : Walk context id scope model next)
    (within : scope ⊆ first.ledger.scope (first.declaration id).record)
    (spared : ∀ comparison ∈ told, comparison.owner = id →
      next.ledger.checks comparison.property = model.ledger.checks comparison.property) :
    Opened context first begun done told id next := by
  refine ⟨opened.progress.walk declared inside fresh opened.concrete walk within spared,
    opened.concrete, fun base held => ?_,
    fun other inside' behind => ?_⟩
  · -- The base has been noted before, and a walk does not change it.
    rw [walk.ahead.base]
    exact opened.based base held
  · -- The records of the other classes lie outside of the scope.
    rw [Steps.record_eq walk.steps fun acts => behind (.inl ?_)]
    · exact opened.unshaped other inside' behind
    · exact declared.apart other id inside' inside (declared.sound.scope_disjoint
        (declared.root other inside').2 (declared.root id inside).2 Ledger.mem_scope_self (within acts))

/-- A walk inside one child of an opened class leaves it opened. -/
theorem Opened.walkInside (opened : Opened context first begun done told id model)
    (declared : first.Declared) (inside : id.index < first.declarations.size) (fresh : id ∉ done)
    {child : RecordId}
    (held : child ∈ (first.ledger.record (first.declaration id).record).children)
    (walk : Walk context id (first.ledger.scope child) model next)
    (others : ∀ comparison ∈ told, comparison.property ≠ child) :
    Opened context first begun done told id next :=
  opened.walk declared inside fresh walk (Ledger.scope_subset held) fun comparison member owner =>
    opened.progress.spared declared inside held walk.steps member owner (others comparison member)

end Modelling

end SchemaClasses
