import SchemaClasses.Proofs.Resolution.Progress

/-! Every class is analysed once and after its base class, all its comparisons are kept, and behind it
the class is whole. -/

namespace SchemaClasses

namespace Modelling

variable {context : Context} {first model next : Model} {begun done : Set DeclarationId}
variable {told : List Comparison} {id : DeclarationId} {property : RecordId}

/-- What holds of an opened class after a part of its analysis, and on what it is based. -/
structure Advanced (context : Context) (first : Model) (begun done : Set DeclarationId)
    (told : List Comparison) (id : DeclarationId) (before after : Model) : Prop where
  opened : Opened context first begun done told id before →
    Opened context first begun done told id after
  later : Later before after

instance : Course (Opened context first begun done told id)
    (Advanced context first begun done told id) where
  refl _ := ⟨fun opened => opened, .refl _⟩
  trans led led' := ⟨fun opened => led'.opened (led.opened opened), led.later.trans led'.later⟩
  ready led opened := led.opened opened

/-- The analysis of a value of an opened class settles it. -/
theorem advanced_analyseAny (opened : Opened context first begun done told id model)
    (declared : first.Declared) (inside : id.index < first.declarations.size) (fresh : id ∉ done)
    {member : RecordId}
    (held : (first.ledger.record (first.declaration id).record).IsMember member)
    (others : ∀ comparison ∈ told, comparison.property ≠ member) (role : Role) :
    Ends (analyseAny context ⟨id, none⟩ member role) model
      (fun _ last => Advanced context first begun done told id model last ∧ last.Settled id member)
      (fun _ => True) := by
  -- The analysis stays in the scope of the value, which lies inside the class.
  have child := held.mem_children
  have positive : (model.ledger.record member).negationOf = none := by
    -- The value is still of a positive record, since origins do not change.
    rw [(opened.progress.later.settles member).sameOrigin.negationOf]
    exact declared.sound.negationOf_eq_none (.inl held)
  have settles : Yields context id (first.ledger.scope member)
      (analyseAny context ⟨id, none⟩ member role) model fun _ last => last.Settled id member :=
    works_analyseAny ⟨id, none⟩ member role model rfl Ledger.mem_scope_self (Nat.zero_le _) positive
      (opened.progress.readyInside declared inside child)
  refine Ends.imp settles (fun _ last walked => ?_) fun _ _ => trivial
  exact ⟨⟨fun opened => opened.walkInside declared inside fresh child walked.1 others,
    walked.1.later⟩, walked.2⟩

/-- A property of the base class that is found for one of a class belongs to the base class and has the
name of the other. -/
theorem inherited_of_find? {base : DeclarationId} {baseProperty : RecordId} (later : Later first model)
    (found : model.ledger.property? (first.declaration base).record
      ((model.ledger.record property).name.getD "") = some baseProperty) :
    baseProperty ∈ (first.ledger.record (first.declaration base).record).properties ∧
      (first.ledger.record baseProperty).name =
        some ((first.ledger.record property).name.getD "") := by
  -- What is searched now is the list of the first model, whose names do not change.
  have member := List.mem_of_find?_eq_some found
  rw [(later.settles _).properties_eq] at member
  have name := List.find?_some found
  rw [(later.settles _).name_eq, (later.settles _).name_eq] at name
  exact ⟨member, eq_of_beq name⟩

/-- A settled property of an opened class is compared with the one it inherits. -/
theorem opened_comparing {base : DeclarationId} {baseProperty : RecordId}
    (opened : Opened context first begun done told id model) (declared : first.Declared)
    (inside : id.index < first.declarations.size) (fresh : id ∉ done)
    (extends' : first.base? context.tree id = some base) (finished : base ∈ done)
    (owned : property ∈ (first.ledger.record (first.declaration id).record).properties)
    (inherited : baseProperty ∈ (first.ledger.record (first.declaration base).record).properties)
    (named : (first.ledger.record baseProperty).name =
      some ((first.ledger.record property).name.getD ""))
    (settled : model.Settled id property)
    (once : ∀ comparison ∈ told, comparison.property ≠ property) :
    Ends (comparing id property baseProperty) model
      (fun more last => Opened context first begun done (told ++ more) id last ∧
        Later model last ∧ last.Settled id property ∧
        ∀ comparison ∈ more, comparison.property = property ∧ comparison.owner = id)
      (fun _ => True) := by
  -- The base class was noted when the class was opened.
  have noted := opened.based base extends'
  rw [ends_comparing]
  split
  · -- The property has the shape of the one in the base class, so it is thinned.
    rename_i same
    have shaped : ∃ shape, (model.ledger.record property).shape = some shape ∧
        (model.ledger.record baseProperty).shape = some shape := by
      cases settled with
      | intro present shaped isValue used items => exact ⟨_, shaped, same.symm.trans shaped⟩
    rw [noted, Option.getD_some]
    refine ⟨⟨opened.progress.thinned declared extends' finished fresh inside noted
      owned inherited named shaped once, opened.concrete, opened.based, fun other inside' behind => ?_⟩,
      later_thinned, later_thinned.settled settled, fun comparison member => ?_⟩
    · rw [shape_thinned]
      exact opened.unshaped other inside' behind
    · rw [List.mem_singleton.mp member]
      exact ⟨rfl, rfl⟩
  · -- A property of another shape is declared anew, and nothing is thinned.
    rw [List.append_nil]
    refine ⟨⟨opened.progress.redeclared, opened.concrete, opened.based, fun other inside' behind => ?_⟩,
      later_redeclared, later_redeclared.settled settled,
      fun _ member => absurd member List.not_mem_nil⟩
    rw [shape_redeclared]
    exact opened.unshaped other inside' behind

/-- The analysis of a property of an opened class, with its comparison where there is one. -/
theorem opened_comparingProperty (opened : Opened context first begun done told id model)
    (declared : first.Declared) (inside : id.index < first.declarations.size) (fresh : id ∉ done)
    (finished : ∀ base, first.base? context.tree id = some base → base ∈ done)
    (owned : property ∈ (first.ledger.record (first.declaration id).record).properties)
    (once : ∀ comparison ∈ told, comparison.property ≠ property) :
    Ends (comparingProperty context ⟨id, none⟩ (baseRecord? context first id) property) model
      (fun more last => Opened context first begun done (told ++ more) id last ∧
        Later model last ∧ last.Settled id property ∧
        ∀ comparison ∈ more, comparison.property = property ∧ comparison.owner = id)
      (fun _ => True) := by
  have child : property ∈ (first.ledger.record (first.declaration id).record).children :=
    Record.mem_children.mpr (.inl owned)
  simp only [comparingProperty, ends_bind, ends_record, ends_ledger]
  split
  · -- There is a property of the base class to compare with.
    rename_i baseProperty found
    obtain ⟨record, based, found⟩ := Option.bind_eq_some_iff.mp found
    obtain ⟨base, extends', rfl⟩ := Option.map_eq_some_iff.mp based
    obtain ⟨inherited, named⟩ := inherited_of_find? opened.progress.later found
    -- What was nested before is inherited first, then the property is analysed, then it is compared.
    rw [ends_bind]
    have inherits : Takes (Ready ⟨id, none⟩ (first.ledger.scope property) 0)
        -- Inheriting stays within the scope of the property, as a walk must.
        (Walk context id (first.ledger.scope property))
        (inheritNestedClass property baseProperty) :=
      works_inheritNestedClass Ledger.mem_scope_self
    refine (inherits model (opened.progress.readyInside declared inside child)).imp
      (fun _ middle walk => ?_) fun _ _ => trivial
    have opened' := opened.walkInside declared inside fresh child walk once
    rw [ends_bind]
    refine (advanced_analyseAny opened' declared inside fresh (.inl owned) once _).imp
      (fun _ analysed advanced => ?_) fun _ _ => trivial
    obtain ⟨advanced, settled⟩ := advanced
    -- The comparison comes last, and by then the property is settled.
    have ahead := walk.later.trans advanced.later
    refine (opened_comparing (advanced.opened opened') declared inside fresh extends'
      (finished base extends') owned inherited named settled once).imp (fun _ last compared => ?_)
        fun _ _ => trivial
    obtain ⟨opened, later, settled, own⟩ := compared
    exact ⟨opened, ahead.trans later, settled, own⟩
  · -- Without such a property there is only the analysis.
    rw [ends_bind]
    refine (advanced_analyseAny opened declared inside fresh (.inl owned) once _).imp
      (fun _ last advanced => ?_) fun _ _ => trivial
    obtain ⟨advanced, settled⟩ := advanced
    rw [ends_pure, List.append_nil]
    exact ⟨advanced.opened opened, advanced.later, settled,
      fun _ member => absurd member List.not_mem_nil⟩

/-- The record of a class and its negation, which own the checks of the class. -/
def rootScope (first : Model) (id : DeclarationId) : Set RecordId :=
  { record | record = (first.declaration id).record ∨
    (first.ledger.record (first.declaration id).record).negation = some record }

/-- The record of a class and its negation lie in the scope of the class. -/
theorem rootScope_subset :
    rootScope first id ⊆ first.ledger.scope (first.declaration id).record := by
  rintro record (rfl | held)
  · exact Ledger.mem_scope_self
  · exact Ledger.mem_scope_of_child Ledger.mem_scope_self (Record.mem_children.mpr (by simp [held]))

/-- No property of a class shares its set of checks with the record of the class. -/
theorem apart_rootScope (declared : first.Declared) (inside : id.index < first.declarations.size)
    (owned : property ∈ (first.ledger.record (first.declaration id).record).properties)
    {own : RecordId} (acts : own ∈ rootScope first id) :
    (first.ledger.record property).checks ≠ (first.ledger.record own).checks := by
  -- Sets of checks have one owner, the positive record, and so the two owners must be the same.
  obtain ⟨present, isRoot⟩ := declared.root id inside
  have child := declared.sound.forest.inside _ _ (Record.mem_children.mpr (.inl owned))
  intro same
  have owner := declared.sound.owned.apart _ _ child.2
    ((declared.sound.closed_scope present).present own (rootScope_subset acts)) same
  rw [declared.sound.positive_property owned] at owner
  -- The owner of the set is the root, which is no property of its own.
  have positive : first.ledger.positive own = (first.declaration id).record := by
    unfold Ledger.positive
    rcases acts with rfl | held
    · cases negated : (first.ledger.record (first.declaration id).record).negationOf with
      | none => rfl
      | some other => exact absurd (declared.sound.child_of_negationOf negated) (isRoot other)
    · rw [(declared.sound.owned.mirror _ _).mp held]
      rfl
  rw [positive] at owner
  -- A child lies above its parent in the ledger, and here it would be the parent itself.
  exact absurd child.1 (by rw [owner]; exact Nat.lt_irrefl _)

/-- A part that walks in an opened class and spares the checks of its properties advances it. -/
theorem takes_of_walk {part : Modelling Unit} {scope : Set RecordId} (declared : first.Declared)
    (inside : id.index < first.declarations.size) (fresh : id ∉ done)
    (within : scope ⊆ first.ledger.scope (first.declaration id).record)
    (walks : ∀ start, Opened context first begun done told id start →
      Yields context id scope part start fun _ last =>
        ∀ property ∈ (first.ledger.record (first.declaration id).record).properties,
          last.ledger.checks property = start.ledger.checks property) :
    Takes (Opened context first begun done told id) (Advanced context first begun done told id)
      part := by
  intro start opened
  refine Ends.imp (walks start opened) (fun _ last walked => ?_) fun _ _ => trivial
  obtain ⟨walk, same⟩ := walked
  refine ⟨fun opened => opened.walk declared inside fresh walk within
    fun comparison member owner => same _ ?_, walk.later⟩
  -- The checks of a comparison belong to a property of this class, which the walk has spared.
  have owned := (opened.progress.compared comparison member).owned
  rw [owner] at owned
  exact owned

/-- The checks of an opened class itself are planned, and its properties are reconciled. -/
theorem takes_planObject (declared : first.Declared) (inside : id.index < first.declarations.size)
    (fresh : id ∉ done) :
    Takes (Opened context first begun done told id) (Advanced context first begun done told id) (do
      plan context id (first.declaration id).record .object
      planNegation context id (first.declaration id).record
      reconcileRequired (first.declaration id).record) := by
  -- A walk on the root and its negation does not touch the checks of a property.
  have spared {start last : Model} (opened : Opened context first begun done told id start)
      (walk : Walk context id (rootScope first id) start last) (property : RecordId)
      (owned : property ∈ (first.ledger.record (first.declaration id).record).properties) :
      last.ledger.checks property = start.ledger.checks property := by
    have checks (record : RecordId) := (opened.progress.later.settles record).sameOrigin.checks
    refine walk.steps.checks_eq fun own acts => ?_
    -- Origins keep the sets that checks belong to, so it is enough to compare the sets of the first
    -- model.
    rw [checks, checks]
    exact apart_rootScope declared inside owned acts
  have checks : Takes (Opened context first begun done told id)
      (Advanced context first begun done told id)
      (plan context id (first.declaration id).record .object) := by
    refine takes_of_walk declared inside fresh rootScope_subset fun start opened => ?_
    have walk : Walk context id (rootScope first id) start _ := walk_plan (.inl rfl) .object
    exact ⟨walk, spared opened walk⟩
  have negation : Takes (Opened context first begun done told id)
      (Advanced context first begun done told id)
      (planNegation context id (first.declaration id).record) := by
    refine takes_of_walk declared inside fresh rootScope_subset fun start opened => ?_
    have later := opened.progress.later
    -- The negation of the root is in its scope because the two are mirrors of each other.
    have walks : Ends (planNegation context id (first.declaration id).record) start
        (fun _ => Walk context id (rootScope first id) start) (fun _ => True) := by
      refine ends_planNegation fun negation held => ?_
      rw [(later.settles _).negation_eq] at held
      refine ⟨.inr held, ?_⟩
      rw [(later.settles _).sameOrigin.negationOf, (declared.sound.owned.mirror _ _).mp held]
      rfl
    exact Ends.imp walks (fun _ _ walk => ⟨walk, spared opened walk⟩) fun _ _ => trivial
  have reconciles : Takes (Opened context first begun done told id)
      (Advanced context first begun done told id)
      (reconcileRequired (first.declaration id).record) := by
    -- Requiredness is a matter of the properties themselves, which are all in the scope of the
    -- class.
    refine @takes_of_walk context first begun done told id _
      { property | property ∈ (first.ledger.record (first.declaration id).record).properties }
      declared inside fresh (fun _ => Ledger.mem_scope_of_property) fun start opened => ?_
    refine Ends.imp (yields_reconcileRequired fun property member => ?_)
      (fun _ _ walked => ⟨walked.1, fun property _ => walked.2 property⟩) fun _ _ => trivial
    rw [(opened.progress.later.settles _).properties_eq] at member
    exact member
  exact checks.bind fun _ => negation.bind fun _ => reconciles

/-- Only properties have been compared, and no other value of a class is one of them. -/
theorem ne_of_isMember (progress : Progress context first begun done told model)
    (declared : first.Declared) {member : RecordId}
    (held : (first.ledger.record (first.declaration id).record).IsMember member)
    (apart : member ∉ (first.ledger.record (first.declaration id).record).properties) :
    ∀ comparison ∈ told, comparison.property ≠ member := by
  rintro comparison there rfl
  have owned := (progress.compared comparison there).owned
  -- The owner of the comparison is the only parent of the value, and there it is a property.
  rw [declared.sound.forest.single _ _ _ (Record.mem_children.mpr (.inl owned))
    held.mem_children] at owned
  exact apart owned

/-- The analysis of the values of its pattern properties advances an opened class and settles them. -/
theorem advanced_patterns (opened : Opened context first begun done told id model)
    (declared : first.Declared) (inside : id.index < first.declarations.size) (fresh : id ∉ done) :
    Ends ((model.ledger.record (first.declaration id).record).patternProperties.forM
        fun entry => analyseAny context ⟨id, none⟩ entry.record .value) model
      (fun _ last => Advanced context first begun done told id model last ∧
        ∀ entry ∈ (model.ledger.record (first.declaration id).record).patternProperties,
          last.Settled id entry.record) (fun _ => True) := by
  have origin := opened.progress.later.settles (first.declaration id).record
  -- The children of the root are all different, so no value of a pattern is a property.
  have nodup := declared.sound.forest.nodup (first.declaration id).record
  simp only [Record.children, List.nodup_append] at nodup
  refine Takes.forEach (fun (entry : PatternProperty) (state : Model) =>
      state.Settled id entry.record) opened
    (fun _ _ _ (led : Advanced context first begun done told id _ _) settled =>
      led.later.settled settled) fun entry member middle opened' _ => ?_
  -- The pattern was already there at first, so that its value belongs to the class.
  have listed : entry.record ∈ (first.ledger.record
      (first.declaration id).record).patternProperties.map (·.record) := by
    rw [← origin.patternRecords_eq]
    exact List.mem_map_of_mem member
  have held : (first.ledger.record (first.declaration id).record).IsMember entry.record :=
    .inr (.inl listed)
  exact advanced_analyseAny opened' declared inside fresh held
    (ne_of_isMember opened'.progress declared held
      fun property => nodup.1.1.1.1.2.2 _ property _ listed rfl) .value

/-- Once all its values are settled and the checks of the class itself are planned, it is whole. -/
theorem opened_planObject (opened : Opened context first begun done told id model)
    (declared : first.Declared) (inside : id.index < first.declarations.size) (fresh : id ∉ done)
    (settled : ∀ member, (first.ledger.record (first.declaration id).record).IsMember member →
      model.Settled id member) :
    Ends (do
      plan context id (first.declaration id).record .object
      planNegation context id (first.declaration id).record
      reconcileRequired (first.declaration id).record) model
      (fun _ last => Opened context first begun done told id last ∧
        last.Whole id (first.declaration id).record) (fun _ => True) := by
  refine (takes_planObject declared inside fresh model opened).imp (fun _ last closed => ?_)
    fun _ _ => trivial
  have present := (declared.root id inside).1
  rw [← opened.progress.later.size] at present
  -- What was settled before the plan is still settled behind it.
  refine ⟨closed.opened opened, closed.later.whole ⟨present, fun member held => ?_⟩⟩
  rw [(opened.progress.later.settles _).isMember] at held
  exact settled member held

/-- What comes of an opened class after its properties makes it whole. -/
theorem opened_closeObject (opened : Opened context first begun done told id model)
    (declared : first.Declared) (inside : id.index < first.declarations.size) (fresh : id ∉ done)
    (settled : ∀ property ∈ (first.ledger.record (first.declaration id).record).properties,
      model.Settled id property) :
    Ends (closeObject context (analyseAny context) ⟨id, none⟩ (first.declaration id).record) model
      (fun _ last => Opened context first begun done told id last ∧
        last.Whole id (first.declaration id).record) (fun _ => True) := by
  have origin := opened.progress.later.settles (first.declaration id).record
  have nodup := declared.sound.forest.nodup (first.declaration id).record
  simp only [Record.children, List.nodup_append] at nodup
  simp only [closeObject, ends_bind, ends_record]
  refine (advanced_patterns opened declared inside fresh).imp (fun _ middle advanced => ?_)
    fun _ _ => trivial
  obtain ⟨advanced, valued⟩ := advanced
  have opened' := advanced.opened opened
  have origin' := opened'.progress.later.settles (first.declaration id).record
  -- All that is left to settle behind the patterns is the value of the additional properties.
  have members {last : Model} (further : Advanced context first begun done told id middle last)
      (additional : ∀ value,
        (first.ledger.record (first.declaration id).record).additional = some (.schema value) →
        last.Settled id value) (member : RecordId)
      (held : (first.ledger.record (first.declaration id).record).IsMember member) :
      last.Settled id member := by
    rcases held with property | pattern | value
    · exact further.later.settled (advanced.later.settled (settled member property))
    · rw [← origin.patternRecords_eq] at pattern
      obtain ⟨entry, listed, rfl⟩ := List.mem_map.mp pattern
      exact further.later.settled (valued entry listed)
    · exact additional member value
  -- Additional properties come with a schema of their own or without one.
  rw [origin'.additional_eq]
  split
  · rename_i value same
    have held : (first.ledger.record (first.declaration id).record).IsMember value :=
      .inr (.inr same)
    -- A value of additional properties stands behind the properties in the list of children.
    have apart : value ∉ (first.ledger.record (first.declaration id).record).properties := by
      intro property
      refine nodup.1.1.1.2.2 value (List.mem_append_left _ property) value ?_ rfl
      simp [same, AdditionalProperties.record?]
    -- Once this value is settled as well, only the plan for the class remains.
    rw [ends_bind]
    refine (advanced_analyseAny opened' declared inside fresh held
      (ne_of_isMember opened'.progress declared held apart) .value).imp
        (fun _ last further => ?_) fun _ _ => trivial
    refine opened_planObject (further.1.opened opened') declared inside fresh
      (members further.1 fun other held' => ?_)
    rw [same] at held'
    cases held'
    exact further.2
  · rename_i none
    exact opened_planObject opened' declared inside fresh
      (members (Course.refl (Opened context first begun done told id) middle)
        fun value held => absurd held (none value))

/-- The moments between two classes: all that was compared belongs to classes that are done, and the
records of the others have no shape yet. -/
structure AtRest (context : Context) (first : Model) (begun done : Set DeclarationId)
    (told : List Comparison) (model : Model) : Prop where
  progress : Progress context first begun done told model
  inside : ∀ id ∈ done, id.index < first.declarations.size
  owners : ∀ comparison ∈ told, comparison.owner ∈ done
  unshaped : ∀ id : DeclarationId, id.index < first.declarations.size → id ∉ done →
    (model.ledger.record (first.declaration id).record).shape = none

/-- The moments between two properties of a class, with those that are left. -/
structure Midway (context : Context) (first : Model) (begun done : Set DeclarationId)
    (id : DeclarationId) (left : List RecordId) (told : List Comparison) (model : Model) : Prop where
  opened : Opened context first begun done told id model
  within : left ⊆ (first.ledger.record (first.declaration id).record).properties
  nodup : left.Nodup
  once : ∀ property ∈ left, ∀ comparison ∈ told, comparison.property ≠ property
  owners : ∀ comparison ∈ told, comparison.owner ∈ insert id done
  settled : ∀ property ∈ (first.ledger.record (first.declaration id).record).properties,
    property ∈ left ∨ model.Settled id property

/-- One property more is analysed. -/
theorem Midway.round {left : List RecordId}
    (midway : Midway context first begun done id (property :: left) told model)
    (declared : first.Declared) (inside : id.index < first.declarations.size) (fresh : id ∉ done)
    (finished : ∀ base, first.base? context.tree id = some base → base ∈ done) :
    Ends (comparingProperty context ⟨id, none⟩ (baseRecord? context first id) property) model
      (fun more last => Midway context first begun done id left (told ++ more) last)
      (fun _ => True) := by
  obtain ⟨apart, nodup⟩ := List.nodup_cons.mp midway.nodup
  -- The property was waiting, so it is owned and has not been compared.
  have owned := midway.within List.mem_cons_self
  refine (opened_comparingProperty midway.opened declared inside fresh finished owned
    (midway.once property List.mem_cons_self)).imp (fun more last compared => ?_)
    fun _ _ => trivial
  obtain ⟨opened, later, settled, added⟩ := compared
  refine ⟨opened, fun _ member => midway.within (List.mem_cons_of_mem _ member), nodup,
    fun other member comparison told => ?_, fun comparison told => ?_, fun other member => ?_⟩
  · -- No property comes a second time, so none of those to come was compared by now.
    rcases List.mem_append.mp told with told | told
    · exact midway.once other (List.mem_cons_of_mem _ member) comparison told
    · rw [(added comparison told).1]
      rintro rfl
      exact apart member
  · -- All that was added is owned by this class.
    rcases List.mem_append.mp told with told | told
    · exact midway.owners comparison told
    · rw [(added comparison told).2]
      exact Set.mem_insert _ _
  · -- The property just analysed leaves the waiting ones and joins those that are settled.
    rcases midway.settled other member with waiting | earlier
    · rcases List.mem_cons.mp waiting with rfl | waiting
      · exact .inr settled
      · exact .inl waiting
    · exact .inr (later.settled earlier)

/-- The analysis of the members of a class whose base class is done. -/
theorem atRest_comparingClass (rest : AtRest context first begun done told model)
    (declared : first.Declared) (inside : id.index < first.declarations.size) (fresh : id ∉ done)
    (concrete : (first.declaration id).kind = .concrete)
    (finished : ∀ base, first.base? context.tree id = some base → base ∈ done) :
    Ends (comparingClass context id) model
      (fun more last => AtRest context first begun (insert id done) (told ++ more) last)
      (fun _ => True) := by
  -- A declaration keeps its record, so the class is analysed on the record that it had at first.
  have record : (model.declaration id).record = (first.declaration id).record :=
    (rest.progress.later.grows id).record
  simp only [comparingClass, ends_bind, ends_declaration]
  rw [record]
  -- Opening notes the base class and gives the class its shape.
  refine (opened_openClass rest.progress declared inside fresh concrete rest.unshaped).imp
    (fun base model' opened => ?_) fun _ _ => trivial
  obtain ⟨same, ready⟩ := opened
  rw [same]
  simp only [comparingObject, ends_bind, ends_record]
  rw [(ready.progress.later.settles _).properties_eq]
  -- Each property is met once, and no class that is done has it.
  have once (property : RecordId)
      (owned : property ∈ (first.ledger.record (first.declaration id).record).properties) :
      ∀ comparison ∈ told, comparison.property ≠ property := by
    rintro comparison member rfl
    have known := ready.progress.compared comparison member
    -- The record of the class is the only parent of the property, and it belongs to no other class.
    have record := declared.sound.forest.single _ _ _
      (Record.mem_children.mpr (.inl known.owned)) (Record.mem_children.mpr (.inl owned))
    have owner := rest.owners comparison member
    have same := declared.apart _ _ (rest.inside _ owner) inside record
    rw [same] at owner
    exact fresh owner
  -- All properties are left when the class has been opened.
  have started : Midway context first begun done id
      (first.ledger.record (first.declaration id).record).properties told model' :=
    ⟨ready, List.Subset.refl _, declared.sound.properties_nodup, once,
      fun comparison member => Set.mem_insert_of_mem _ (rest.owners comparison member),
      fun property owned => .inl owned⟩
  -- One round for each property keeps what holds midway.
  refine (Ends.gather (Midway context first begun done id) started
    fun property left told' middle midway =>
      midway.round declared inside fresh finished).imp (fun more last midway => ?_)
    fun _ _ => trivial
  -- Behind the last round all properties are settled, and the class is closed.
  refine (opened_closeObject midway.opened declared inside fresh fun property owned =>
    (midway.settled property owned).resolve_left List.not_mem_nil).imp (fun _ last' closed => ?_)
    fun _ _ => trivial
  obtain ⟨opened, whole⟩ := closed
  rw [ends_pure]
  refine ⟨opened.progress.finish fun _ => whole, ?_, midway.owners, opened.unshaped⟩
  rintro other (rfl | member)
  · exact inside
  · exact rest.inside other member

/-- The analysis of any declaration whose base class is done. -/
theorem atRest_comparingDeclaration (rest : AtRest context first begun done told model)
    (declared : first.Declared) (inside : id.index < first.declarations.size) (fresh : id ∉ done)
    (finished : ∀ base, first.base? context.tree id = some base → base ∈ done) :
    Ends (comparingDeclaration context id) model
      (fun more last => AtRest context first begun (insert id done) (told ++ more) last)
      (fun _ => True) := by
  have later := rest.progress.later
  have record : (model.declaration id).record = (first.declaration id).record :=
    (later.grows id).record
  -- A declaration without members only gets its shape.
  have shaped (shape : Shape) (plain : ∀ ref, shape ≠ .reference (.generated ref))
      (bare : (first.declaration id).kind ≠ .concrete) :
      AtRest context first begun (insert id done) (told ++ [])
        (model.updateRecord (first.declaration id).record fun record =>
          { record with shape := some shape }) := by
    rw [List.append_nil]
    -- Nothing is asked of members here, since only concrete classes have any.
    refine ⟨(rest.progress.shapeRoot declared inside fresh plain (rest.unshaped id inside fresh)).finish
      fun concrete => absurd concrete bare, ?_,
      fun comparison member => Set.mem_insert_of_mem _ (rest.owners comparison member),
      fun other inside' behind => ?_⟩
    · rintro other (rfl | member)
      · exact inside
      · exact rest.inside other member
    · -- Declarations have different records, so that the others stay without a shape.
      have apart : (first.declaration other).record ≠ (first.declaration id).record := fun equal =>
        behind (.inl (declared.apart other id inside' inside equal))
      rw [Model.ledger_updateRecord, Ledger.record_update_of_ne apart]
      exact rest.unshaped other inside' fun finished => behind (.inr finished)
  rw [comparingDeclaration, ends_bind, ends_declaration, (later.grows id).kind]
  -- The kind decides: an interface and an enumeration have nothing to analyse.
  split
  · rename_i kind
    rw [ends_bind, ends_updateRecord, record, ends_pure]
    exact shaped _ (by simp) (by simp [kind])
  · rename_i kind
    rw [ends_bind, ends_updateRecord, record, ends_pure]
    exact shaped _ (by simp) (by simp [kind])
  · rename_i concrete
    exact atRest_comparingClass rest declared inside fresh concrete finished

/-- A declaration that is begun is marked. -/
theorem AtRest.mark (rest : AtRest context first begun done told model) :
    AtRest context first (insert id begun) done told
      (model.updateDeclaration id fun declaration => { declaration with isAnalysed := true }) := by
  -- A mark is no link and no name, so that all but the marks is as before.
  refine ⟨rest.progress.updateDeclaration
    (fun _ => ⟨rfl, rfl, rfl, List.prefix_rfl, List.prefix_rfl, List.Subset.refl _, fun held => held⟩)
    (fun _ => rfl) { rest.progress.sane.links id with } (fun other inside => ?_)
    (fun comparison member owner => ?_) fun _ => rfl, rest.inside, rest.owners, rest.unshaped⟩
  · rw [Model.declaration_updateDeclaration]
    split
    · rename_i same
      simp [same.1]
    · rename_i different
      -- Another declaration is marked as it was before.
      have apart : other ≠ id := by
        rintro rfl
        rw [rest.progress.later.declarations] at different
        exact different ⟨rfl, inside⟩
      rw [rest.progress.marked other inside, Set.mem_insert_iff]
      simp [apart]
  · rw [← owner]
    exact (rest.progress.compared comparison member).based

/-- All declarations of a list are marked. -/
theorem atRest_marks {fresh : List DeclarationId}
    (rest : AtRest context first begun done told model) :
    Ends (fresh.forM fun id =>
        updateDeclaration id fun declaration => { declaration with isAnalysed := true }) model
      (fun _ last => AtRest context first (begun ∪ { id | id ∈ fresh }) done told last)
      (fun _ => True) := by
  induction fresh generalizing begun model with
  | nil =>
    show AtRest _ _ _ _ _ _
    simpa using rest
  | cons id others ih =>
    rw [List.forM, ends_bind, ends_updateDeclaration]
    have first' : AtRest context first (insert id begun) done told _ := rest.mark
    have marked := ih first'
    have same : insert id begun ∪ { other | other ∈ others } =
        begun ∪ { other | other ∈ id :: others } := by
      ext other
      simp only [Set.mem_union, Set.mem_insert_iff, Set.mem_ofPred_eq, List.mem_cons]
      -- The two sets of marks differ only in how they are written.
      tauto
    rw [same] at marked
    exact marked

/-- Declarations in order are analysed from the last to the first. -/
theorem atRest_gather {fresh : List DeclarationId}
    (rest : AtRest context first begun done told model) (declared : first.Declared)
    (ordered : first.InOrder context.tree done fresh) :
    Ends (gather (comparingDeclaration context) fresh.reverse) model
      (fun more last => AtRest context first begun (done ∪ { id | id ∈ fresh }) (told ++ more) last)
      (fun _ => True) := by
  -- The last of the list comes first, so the induction follows the list from its end.
  induction fresh with
  | nil =>
    simp only [List.reverse_nil, gather, ends_pure, List.append_nil]
    simpa using rest
  | cons id others ih =>
    obtain ⟨ordered, fresh, apart, inside, finished⟩ := ordered
    rw [List.reverse_cons, gather_append, ends_bind]
    -- The bases of this class come before it in time, and by then they are done.
    refine (ih ordered).imp (fun more middle rest => ?_) fun _ _ => trivial
    simp only [gather, bind_assoc, pure_bind, ends_bind, ends_pure, List.append_nil]
    -- The class itself is neither done nor one of those just analysed.
    have unmet : id ∉ done ∪ { other | other ∈ others } := by
      rintro (member | member)
      · exact fresh member
      · exact apart member
    refine (atRest_comparingDeclaration rest declared inside unmet finished).imp
      (fun more' last rest => ?_) fun _ _ => trivial
    have same : insert id (done ∪ { other | other ∈ others }) =
        done ∪ { other | other ∈ id :: others } := by
      ext other
      simp only [Set.mem_union, Set.mem_insert_iff, Set.mem_ofPred_eq, List.mem_cons]
      tauto
    rw [same, List.append_assoc] at rest
    exact rest

/-- A declaration is analysed with all its bases that are left. -/
theorem atRest_comparingMembers (rest : AtRest context first done done told model)
    (declared : first.Declared) (grounded : first.Grounded context.tree)
    (inside : id.index < first.declarations.size) :
    Ends (comparingMembers context id) model
      (fun more last => ∃ done' : Set DeclarationId, done ⊆ done' ∧ id ∈ done' ∧
        AtRest context first done' done' (told ++ more) last)
      (fun _ => True) := by
  have later := rest.progress.later
  -- The chain of bases is that of the first model, because schemas and kinds do not change.
  have chain : model.allBases context.tree id = first.allBases context.tree id :=
    Model.allBases_congr later.declarations (fun other => (later.grows other).schema)
      fun other => (later.grows other).kind
  -- The bases that are left come in order, each behind the next.
  have ordered : first.InOrder context.tree done (fresh context id model) := by
    unfold fresh
    rw [chain]
    exact grounded.inOrder rest.progress.marked inside (Nat.le_refl _) (grounded.ends inside)
  have marks := rest.progress.marked
  rw [comparingMembers, ends_bind, ends_get, ends_bind]
  refine (atRest_marks rest).imp (fun _ marked rest => ?_) fun _ _ => trivial
  refine (atRest_gather rest declared ordered).imp (fun more last rest => ?_) fun _ _ => trivial
  refine ⟨_, Set.subset_union_left, ?_, rest⟩
  -- The class itself was done before, or comes first of those that are left.
  by_cases finished : id ∈ done
  · exact .inl finished
  · refine .inr ?_
    show id ∈ fresh context id model
    unfold fresh
    have waiting : (!(model.declaration id).isAnalysed) = true := by
      simpa using fun analysed => finished ((marks id inside).mp analysed)
    rw [List.takeWhile_cons, if_pos waiting]
    exact List.mem_cons_self

/-- The moments between two declarations of the list of all, with those that are left. -/
structure Remaining (context : Context) (first : Model) (left : List DeclarationId)
    (told : List Comparison) (model : Model) : Prop where
  within : left ⊆ first.ids
  rest : ∃ done : Set DeclarationId, (∀ id ∈ first.ids, id ∈ left ∨ id ∈ done) ∧
    AtRest context first done done told model

/-- One declaration more is analysed. -/
theorem Remaining.round {left : List DeclarationId}
    (remaining : Remaining context first (id :: left) told model) (declared : first.Declared)
    (grounded : first.Grounded context.tree) :
    Ends (comparingMembers context id) model
      (fun more last => Remaining context first left (told ++ more) last) (fun _ => True) := by
  -- What was left includes this declaration, so it is one of the model.
  obtain ⟨within, done, all, rest⟩ := remaining
  have inside := Model.mem_ids.mp (within List.mem_cons_self)
  refine (atRest_comparingMembers rest declared grounded inside).imp
    (fun more last done' => ?_) fun _ _ => trivial
  obtain ⟨done', grown, finished, rest⟩ := done'
  refine ⟨fun _ member => within (List.mem_cons_of_mem _ member), done', fun other listed => ?_, rest⟩
  -- Each class was left and is the one that was analysed, or it is still left, or was done before.
  rcases all other listed with waiting | earlier
  · rcases List.mem_cons.mp waiting with rfl | waiting
    · exact .inr finished
    · exact .inl waiting
  · exact .inr (grown earlier)

/-- All declarations are analysed. -/
theorem atRest_gather_all (declared : first.Declared) (grounded : first.Grounded context.tree) :
    Ends (gather (comparingMembers context) first.ids) first
      (fun told last => ∃ done : Set DeclarationId, (∀ id ∈ first.ids, id ∈ done) ∧
        AtRest context first done done told last)
      (fun _ => True) := by
  -- At the start nothing is begun, and no record has a shape.
  have start : AtRest context first ∅ ∅ [] first :=
    ⟨.start declared, fun _ member => absurd member (Set.notMem_empty _),
      fun _ member => absurd member List.not_mem_nil,
      fun id _ _ => (declared.sound.raw (first.declaration id).record).shape⟩
  have started : Remaining context first first.ids [] first :=
    ⟨List.Subset.refl _, ∅, fun _ listed => .inl listed, start⟩
  refine Ends.imp (Ends.gather (Remaining context first) started fun id left told middle remaining =>
    remaining.round declared grounded) (fun told last remaining => ?_) fun _ _ => trivial
  -- Nothing is left at the end, so that all declarations are done.
  obtain ⟨done, all, rest⟩ := remaining.rest
  exact ⟨done, fun id listed => (all id listed).resolve_left List.not_mem_nil, rest⟩

end Modelling

end SchemaClasses
