import SchemaClasses.Proofs.Resolution.Checks
import SchemaClasses.Proofs.Resolution.Copies
import SchemaClasses.Proofs.Resolution.Sane
import SchemaClasses.Proofs.Resolution.Scopes

/-! The resolution of branches is a sequence of turns: steps of an analysis inside the branches, and
what becomes of the copies of records that variants are made from. -/

namespace SchemaClasses

namespace Model

/-- The numbers of all records. -/
def everywhere (model : Model) : Set RecordId := { id | id.index < model.ledger.size }

/-- The records of a class while its branches are resolved: those that it was declared with, and the
copies from a number on. -/
def home (first : Model) (owner : DeclarationId) (floor : Nat) : Set RecordId :=
  { id | id ∈ first.ledger.scope (first.declaration owner).record ∨ floor ≤ id.index }

/-- The records inside the alternatives of a class. -/
def inBranches (first : Model) (owner : DeclarationId) : Set RecordId :=
  { id | ∃ parent ∈ first.ledger.scope (first.declaration owner).record,
    ∃ branch ∈ (first.ledger.record parent).oneOf, id ∈ first.ledger.scope branch }

/-- The records that the resolution of the branches of a class changes: those inside the alternatives,
and the copies. -/
def branchScope (first : Model) (owner : DeclarationId) (floor : Nat) : Set RecordId :=
  { id | id ∈ first.inBranches owner ∨ floor ≤ id.index }

variable {model first : Model} {owner : DeclarationId} {floor : Nat} {id : RecordId}

/-- The alternatives of a class lie in its scope. -/
theorem inBranches_subset :
    first.inBranches owner ⊆ first.ledger.scope (first.declaration owner).record := by
  rintro id ⟨parent, above, branch, held, below⟩
  -- A branch is a child of the record around it.
  refine Relation.ReflTransGen.trans (Ledger.mem_scope_of_child above ?_) below
  exact Record.mem_children.mpr (.inr (.inr (.inr (.inr (.inl held)))))

/-- What lies inside a record of the alternatives does so as well. -/
theorem scope_subset_inBranches (inside : id ∈ first.inBranches owner) :
    first.ledger.scope id ⊆ first.inBranches owner := by
  obtain ⟨parent, above, branch, held, below⟩ := inside
  exact fun other member => ⟨parent, above, branch, held, Relation.ReflTransGen.trans below member⟩

/-- The alternatives of a class lie behind its record. -/
theorem lt_of_inBranches (sound : first.ledger.Sound) (inside : id ∈ first.inBranches owner) :
    (first.declaration owner).record.index < id.index := by
  obtain ⟨parent, above, branch, held, below⟩ := inside
  have child : branch ∈ (first.ledger.record parent).children :=
    Record.mem_children.mpr (.inr (.inr (.inr (.inr (.inl held)))))
  -- Numbers grow towards the inside, and strictly from a record to its branch.
  exact Nat.lt_of_le_of_lt (sound.le_of_mem_scope above)
    (Nat.lt_of_lt_of_le (sound.forest.inside _ _ child).1 (sound.le_of_mem_scope below))

/-- The branches of a class belong to it. -/
theorem branchScope_subset_home : first.branchScope owner floor ⊆ first.home owner floor :=
  fun _ member => member.imp_left fun inside => inBranches_subset inside

end Model

/-- A later state of a record of which nothing has changed that no resolution of branches changes. -/
structure Record.Lasts (before after : Record) : Prop where
  record : after =
    { before with
      typeRef := after.typeRef
      shape := after.shape
      nullable := after.nullable
      isRequired := after.isRequired
      required := after.required
      properties := after.properties
      patternProperties := after.patternProperties
      mapBacked := after.mapBacked
      extended := after.extended
      overrides := after.overrides }
  shape : ∀ shape, before.shape = some shape → after.shape = some shape

namespace Record.Lasts

variable {a b c : Record}

theorem refl (record : Record) : record.Lasts record := ⟨rfl, fun _ held => held⟩

theorem trans (first : a.Lasts b) (second : b.Lasts c) : a.Lasts c :=
  ⟨by rw [second.record, first.record], fun shape held => second.shape shape (first.shape shape held)⟩

/-- A record that is settled lasts, as long as it is not compared. -/
theorem of_settles (settles : a.Settles b) (same : b.baseProperty = a.baseProperty) :
    a.Lasts b where
  record := by
    -- Settling sets the base property too, and a record that lasts has to keep its own.
    conv_lhs => rw [settles.record, same]
    rw [settles.record]
  shape := settles.shape

theorem name_eq (lasts : a.Lasts b) : b.name = a.name := by rw [lasts.record]

theorem checks_eq (lasts : a.Lasts b) : b.checks = a.checks := by rw [lasts.record]

theorem oneOf_eq (lasts : a.Lasts b) : b.oneOf = a.oneOf := by rw [lasts.record]

theorem schema_eq (lasts : a.Lasts b) : b.schema = a.schema := by rw [lasts.record]

theorem items_eq (lasts : a.Lasts b) : b.items = a.items := by rw [lasts.record]

theorem baseProperty_eq (lasts : a.Lasts b) : b.baseProperty = a.baseProperty := by
  rw [lasts.record]

end Record.Lasts

namespace Modelling

/-- All that the resolution of the branches of a class does at once. Only copies get other properties
or more required names. -/
inductive Turn (context : Context) (first : Model) (owner : DeclarationId) (floor : Nat) :
    Model → Model → Prop where
  | step {scope : Set RecordId} {before after : Model} (taken : Step context owner scope before after)
      (within : scope ⊆ first.branchScope owner floor) (present : scope ⊆ before.everywhere) :
      Turn context first owner floor before after
  | vary {model : Model} {container : RecordId} {origin : Option SchemaId} {copies : List RecordId}
      {ledger : Ledger} (high : floor ≤ model.ledger.size) (present : container ∈ model.everywhere)
      (belongs : container ∈ first.home owner floor)
      (made : ∃ branch ∈ model.everywhere, (model.ledger.record branch).schema = origin)
      (varies : model.ledger.Varies container origin copies ledger) :
      Turn context first owner floor model (model.withLedger ledger)
  | join {model : Model} {id property : RecordId} (late : floor ≤ id.index)
      (present : id ∈ model.everywhere) (acts : property ∈ first.branchScope owner floor)
      (settled : model.Settled owner property)
      (held : ∃ holder, property ∈ (model.ledger.record holder).properties)
      (fresh : ∃ name, model.ledger.name property = some name ∧ some name ∉ model.ledger.names id) :
      Turn context first owner floor model
        (model.updateRecord id fun record =>
          { record with properties := record.properties ++ [property] })
  | require {model : Model} {id : RecordId} (late : floor ≤ id.index)
      (present : id ∈ model.everywhere) (name : String) :
      Turn context first owner floor model (model.updateRecord id (·.addRequired name))
  | relax {model : Model} {id : RecordId} (acts : id ∈ first.branchScope owner floor)
      (present : id ∈ model.everywhere) :
      Turn context first owner floor model
        (model.updateRecord id fun record => { record with nullable := none })
  | extend {model : Model} {id : RecordId} {more : CheckSet}
      (acts : id ∈ first.branchScope owner floor) (present : id ∈ model.everywhere)
      (supplied : ∀ check ∈ more.items, check.IsSupplied (model.declaration owner).constants
        (model.declaration owner).libraryTypes) :
      Turn context first owner floor model
        (model.withLedger (model.ledger.updateChecks id (·.extend more)))
  | resolve {model : Model} :
      Turn context first owner floor model
        (model.updateDeclaration owner fun declaration => { declaration with hasVariants := true })

variable {context : Context} {first before after model : Model} {owner other : DeclarationId}
variable {floor : Nat} {id : RecordId}

/-- A turn keeps the numbers of the records, and adds no declaration. -/
theorem Turn.size_le (turn : Turn context first owner floor before after) :
    before.ledger.size ≤ after.ledger.size ∧
      after.declarations.size = before.declarations.size := by
  cases turn with
  -- Only a variant that joins makes the ledger larger.
  | step taken within present =>
    exact ⟨Nat.le_of_eq taken.ahead.size.symm, taken.ahead.declarations⟩
  | vary high present belongs made varies => exact ⟨varies.size_le, rfl⟩
  | join late present acts settled held => exact ⟨Nat.le_of_eq Ledger.size_update.symm, rfl⟩
  | require late present name => exact ⟨Nat.le_of_eq Ledger.size_update.symm, rfl⟩
  | relax acts present => exact ⟨Nat.le_of_eq Ledger.size_update.symm, rfl⟩
  | extend acts present supplied => exact ⟨Nat.le_refl _, rfl⟩
  | resolve => exact ⟨Nat.le_refl _, Model.size_updateDeclaration⟩

/-- A turn adds to declarations only. -/
theorem Turn.grows (turn : Turn context first owner floor before after) (id : DeclarationId) :
    (before.declaration id).Grows (after.declaration id) := by
  cases turn with
  | step taken => exact taken.grows id
  | resolve =>
    -- A resolved class is only marked, so nothing that was nested or imported is lost.
    exact Model.rel_updateDeclaration Declaration.Grows.refl
      ⟨rfl, rfl, rfl, List.prefix_rfl, List.prefix_rfl, List.Subset.refl _, fun held => held⟩
  | _ => exact .refl _

/-- A turn keeps the base classes. -/
theorem Turn.base_eq (turn : Turn context first owner floor before after) (id : DeclarationId) :
    (after.declaration id).base = (before.declaration id).base := by
  cases turn with
  | step taken => exact taken.ahead.base id
  | resolve => exact Model.field_updateDeclaration Declaration.base rfl
  | _ => rfl

/-- A turn of one class leaves what other classes hold alone. -/
theorem Turn.keeps (turn : Turn context first owner floor before after) (apart : other ≠ owner) :
    (before.declaration other).Keeps (after.declaration other) := by
  cases turn with
  | step taken => exact taken.keeps apart
  | resolve =>
    rw [Model.declaration_updateDeclaration_of_ne apart]
    exact .refl _
  | _ => exact .refl _

/-- Records that are there last through a turn. -/
theorem Turn.lasts (turn : Turn context first owner floor before after)
    (present : id ∈ before.everywhere) :
    (before.ledger.record id).Lasts (after.ledger.record id) := by
  -- Most turns change one record, so it is enough to look at that one.
  have changed {other : RecordId} {change : Record → Record}
      (lasts : (before.ledger.record other).Lasts (change (before.ledger.record other))) :
      (before.ledger.record id).Lasts ((before.updateRecord other change).ledger.record id) :=
    Ledger.rel_update Record.Lasts.refl lasts
  cases turn with
  | step taken => exact .of_settles (taken.settles id) (taken.baseProperty_eq id)
  | vary high present' belongs made varies =>
    rw [Model.ledger_withLedger, varies.record id present]
    exact .refl _
  | join late present' acts settled held => exact changed ⟨rfl, fun _ held => held⟩
  | require late present' name => exact changed ⟨rfl, fun _ held => held⟩
  | relax acts present' => exact changed ⟨rfl, fun _ held => held⟩
  | extend acts present' supplied => exact .refl _
  | resolve => exact .refl _

/-- Records that are no copies are only settled by a turn. -/
theorem Turn.settles (turn : Turn context first owner floor before after)
    (present : id ∈ before.everywhere) (below : id.index < floor) :
    (before.ledger.record id).Settles (after.ledger.record id) := by
  -- Only copies get more properties and required names, and the record is none.
  have apart {other : RecordId} (late : floor ≤ other.index) : id ≠ other := by
    rintro rfl
    exact Nat.lt_irrefl _ (Nat.lt_of_lt_of_le below late)
  cases turn with
  | step taken => exact taken.settles id
  | vary high present' belongs made varies =>
    rw [Model.ledger_withLedger, varies.record id present]
    exact .refl _
  | join late present' acts settled held =>
    rw [Model.ledger_updateRecord, Ledger.record_update_of_ne (apart late)]
    exact .refl _
  | require late present' name =>
    rw [Model.ledger_updateRecord, Ledger.record_update_of_ne (apart late)]
    exact .refl _
  | relax acts present' =>
    exact Ledger.rel_update Record.Settles.refl ⟨rfl, rfl, fun _ held => held⟩
  | extend acts present' supplied => exact .refl _
  | resolve => exact .refl _

/-- A model in which all records last that are there, and all declarations. -/
structure Onward (before after : Model) : Prop where
  size_le : before.ledger.size ≤ after.ledger.size
  declarations : after.declarations.size = before.declarations.size
  lasts : ∀ id ∈ before.everywhere, (before.ledger.record id).Lasts (after.ledger.record id)
  grows : ∀ id, (before.declaration id).Grows (after.declaration id)

namespace Onward

variable {a b c : Model}

theorem refl (model : Model) : Onward model model :=
  ⟨Nat.le_refl _, rfl, fun _ _ => .refl _, fun _ => .refl _⟩

theorem trans (led : Onward a b) (led' : Onward b c) : Onward a c where
  size_le := Nat.le_trans led.size_le led'.size_le
  declarations := led'.declarations.trans led.declarations
  lasts id present :=
    (led.lasts id present).trans (led'.lasts id (Nat.lt_of_lt_of_le present led.size_le))
  grows id := (led.grows id).trans (led'.grows id)

/-- What has been analysed stays so. -/
theorem settled (led : Onward a b) (settled : a.Settled owner id) : b.Settled owner id := by
  induction settled with
  | @intro id shape present shaped isValue used items ih =>
    have lasts := led.lasts id present
    -- The items are those from before, so the induction applies to them.
    refine .intro (Nat.lt_of_lt_of_le present led.size_le) (lasts.shape shape shaped) isValue
      (List.Subset.trans used (led.grows owner).libraryTypes) fun array inner held => ?_
    rw [lasts.items_eq] at held
    exact ih array inner held

/-- A class that is there stays there. -/
theorem hasClass (led : Onward a b) {ref : ClassRef} (there : a.HasClass ref) : b.HasClass ref := by
  cases ref with
  | declaration id =>
    show id.index < b.declarations.size
    rw [led.declarations]
    exact there
  | nested owner index => exact Nat.lt_of_lt_of_le there (led.grows owner).size_le

end Onward

/-- A turn leads onward. -/
theorem Turn.onward (turn : Turn context first owner floor before after) : Onward before after where
  size_le := turn.size_le.1
  declarations := turn.size_le.2
  lasts _ := turn.lasts
  grows := turn.grows

/-- What a turn makes of the properties of a record that is there: another one may join, which has been
analysed and was a property before. -/
theorem Turn.mem_properties (turn : Turn context first owner floor before after)
    (present : id ∈ before.everywhere) {property : RecordId}
    (held : property ∈ (after.ledger.record id).properties) :
    property ∈ (before.ledger.record id).properties ∨
      property ∈ first.branchScope owner floor ∧ floor ≤ id.index ∧
        before.Settled owner property ∧
        ∃ holder, property ∈ (before.ledger.record holder).properties := by
  cases turn with
  | step taken within present' =>
    -- A step of the analysis adds no property to a record that is there.
    rw [(taken.settles id).properties_eq] at held
    exact .inl held
  | vary high present' belongs made varies =>
    rw [Model.ledger_withLedger, varies.record id present] at held
    exact .inl held
  | @join _ joined property' late present' acts settled holder =>
    rw [Model.ledger_updateRecord, Ledger.record_update] at held
    split at held
    · rename_i same
      rw [same.1]
      rcases List.mem_append.mp held with earlier | new
      · exact .inl earlier
      · -- The property that joined is the only one that was not there.
        rw [List.mem_singleton.mp new]
        exact .inr ⟨acts, late, settled, holder⟩
    · exact .inl held
  -- A required name is none, and neither is a property that may be absent no more.
  | require late present' name =>
    rw [Model.ledger_updateRecord, Ledger.field_update Record.properties rfl] at held
    exact .inl held
  | relax acts present' =>
    rw [Model.ledger_updateRecord, Ledger.field_update Record.properties rfl] at held
    exact .inl held
  | extend acts present' supplied => exact .inl held
  | resolve => exact .inl held

/-- What a turn makes of the other values inside a record that is there: nothing. -/
theorem Turn.patternRecords_eq (turn : Turn context first owner floor before after)
    (present : id ∈ before.everywhere) :
    (after.ledger.record id).patternProperties.map (·.record) =
      (before.ledger.record id).patternProperties.map (·.record) := by
  cases turn with
  -- Patterns are given constants by a step, and their records stay.
  | step taken => exact (taken.settles id).patternRecords_eq
  | vary high present' belongs made varies => rw [Model.ledger_withLedger, varies.record id present]
  | join late present' acts settled held =>
    rw [Model.ledger_updateRecord, Ledger.field_update Record.patternProperties rfl]
  | require late present' name =>
    rw [Model.ledger_updateRecord, Ledger.field_update Record.patternProperties rfl]
  | relax acts present' =>
    rw [Model.ledger_updateRecord, Ledger.field_update Record.patternProperties rfl]
  | extend acts present' supplied => rfl
  | resolve => rfl

/-- What lies inside a record after a turn lay there before, unless it is a property that joined. -/
theorem Turn.mem_children (turn : Turn context first owner floor before after)
    (present : id ∈ before.everywhere) {child : RecordId}
    (held : child ∈ (after.ledger.record id).children) :
    child ∈ (before.ledger.record id).children ∨
      child ∈ first.branchScope owner floor ∧
        ∃ holder, child ∈ (before.ledger.record holder).properties := by
  have lasts := turn.lasts present
  have patterns := turn.patternRecords_eq present
  simp only [Record.children, List.mem_append] at held ⊢
  rw [patterns] at held
  -- Apart from its properties, a record holds what it held.
  have same : (after.ledger.record id).additional = (before.ledger.record id).additional ∧
      (after.ledger.record id).items = (before.ledger.record id).items ∧
      (after.ledger.record id).oneOf = (before.ledger.record id).oneOf ∧
      (after.ledger.record id).negation = (before.ledger.record id).negation := by
    rw [lasts.record]
    exact ⟨rfl, rfl, rfl, rfl⟩
  rw [same.1, same.2.1, same.2.2.1, same.2.2.2] at held
  rcases held with ((((property | pattern) | additional) | items) | branch) | negation
  · -- A property was there or has joined; the other places hold what they held.
    rcases turn.mem_properties present property with earlier | ⟨acts, -, -, holder⟩
    · exact .inl (.inl (.inl (.inl (.inl (.inl earlier)))))
    · exact .inr ⟨acts, holder⟩
  · exact .inl (.inl (.inl (.inl (.inl (.inr pattern)))))
  · exact .inl (.inl (.inl (.inl (.inr additional))))
  · exact .inl (.inl (.inl (.inr items)))
  · exact .inl (.inl (.inr branch))
  · exact .inl (.inr negation)

/-- A class that is whole stays so. -/
theorem Turn.whole (turn : Turn context first owner floor before after)
    (whole : before.Whole owner id) : after.Whole owner id := by
  refine ⟨Nat.lt_of_lt_of_le whole.present turn.size_le.1, fun member held => ?_⟩
  have lasts := turn.lasts whole.present
  refine turn.onward.settled ?_
  rcases held with property | pattern | additional
  · -- A property that joined was analysed before.
    rcases turn.mem_properties whole.present property with earlier | ⟨-, -, settled, -⟩
    · exact whole.settled member (.inl earlier)
    · exact settled
  · -- The values of patterns and of additional properties are the ones from before.
    rw [turn.patternRecords_eq whole.present] at pattern
    exact whole.settled member (.inr (.inl pattern))
  · have same : (after.ledger.record id).additional = (before.ledger.record id).additional := by
      rw [lasts.record]
    rw [same] at additional
    exact whole.settled member (.inr (.inr additional))

/-- The records that a turn adds are a variant of a record that belongs to the class. -/
theorem Turn.varies (turn : Turn context first owner floor before after)
    (new : id ∉ before.everywhere) (present : id ∈ after.everywhere) :
    ∃ container origin copies, container ∈ before.everywhere ∧ container ∈ first.home owner floor ∧
      floor ≤ before.ledger.size ∧ after.declarations = before.declarations ∧
      (∃ branch ∈ before.everywhere, (before.ledger.record branch).schema = origin) ∧
      before.ledger.Varies container origin copies after.ledger := by
  -- Only the turn that makes a variant makes the ledger longer.
  have none (same : after.ledger.size = before.ledger.size) : False := by
    refine new ?_
    show id.index < before.ledger.size
    rw [← same]
    exact present
  cases turn with
  -- A step adds no record, and most other turns update one.
  | step taken => exact (none taken.size_eq.1).elim
  | @vary _ container origin copies ledger high present' belongs made varies =>
    exact ⟨container, origin, copies, present', belongs, high, rfl, made, varies⟩
  | join late present' acts settled held => exact (none Ledger.size_update).elim
  | require late present' name => exact (none Ledger.size_update).elim
  | relax acts present' => exact (none Ledger.size_update).elim
  | extend acts present' supplied => exact (none rfl).elim
  | resolve => exact (none rfl).elim

/-- A turn keeps the sets of checks in range. -/
theorem Turn.inRange (turn : Turn context first owner floor before after)
    (inRange : before.ledger.InRange) : after.ledger.InRange := by
  intro id present
  have changed {other : RecordId} {change : Record → Record}
      -- A change that keeps the set of a record in range keeps all in range.
      (kept : (change (before.ledger.record other)).checks = (before.ledger.record other).checks)
      (present : id.index < (before.ledger.update other change).size) :
      ((before.ledger.update other change).record id).checks.index <
        before.ledger.checkSets.size := by
    rw [Ledger.field_update Record.checks kept]
    rw [Ledger.size_update] at present
    exact inRange id present
  cases turn with
  | step taken =>
    rw [taken.checkSets_size, (taken.settles id).sameOrigin.checks]
    rw [taken.size_eq.1] at present
    exact inRange id present
  | vary high present' belongs made varies =>
    by_cases old : id.index < before.ledger.size
    · rw [Model.ledger_withLedger, varies.record id old]
      exact Nat.lt_of_lt_of_le (inRange id old) varies.sets_le
    · obtain ⟨source, -, copies, -⟩ := varies.source old present
      -- A copy has a set of its own, which was added with it.
      exact copies.inRange
  | join late present' acts settled held => exact changed rfl present
  | require late present' name => exact changed rfl present
  | relax acts present' => exact changed rfl present
  -- The sets are as many as before, since one of them is only extended.
  | extend acts present' supplied =>
    show _ < (Array.modify _ _ _).size
    rw [Array.size_modify]
    exact inRange id present
  | resolve => exact inRange id present

/-- A turn leaves a class with what a record needs. -/
theorem Turn.supplied (turn : Turn context first owner floor before after)
    (inRange : before.ledger.InRange) (declared : owner.index < before.declarations.size)
    (present : id ∈ before.everywhere) (supplied : before.Supplied owner id) :
    after.Supplied owner id := by
  have changed {other : RecordId} {change : Record → Record}
      (kept : (change (before.ledger.record other)).checks = (before.ledger.record other).checks)
      (patterns : (change (before.ledger.record other)).patternProperties =
        (before.ledger.record other).patternProperties)
      (backed : (change (before.ledger.record other)).mapBacked =
        (before.ledger.record other).mapBacked) :
      (before.updateRecord other change).Supplied owner id :=
    supplied.of_grown (.refl _) (Ledger.checks_update kept)
      (Ledger.field_update Record.patternProperties patterns)
      (Ledger.field_update Record.mapBacked backed)
  have grows := turn.grows owner
  cases turn with
  -- Steps are known to supply what they plan.
  | step taken => exact taken.supplied declared supplied
  | vary high present' belongs made varies =>
    have same := varies.record id present
    refine supplied.of_grown (.refl _) ?_ ?_ ?_
    · exact varies.checks_eq (congrArg Record.checks same) (inRange id present)
    · exact congrArg Record.patternProperties same
    · exact congrArg Record.mapBacked same
  | join late present' acts settled held => exact changed rfl rfl rfl
  | require late present' name => exact changed rfl rfl rfl
  | relax acts present' => exact changed rfl rfl rfl
  | @extend _ extended more acts present' fresh =>
    refine ⟨fun check member => ?_, supplied.entries, supplied.mapBacked⟩
    rw [Model.ledger_withLedger, Ledger.checks_updateChecks] at member
    split at member
    · rename_i shares
      have own : before.ledger.checks id = before.ledger.checks extended := by
        unfold Ledger.checks
        rw [shares.1]
      rw [← own] at member
      -- Every check was there before or came with the turn, which brings only supplied ones.
      exact (CheckSet.mem_extend member).elim (supplied.checks check) (fresh check)
    · -- A record with another set of checks is not affected.
      exact supplied.checks check member
  | resolve => exact supplied.of_grown grows rfl rfl rfl

/-- A record that a turn adds needs what its source needs. -/
theorem Turn.supplied_new (turn : Turn context first owner floor before after)
    (new : id ∉ before.everywhere) (present : id ∈ after.everywhere)
    (closed : ∀ other ∈ first.home owner floor, ∀ child ∈ (before.ledger.record other).children,
      child ∈ first.home owner floor)
    (inside : ∀ other, ∀ child ∈ (before.ledger.record other).children, child ∈ before.everywhere)
    (stocked : before.Stocked owner (first.home owner floor ∩ before.everywhere)) :
    after.Supplied owner id := by
  obtain ⟨container, origin, copies, there, belongs, -, same, -, varies⟩ := turn.varies new present
  obtain ⟨source, place, copied, patterns, backed, -⟩ := varies.source new present
  have acts : source ∈ first.home owner floor ∩ before.everywhere := by
    -- The source is the record that varies or one of its properties.
    rcases place with rfl | property
    · exact ⟨belongs, there⟩
    · have child : source ∈ (before.ledger.record container).children :=
        Record.mem_children.mpr (.inl property)
      exact ⟨closed container belongs source child, inside container source child⟩
  -- The copy has the checks, patterns and map of its source.
  exact (stocked source acts).of_grown (turn.grows owner) copied.checks patterns backed

/-- Records that share no set of checks with others go on doing so: a copy has a set of its own behind all
others. -/
theorem Turn.stays_apart (turn : Turn context first owner floor before after)
    (inRange : before.ledger.InRange) {scope scope' : Set RecordId} (present : scope ⊆ before.everywhere)
    (apart : before.ledger.Apart scope (scope' ∩ before.everywhere)) :
    after.ledger.Apart scope (scope' ∩ after.everywhere) := by
  intro id acts own member
  rw [(turn.lasts (present acts)).checks_eq]
  -- Old records have kept their sets, so only a new one may come too close.
  by_cases old : own ∈ before.everywhere
  · rw [(turn.lasts old).checks_eq]
    exact apart id acts own ⟨member.1, old⟩
  · obtain ⟨container, origin, copies, -, -, -, -, -, varies⟩ := turn.varies old member.2
    obtain ⟨source, -, copied, -⟩ := varies.source old member.2
    intro equal
    -- The set of a copy did not exist when the other record got its own.
    have fresh := copied.fresh
    rw [← equal] at fresh
    exact absurd (inRange id (present acts)) (Nat.not_lt.mpr fresh)

/-- A turn leaves the records that share no set of checks with the branches as they are. -/
theorem Turn.apart (turn : Turn context first owner floor before after)
    (inRange : before.ledger.InRange) {scope : Set RecordId} (present : scope ⊆ before.everywhere)
    (apart : before.ledger.Apart scope (first.branchScope owner floor ∩ before.everywhere)) :
    after.ledger.Apart scope (first.branchScope owner floor ∩ after.everywhere) ∧
      ∀ id ∈ scope, after.ledger.record id = before.ledger.record id ∧
        after.ledger.checks id = before.ledger.checks id := by
  -- No record of the scope lies in the branches, so no turn changes one.
  have outside {id other : RecordId} (acts : id ∈ scope)
      (branch : other ∈ first.branchScope owner floor) (there : other ∈ before.everywhere) :
      id ≠ other := by
    rintro rfl
    exact apart id acts id ⟨branch, there⟩ rfl
  have changed {other : RecordId} {change : Record → Record}
      (kept : (change (before.ledger.record other)).checks = (before.ledger.record other).checks)
      (branch : other ∈ first.branchScope owner floor) (there : other ∈ before.everywhere)
      {id : RecordId} (acts : id ∈ scope) :
      (before.updateRecord other change).ledger.record id = before.ledger.record id ∧
        (before.updateRecord other change).ledger.checks id = before.ledger.checks id :=
    ⟨Ledger.record_update_of_ne (outside acts branch there), Ledger.checks_update kept⟩
  have same : ∀ id ∈ scope, after.ledger.record id = before.ledger.record id ∧
      after.ledger.checks id = before.ledger.checks id := by
    intro id acts
    cases turn with
    | step taken within present' =>
      refine ⟨taken.record_eq fun member => outside acts (within member) (present' member) rfl, ?_⟩
      exact Steps.checks_eq (.single taken) fun own member =>
        apart id acts own ⟨within member, present' member⟩
    | vary high present' belongs made varies =>
      -- A variant and its copies only join.
      have same := varies.record id (present acts)
      exact ⟨same, varies.checks_eq (congrArg Record.checks same) (inRange id (present acts))⟩
    | join late present' branch settled held => exact changed rfl (.inr late) present' acts
    | require late present' name => exact changed rfl (.inr late) present' acts
    | relax branch present' => exact changed rfl branch present' acts
    -- The set that is extended belongs to the branches, which the scope shares nothing with.
    | extend branch present' supplied =>
      refine ⟨rfl, ?_⟩
      rw [Model.ledger_withLedger, Ledger.checks_updateChecks, if_neg]
      exact fun shares => apart id acts _ ⟨branch, present'⟩ shares.1
    | resolve => exact ⟨rfl, rfl⟩
  exact ⟨turn.stays_apart inRange present apart, same⟩

/-- A turn only adds checks. -/
theorem Turn.checks_prefix (turn : Turn context first owner floor before after)
    (inRange : before.ledger.InRange) (present : id ∈ before.everywhere) :
    (before.ledger.checks id).items <+: (after.ledger.checks id).items := by
  cases turn with
  | step taken => exact Steps.checks_prefix (.single taken) id
  | vary high present' belongs made varies =>
    rw [Model.ledger_withLedger, varies.checks_eq
      (congrArg Record.checks (varies.record id present)) (inRange id present)]
  | join late present' acts settled held => rw [Model.ledger_updateRecord, Ledger.checks_update rfl]
  -- A new required name changes no set.
  | require late present' name =>
    rw [Model.ledger_updateRecord, Ledger.checks_update]
    rfl
  | relax acts present' => rw [Model.ledger_updateRecord, Ledger.checks_update rfl]
  | @extend _ other more acts present' supplied =>
    rw [Model.ledger_withLedger, Ledger.checks_updateChecks]
    split
    · rename_i shares
      -- A record that shares the set which is extended has the same checks.
      have own : before.ledger.checks id = before.ledger.checks other := by
        unfold Ledger.checks
        rw [shares.1]
      rw [own]
      exact CheckSet.prefix_extend _ _
    · exact List.prefix_rfl
  | resolve => exact List.prefix_rfl

/-- A class suits every record of the same schema and target. -/
theorem suits_of_same {id other : RecordId} {ref : ClassRef} (suits : before.Suits context id ref)
    (target : (after.ledger.record other).target = (before.ledger.record id).target)
    (schema : (after.ledger.record other).schema = (before.ledger.record id).schema)
    (declarations : after.declarations = before.declarations) : after.Suits context other ref := by
  have found (owner : DeclarationId) : after.declaration owner = before.declaration owner := by
    unfold Model.declaration
    rw [declarations]
  -- The declarations are the same, so the class is found where it was.
  cases suits with
  | declared refers stands =>
    refine .declared (target.trans refers) ?_
    -- Which declaration stands for a schema depends on the declarations only.
    have same : after.declarationFor? context.tree = before.declarationFor? context.tree :=
      funext fun _ => Model.declarationFor?_congr (congrArg Array.size declarations) fun owner =>
        congrArg Declaration.schema (found owner)
    rw [same]
    exact stands
  -- A nested class stands under the number that it had.
  | origin there made same =>
    rw [← found] at there
    exact .origin there (schema.trans made) same
  | target there refers same =>
    rw [← found] at there
    exact .target there (target.trans refers) same

/-- What decides the class of a record. -/
def classified (record : Record) : Option SchemaId × Option SchemaId × Option TypeRef × Option Shape :=
  (record.schema, record.target, record.typeRef, record.shape)

/-- A model stays sane while each record has the class of one that was there, or none. -/
theorem sane_of_same (sane : before.Sane context)
    (declarations : after.declarations = before.declarations)
    (size : before.ledger.size ≤ after.ledger.size)
    (old : ∀ id, id.index < before.ledger.size →
      classified (after.ledger.record id) = classified (before.ledger.record id))
    (oneOf : ∀ id, id.index < before.ledger.size →
      (after.ledger.record id).oneOf = (before.ledger.record id).oneOf)
    (new : ∀ id, ¬ id.index < before.ledger.size →
      (after.ledger.record id).typeRef = none ∧ (after.ledger.record id).shape = none ∨
        ∃ source, classified (after.ledger.record id) = classified (before.ledger.record source)) :
    after.Sane context := by
  have found (owner : DeclarationId) : after.declaration owner = before.declaration owner := by
    unfold Model.declaration
    rw [declarations]
  -- A record without a source has no class, so all that is claimed about classes is about old ones.
  have source (id : RecordId) :
      (after.ledger.record id).typeRef = none ∧ (after.ledger.record id).shape = none ∨
        ∃ source, classified (after.ledger.record id) = classified (before.ledger.record source) := by
    by_cases present : id.index < before.ledger.size
    · -- A record from before is its own source.
      exact .inr ⟨id, old id present⟩
    · exact new id present
  simp only [classified, Prod.mk.injEq] at source old
  refine ⟨fun id ref held => ?_, fun id ref held => ?_, fun owner index nested there => ?_,
    fun id => ?_, fun owner nested member isVariant => ?_⟩
  · rcases source id with none | ⟨original, -, -, typeRef, shape⟩
    · -- A record without a shape has no class by shape.
      rw [none.2] at held
      cases held
    · rw [shape] at held
      rw [typeRef]
      exact sane.shaped original ref held
  · rcases source id with none | ⟨original, schema, target, typeRef, -⟩
    · -- Nor has one without a type a class by type.
      rw [none.1] at held
      cases held
    · rw [typeRef] at held
      exact suits_of_same (sane.suits original ref held) target schema declarations
  · rw [found] at there
    obtain ⟨present, made⟩ := sane.nested owner index nested there
    obtain ⟨schema, target, -⟩ := old nested.record present
    -- The record that the class was made from has kept its schema and target.
    exact ⟨Nat.lt_of_lt_of_le present size, made.origin.trans schema.symm,
      made.target.imp_right fun same => same.trans target.symm⟩
  · -- Links between declarations are not touched at all.
    rw [found]
    refine (sane.links id).of_grown fun ref there => ?_
    cases ref with
    | declaration id =>
      show id.index < after.declarations.size
      rw [declarations]
      exact there
    | nested owner index =>
      show index < (after.declaration owner).nested.size
      rw [found]
      exact there
  · rw [found] at member
    obtain ⟨ref, variant⟩ := sane.variants owner nested member isVariant
    -- A variant goes on being one, as its container has the same alternatives.
    refine ⟨ref, variant.of_grown ?_ size fun id present => ⟨oneOf id present, (old id present).1⟩⟩
    rw [found]
    exact .refl _

/-- A turn keeps a model sane. -/
theorem Turn.sane (turn : Turn context first owner floor before after)
    (sane : before.Sane context) : after.Sane context := by
  have oneOf (id : RecordId) (present : id.index < before.ledger.size) :
      (after.ledger.record id).oneOf = (before.ledger.record id).oneOf :=
    (turn.lasts present).oneOf_eq
  have grows := turn.grows
  have changed {other : RecordId} {change : Record → Record}
      -- A change that leaves classes and alternatives alone is covered by the lemma above.
      (oneOf : ∀ id, id.index < before.ledger.size →
        ((before.updateRecord other change).ledger.record id).oneOf = (before.ledger.record id).oneOf)
      (kept : classified (change (before.ledger.record other)) =
        classified (before.ledger.record other)) :
      (before.updateRecord other change).Sane context :=
    sane_of_same sane rfl (Nat.le_of_eq Ledger.size_update.symm)
      (fun _ _ => Ledger.field_update classified kept) oneOf
      fun id _ => .inr ⟨id, Ledger.field_update classified kept⟩
  cases turn with
  | step taken within present => exact taken.sane (fun _ acts => present acts) sane
  | @vary _ container origin copies ledger high present belongs made varies =>
    refine sane_of_same sane rfl varies.size_le (fun id old => ?_) oneOf fun id late => ?_
    · -- What was there has not changed.
      rw [Model.ledger_withLedger, varies.record id old]
    · by_cases there : id.index < ledger.size
      · -- The variant itself has no class yet; a copied property has the class of its source.
        rcases varies.cases late there with rfl | ⟨source, -, repeats⟩
        · rw [Model.ledger_withLedger, varies.record_variant]
          exact .inl ⟨rfl, rfl⟩
        · refine .inr ⟨source, ?_⟩
          rw [Model.ledger_withLedger, repeats.record]
          rfl
      · rw [Model.ledger_withLedger, Ledger.record_of_size_le (Nat.not_lt.mp there)]
        exact .inl ⟨rfl, rfl⟩
  | join late present acts settled held => exact changed oneOf rfl
  | require late present name => exact changed oneOf rfl
  | relax acts present => exact changed oneOf rfl
  | extend acts present supplied =>
    -- Checks have no part in what makes a model sane.
    exact sane_of_same sane rfl (Nat.le_refl _) (fun _ _ => rfl) oneOf fun id _ => .inr ⟨id, rfl⟩
  | resolve =>
    -- The mark is no class and removes none.
    have later : Later before (before.updateDeclaration owner fun declaration =>
        { declaration with hasVariants := true }) :=
      ⟨fun _ => .refl _, rfl, Model.size_updateDeclaration, grows⟩
    exact sane_updateDeclaration sane later (fun _ _ there => .inl there) { sane.links owner with }

end Modelling

/-- Whether every property with a base property has the name and the shape of that one. -/
def Model.Paired (model : Model) : Prop :=
  ∀ holder property base, property ∈ (model.ledger.record holder).properties →
    (model.ledger.record property).baseProperty = some base →
    (model.ledger.record base).name = some ((model.ledger.record property).name.getD "") ∧
      ∃ shape, (model.ledger.record property).shape = some shape ∧
        (model.ledger.record base).shape = some shape

/-- Whether all items of arrays are records before a bound, and lie behind their arrays if these do
so as well. -/
def Model.Stacked (model : Model) (bound : Nat) : Prop :=
  ∀ id items : RecordId, (model.ledger.record id).items = some items →
    items.index < bound ∧ (id.index < bound → id.index < items.index)

/-- Whether all records that lie inside others are there. -/
def Model.Enclosed (model : Model) : Prop :=
  ∀ id child, child ∈ (model.ledger.record id).children → child ∈ model.everywhere

namespace Modelling

variable {context : Context} {first before after model : Model} {owner other : DeclarationId}
variable {floor : Nat} {id : RecordId}

/-- A record that is not there is empty. -/
theorem record_of_not_everywhere (absent : id ∉ model.everywhere) :
    model.ledger.record id = default :=
  Ledger.record_of_size_le (Nat.not_lt.mp absent)

/-- A turn puts no record inside another one that is not there. -/
theorem Turn.enclosed (turn : Turn context first owner floor before after)
    (enclosed : before.Enclosed) : after.Enclosed := by
  intro id child held
  -- The record was there, or it is one of those that joined.
  by_cases present : id ∈ before.everywhere
  · refine Nat.lt_of_lt_of_le (?_ : child ∈ before.everywhere) turn.size_le.1
    rcases turn.mem_children present held with earlier | ⟨-, holder, member⟩
    · exact enclosed id child earlier
    · exact enclosed holder child (Record.mem_children.mpr (.inl member))
  · by_cases there : id ∈ after.everywhere
    · obtain ⟨container, origin, copies, -, -, -, -, -, varies⟩ := turn.varies present there
      -- What lies inside a new record is a copy, or lay inside its source.
      rcases varies.mem_children present held with copy | ⟨source, -, member⟩
      · obtain ⟨source, -, repeats⟩ := varies.repeats child copy
        exact repeats.present
      · exact Nat.lt_of_lt_of_le (enclosed source child member) turn.size_le.1
    · rw [record_of_not_everywhere there] at held
      exact absurd held List.not_mem_nil

/-- A turn makes records for no other schemas than those that have some. -/
theorem Turn.exists_schema (turn : Turn context first owner floor before after)
    (enclosed : before.Enclosed) (present : id ∈ after.everywhere) :
    ∃ source ∈ before.everywhere,
      (before.ledger.record source).schema = (after.ledger.record id).schema := by
  by_cases old : id ∈ before.everywhere
  · -- A record that was there has its own schema still.
    exact ⟨id, old, (turn.lasts old).schema_eq.symm⟩
  · obtain ⟨container, origin, copies, -, -, -, -, ⟨branch, there, made⟩, varies⟩ :=
      turn.varies old present
    rcases varies.cases old present with rfl | ⟨source, held, repeats⟩
    · -- The variant was made for the schema of its branch.
      refine ⟨branch, there, made.trans ?_⟩
      rw [varies.record_variant]
    · refine ⟨source, enclosed container source (Record.mem_children.mpr (.inl held)), ?_⟩
      -- The copy of a property has the schema of that property.
      rw [repeats.record]

/-- The properties of any record after a turn were properties before, or are copies of some. -/
theorem Turn.exists_property (turn : Turn context first owner floor before after)
    {property : RecordId} (held : property ∈ (after.ledger.record id).properties) :
    ∃ holder source, source ∈ (before.ledger.record holder).properties ∧
      (property = source ∨ before.ledger.Repeats after.ledger source property) := by
  by_cases present : id ∈ before.everywhere
  · -- The property was one of this record before, or of the one that it came from.
    rcases turn.mem_properties present held with earlier | ⟨-, -, -, holder, member⟩
    · exact ⟨id, property, earlier, .inl rfl⟩
    · exact ⟨holder, property, member, .inl rfl⟩
  · by_cases there : id ∈ after.everywhere
    · obtain ⟨container, origin, copies, -, -, -, -, -, varies⟩ := turn.varies present there
      exact varies.mem_properties present held
    · rw [record_of_not_everywhere there] at held
      exact absurd held List.not_mem_nil

/-- A turn leaves each property paired with its base property. -/
theorem Turn.paired (turn : Turn context first owner floor before after)
    (enclosed : before.Enclosed) (paired : before.Paired) : after.Paired := by
  intro holder property base held linked
  obtain ⟨holder', source, member, place⟩ := turn.exists_property held
  have present := enclosed holder' source (Record.mem_children.mpr (.inl member))
  -- The property has the name, the shape and the base property of its source.
  have same : (after.ledger.record property).baseProperty =
        (before.ledger.record source).baseProperty ∧
      (after.ledger.record property).name = (before.ledger.record source).name ∧
      ∀ shape, (before.ledger.record source).shape = some shape →
        (after.ledger.record property).shape = some shape := by
    rcases place with rfl | repeats
    · -- The property itself lasts, with all three.
      have lasts := turn.lasts present
      exact ⟨lasts.baseProperty_eq, lasts.name_eq, lasts.shape⟩
    · rw [repeats.record]
      exact ⟨rfl, rfl, fun _ shaped => shaped⟩
  rw [same.1] at linked
  obtain ⟨named, shape, shaped, shaped'⟩ := paired holder' source base member linked
  -- A base property that has a shape is there, so it lasts as well.
  have there : base ∈ before.everywhere := by
    by_contra absent
    rw [record_of_not_everywhere absent] at shaped'
    cases shaped'
  have lasts := turn.lasts there
  rw [lasts.name_eq, same.2.1]
  exact ⟨named, shape, same.2.2 shape shaped, lasts.shape shape shaped'⟩

/-- A turn leaves the items of arrays in order. -/
theorem Turn.stacked {bound : Nat} (turn : Turn context first owner floor before after)
    (low : bound ≤ before.ledger.size) (stacked : before.Stacked bound) : after.Stacked bound := by
  intro id items held
  by_cases present : id ∈ before.everywhere
  · -- A record from before has the items that it had.
    rw [(turn.lasts present).items_eq] at held
    exact stacked id items held
  · by_cases there : id ∈ after.everywhere
    · obtain ⟨container, origin, copies, -, -, -, -, -, varies⟩ := turn.varies present there
      obtain ⟨source, -, -, -, -, same, -⟩ := varies.source present there
      rw [same] at held
      -- A copy shares the items of its source and lies behind the bound itself.
      refine ⟨(stacked source items held).1, fun below => ?_⟩
      exact absurd (Nat.lt_of_lt_of_le below low) present
    · rw [record_of_not_everywhere there] at held
      cases held

/-- A turn leaves the properties of each record with different names. -/
theorem Turn.named (turn : Turn context first owner floor before after)
    (enclosed : before.Enclosed) (named : before.ledger.Named) : after.ledger.Named := by
  cases turn with
  | step taken =>
    -- A step renames no property.
    exact named.of_names fun id => .inr ⟨id, Ledger.names_congr (taken.settles id).properties_eq
      fun property _ => (taken.settles property).sameOrigin.name⟩
  | @vary _ container origin copies ledger high present belongs made varies =>
    -- The properties of a record that was there were there too, so they keep their names.
    have renamed (other : RecordId) : ∀ property ∈ (before.ledger.record other).properties,
        ledger.name property = before.ledger.name property := fun property held =>
      congrArg Record.name (varies.record property
        (enclosed other property (Record.mem_children.mpr (.inl held))))
    refine named.of_names fun id => ?_
    rw [Model.ledger_withLedger]
    by_cases old : id.index < before.ledger.size
    · exact .inr ⟨id, Ledger.names_congr (congrArg Record.properties (varies.record id old))
        (renamed id)⟩
    · by_cases there : id.index < ledger.size
      · rcases varies.cases old there with rfl | ⟨source, -, repeats⟩
        · -- The copies that the variant holds have the names of the properties of the container.
          exact .inr ⟨container, varies.names⟩
        · refine .inr ⟨source, ?_⟩
          have same : (ledger.record id).properties = (before.ledger.record source).properties := by
            rw [repeats.record]
          rw [Ledger.names, same]
          exact List.map_congr_left (renamed source)
      · -- A number that is past the end stands for a record without properties.
        refine .inl (Ledger.names_of_barren ?_)
        rw [Ledger.record_of_size_le (Nat.not_lt.mp there)]
        rfl
  | join late present acts settled held fresh =>
    obtain ⟨name, called, free⟩ := fresh
    -- The name that joins is one that the variant did not have.
    exact named.join called free
  | require late present name => exact named.update rfl rfl
  | relax acts present => exact named.update rfl rfl
  | extend acts present supplied => exact named.of_names fun id => .inr ⟨id, rfl⟩
  | resolve => exact named

/-- Where branches may be resolved: the records that were surveyed are only settled, declarations have
only grown, and the records and their classes are in order. -/
structure Branching (context : Context) (first model : Model) : Prop where
  ledger : first.ledger.Settles model.ledger
  declarations : model.declarations.size = first.declarations.size
  grows : ∀ id, (first.declaration id).Grows (model.declaration id)
  inRange : model.ledger.InRange
  sane : model.Sane context
  enclosed : model.Enclosed
  named : model.ledger.Named
  paired : model.Paired
  stacked : model.Stacked first.ledger.size

/-- A turn leaves a model where branches may be resolved. -/
theorem Branching.turn (branching : Branching context first before)
    (low : first.ledger.size ≤ floor) (turn : Turn context first owner floor before after) :
    Branching context first after where
  ledger := by
    -- Records that were surveyed are below the floor, so no turn does more than settle them.
    refine ⟨Nat.le_trans branching.ledger.size_le turn.size_le.1, fun id inside => ?_⟩
    exact (branching.ledger.record id inside).trans
      (turn.settles (Nat.lt_of_lt_of_le inside branching.ledger.size_le)
        (Nat.lt_of_lt_of_le inside low))
  -- Each of the other parts is kept by a lemma of its own.
  declarations := turn.size_le.2.trans branching.declarations
  grows id := (branching.grows id).trans (turn.grows id)
  inRange := turn.inRange branching.inRange
  sane := turn.sane branching.sane
  enclosed := turn.enclosed branching.enclosed
  named := turn.named branching.enclosed branching.named
  paired := turn.paired branching.enclosed branching.paired
  stacked := turn.stacked branching.ledger.size_le branching.stacked

/-- A class that a turn nests is made from a record of the branches. -/
theorem Turn.nested_mem (turn : Turn context first owner floor before after)
    {nested : NestedClass} (member : nested ∈ (after.declaration other).nested) :
    nested ∈ (before.declaration other).nested ∨
      other = owner ∧ nested.record ∈ first.branchScope owner floor := by
  cases turn with
  -- Only steps nest classes, and they do so for records in their scope.
  | step taken within present => exact (taken.nested_mem member).imp_right fun new => ⟨new.1, within new.2⟩
  | resolve =>
    rw [Model.field_updateDeclaration Declaration.nested rfl] at member
    exact .inl member
  | _ => exact .inl member

/-- Any number of turns, for any classes. -/
abbrev Turns (context : Context) (first : Model) : Model → Model → Prop :=
  Relation.ReflTransGen fun before after => ∃ owner floor, first.ledger.size ≤ floor ∧
    Turn context first owner floor before after

/-- Turns leave a model where branches may be resolved. -/
theorem Branching.turns (branching : Branching context first before)
    (turns : Turns context first before after) : Branching context first after := by
  induction turns with
  | refl => exact branching
  | tail _ turn ih =>
    obtain ⟨owner, floor, low, turn⟩ := turn
    exact ih.turn low turn

end Modelling

end SchemaClasses
