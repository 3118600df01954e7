import SchemaClasses.Proofs.Resolution.Copies
import SchemaClasses.Proofs.Resolution.Descents

/-! Required names are heeded while members are analysed: behind every class that was entered, its
properties are marked as its own list says, and for a property that may be absent something stands in.
No property is marked but by a class that holds it and lists its name. -/

namespace SchemaClasses

namespace Record

/-- What of a record bears on which properties may be absent, and what it was made for. -/
def terms (record : Record) :=
  (record.schema, record.name, record.checks, record.default, record.properties, record.required,
    record.isRequired, record.nullable)

/-- Whether a property must be there, or something stands in where it is absent: null, or a default. -/
def IsCovered (record : Record) : Prop :=
  record.isRequired = true ∨ record.nullable = some true ∨ record.default.isSome = true

/-- Nothing stands in for a record that is not there. -/
theorem not_isCovered_default : ¬(Inhabited.default : Record).IsCovered := by
  rintro (marked | nullable | default)
  · cases marked
  · cases nullable
  · cases default

/-- Whether the name of a record is in a list of required ones. -/
def isListed (record : Record) (required : List String) : Bool :=
  record.name.any fun name => required.contains name

variable {record : Record} {required : List String}

/-- A record whose name is listed is marked as required. -/
theorem reconciled_of_isListed (listed : record.isListed required = true) :
    record.reconciled required = { record with isRequired := true } := if_pos listed

/-- A record whose name is not listed becomes nullable, if nothing stands in for it yet. -/
theorem reconciled_of_not_isListed (other : ¬record.isListed required = true) :
    record.reconciled required =
      if record.nullable ≠ some true ∧ record.default.isNone then { record with nullable := some true }
      else record := if_neg other

/-- Reconciling marks a record whose name is listed, and takes no mark away. -/
theorem isRequired_reconciled :
    (record.reconciled required).isRequired = (record.isRequired || record.isListed required) := by
  by_cases listed : record.isListed required = true
  · rw [reconciled_of_isListed listed, listed, Bool.or_true]
  · rw [reconciled_of_not_isListed listed, Bool.not_eq_true _ |>.mp listed, Bool.or_false]
    split <;> rfl

/-- Whatever is listed, something stands in for a record that is reconciled with it. -/
theorem isCovered_reconciled : (record.reconciled required).IsCovered := by
  -- A name that is listed marks the record as required; otherwise it may have become nullable.
  by_cases listed : record.isListed required = true
  · rw [reconciled_of_isListed listed]
    exact .inl rfl
  · rw [reconciled_of_not_isListed listed]
    split
    · exact .inr (.inl rfl)
    · rename_i held
      rw [Classical.not_and_iff_not_or_not, not_not] at held
      refine .inr (held.imp_right fun some => ?_)
      simpa [Option.isSome_iff_ne_none] using some

/-- Reconciling a second time with the same list changes nothing. -/
theorem reconciled_reconciled :
    (record.reconciled required).reconciled required = record.reconciled required := by
  by_cases listed : record.isListed required = true
  · rw [reconciled_of_isListed listed]
    exact reconciled_of_isListed listed
  · -- The record becomes nullable once, unless there is something to stand in already.
    by_cases bare : record.nullable ≠ some true ∧ record.default.isNone = true
    · have nullable : record.reconciled required = { record with nullable := some true } := by
        rw [reconciled_of_not_isListed listed, if_pos bare]
      have still : ¬({ record with nullable := some true } : Record).isListed required = true := listed
      rw [nullable, reconciled_of_not_isListed still, if_neg fun again => again.1 rfl]
    · have same : record.reconciled required = record := by
        rw [reconciled_of_not_isListed listed, if_neg bare]
      rw [same, same]

/-- A later state of a record in which required names were heeded: it is still what it was made for, and
it has lost neither properties and names that it requires nor what stands in where it is absent. Only if it
is varied it has gained properties, all of them from a given set, and required names. -/
structure Heeds (varied : Prop) (gain : Set RecordId) (before after : Record) : Prop where
  origin : after.schema = before.schema ∧ after.name = before.name ∧ after.checks = before.checks
  properties : before.properties ⊆ after.properties
  gained : ∀ property ∈ after.properties,
    property ∈ before.properties ∨ varied ∧ property ∈ gain
  required : before.required ⊆ after.required
  listed : ¬varied → after.required = before.required
  marked : before.isRequired = true → after.isRequired = true
  covered : before.IsCovered → after.IsCovered

namespace Heeds

variable {varied : Prop} {gain : Set RecordId} {a b c : Record}

/-- A record whose terms are the same has heeded required names. -/
theorem of_terms (same : b.terms = a.terms) : a.Heeds varied gain b := by
  simp only [terms, Prod.mk.injEq] at same
  obtain ⟨schema, name, checks, default, properties, required, isRequired, nullable⟩ := same
  -- All parts that are spoken of are among the terms.
  refine ⟨⟨schema, name, checks⟩, ?_, fun property held => .inl (properties ▸ held), ?_,
    fun _ => required, fun marked => isRequired.trans marked, fun covered => ?_⟩
  · rw [properties]
    exact List.Subset.refl _
  · rw [required]
    exact List.Subset.refl _
  · unfold IsCovered at covered ⊢
    rw [default, isRequired, nullable]
    exact covered

theorem trans (first : a.Heeds varied gain b) (second : b.Heeds varied gain c) :
    a.Heeds varied gain c where
  origin := ⟨second.origin.1.trans first.origin.1, second.origin.2.1.trans first.origin.2.1,
    second.origin.2.2.trans first.origin.2.2⟩
  properties := List.Subset.trans first.properties second.properties
  gained property held := (second.gained property held).elim (first.gained property) .inr
  required := List.Subset.trans first.required second.required
  listed same := (second.listed same).trans (first.listed same)
  marked marked := second.marked (first.marked marked)
  covered covered := second.covered (first.covered covered)

/-- A record that is reconciled has heeded required names. -/
theorem reconciled : record.Heeds varied gain (record.reconciled required) := by
  refine ⟨?_, ?_, fun property held => ?_, ?_, fun _ => ?_, fun marked => ?_,
    fun _ => isCovered_reconciled⟩
  · -- Reconciling writes marks and nothing of the terms of origin.
    rw [reconciled_eq]
    exact ⟨rfl, rfl, rfl⟩
  · rw [reconciled_eq]
    exact List.Subset.refl _
  · rw [reconciled_eq] at held
    exact .inl held
  · rw [reconciled_eq]
    -- A mark is set, and never taken away.
    exact List.Subset.refl _
  · rw [reconciled_eq]
  · rw [isRequired_reconciled, marked, Bool.true_or]

end Heeds

end Record

/-- What of a declaration tells which classes it has and whether it was begun. -/
def Declaration.standing (declaration : Declaration) :=
  (declaration.kind, declaration.record, declaration.isAnalysed, declaration.nested)

/-- Whether a record lists the name of a property as required. -/
def Ledger.Requires (ledger : Ledger) (holder property : RecordId) : Prop :=
  (ledger.record property).isListed (ledger.record holder).required = true

namespace Model

/-- Whether a concrete class was made for a record and its members have been begun: a declaration that
is marked as analysed, or a nested class. -/
inductive Entered (model : Model) : RecordId → Prop where
  | declared {id : DeclarationId} (concrete : (model.declaration id).kind = .concrete)
      (begun : (model.declaration id).isAnalysed = true) :
      Entered model (model.declaration id).record
  | nested {owner : DeclarationId} {nested : NestedClass}
      (member : nested ∈ (model.declaration owner).nested) (concrete : nested.kind = .concrete) :
      Entered model nested.record

/-- Whether the properties that a record requires are marked, and something stands in for each of the
others. -/
def Reconciled (model : Model) (id : RecordId) : Prop :=
  ∀ property ∈ (model.ledger.record id).properties, property.index < model.ledger.size →
    (model.ledger.Requires id property → (model.ledger.record property).isRequired = true) ∧
      (model.ledger.record property).IsCovered

/-- Whether a class that was entered holds a property and requires it. -/
def Warrants (model : Model) (property : RecordId) : Prop :=
  ∃ holder, model.Entered holder ∧ property ∈ (model.ledger.record holder).properties ∧
    model.ledger.Requires holder property

variable {before after : Model} {id : RecordId}

/-- A class that was entered stays so. -/
theorem Entered.forward (entered : before.Entered id) (forward : Modelling.Forward before after) :
    after.Entered id := by
  -- What was begun or nested stays so.
  cases entered with
  | @declared id concrete begun =>
    rw [← (forward.grows id).record]
    exact .declared ((forward.grows id).kind.trans concrete) (forward.isAnalysed id begun)
  | @nested owner nested member concrete =>
    have kept : nested ∈ (after.declaration owner).nested := Array.mem_toList_iff.mp
      ((forward.grows owner).nested.subset (Array.mem_toList_iff.mpr member))
    exact .nested kept concrete

/-- Which classes were entered is told by the declarations alone. -/
theorem Entered.congr (entered : after.Entered id)
    (same : ∀ id, (after.declaration id).standing = (before.declaration id).standing) :
    before.Entered id := by
  cases entered with
  | @declared id concrete begun =>
    have stands := same id
    simp only [Declaration.standing, Prod.mk.injEq] at stands
    -- What tells whether a class was entered is part of its standing.
    rw [stands.2.1]
    exact .declared (stands.1 ▸ concrete) (stands.2.2.1 ▸ begun)
  | @nested owner nested member concrete =>
    have stands := same owner
    simp only [Declaration.standing, Prod.mk.injEq] at stands
    exact .nested (stands.2.2.2 ▸ member) concrete

end Model

namespace Modelling

/-- A later state of a model in which required names were heeded by every record: classes that were
entered on the way are reconciled, and marks are warranted. Varied records need not be reconciled. -/
structure Heeding (varied gain : Set RecordId) (before after : Model) : Prop where
  forward : Forward before after
  size : after.ledger.size = before.ledger.size
  sets : after.ledger.checkSets.size = before.ledger.checkSets.size
  record : ∀ id, (before.ledger.record id).Heeds (id ∈ varied) gain (after.ledger.record id)
  warranted : ∀ id, (after.ledger.record id).isRequired = true →
    (before.ledger.record id).isRequired = true ∨ after.Warrants id
  reconciled : ∀ id, after.Entered id → before.Entered id ∨ id ∈ varied ∨ after.Reconciled id
  nested : ∀ owner, ∀ nested ∈ (after.declaration owner).nested,
    nested ∈ (before.declaration owner).nested ∨
      nested.isVariant = false ∧ nested.origin = (after.ledger.record nested.record).schema

namespace Heeding

variable {varied gain : Set RecordId} {a b c before after : Model} {id property holder : RecordId}

/-- What a record requires it goes on requiring. -/
theorem requires (heeding : Heeding varied gain before after)
    (requires : before.ledger.Requires holder property) : after.ledger.Requires holder property := by
  unfold Ledger.Requires Record.isListed at requires ⊢
  rw [(heeding.record property).origin.2.1]
  simp only [Option.any_eq_true, List.contains_iff_mem] at requires ⊢
  obtain ⟨name, called, listed⟩ := requires
  exact ⟨name, called, (heeding.record holder).required listed⟩

/-- A record that is not varied requires nothing new. -/
theorem requires_iff (heeding : Heeding varied gain before after) (same : holder ∉ varied) :
    after.ledger.Requires holder property ↔ before.ledger.Requires holder property := by
  unfold Ledger.Requires Record.isListed
  rw [(heeding.record property).origin.2.1, (heeding.record holder).listed same]

/-- A mark that is warranted stays so. -/
theorem warrants (heeding : Heeding varied gain before after) (warrants : before.Warrants property) :
    after.Warrants property := by
  obtain ⟨holder, entered, held, requires⟩ := warrants
  exact ⟨holder, entered.forward heeding.forward, (heeding.record holder).properties held,
    heeding.requires requires⟩

/-- A record that is reconciled stays so, unless it is varied. -/
theorem stays (heeding : Heeding varied gain before after) (same : id ∉ varied)
    (reconciled : before.Reconciled id) : after.Reconciled id := by
  intro property held present
  have held := ((heeding.record id).gained property held).resolve_right fun new => same new.1
  obtain ⟨marked, covered⟩ := reconciled property held (heeding.size ▸ present)
  refine ⟨fun requires => (heeding.record property).marked (marked ?_),
    (heeding.record property).covered covered⟩
  exact (heeding.requires_iff same).mp requires

/-- Where every record has heeded required names, no other was marked and no class was entered, the model
has heeded them. -/
theorem of_records (forward : Forward before after) (size : after.ledger.size = before.ledger.size)
    (sets : after.ledger.checkSets.size = before.ledger.checkSets.size)
    (record : ∀ id, (before.ledger.record id).Heeds (id ∈ varied) gain (after.ledger.record id))
    (warranted : ∀ id, (after.ledger.record id).isRequired = true →
      (before.ledger.record id).isRequired = true ∨ after.Warrants id)
    (standing : ∀ id, (after.declaration id).standing = (before.declaration id).standing) :
    Heeding varied gain before after where
  forward := forward
  size := size
  sets := sets
  record := record
  warranted := warranted
  reconciled id entered := .inl (entered.congr standing)
  nested owner nested member := by
    have stands := standing owner
    -- Nested classes are part of the standing as well.
    simp only [Declaration.standing, Prod.mk.injEq] at stands
    exact .inl (stands.2.2.2 ▸ member)

/-- Where the terms of all records are the same and no class was entered, all names were heeded. -/
theorem of_terms (forward : Forward before after) (size : after.ledger.size = before.ledger.size)
    (sets : after.ledger.checkSets.size = before.ledger.checkSets.size)
    (same : ∀ id, (after.ledger.record id).terms = (before.ledger.record id).terms)
    (standing : ∀ id, (after.declaration id).standing = (before.declaration id).standing) :
    Heeding varied gain before after := by
  refine of_records forward size sets (fun id => .of_terms (same id)) (fun id marked => .inl ?_) standing
  have terms := same id
  simp only [Record.terms, Prod.mk.injEq] at terms
  exact terms.2.2.2.2.2.2.1.symm.trans marked

theorem refl (model : Model) : Heeding varied gain model model :=
  of_terms (.refl model) rfl rfl (fun _ => rfl) fun _ => rfl

theorem trans (first : Heeding varied gain a b) (second : Heeding varied gain b c) :
    Heeding varied gain a c where
  forward := first.forward.trans second.forward
  size := second.size.trans first.size
  sets := second.sets.trans first.sets
  record id := (first.record id).trans (second.record id)
  warranted id marked := by
    -- A mark was there, was set by the first or was set by the second.
    rcases second.warranted id marked with earlier | warrants
    · exact (first.warranted id earlier).imp_right second.warrants
    · exact .inr warrants
  reconciled id entered := by
    rcases second.reconciled id entered with earlier | rest
    · rcases first.reconciled id earlier with before | open' | reconciled
      · exact .inl before
      · exact .inr (.inl open')
      · -- What was reconciled stays so unless it is still being varied.
        by_cases open' : id ∈ varied
        · exact .inr (.inl open')
        · exact .inr (.inr (second.stays open' reconciled))
    · exact .inr rest
  nested owner nested member := by
    rcases second.nested owner nested member with earlier | new
    · -- The origin is told by the schema of the record, which both keep.
      refine (first.nested owner nested earlier).imp_right fun new => ⟨new.1, ?_⟩
      exact new.2.trans (second.record nested.record).origin.1.symm
    · exact .inr new

/-- Names were heeded from a state on if they were so behind some more classes, and these are
reconciled in the end. -/
theorem enter (heeding : Heeding varied gain b c) (forward : Forward a b)
    (ledger : b.ledger = a.ledger)
    (reconciled : ∀ id, b.Entered id → a.Entered id ∨ c.Reconciled id)
    (nested : ∀ owner, ∀ nested ∈ (b.declaration owner).nested,
      nested ∈ (a.declaration owner).nested ∨
        nested.isVariant = false ∧ nested.origin = (a.ledger.record nested.record).schema) :
    Heeding varied gain a c where
  forward := forward.trans heeding.forward
  size := ledger ▸ heeding.size
  sets := ledger ▸ heeding.sets
  record := ledger ▸ heeding.record
  warranted := ledger ▸ heeding.warranted
  reconciled id entered := by
    -- What was entered by the new classes is reconciled in the end.
    rcases heeding.reconciled id entered with earlier | rest
    · exact (reconciled id earlier).imp_right .inr
    · exact .inr rest
  nested owner nested' member := by
    rcases heeding.nested owner nested' member with earlier | new
    · refine (nested owner nested' earlier).imp_right fun new => ⟨new.1, ?_⟩
      -- The schema of the record is the same at both ends.
      exact new.2.trans (ledger ▸ (heeding.record nested'.record).origin.1.symm)
    · exact .inr new

end Heeding

/-- A part of an analysis inside a declaration that is there heeds required names. -/
abbrev Heeds (owner : DeclarationId) (varied gain : Set RecordId) {α : Type} (part : Modelling α) :
    Prop :=
  Takes (fun model => owner.index < model.declarations.size) (Heeding varied gain) part

instance {owner : DeclarationId} {varied gain : Set RecordId} :
    Course (fun model => owner.index < model.declarations.size) (Heeding varied gain) where
  refl := .refl
  trans := .trans
  ready heeding inside := Nat.lt_of_lt_of_eq inside heeding.forward.size.symm

/-- A way to analyse the records of a declaration that heeds required names. -/
def Analysis.Heeds (analyse : Analysis) (owner : DeclarationId) (varied gain : Set RecordId) : Prop :=
  ∀ site id role, site.owner = owner → Modelling.Heeds owner varied gain (analyse site id role)

/-- A change of what was surveyed leads forward. -/
theorem Forward.survey {model : Model} {survey : Survey} : Forward model { model with survey } :=
  ⟨rfl, fun _ => .refl _, fun _ held => held, fun _ held => held⟩

section

variable {context : Context} {owner id : DeclarationId} {varied gain : Set RecordId}
variable {start middle last : Model} {record : RecordId} {site : Site} {α : Type}

theorem heeds_updateRecord {change : Record → Record}
    (same : ∀ record, (change record).terms = record.terms) :
    Heeds owner varied gain (updateRecord record change) := fun _ _ =>
  .of_terms .survey Ledger.size_update rfl (fun _ => Ledger.field_update Record.terms (same _))
    fun _ => rfl

theorem heeds_updateDeclaration {change : Declaration → Declaration}
    (same : ∀ declaration : Declaration, change declaration =
      { declaration with
        base := (change declaration).base
        derived := (change declaration).derived
        interfaces := (change declaration).interfaces
        imports := (change declaration).imports
        hasVariants := (change declaration).hasVariants })
    (resolved : ∀ declaration, declaration.hasVariants → (change declaration).hasVariants) :
    Heeds owner varied gain (updateDeclaration id change) := by
  intro start _
  refine .of_terms (.updateDeclaration ?_ (fun held => ?_) (resolved _)) rfl rfl (fun _ => rfl)
    fun _ => Model.field_updateDeclaration Declaration.standing ?_
  · -- What may change is neither a mark nor a nested class.
    rw [same]
    exact ⟨rfl, rfl, rfl, List.prefix_rfl, List.prefix_rfl, List.Subset.refl _, fun held => held⟩
  · rw [same]
    exact held
  · rw [same]
    rfl

theorem heeds_record : Heeds owner varied gain (Modelling.record record) := fun start _ => .refl start

theorem heeds_ledger : Heeds owner varied gain ledger := fun start _ => .refl start

theorem heeds_declaration : Heeds owner varied gain (declaration id) := fun start _ => .refl start

theorem heeds_get : Heeds owner varied gain (get : Modelling Model) := fun start _ => .refl start

theorem heeds_pure {result : α} : Heeds owner varied gain (pure result) := fun start _ => .refl start

theorem heeds_addImport {name : String} :
    Heeds owner varied gain (updateDeclaration id (·.addImport name)) :=
  heeds_updateDeclaration (fun _ => rfl) fun _ held => held

theorem heeds_plan {shape : Shape} : Heeds owner varied gain (plan context id record shape) := by
  intro start _
  refine .of_terms (Write.plan id record shape).forward Model.size_plan Array.size_modify
    (fun _ => Model.field_plan Record.terms fun _ _ _ => rfl) fun other => ?_
  rw [Model.declaration_plan_eq_update]
  exact Model.field_updateDeclaration Declaration.standing rfl

theorem heeds_settle {ref : ClassRef} : Heeds owner varied gain (settle record ref) :=
  Takes.bind (heeds_updateRecord fun _ => rfl) fun _ => heeds_pure

theorem heeds_planNegation : Heeds owner varied gain (planNegation context id record) := by
  refine heeds_record.bind fun held => ?_
  split
  · refine heeds_record.bind fun negation => ?_
    split
    · exact heeds_ledger.bind fun _ => Takes.bind (heeds_updateRecord fun _ => rfl) fun _ => heeds_plan
    · exact heeds_pure
  · exact heeds_pure

theorem heeds_importDeclaration {other : DeclarationId} :
    Heeds owner varied gain (importDeclaration id other) := by
  refine heeds_declaration.bind fun used => heeds_declaration.bind fun held => ?_
  split
  · exact heeds_addImport
  · exact heeds_pure

theorem heeds_linkTarget : Heeds owner varied gain (linkTarget context id record) := by
  refine heeds_record.bind fun held => heeds_ledger.bind fun ledger => ?_
  dsimp only
  split
  · split
    · refine heeds_get.bind fun model => ?_
      split
      · -- A class is given and its declaration imported, neither of which touches required names.
        exact Takes.bind (heeds_updateRecord fun _ => rfl) fun _ => heeds_importDeclaration
      · refine heeds_declaration.bind fun held => ?_
        split
        · exact heeds_updateRecord fun _ => rfl
        · exact heeds_pure
    · exact heeds_pure
  · exact heeds_pure

theorem heeds_inheritNestedClass {baseProperty : RecordId} :
    Heeds owner varied gain (inheritNestedClass record baseProperty) := by
  refine heeds_record.bind fun held => ?_
  split
  · refine heeds_record.bind fun base => ?_
    split
    · refine heeds_declaration.bind fun owner => ?_
      dsimp only
      split
      · -- The class of the base is given to the property, and nothing else.
        exact heeds_updateRecord fun _ => rfl
      · exact heeds_pure
    · exact heeds_pure
  · exact heeds_pure

theorem heeds_compareWithBase {baseProperty : RecordId} :
    Heeds owner varied gain (compareWithBase id record baseProperty) := by
  refine heeds_record.bind fun held => heeds_record.bind fun base => ?_
  split
  · refine heeds_get.bind fun model => Takes.bind (fun start _ => ?_) fun _ =>
      heeds_updateRecord fun _ => rfl
    exact .of_terms .survey rfl Array.size_modify (fun _ => rfl) fun _ => rfl
  · exact Takes.bind (heeds_updateRecord fun _ => rfl) fun _ => heeds_updateRecord fun _ => rfl

/-- Records that are reconciled one after the other with one list are all reconciled with it in the end,
and no other is. -/
theorem ends_reconcileAll {records : List RecordId} {required : List String} :
    Ends (records.forM fun id => updateRecord id (·.reconciled required)) start
      (fun _ last => last = start.withLedger last.ledger ∧
        last.ledger.size = start.ledger.size ∧ last.ledger.checkSets = start.ledger.checkSets ∧
        ∀ id : RecordId, last.ledger.record id =
          if id ∈ records ∧ id.index < start.ledger.size then
            (start.ledger.record id).reconciled required
          else start.ledger.record id)
      (fun _ => True) := by
  -- One record after the other is changed, so the induction follows the list.
  induction records generalizing start with
  | nil => exact ⟨rfl, rfl, rfl, fun id => by simp⟩
  | cons first rest ih =>
    rw [List.forM, ends_bind, ends_updateRecord]
    refine ih.imp (fun _ last done => ?_) fun _ _ => trivial
    obtain ⟨same, size, sets, records⟩ := done
    rw [Model.ledger_updateRecord, Ledger.size_update] at size
    refine ⟨same, size, sets, fun id => ?_⟩
    rw [records, Model.ledger_updateRecord, Ledger.size_update, Ledger.record_update]
    -- The first record may come again in the list, where it is reconciled a second time to the same
    -- effect.
    by_cases present : id.index < start.ledger.size
    · by_cases here : id = first
      · subst here
        simp [present, Record.reconciled_reconciled]
      · simp [present, here]
    · have beyond : ¬(id = first ∧ first.index < start.ledger.size) := by
        rintro ⟨rfl, inside⟩
        exact present inside
      simp [present, beyond]

/-- A record of a class that was entered is reconciled, and required names are heeded by that. -/
theorem ends_reconcileRequired (entered : start.Entered record) :
    Ends (reconcileRequired record) start
      (fun _ last => Heeding varied gain start last ∧ last.Reconciled record) (fun _ => True) := by
  simp only [reconcileRequired, ends_bind, ends_record]
  refine ends_reconcileAll.imp (fun _ last done => ?_) fun _ _ => trivial
  obtain ⟨same, size, sets, records⟩ := done
  -- Only the ledger differs.
  generalize last.ledger = ledger at same size sets records
  subst same
  -- Nothing changes but marks and nulls.
  have kept (id : RecordId) : ledger.record id =
      { start.ledger.record id with
        isRequired := (ledger.record id).isRequired
        nullable := (ledger.record id).nullable } := by
    rw [records]
    split
    · exact Record.reconciled_eq _ _
    · rfl
  have heeding : Heeding varied gain start (start.withLedger ledger) := by
    refine .of_records .survey size (congrArg Array.size sets) (fun id => ?_) (fun id marked => ?_)
      fun _ => rfl
    · rw [Model.ledger_withLedger, records]
      split
      · exact .reconciled
      · exact .of_terms rfl
    · rw [Model.ledger_withLedger, records] at marked
      split at marked
      · -- The mark is there since before, or its name is required by the record.
        rename_i held
        rw [Record.isRequired_reconciled, Bool.or_eq_true] at marked
        refine marked.imp_right fun listed => ⟨record, entered.congr fun _ => rfl, ?_, ?_⟩
        · rw [Model.ledger_withLedger, kept]
          exact held.1
        · rw [Model.ledger_withLedger, Ledger.Requires, kept, kept record]
          exact listed
      · exact .inl marked
  -- Each property has been reconciled with the names that are required still.
  refine ⟨heeding, fun property held present => ?_⟩
  rw [Model.ledger_withLedger, kept] at held
  rw [Model.ledger_withLedger] at present ⊢
  have done : property ∈ (start.ledger.record record).properties ∧
      property.index < start.ledger.size := ⟨held, size ▸ present⟩
  rw [records property, if_pos done]
  -- A required property is marked, and whether or not, something stands in for it.
  refine ⟨fun requires => ?_, Record.isCovered_reconciled⟩
  rw [Ledger.Requires, kept, kept record] at requires
  rw [Record.isRequired_reconciled, Bool.or_eq_true]
  exact .inr requires

/-- A property is analysed: the nested class of the base, the analysis, and the comparison. -/
theorem heeds_analyseProperty {analyse : Analysis} {base : Option RecordId}
    (heeds : analyse.Heeds site.owner varied gain) :
    Heeds site.owner varied gain (analyseProperty analyse site base record) := by
  refine heeds_record.bind fun held => heeds_ledger.bind fun ledger => ?_
  dsimp only
  cases base.bind (ledger.property? · (held.name.getD "")) with
  -- Without a base the property is only analysed.
  | none => exact (heeds site record _ rfl).bind fun _ => heeds_pure
  | some baseProperty =>
    exact heeds_inheritNestedClass.bind fun _ => (heeds site record _ rfl).bind fun _ =>
      heeds_compareWithBase

/-- A part of an analysis that heeds required names and reconciles the record of a class that was
entered. -/
def Reconciles (owner : DeclarationId) (varied gain : Set RecordId) (record : RecordId)
    (part : Modelling Unit) : Prop :=
  ∀ start : Model, owner.index < start.declarations.size → start.Entered record →
    Ends part start (fun _ last => Heeding varied gain start last ∧ last.Reconciled record)
      (fun _ => True)

/-- A part that heeds required names may come before one that reconciles a record. -/
theorem Heeds.reconciles {part : Modelling α} {next : α → Modelling Unit}
    (heeds : Heeds owner varied gain part)
    (reconciles : ∀ result, Reconciles owner varied gain record (next result)) :
    Reconciles owner varied gain record (part >>= next) := by
  intro start inside entered
  -- The first part leaves the class entered, as the second one asks for.
  rw [ends_bind]
  refine (heeds start inside).imp (fun result middle heeding => ?_) fun _ _ => trivial
  refine (reconciles result middle (Nat.lt_of_lt_of_eq inside heeding.forward.size.symm)
    (entered.forward heeding.forward)).imp (fun _ last done => ?_) fun _ _ => trivial
  exact ⟨heeding.trans done.1, done.2⟩

/-- The members of a class that was entered are analysed, and last its record is reconciled. -/
theorem reconciles_analyseObject {analyse : Analysis} {base : Option RecordId}
    (heeds : analyse.Heeds site.owner varied gain) :
    Reconciles site.owner varied gain record (analyseObject context analyse site record base) := by
  rw [analyseObject_eq]
  refine heeds_record.reconciles fun held =>
    Heeds.reconciles (Takes.forM fun property _ => heeds_analyseProperty heeds) fun _ => ?_
  refine heeds_record.reconciles fun held =>
    Heeds.reconciles (Takes.forM fun _ _ => heeds _ _ _ rfl) fun _ => ?_
  -- What is left are the value of additional properties, the checks and the required names.
  have rest : Reconciles site.owner varied gain record (do
      plan context site.owner record .object
      planNegation context site.owner record
      reconcileRequired record) :=
    heeds_plan.reconciles fun _ => heeds_planNegation.reconciles fun _ _ _ entered =>
      ends_reconcileRequired entered
  refine heeds_record.reconciles fun held => ?_
  split
  · -- The value of additional properties comes before the rest, if there is one.
    exact (heeds _ _ _ rfl).reconciles fun _ => rest
  · exact rest

/-- A class that is nested is entered, and no other one besides. -/
theorem entered_push {added : NestedClass}
    (entered : (start.updateDeclaration owner fun declaration =>
      { declaration with nested := declaration.nested.push added }).Entered record) :
    start.Entered record ∨ record = added.record ∧ added.kind = .concrete := by
  cases entered with
  | @declared id concrete begun =>
    -- A declaration with one more nested class stands as it did before.
    rw [Model.field_updateDeclaration Declaration.kind rfl] at concrete
    rw [Model.field_updateDeclaration Declaration.isAnalysed rfl] at begun
    rw [Model.field_updateDeclaration Declaration.record rfl]
    exact .inl (.declared concrete begun)
  -- A nested class was there before, or it is the one that was added.
  | @nested other nested member concrete =>
    rw [Model.declaration_updateDeclaration] at member
    split at member
    · rcases Array.mem_push.mp member with earlier | rfl
      · exact .inl (.nested earlier concrete)
      · exact .inr ⟨rfl, concrete⟩
    · exact .inl (.nested member concrete)

/-- A class that is nested in a declaration that is there is entered. -/
theorem entered_push_self {added : NestedClass} (inside : owner.index < start.declarations.size)
    (concrete : added.kind = .concrete) :
    (start.updateDeclaration owner fun declaration =>
      { declaration with nested := declaration.nested.push added }).Entered added.record := by
  have member : added ∈ ((start.updateDeclaration owner fun declaration =>
      { declaration with nested := declaration.nested.push added }).declaration owner).nested := by
    rw [Model.declaration_updateDeclaration, if_pos ⟨rfl, inside⟩]
    exact Array.mem_push_self
  exact .nested member concrete

/-- The classes nested in a declaration are those from before and the one that is added. -/
theorem mem_push {added nested : NestedClass} {other : DeclarationId}
    (member : nested ∈ ((start.updateDeclaration owner fun declaration =>
      { declaration with nested := declaration.nested.push added }).declaration other).nested) :
    nested ∈ (start.declaration other).nested ∨ other = owner ∧ nested = added := by
  rw [Model.declaration_updateDeclaration] at member
  split at member
  · rename_i here
    rw [here.1]
    exact (Array.mem_push.mp member).imp_right fun same => ⟨rfl, same⟩
  · exact .inl member

/-- Names were heeded from a state on if they were so behind a class that was nested for a record, and
this is reconciled in the end. -/
theorem Heeding.nest {added : NestedClass}
    (heeding : Heeding varied gain (start.updateDeclaration owner fun declaration =>
      { declaration with nested := declaration.nested.push added }) last)
    (plain : added.isVariant = false)
    (made : added.origin = (start.ledger.record added.record).schema)
    (reconciled : added.kind = .concrete → last.Reconciled added.record) :
    Heeding varied gain start last := by
  refine heeding.enter .nest rfl (fun id entered => ?_) fun other nested member => ?_
  · -- The new class is reconciled in the end, and every other one was entered before.
    refine (entered_push entered).imp_right fun new => ?_
    rw [new.1]
    exact reconciled new.2
  · -- The new class was made for its record.
    refine (mem_push member).imp_right fun new => ?_
    rw [new.2]
    exact ⟨plain, made⟩

/-- A record is settled on its nested class, which is analysed if it is new. -/
theorem heeds_develop {inner : Analysis} {role : Role} {shape : Shape}
    (heeds : inner.Heeds site.owner varied gain) :
    Heeds site.owner varied gain (develop context inner site record role shape) := by
  have settles {kind : ClassKind} {next : Nat × Bool → Modelling Shape}
      (found : ∀ index, Heeds site.owner varied gain (next (index, false)))
      (new : ∀ index, ∀ middle : Model, site.owner.index < middle.declarations.size →
        (kind = .concrete → middle.Entered record) →
        Ends (next (index, true)) middle (fun _ last => Heeding varied gain middle last ∧
          (kind = .concrete → last.Reconciled record)) (fun _ => True)) :
      Heeds site.owner varied gain (nestedClass context site record kind role >>= next) := by
    intro start inside
    -- A class is found, and then the rest is done at once; or one is pushed.
    simp only [nestedClass, ends_bind, ends_record, ends_declaration]
    split
    · exact found _ start inside
    · rw [ends_bind]
      refine ends_pushNested_push.imp (fun index middle pushed => ?_) fun _ _ => trivial
      obtain ⟨name, rfl⟩ := pushed
      rw [ends_pure]
      refine (new index _ ?_ fun concrete => ?_).imp (fun _ last done => ?_) fun _ _ => trivial
      · rw [Model.size_updateDeclaration]
        -- The pushed class counts as entered from here on.
        exact inside
      · exact entered_push_self inside concrete
      · exact done.1.nest rfl rfl done.2
  unfold develop
  split
  · -- An object: its nested class is analysed if it is new.
    refine settles (fun index => heeds_settle.bind fun shape => heeds_pure)
      fun index middle inside entered => ?_
    have whole : Reconciles site.owner varied gain record (do
        let _ ← settle record (.nested site.owner index)
        analyseObject context inner { site with scope := some index } record none) :=
      heeds_settle.reconciles fun _ =>
        @reconciles_analyseObject context varied gain record { site with scope := some index } inner
          none heeds
    have done := whole middle inside (entered rfl)
    -- The record of the new class is reconciled at the end of its analysis.
    simp only [ends_bind, ends_settle, ends_pure, if_true] at done ⊢
    exact done.imp (fun _ _ done => ⟨done.1, fun _ => done.2⟩) fun _ _ => trivial
  · -- An enum is no class whose properties are to be reconciled.
    refine settles (fun index => heeds_settle) fun index middle inside _ => ?_
    refine (heeds_settle middle inside).mono fun _ _ heeding => ⟨heeding, fun concrete => ?_⟩
    cases concrete
  · refine Takes.bind (heeds_updateRecord fun _ => rfl) fun _ => heeds_record.bind fun held => ?_
    split
    · exact (heeds _ _ _ rfl).bind fun _ => heeds_pure
    · exact heeds_pure
  · split
    · exact heeds_addImport.bind fun _ => heeds_pure
    · exact heeds_pure
  · exact heeds_pure

/-- The analysis of a record heeds required names. -/
theorem heeds_analyse {pending : List RecordId} :
    Analysis.Heeds (analyse context pending) owner varied gain := by
  -- The records inside are analysed with fewer pending ones, so the induction is on their number.
  induction size : pending.length using Nat.strong_induction_on generalizing pending with
  | _ size ih =>
    subst size
    rintro site id role rfl
    rw [analyse]
    refine heeds_record.bind fun held => ?_
    split
    · split
      · rename_i waiting
        -- Inside, the hypothesis for the shorter list applies.
        have inner : Analysis.Heeds (analyse context (pending.erase id)) site.owner varied gain :=
          ih _ (length_erase_lt waiting) rfl
        refine heeds_linkTarget.bind fun _ => heeds_ledger.bind fun ledger => ?_
        refine (heeds_develop inner).bind fun shape => ?_
        exact Takes.bind (heeds_updateRecord fun _ => rfl) fun _ => heeds_plan.bind fun _ =>
          heeds_planNegation
      · exact heeds_pure
    · exact heeds_pure

theorem heeds_analyseAny : (analyseAny context).Heeds owner varied gain := fun site id role same =>
  heeds_ledger.bind fun _ => heeds_analyse site id role same

/-- A class is opened: its base is noted at both of them. -/
theorem heeds_openClass : Heeds owner varied gain (openClass context id record) := by
  refine heeds_get.bind fun model => ?_
  dsimp only
  have rest {base : Option DeclarationId} : Heeds owner varied gain (do
      updateRecord record fun record => { record with shape := some .object }
      let model ← get
      return base.map fun base => (model.declaration base).record) :=
    Takes.bind (heeds_updateRecord fun _ => rfl) fun _ => heeds_get.bind fun _ => heeds_pure
  cases model.base? context.tree id with
  | none => exact rest
  | some base =>
    -- The base is noted at both classes, and the import follows.
    refine Takes.bind (heeds_updateDeclaration (fun _ => rfl) fun _ held => held) fun _ => ?_
    refine Takes.bind (heeds_updateDeclaration (fun _ => rfl) fun _ held => held) fun _ => ?_
    exact heeds_importDeclaration.bind fun _ => rest

/-- The members of a declaration that is marked as analysed are analysed, and its record is reconciled
if it is a class. -/
theorem ends_analyseDeclaration (inside : owner.index < start.declarations.size)
    (begun : (start.declaration owner).isAnalysed = true) :
    Ends (analyseDeclaration context owner) start
      (fun _ last => Heeding varied gain start last ∧ ((start.declaration owner).kind = .concrete →
        last.Reconciled (start.declaration owner).record)) (fun _ => True) := by
  have shaped (shape : Shape) : Heeds owner varied gain
      (updateRecord (start.declaration owner).record fun record =>
        { record with shape := some shape }) := heeds_updateRecord fun _ => rfl
  simp only [analyseDeclaration, ends_bind, ends_declaration]
  split
  · -- Without properties there is nothing to reconcile.
    rename_i kind
    refine (shaped .identifierEnum start inside).mono fun _ _ heeding => ⟨heeding, fun concrete => ?_⟩
    rw [kind] at concrete
    cases concrete
  · rename_i kind
    refine (shaped .untyped start inside).mono fun _ _ heeding => ⟨heeding, fun concrete => ?_⟩
    rw [kind] at concrete
    cases concrete
  · rename_i concrete
    rw [analyseClass_eq, ends_bind, ends_declaration]
    -- The analysis of a class ends with the reconciliation of its record.
    have whole : Reconciles owner varied gain (start.declaration owner).record (do
        let base ← openClass context owner (start.declaration owner).record
        analyseObject context (analyseAny context) ⟨owner, none⟩
          (start.declaration owner).record base) :=
      heeds_openClass.reconciles fun base =>
        @reconciles_analyseObject context varied gain _ ⟨owner, none⟩ (analyseAny context) base
          heeds_analyseAny
    refine (whole start inside (.declared concrete begun)).imp (fun _ _ done => ?_) fun _ _ => trivial
    exact ⟨done.1, fun _ => done.2⟩

/-- Names were heeded from a state on if they were so behind the mark of a declaration, and the record
of this is reconciled in the end if it is a class. -/
theorem Heeding.begin
    (heeding : Heeding varied gain (start.updateDeclaration owner fun declaration =>
      { declaration with isAnalysed := true }) last)
    (reconciled : (start.declaration owner).kind = .concrete →
      last.Reconciled (start.declaration owner).record) :
    Heeding varied gain start last := by
  refine heeding.enter (.updateDeclaration ?_ (fun _ => rfl) fun held => held) rfl
    (fun id entered => ?_) fun other nested member => ?_
  · exact ⟨rfl, rfl, rfl, List.prefix_rfl, List.prefix_rfl, List.Subset.refl _, fun held => held⟩
  · -- What is new by the mark is this declaration alone.
    cases entered with
    | @declared id concrete begun =>
      rw [Model.field_updateDeclaration Declaration.kind rfl] at concrete
      rw [Model.field_updateDeclaration Declaration.record rfl]
      -- The declaration is the one that was marked, or it was begun before.
      by_cases here : id = owner
      · subst here
        exact .inr (reconciled concrete)
      · rw [Model.declaration_updateDeclaration_of_ne here] at begun
        exact .inl (.declared concrete begun)
    | @nested owner nested member concrete =>
      rw [Model.field_updateDeclaration Declaration.nested rfl] at member
      exact .inl (.nested member concrete)
  · rw [Model.field_updateDeclaration Declaration.nested rfl] at member
    exact .inl member

/-- Classes that are analysed one after the other heed required names. -/
theorem heeds_analyseChain {fresh : List DeclarationId}
    (inside : ∀ id ∈ fresh, id.index < start.declarations.size) :
    Ends (analyseChain context fresh) start (fun _ => Heeding varied gain start) (fun _ => True) := by
  -- Each class is marked before those behind it and analysed after them.
  induction fresh generalizing start with
  | nil => exact .refl start
  | cons owner rest ih =>
    rw [analyseChain_cons, ends_bind, ends_updateDeclaration, ends_bind]
    have there : owner.index < start.declarations.size := inside owner List.mem_cons_self
    -- The others of the chain come first, from the state with the mark.
    refine (ih fun id member => Nat.lt_of_lt_of_eq (inside id (List.mem_cons_of_mem _ member))
      Model.size_updateDeclaration.symm).imp (fun _ middle heeding => ?_) fun _ _ => trivial
    -- The mark that was set before the others is still there.
    have begun : (middle.declaration owner).isAnalysed = true := by
      refine heeding.forward.isAnalysed owner ?_
      rw [Model.declaration_updateDeclaration, if_pos ⟨rfl, there⟩]
    have there' : owner.index < middle.declarations.size :=
      Nat.lt_of_lt_of_eq there (heeding.forward.size.trans Model.size_updateDeclaration).symm
    refine Ends.imp (@ends_analyseDeclaration context owner varied gain middle there' begun)
      (fun _ last done => ?_) fun _ _ => trivial
    refine (heeding.trans done.1).begin fun concrete => ?_
    have grows := heeding.forward.grows owner
    rw [Model.declaration_updateDeclaration, if_pos ⟨rfl, there⟩] at grows
    -- Nothing in between changes the record of the declaration.
    rw [show (start.declaration owner).record = (middle.declaration owner).record from
      grows.record.symm]
    exact done.2 (grows.kind.trans concrete)

/-- The members of a declaration and of its bases are analysed, and required names are heeded. -/
theorem heeds_resolveMembers : Heeds owner varied gain (resolveMembers context owner) := by
  intro start inside
  refine heeds_analyseChain fun other member => ?_
  -- All classes on the way are declared.
  rcases List.mem_cons.mp (List.takeWhile_subset _ member) with rfl | met
  · exact inside
  · obtain ⟨k, -, -, reached⟩ := Model.mem_bases.mp met
    exact Model.inside_of_baseAfter inside reached

end

end Modelling

end SchemaClasses
