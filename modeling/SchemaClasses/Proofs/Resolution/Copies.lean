import SchemaClasses.Proofs.Resolution.Bases
import SchemaClasses.Proofs.Model
import SchemaClasses.Proofs.Ledger

/-! The copies that variants are made of: they join the ledger behind all records, each with a set of
checks of its own, and leave what was there alone. -/

namespace SchemaClasses

namespace Model

/-- The model with another ledger. -/
def withLedger (model : Model) (ledger : Ledger) : Model :=
  { model with survey := { model.survey with ledger } }

variable {model : Model} {ledger : Ledger} {id : DeclarationId}

@[simp] theorem ledger_withLedger : (model.withLedger ledger).ledger = ledger := rfl

@[simp] theorem declaration_withLedger :
    (model.withLedger ledger).declaration id = model.declaration id := rfl

@[simp] theorem declarations_withLedger :
    (model.withLedger ledger).declarations = model.declarations := rfl

end Model

namespace Ledger

variable {before middle after : Ledger} {id source copy : RecordId}

/-- Whether every record has a set of checks that is there. -/
def InRange (ledger : Ledger) : Prop :=
  ∀ id : RecordId, id.index < ledger.size →
    (ledger.record id).checks.index < ledger.checkSets.size

/-- A ledger that records and sets of checks have joined behind those that were there. -/
structure Extends (before after : Ledger) : Prop where
  size_le : before.size ≤ after.size
  record : ∀ id, id.index < before.size → after.record id = before.record id
  sets : before.checkSets.toList <+: after.checkSets.toList

namespace Extends

theorem refl (ledger : Ledger) : ledger.Extends ledger :=
  ⟨Nat.le_refl _, fun _ _ => rfl, List.prefix_rfl⟩

theorem trans (first : before.Extends middle) (second : middle.Extends after) :
    before.Extends after where
  size_le := Nat.le_trans first.size_le second.size_le
  record id inside :=
    (second.record id (Nat.lt_of_lt_of_le inside first.size_le)).trans (first.record id inside)
  sets := first.sets.trans second.sets

/-- No set of checks is taken away. -/
theorem sets_le (joined : before.Extends after) : before.checkSets.size ≤ after.checkSets.size := by
  simpa using joined.sets.length_le

/-- The checks of a record stay where they are. -/
theorem checks_eq (joined : before.Extends after) (same : (after.record id).checks = (before.record id).checks)
    (inRange : (before.record id).checks.index < before.checkSets.size) :
    after.checks id = before.checks id := by
  obtain ⟨more, sets⟩ := joined.sets
  unfold checks
  rw [same, Array.getD_eq_getD_getElem?, Array.getD_eq_getD_getElem?, ← Array.getElem?_toList,
    ← Array.getElem?_toList, ← sets, List.getElem?_append_left (by simpa using inRange)]

/-- A copy of a record extends the ledger. -/
theorem duplicate : before.Extends (before.duplicate source).2 where
  size_le := by
    rw [size_duplicate]
    exact Nat.le_succ _
  record _ inside := record_duplicate_of_lt inside
  sets := by simp

end Extends

/-- Whether a record has joined a ledger as a copy of another one: it has a set of checks of its own,
which holds the same checks. -/
structure Copies (before after : Ledger) (source copy : RecordId) : Prop where
  late : before.size ≤ copy.index
  present : copy.index < after.size
  fresh : before.checkSets.size ≤ (after.record copy).checks.index
  inRange : (after.record copy).checks.index < after.checkSets.size
  checks : after.checks copy = before.checks source

namespace Copies

/-- A copy of a record that was there is one of it since before. -/
theorem of_extends (joined : before.Extends middle) (copies : middle.Copies after source copy)
    (present : source.index < before.size)
    (inRange : (before.record source).checks.index < before.checkSets.size) :
    before.Copies after source copy where
  late := Nat.le_trans joined.size_le copies.late
  present := copies.present
  fresh := Nat.le_trans joined.sets_le copies.fresh
  inRange := copies.inRange
  checks := copies.checks.trans
    -- The set of the source is the one it had before, with the same checks.
    (joined.checks_eq (congrArg Record.checks (joined.record source present)) inRange)

/-- A copy stays one while others join. -/
theorem extend (copies : before.Copies middle source copy) (joined : middle.Extends after) :
    before.Copies after source copy := by
  -- A record that is there is not changed by those that join.
  have same := joined.record copy copies.present
  refine ⟨copies.late, Nat.lt_of_lt_of_le copies.present joined.size_le, ?_, ?_, ?_⟩
  · rw [same]
    exact copies.fresh
  · rw [same]
    exact Nat.lt_of_lt_of_le copies.inRange joined.sets_le
  · rw [joined.checks_eq (congrArg Record.checks same) copies.inRange]
    exact copies.checks

/-- A copy stays one while no record gets another set of checks. -/
theorem update {change : Record → Record} (copies : before.Copies after source copy)
    (kept : (change (after.record id)).checks = (after.record id).checks) :
    before.Copies (after.update id change) source copy := by
  -- The update keeps the set of every record, that of the copy included.
  have same : ((after.update id change).record copy).checks = (after.record copy).checks :=
    field_update Record.checks kept
  refine ⟨copies.late, ?_, ?_, ?_, (checks_update kept).trans copies.checks⟩
  · rw [size_update]
    exact copies.present
  · rw [same]
    exact copies.fresh
  · rw [same]
    exact copies.inRange

/-- The copy of a record is the last one. -/
theorem duplicate : before.Copies (before.duplicate source).2 source ⟨before.size⟩ := by
  -- A duplicate gets a set of its own, the last one.
  have same : ((before.duplicate source).2.record ⟨before.size⟩).checks =
      ⟨before.checkSets.size⟩ := by
    rw [record_duplicate, if_pos rfl]
    rfl
  refine ⟨Nat.le_refl _, ?_, ?_, ?_, checks_duplicate_self⟩
  · rw [size_duplicate]
    exact Nat.lt_succ_self _
  · rw [same]
  · rw [same, checkSets_duplicate, Array.size_push]
    exact Nat.lt_succ_self _

end Copies

/-- A ledger that a single copy has joined keeps every set of checks in range. -/
theorem InRange.duplicate (inRange : before.InRange) : (before.duplicate source).2.InRange := by
  intro other inside
  -- What was there is as it was, and the sets only become more.
  by_cases old : other.index < before.size
  · rw [record_duplicate_of_lt old]
    exact Nat.lt_of_lt_of_le (inRange other old) Extends.duplicate.sets_le
  · -- The only record that joined is the copy, whose set joined with it.
    have last : other = ⟨before.size⟩ := by
      rw [size_duplicate] at inside
      exact RecordId.ext (by show other.index = before.size; omega)
    rw [last]
    exact Copies.duplicate.inRange

/-- Whether a record that joined is the plain copy of another one: it only lacks the negation. -/
structure Repeats (before after : Ledger) (source copy : RecordId) : Prop
    extends Copies before after source copy where
  record : after.record copy =
    { before.record source with checks := (after.record copy).checks, negation := none }

/-- A ledger that a variant of a record has joined: a copy that stands for another schema, with copies
of the properties and without alternatives. -/
structure Varies (before : Ledger) (container : RecordId) (origin : Option SchemaId)
    (copies : List RecordId) (after : Ledger) : Prop extends Extends before after where
  variant : before.Copies after container ⟨before.size⟩
  record_variant : after.record ⟨before.size⟩ =
    { before.record container with
      checks := (after.record ⟨before.size⟩).checks
      negation := none
      schema := origin
      properties := copies
      oneOf := []
      typeRef := none
      shape := none }
  repeats : ∀ copy ∈ copies, ∃ source ∈ (before.record container).properties,
    before.Repeats after source copy
  names : after.names ⟨before.size⟩ = before.names container
  new : ∀ id : RecordId, before.size ≤ id.index → id.index < after.size →
    id = ⟨before.size⟩ ∨ id ∈ copies

end Ledger

namespace Ledger.Varies

variable {before after : Ledger} {container id child : RecordId} {origin : Option SchemaId}
variable {copies : List RecordId}

/-- A record that joins is the variant itself, or the plain copy of a property. -/
theorem cases (varies : before.Varies container origin copies after)
    (new : ¬ id.index < before.size) (present : id.index < after.size) :
    id = ⟨before.size⟩ ∨
      ∃ source ∈ (before.record container).properties, before.Repeats after source id :=
  (varies.new id (Nat.not_lt.mp new) present).imp_right (varies.repeats id)

/-- A record that joins has the checks, patterns, items and base property of one that was there. -/
theorem source (varies : before.Varies container origin copies after)
    (new : ¬ id.index < before.size) (present : id.index < after.size) :
    ∃ source, (source = container ∨ source ∈ (before.record container).properties) ∧
      before.Copies after source id ∧
      (after.record id).patternProperties = (before.record source).patternProperties ∧
      (after.record id).mapBacked = (before.record source).mapBacked ∧
      (after.record id).items = (before.record source).items ∧
      (after.record id).baseProperty = (before.record source).baseProperty := by
  -- What joins is the variant itself or the copy of a property.
  rcases varies.cases new present with rfl | ⟨source, member, repeats⟩
  · refine ⟨container, .inl rfl, varies.variant, ?_⟩
    rw [varies.record_variant]
    exact ⟨rfl, rfl, rfl, rfl⟩
  · refine ⟨source, .inr member, repeats.toCopies, ?_⟩
    rw [repeats.record]
    exact ⟨rfl, rfl, rfl, rfl⟩

/-- What lies inside a record that joins was there inside its source, or joins with it. -/
theorem mem_children (varies : before.Varies container origin copies after)
    (new : ¬ id.index < before.size) (held : child ∈ (after.record id).children) :
    child ∈ copies ∨ ∃ source, (source = container ∨ source ∈ (before.record container).properties) ∧
      child ∈ (before.record source).children := by
  -- A record that is not there holds nothing.
  by_cases present : id.index < after.size
  · rcases varies.cases new present with rfl | ⟨source, member, repeats⟩
    · -- The variant has the copied properties, and all else it holds belongs to the container.
      rw [varies.record_variant] at held
      simp only [Record.children, List.append_nil, List.mem_append, Option.toList_none] at held
      rcases held with ((held | held) | held) | held
      · exact .inl held
      · exact .inr ⟨container, .inl rfl, by simp [Record.children, held]⟩
      · exact .inr ⟨container, .inl rfl, by simp [Record.children, held]⟩
      · exact .inr ⟨container, .inl rfl, by simp [Record.children, held]⟩
    · -- The copy of a property holds what the property itself holds.
      refine .inr ⟨source, .inr member, ?_⟩
      rw [repeats.record] at held
      simp only [Record.children, List.append_nil, Option.toList_none] at held
      exact List.mem_append_left _ held
  · rw [record_of_size_le (Nat.not_lt.mp present)] at held
    exact absurd held List.not_mem_nil

/-- The properties of a record that joins are those of its source, or copies of those. -/
theorem mem_properties (varies : before.Varies container origin copies after)
    (new : ¬ id.index < before.size) (held : child ∈ (after.record id).properties) :
    ∃ holder source, source ∈ (before.record holder).properties ∧
      (child = source ∨ before.Repeats after source child) := by
  by_cases present : id.index < after.size
  · rcases varies.cases new present with rfl | ⟨source, -, repeats⟩
    · -- The properties of the variant are copies of those of its container.
      rw [varies.record_variant] at held
      obtain ⟨source, member, repeats⟩ := varies.repeats child held
      exact ⟨container, source, member, .inr repeats⟩
    · -- The copy of a property keeps the properties of that property as they are.
      rw [repeats.record] at held
      exact ⟨source, child, held, .inl rfl⟩
  · rw [record_of_size_le (Nat.not_lt.mp present)] at held
    exact absurd held List.not_mem_nil

/-- The alternatives of a record that joins are those of its source. -/
theorem mem_oneOf (varies : before.Varies container origin copies after)
    (new : ¬ id.index < before.size) (held : child ∈ (after.record id).oneOf) :
    ∃ source ∈ (before.record container).properties, child ∈ (before.record source).oneOf := by
  by_cases present : id.index < after.size
  · rcases varies.cases new present with rfl | ⟨source, member, repeats⟩
    · rw [varies.record_variant] at held
      -- A variant has no alternatives of its own.
      exact absurd held List.not_mem_nil
    · rw [repeats.record] at held
      exact ⟨source, member, held⟩
  · rw [record_of_size_le (Nat.not_lt.mp present)] at held
    exact absurd held List.not_mem_nil

end Ledger.Varies

namespace Modelling

open Ledger

variable {start : Model} {id : RecordId}

/-- A copy of a record is the last of all records. -/
theorem ends_duplicate {done : RecordId → Model → Prop} {failed : Model → Prop} :
    Ends (survey (Survey.onLedger (·.duplicate id))) start done failed ↔
      done ⟨start.ledger.size⟩ (start.withLedger (start.ledger.duplicate id).2) := Iff.rfl

/-- Copies of records join the ledger one by one. -/
theorem ends_duplicates {sources : List RecordId} (inRange : start.ledger.InRange)
    (present : ∀ source ∈ sources, source.index < start.ledger.size) :
    Ends (sources.mapM fun source => survey (Survey.onLedger (·.duplicate source))) start
      (fun copies last => ∃ ledger, last = start.withLedger ledger ∧ start.ledger.Extends ledger ∧
        (∀ copy ∈ copies, ∃ source ∈ sources, start.ledger.Repeats ledger source copy) ∧
        copies.map ledger.name = sources.map start.ledger.name ∧
        ∀ id : RecordId, start.ledger.size ≤ id.index → id.index < ledger.size → id ∈ copies)
      (fun _ => True) := by
  -- The copies join in the order of the sources, so the induction follows the list.
  induction sources generalizing start with
  | nil =>
    rw [List.mapM_nil, ends_pure]
    exact ⟨start.ledger, rfl, .refl _, fun _ member => absurd member List.not_mem_nil, rfl,
      fun id late inside => absurd inside (Nat.not_lt.mpr late)⟩
  | cons source rest ih =>
    rw [List.mapM_cons, ends_bind, ends_duplicate, ends_bind]
    have joined : start.ledger.Extends (start.ledger.duplicate source).2 := .duplicate
    have copied : start.ledger.Copies (start.ledger.duplicate source).2 source
        ⟨start.ledger.size⟩ := .duplicate
    have there := present source List.mem_cons_self
    have inRange' : (start.withLedger (start.ledger.duplicate source).2).ledger.InRange :=
      inRange.duplicate
    refine (ih inRange' fun other member => Nat.lt_of_lt_of_le
      (present other (List.mem_cons_of_mem _ member)) joined.size_le).imp
        -- The copies of the rest are made in the ledger that the first copy has joined.
        (fun copies last further => ?_) fun _ _ => trivial
    obtain ⟨ledger, rfl, joined', repeats, names, new⟩ := further
    -- What joined first is not changed by what joins later.
    have first : ledger.record ⟨start.ledger.size⟩ = start.ledger.copy source := by
      rw [joined'.record _ copied.present, Model.ledger_withLedger, record_duplicate, if_pos rfl]
    rw [ends_pure]
    refine ⟨ledger, rfl, joined.trans joined', fun copy member => ?_, ?_,
      fun other late inside => ?_⟩
    · -- A copy on the list is the first one or one of those made later.
      rcases List.mem_cons.mp member with rfl | member
      · refine ⟨source, List.mem_cons_self, copied.extend joined', ?_⟩
        rw [first]
        rfl
      · -- A later copy was made of a record that was there before the first one joined.
        obtain ⟨other, listed, repeated⟩ := repeats copy member
        have there := present other (List.mem_cons_of_mem _ listed)
        refine ⟨other, List.mem_cons_of_mem _ listed,
          repeated.toCopies.of_extends joined there (inRange other there), ?_⟩
        rw [← joined.record other there]
        exact repeated.record
    · -- The first copy has the name of the first source, and the sources have kept theirs.
      have kept : rest.map (start.ledger.duplicate source).2.name = rest.map start.ledger.name :=
        List.map_congr_left fun other member => congrArg Record.name
          (joined.record other (present other (List.mem_cons_of_mem _ member)))
      have called : ledger.name ⟨start.ledger.size⟩ = start.ledger.name source := by
        rw [Ledger.name, first]
        rfl
      rw [List.map_cons, List.map_cons, ← kept, called]
      exact congrArg (List.cons _) names
    · -- Every number from the old end on is that of a copy.
      by_cases same : other.index = start.ledger.size
      · exact List.mem_cons.mpr (.inl (RecordId.ext same))
      · refine List.mem_cons_of_mem _ (new other ?_ inside)
        rw [Model.ledger_withLedger, size_duplicate]
        omega

/-- A copy for a variant joins the ledger with copies of the properties. -/
theorem ends_copyForVariant {origin : Option SchemaId} (inRange : start.ledger.InRange)
    (inside : ∀ property ∈ (start.ledger.record id).properties,
      property.index < start.ledger.size) :
    Ends (copyForVariant id origin) start
      (fun variant last => variant = ⟨start.ledger.size⟩ ∧
        ∃ copies ledger, last = start.withLedger ledger ∧
          start.ledger.Varies id origin copies ledger)
      (fun _ => True) := by
  simp only [copyForVariant, ends_bind, ends_duplicate, ends_record]
  have joined : start.ledger.Extends (start.ledger.duplicate id).2 := .duplicate
  have copied : start.ledger.Copies (start.ledger.duplicate id).2 id ⟨start.ledger.size⟩ :=
    .duplicate
  have record : (start.ledger.duplicate id).2.record ⟨start.ledger.size⟩ = start.ledger.copy id := by
    rw [record_duplicate, if_pos rfl]
  rw [Model.ledger_withLedger, record]
  have inRange' : (start.withLedger (start.ledger.duplicate id).2).ledger.InRange :=
    inRange.duplicate
  -- The copies of the properties start from the ledger with the copy of the record itself.
  refine (ends_duplicates inRange' fun property member =>
    Nat.lt_of_lt_of_le (inside property member) joined.size_le).imp
      (fun copies last further => ?_) fun _ _ => trivial
  obtain ⟨ledger, rfl, joined', repeats, names, new⟩ := further
  simp only [ends_updateRecord, ends_pure]
  have whole := joined.trans joined'
  have there : (⟨start.ledger.size⟩ : RecordId).index < ledger.size :=
    Nat.lt_of_lt_of_le copied.present joined'.size_le
  -- Only the new record is changed, and its set of checks is not.
  generalize changed : (fun record : Record =>
    { record with
      schema := origin, properties := copies, oneOf := [], typeRef := none, shape := none }) = change
  have kept (record : Record) : (change record).checks = record.checks := by rw [← changed]
  have others {other : RecordId} (apart : other ≠ ⟨start.ledger.size⟩) :
      (ledger.update ⟨start.ledger.size⟩ change).record other = ledger.record other :=
    record_update_of_ne apart
  refine ⟨trivial, copies, ledger.update ⟨start.ledger.size⟩ change, rfl,
    ⟨⟨?_, fun other old => ?_, whole.sets⟩, (copied.extend joined').update (kept _), ?_,
      fun copy member => ?_, ?_, fun other late inside => ?_⟩⟩
  · -- The ledger only grows.
    rw [size_update]
    exact whole.size_le
  · -- Records from before are no new record, so that the change does not reach them.
    rw [others, whole.record other old]
    rintro rfl
    exact Nat.lt_irrefl _ old
  · -- The variant is the copy of the record, with the change on top of it.
    rw [record_update_self there, joined'.record _ copied.present, Model.ledger_withLedger, record,
      ← changed]
    rfl
  · -- The copies of the properties come behind the variant, so the change does not reach them.
    obtain ⟨source, member, repeated⟩ := repeats copy member
    have old := inside source member
    refine ⟨source, member,
      (repeated.toCopies.of_extends joined old (inRange source old)).update (kept _), ?_⟩
    rw [others, ← joined.record source old]
    · exact repeated.record
    · rintro rfl
      have late := repeated.late
      rw [Model.ledger_withLedger, size_duplicate] at late
      exact absurd late (Nat.not_succ_le_self _)
  · -- The change renames no record, so the variant has the names of its copies.
    have renamed : (ledger.update ⟨start.ledger.size⟩ change).name = ledger.name :=
      funext fun _ => field_update Record.name (by rw [← changed])
    have sources : (start.ledger.record id).properties.map (start.ledger.duplicate id).2.name =
        start.ledger.names id := List.map_congr_left fun property member =>
          congrArg Record.name (joined.record property (inside property member))
    rw [Ledger.names, renamed, record_update_self there, ← changed]
    exact names.trans sources
  · -- What joined is the copy of the record or one of those of its properties.
    rw [size_update] at inside
    by_cases same : other.index = start.ledger.size
    · exact .inl (RecordId.ext same)
    · refine .inr (new other ?_ inside)
      rw [Model.ledger_withLedger, size_duplicate]
      omega

/-- The copies of the properties come behind the copy of the record itself. -/
theorem ends_copyForVariant_behind {origin : Option SchemaId} (inRange : start.ledger.InRange)
    (inside : ∀ property ∈ (start.ledger.record id).properties,
      property.index < start.ledger.size) :
    Ends (copyForVariant id origin) start
      (fun variant last => ∀ copy ∈ (last.ledger.record variant).properties,
        start.ledger.size < copy.index)
      (fun _ => True) := by
  simp only [copyForVariant, ends_bind, ends_duplicate, ends_record]
  have joined : start.ledger.Extends (start.ledger.duplicate id).2 := .duplicate
  have copied : start.ledger.Copies (start.ledger.duplicate id).2 id ⟨start.ledger.size⟩ :=
    .duplicate
  have record : (start.ledger.duplicate id).2.record ⟨start.ledger.size⟩ = start.ledger.copy id := by
    rw [record_duplicate, if_pos rfl]
  rw [Model.ledger_withLedger, record]
  -- Copies keep every set of checks in range, as the copies to come need it.
  have inRange' : (start.withLedger (start.ledger.duplicate id).2).ledger.InRange :=
    inRange.duplicate
  refine (ends_duplicates inRange' fun property member =>
    Nat.lt_of_lt_of_le (inside property member) joined.size_le).imp
      (fun copies last further => ?_) fun _ _ => trivial
  obtain ⟨ledger, rfl, joined', repeats, -⟩ := further
  simp only [ends_updateRecord, ends_pure]
  have there : (⟨start.ledger.size⟩ : RecordId).index < ledger.size :=
    Nat.lt_of_lt_of_le copied.present joined'.size_le
  intro copy member
  rw [Model.ledger_updateRecord, Model.ledger_withLedger, record_update_self there] at member
  obtain ⟨source, -, repeated⟩ := repeats copy member
  -- A later copy lies behind the ledger with the copy of the record in it.
  have late := repeated.late
  rw [Model.ledger_withLedger, size_duplicate] at late
  exact late

end Modelling

end SchemaClasses
