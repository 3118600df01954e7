import SchemaClasses.Ledger

/-! What each change of a ledger does to its records and to their sets of checks. -/

namespace SchemaClasses

/-- Record numbers are equal when their indices are. -/
theorem RecordId.ext {a b : RecordId} (same : a.index = b.index) : a = b := by
  cases a
  cases b
  exact congrArg RecordId.mk same

/-- A record that is there does not have the next number. -/
theorem RecordId.ne_next {id : RecordId} {size : Nat} (present : id.index < size) : id ≠ ⟨size⟩ := by
  rintro rfl
  exact Nat.lt_irrefl _ present

/-- A record that does not have the last number comes before the one that does. -/
theorem RecordId.lt_last {id : RecordId} {last : Nat} (present : id.index < last + 1)
    (different : id ≠ ⟨last⟩) : id.index < last := by
  -- Numbers are told apart by their indices.
  have apart : id.index ≠ last := fun same => different (RecordId.ext same)
  omega

namespace Ledger

variable {ledger : Ledger} {id other : RecordId}

/-- A record is looked up by its index, with an empty record behind the last. -/
theorem record_eq : ledger.record id = ledger.records[id.index]?.getD default := by
  simp [record]

/-- A number past the end stands for an empty record. -/
theorem record_of_size_le (past : ledger.size ≤ id.index) : ledger.record id = default := by
  rw [record_eq, Array.getElem?_eq_none (by simpa [size] using past)]
  rfl

/-- No record has the next number yet. -/
theorem record_next : ledger.record ⟨ledger.size⟩ = default := record_of_size_le (Nat.le_refl _)

/-- A change of one record adds none. -/
@[simp] theorem size_update {change : Record → Record} :
    (ledger.update id change).size = ledger.size := by
  simp [update, size]

/-- A change of one record leaves the sets of checks alone. -/
@[simp] theorem checkSets_update {change : Record → Record} :
    (ledger.update id change).checkSets = ledger.checkSets := rfl

/-- A changed record shows the change. -/
theorem record_update_self {change : Record → Record} (present : id.index < ledger.size) :
    (ledger.update id change).record id = change (ledger.record id) := by
  simp only [size] at present
  simp [record_eq, update, Array.getElem_modify, present]

/-- Other records do not show it. -/
theorem record_update_of_ne {change : Record → Record} (different : other ≠ id) :
    (ledger.update id change).record other = ledger.record other := by
  -- Another record has another index, where the array is left alone.
  have apart : id.index ≠ other.index := fun same => different (RecordId.ext same.symm)
  simp [record_eq, update, Array.getElem?_modify, apart]

/-- A record after a change is the old one or the changed one. -/
theorem record_update {change : Record → Record} :
    (ledger.update id change).record other =
      if other = id ∧ id.index < ledger.size then change (ledger.record id)
      else ledger.record other := by
  -- Only the record that is changed differs, and only if it is there.
  by_cases same : other = id
  · subst same
    by_cases present : other.index < ledger.size
    · simp [record_update_self present, present]
    · -- Behind the last record there is nothing to change.
      have past : ledger.size ≤ other.index := Nat.not_lt.mp present
      rw [record_of_size_le (by simpa using past), record_of_size_le past]
      simp [present]
  · simp [record_update_of_ne same, same]

/-- Every record is related to what becomes of it if the changed one is, and each to itself. -/
theorem rel_update {relation : Record → Record → Prop} {change : Record → Record}
    (refl : ∀ record, relation record record)
    (changed : relation (ledger.record id) (change (ledger.record id))) :
    relation (ledger.record other) ((ledger.update id change).record other) := by
  rw [record_update]
  -- The case split is that of the update: the changed record, or one that is left alone.
  split
  · rename_i same
    rw [same.1]
    exact changed
  · exact refl _

/-- What a change keeps of its record it keeps of all. -/
theorem field_update {α : Type} (field : Record → α) {change : Record → Record}
    (kept : field (change (ledger.record id)) = field (ledger.record id)) :
    field ((ledger.update id change).record other) = field (ledger.record other) :=
  @rel_update _ _ _ (fun before after => field after = field before) _ (fun _ => rfl) kept

/-- Two changes that agree on the record are the same change. -/
theorem update_congr {change change' : Record → Record}
    (same : change (ledger.record id) = change' (ledger.record id)) :
    ledger.update id change = ledger.update id change' := by
  have modified : ledger.records.modify id.index change = ledger.records.modify id.index change' := by
    refine Array.ext (by simp) fun index _ present => ?_
    have present : index < ledger.records.size := by simpa using present
    -- Only the entry under the number of the record is changed, and there the two changes agree.
    simp only [Array.getElem_modify]
    split
    · rename_i here
      subst here
      simpa [record_eq, present] using same
    · rfl
  simp [update, modified]

/-- A new record makes the ledger longer by one. -/
@[simp] theorem size_push {record : Record} : (ledger.push record).2.size = ledger.size + 1 := by
  simp [push, size]

/-- A new record takes the next number. -/
@[simp] theorem push_fst {record : Record} : (ledger.push record).1 = ⟨ledger.size⟩ := rfl

/-- A new record leaves the sets of checks alone. -/
@[simp] theorem checkSets_push {record : Record} :
    (ledger.push record).2.checkSets = ledger.checkSets := rfl

/-- A new record is found under its number, and the others where they were. -/
theorem record_push {record : Record} :
    (ledger.push record).2.record id = if id = ⟨ledger.size⟩ then record else ledger.record id := by
  by_cases same : id = ⟨ledger.size⟩
  · subst same
    simp [push, record_eq, size]
  · -- Any other number is looked up in the old array.
    have apart : id.index ≠ ledger.records.size := fun index => same (RecordId.ext index)
    simp [push, record_eq, Array.getElem?_push, apart, same]

/-- A new set of checks adds no record. -/
@[simp] theorem record_pushChecks {set : CheckSet} :
    (ledger.pushChecks set).2.record id = ledger.record id := rfl

@[simp] theorem size_pushChecks {set : CheckSet} : (ledger.pushChecks set).2.size = ledger.size := rfl

@[simp] theorem checkSets_pushChecks {set : CheckSet} :
    (ledger.pushChecks set).2.checkSets = ledger.checkSets.push set := rfl

variable {schema : Option SchemaId} {name : Option String}

/-- The record that is made for a schema. -/
def fresh (ledger : Ledger) (schema : Option SchemaId) (name : Option String) : Record :=
  { schema, name, checks := ⟨ledger.checkSets.size⟩ }

@[simp] theorem create_fst : (ledger.create schema name).1 = ⟨ledger.size⟩ := rfl

@[simp] theorem size_create : (ledger.create schema name).2.size = ledger.size + 1 := by
  simp [create]

/-- A created record has a set of checks of its own, which is empty. -/
@[simp] theorem checkSets_create :
    (ledger.create schema name).2.checkSets = ledger.checkSets.push {} := rfl

/-- A created record is found under its number, and the others where they were. -/
theorem record_create :
    (ledger.create schema name).2.record id =
      if id = ⟨ledger.size⟩ then ledger.fresh schema name else ledger.record id := by
  simp only [create, record_push, record_pushChecks, size_pushChecks]
  rfl

/-- A created record does not disturb those that were there. -/
theorem record_create_of_lt (present : id.index < ledger.size) :
    (ledger.create schema name).2.record id = ledger.record id := by
  rw [record_create, if_neg (RecordId.ne_next present)]

/-- What a created record has by default, each record has as before. -/
theorem field_create {α : Type} (field : Record → α)
    (bare : field (ledger.fresh schema name) = field default) :
    field ((ledger.create schema name).2.record id) = field (ledger.record id) := by
  -- Behind the last record there was an empty one.
  rw [record_create]
  split
  · rename_i here
    rw [here, record_next]
    exact bare
  · rfl

/-- The record that says what another one must not be. -/
def negative (ledger : Ledger) (id : RecordId) : Record :=
  { schema := (ledger.record id).schema
    name := (ledger.record id).name
    checks := (ledger.record id).checks
    negationOf := some id }

/-- A record that is no negation and has none gets a new one. -/
theorem negation_of_unset (positive : (ledger.record id).negationOf = none)
    (unset : (ledger.record id).negation = none) :
    ledger.negation id =
      (⟨ledger.size⟩, (ledger.push (ledger.negative id)).2.update id fun record =>
        { record with negation := some ⟨ledger.size⟩ }) := by
  simp only [negation, positive, unset]
  rfl

/-- A first negation takes the next number. -/
theorem size_negation (positive : (ledger.record id).negationOf = none)
    (unset : (ledger.record id).negation = none) :
    (ledger.negation id).2.size = ledger.size + 1 := by
  rw [negation_of_unset positive unset, size_update, size_push]

/-- A first negation shares the set of checks of its record. -/
theorem checkSets_negation (positive : (ledger.record id).negationOf = none)
    (unset : (ledger.record id).negation = none) :
    (ledger.negation id).2.checkSets = ledger.checkSets := by
  rw [negation_of_unset positive unset, checkSets_update, checkSets_push]

/-- A first negation is found under its number, and its record leads to it. -/
theorem record_negation (inside : id.index < ledger.size)
    (positive : (ledger.record id).negationOf = none)
    (unset : (ledger.record id).negation = none) :
    (ledger.negation id).2.record other =
      if other = ⟨ledger.size⟩ then ledger.negative id
      else if other = id then { ledger.record id with negation := some ⟨ledger.size⟩ }
      else ledger.record other := by
  have apart : id ≠ ⟨ledger.size⟩ := RecordId.ne_next inside
  -- The mirror joins behind all records, and then it is put into the record that was there.
  rw [negation_of_unset positive unset, record_update, record_push, record_push, size_push]
  grind

/-- A change of checks leaves the records alone. -/
@[simp] theorem record_updateChecks {change : CheckSet → CheckSet} :
    (ledger.updateChecks id change).record other = ledger.record other := rfl

@[simp] theorem size_updateChecks {change : CheckSet → CheckSet} :
    (ledger.updateChecks id change).size = ledger.size := rfl

/-- A change of a record that keeps its set of checks keeps all checks. -/
theorem checks_update {change : Record → Record}
    (kept : (change (ledger.record id)).checks = (ledger.record id).checks) :
    (ledger.update id change).checks other = ledger.checks other := by
  unfold checks
  rw [checkSets_update, field_update Record.checks kept]

/-- The checks of a record after a change are the changed ones, if it owns the same set. -/
theorem checks_updateChecks {change : CheckSet → CheckSet} :
    (ledger.updateChecks id change).checks other =
      if (ledger.record other).checks = (ledger.record id).checks ∧
          (ledger.record id).checks.index < ledger.checkSets.size then change (ledger.checks id)
      else ledger.checks other := by
  -- The records are untouched, so only the set that is looked up may have changed.
  have looked : (ledger.updateChecks id change).checks other =
      (ledger.updateChecks id change).checkSets.getD (ledger.record other).checks.index {} := rfl
  rw [looked]
  unfold checks updateChecks
  simp only [Array.getD_eq_getD_getElem?, Array.getElem?_modify]
  by_cases same : (ledger.record other).checks = (ledger.record id).checks
  · rw [same]
    by_cases present : (ledger.record id).checks.index < ledger.checkSets.size
    · simp [present]
    · simp [present]
  · -- Sets are told apart by their numbers, so another set has another number.
    have apart : (ledger.record id).checks.index ≠ (ledger.record other).checks.index := by
      intro index
      refine same ?_
      cases held : (ledger.record other).checks
      cases held' : (ledger.record id).checks
      simp_all
    simp [apart, same]

/-- What a copy of a record is: it owns a set of checks, and it has no negation. -/
def copy (ledger : Ledger) (id : RecordId) : Record :=
  { ledger.record id with checks := ⟨ledger.checkSets.size⟩, negation := none }

@[simp] theorem duplicate_fst : (ledger.duplicate id).1 = ⟨ledger.size⟩ := rfl

@[simp] theorem size_duplicate : (ledger.duplicate id).2.size = ledger.size + 1 := by
  simp [duplicate]

@[simp] theorem checkSets_duplicate :
    (ledger.duplicate id).2.checkSets = ledger.checkSets.push (ledger.checks id) := rfl

/-- A copy is found under its number, and the others where they were. -/
theorem record_duplicate :
    (ledger.duplicate id).2.record other =
      if other = ⟨ledger.size⟩ then ledger.copy id else ledger.record other := by
  simp only [duplicate, record_push, record_pushChecks, size_pushChecks]
  rfl

/-- A copy does not disturb the records that were there. -/
theorem record_duplicate_of_lt (present : other.index < ledger.size) :
    (ledger.duplicate id).2.record other = ledger.record other := by
  rw [record_duplicate, if_neg (RecordId.ne_next present)]

/-- A copy has the checks of its record. -/
theorem checks_duplicate_self : (ledger.duplicate id).2.checks ⟨ledger.size⟩ = ledger.checks id := by
  have looked : (ledger.duplicate id).2.checks ⟨ledger.size⟩ =
      (ledger.duplicate id).2.checkSets.getD
        ((ledger.duplicate id).2.record ⟨ledger.size⟩).checks.index {} := rfl
  -- The copy owns the set that was pushed last, and that one has the same checks.
  rw [looked, record_duplicate, if_pos rfl, checkSets_duplicate]
  simp [copy]

end Ledger

end SchemaClasses
