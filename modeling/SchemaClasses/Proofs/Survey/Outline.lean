import Mathlib.Logic.Relation
import SchemaClasses.Proofs.Survey.Frame
import SchemaClasses.Survey

/-! What is known about a value: by all schemas that describe it, and by a record itself. -/

namespace SchemaClasses

/-! The trail of a survey: what is stated about one value by all schemas that describe it, in the
order in which a visit comes upon it. -/

/-- What a schema states about the value that it describes. -/
inductive Statement where
  /-- A boolean schema. -/
  | boolean
  /-- A keyword of a schema object. -/
  | clause (clause : Clause)

namespace SchemaTree

/-- The schemas of a keyword that describe the same value as the schema around it. -/
def companions (tree : SchemaTree) : Keyword → List SchemaId
  | .reference _ target => [target]
  | .allOf branches => branches
  | .anyOf branches => (Survey.nullableForm? tree branches).toList
  | .oneOf branches => (Survey.nullableForm? tree branches).toList
  | _ => []

/-- Whether a keyword of a schema leads to another schema for the same value. -/
def Joins (tree : SchemaTree) (schema inner : SchemaId) : Prop :=
  ∃ clause ∈ (tree.schema schema).clauses, inner ∈ tree.companions clause.keyword

/-- Whether a schema describes the value that another one describes, over any number of keywords. -/
abbrev JoinsTo (tree : SchemaTree) : SchemaId → SchemaId → Prop := Relation.ReflTransGen tree.Joins

/-- All that a visit comes upon: a schema object is closed while it is visited, and what stands in
the schemas of a keyword comes before the keyword. -/
def trail (tree : SchemaTree) (opened : List SchemaId) (schema : SchemaId) : List Statement :=
  match (tree.schema schema).body with
  | .boolean _ => [.boolean]
  | .object _ clauses =>
    if _isOpen : schema ∈ opened then
      clauses.flatMap fun clause =>
        ((tree.companions clause.keyword).flatMap fun inner => trail tree (opened.erase schema) inner)
          ++ [.clause clause]
    else []
termination_by opened.length
decreasing_by exact length_erase_lt _isOpen

variable {tree : SchemaTree} {opened : List SchemaId} {schema inner : SchemaId}
variable {statement : Statement}

end SchemaTree

/-! The outline of a record: what is known about its value by itself, which no change behind the
record reaches. -/

/-- What is known about one value by itself: what keywords state, and how its properties are
called. -/
structure Outline where
  stated : Record
  names : List (Option String)
  patterns : List String

namespace Outline

/-- The value may be null. -/
def admitNull (outline : Outline) : Outline :=
  { outline with stated := { outline.stated with nullable := some true } }

/-- The value may be null if one of two branches only admits null. -/
def admitBranches (outline : Outline) (tree : SchemaTree) (branches : List SchemaId) : Outline :=
  if (Survey.nullableForm? tree branches).isSome then outline.admitNull else outline

/-- A property of a name. -/
def addName (outline : Outline) (entry : String × SchemaId) : Outline :=
  { outline with names := addNew outline.names (some entry.1) }

/-- A pattern for the names of properties. -/
def addPattern (outline : Outline) (entry : String × SchemaId) : Outline :=
  { outline with patterns := addNew outline.patterns entry.1 }

/-- What one statement makes of an outline. -/
def take (tree : SchemaTree) (outline : Outline) : Statement → Except Fault Outline
  | .boolean => .ok outline.admitNull
  | .clause ⟨_, .anyOf branches⟩ => .ok (outline.admitBranches tree branches)
  | .clause ⟨_, .oneOf branches⟩ => .ok (outline.admitBranches tree branches)
  | .clause ⟨_, .properties entries⟩ => .ok (entries.foldl addName outline)
  | .clause ⟨_, .patternProperties entries⟩ => .ok (entries.foldl addPattern outline)
  | .clause ⟨location, keyword⟩ =>
    (outline.stated.absorb location keyword).map fun stated => { outline with stated }

end Outline

/-- The outline of a record whose properties have the names given. -/
def Record.outline (record : Record) (name : RecordId → Option String) : Outline where
  stated := record.stated
  names := record.properties.map name
  patterns := record.patternProperties.map (·.pattern)

namespace Ledger

/-- The name of the property that a record stands for. -/
def name (ledger : Ledger) (id : RecordId) : Option String := (ledger.record id).name

/-- The outline of a record. -/
def outline (ledger : Ledger) (id : RecordId) : Outline := (ledger.record id).outline ledger.name

/-- Nothing behind a record leads back to it or before it. -/
structure Alone (ledger : Ledger) (id : RecordId) : Prop where
  present : id.index < ledger.size
  inside : ∀ child ∈ (ledger.record id).children, id.index < child.index
  properties : ∀ property ∈ (ledger.record id).properties, property.index < ledger.size
  beyond : ∀ other : RecordId, id.index < other.index →
    ∀ link ∈ (ledger.record other).links, id.index < link.index

namespace Alone

variable {ledger later : Ledger} {id : RecordId}

/-- A record that changes as long as what is inside lies behind it. -/
theorem update (alone : ledger.Alone id) (change : Record → Record)
    (inside : ∀ child ∈ (change (ledger.record id)).children, id.index < child.index)
    (properties : ∀ property ∈ (change (ledger.record id)).properties,
      property.index < ledger.size) :
    (ledger.update id change).Alone id ∧
      (ledger.update id change).outline id =
        (change (ledger.record id)).outline ledger.name := by
  -- Only the record itself changes, so all that lies behind it leads where it did.
  have changed : (ledger.update id change).record id = change (ledger.record id) :=
    record_update_self alone.present
  have kept {other : RecordId} (behind : id.index < other.index) :
      (ledger.update id change).record other = ledger.record other := by
    refine record_update_of_ne ?_
    rintro rfl
    exact Nat.lt_irrefl _ behind
  -- The record is there, with its new children behind it.
  refine ⟨⟨by simpa using alone.present, ?_, ?_, fun other behind => ?_⟩, ?_⟩
  · rwa [changed]
  · simpa [changed] using properties
  · rw [kept behind]
    exact alone.beyond other behind
  · -- The names are those of other records, which did not change.
    unfold outline Record.outline
    rw [changed]
    congr 1
    refine List.map_congr_left fun property member => ?_
    rw [name, kept (inside property (Record.mem_children.mpr (.inl member))), name]

/-- A record created behind all others. -/
theorem create (alone : ledger.Alone id) (schema : Option SchemaId) (text : Option String) :
    (ledger.create schema text).2.Alone id ∧
      (ledger.create schema text).2.record id = ledger.record id ∧
      (ledger.record id).outline (ledger.create schema text).2.name = ledger.outline id := by
  -- Records from before are not touched.
  have kept {other : RecordId} (present : other.index < ledger.size) :
      (ledger.create schema text).2.record other = ledger.record other :=
    record_create_of_lt present
  refine ⟨⟨?_, ?_, ?_, fun other behind link member => ?_⟩, kept alone.present, ?_⟩
  · rw [size_create]
    exact Nat.lt_succ_of_lt alone.present
  · rw [kept alone.present]
    exact alone.inside
  · intro property member
    rw [kept alone.present] at member
    rw [size_create]
    exact Nat.lt_succ_of_lt (alone.properties property member)
  · -- The new record leads nowhere yet.
    rw [record_create] at member
    split at member
    · simp [fresh, Record.links, Record.children] at member
    · exact alone.beyond other behind link member
  · -- The outline reads names of properties, which were there before.
    unfold outline Record.outline
    congr 1
    refine List.map_congr_left fun property member => ?_
    rw [name, kept (alone.properties property member), name]

/-- A change behind the record that leaves alone what lies up to it. -/
theorem undisturbed {known : Set RecordId} {pending : List (RecordId × RecordId)}
    (alone : ledger.Alone id) (kept : ledger.Undisturbed (id.index + 1) later)
    (sealed' : Survey.Stage.Sealed (id.index + 1) ⟨known, pending, later⟩) :
    later.Alone id ∧ later.outline id = ledger.outline id := by
  have same := kept.record_eq id (Nat.lt_succ_self _)
  -- The record lies below the bound, so it is the same as before.
  refine ⟨⟨Nat.lt_of_lt_of_le alone.present kept.size_le, ?_, ?_, ?_⟩, ?_⟩
  · rw [same]
    exact alone.inside
  · rw [same]
    exact fun property member =>
      Nat.lt_of_lt_of_le (alone.properties property member) kept.size_le
  · -- Behind it, all links are sealed off.
    exact fun other behind link member => sealed'.links other behind link member
  · unfold outline Record.outline
    rw [same]
    congr 1
    refine List.map_congr_left fun property member => ?_
    exact (kept.sameOrigin property (alone.properties property member)).name

end Alone

end Ledger

namespace Slot

/-- What a filled place adds to an outline. -/
def enter (outline : Outline) : Slot → Outline
  | property name => { outline with names := outline.names ++ [some name] }
  | patternProperty pattern => { outline with patterns := outline.patterns ++ [pattern] }
  | additional => outline
  | items => outline

/-- The outline of a record in which a place was filled. -/
theorem outline_fill {slot : Slot} {child : RecordId} {record : Record}
    {name : RecordId → Option String} (named : name child = slot.name?) :
    (slot.fill child record).outline name = slot.enter (record.outline name) := by
  unfold Record.outline enter fill
  -- A property or a pattern comes last, and other places are not part of the outline.
  cases slot with
  | property text =>
    rw [List.map_append, List.map_singleton, named]
    rfl
  | patternProperty pattern =>
    rw [List.map_append, List.map_singleton]
    rfl
  | additional => rfl
  | items => rfl

end Slot

/-- A record that is made for a place inside another one. -/
theorem Ledger.Alone.attach {ledger : Ledger} {id : RecordId} (alone : ledger.Alone id)
    (schema : SchemaId) (slot : Slot) :
    let after := (ledger.create (some schema) slot.name?).2.update id (slot.fill ⟨ledger.size⟩)
    after.Alone id ∧ after.outline id = slot.enter (ledger.outline id) := by
  obtain ⟨created, same, outline⟩ := alone.create (some schema) slot.name?
  obtain ⟨updated, filled⟩ := created.update (slot.fill ⟨ledger.size⟩)
    -- The record that joins lies behind all others.
    (fun child member => by
      rcases Slot.mem_children_fill member with rfl | held
      · exact alone.present
      · exact created.inside child held)
    (fun property member => by
      rw [size_create]
      rw [same] at member
      -- Properties are those from before or the new record.
      have held : property = ⟨ledger.size⟩ ∨ property ∈ (ledger.record id).properties := by
        cases slot <;> simp only [Slot.fill, List.mem_append, List.mem_singleton] at member <;> grind
      rcases held with rfl | held
      · exact Nat.lt_succ_self _
      · exact Nat.lt_succ_of_lt (alone.properties property held))
  -- The outline shows the new record by its name alone.
  refine ⟨updated, ?_⟩
  have newest : (ledger.create (some schema) slot.name?).2.name ⟨ledger.size⟩ = slot.name? := by
    simp [name, record_create, fresh]
  rw [filled, same, Slot.outline_fill newest, outline]

end SchemaClasses
