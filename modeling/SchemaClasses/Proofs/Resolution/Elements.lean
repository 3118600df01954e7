import SchemaClasses.Proofs.Resolution.Holdings
import SchemaClasses.Proofs.Survey.Places

/-! The items of arrays and the values of properties without a name are elements. Whatever is resolved, they
lie in other places than properties and branches, and own other checks. -/

namespace SchemaClasses

/-- Whether a place is one for the items of an array or for the values of properties without a name. -/
def PlaceKind.IsElement : PlaceKind → Prop
  | .patternProperty | .additional | .items => True
  | _ => False

namespace Record

/-- Whether a record stands for the items of an array inside another one, or for the values of properties
without a name. -/
def HasElement (record : Record) (id : RecordId) : Prop :=
  record.items = some id ∨ id ∈ record.patternProperties.map (·.record) ∨
    record.additional = some (.schema id)

variable {record : Record} {id : RecordId}

/-- Elements are what stands in the places for them. -/
theorem hasElement_iff :
    record.HasElement id ↔ ∃ place : PlaceKind, place.IsElement ∧ id ∈ record.inside place := by
  -- Additional properties hold a record only if a schema is stated for them.
  have stands : id ∈ record.inside .additional ↔ record.additional = some (.schema id) := by
    cases held : record.additional with
    | none => simp [inside, held]
    | some additional => cases additional <;> simp [inside, held, AdditionalProperties.record?, eq_comm]
  constructor
  · rintro (items | pattern | additional)
    · exact ⟨.items, trivial, Option.mem_toList.mpr items⟩
    · exact ⟨.patternProperty, trivial, pattern⟩
    · exact ⟨.additional, trivial, stands.mpr additional⟩
  · rintro ⟨place, element, held⟩
    -- There are three places of elements, and the record stands in one of them.
    cases place with
    | patternProperty => exact .inr (.inl held)
    | additional => exact .inr (.inr (stands.mp held))
    | items => exact .inl (Option.mem_toList.mp held)
    | _ => exact element.elim

/-- An analysis goes on to properties and elements. -/
theorem leadsTo_iff : record.LeadsTo id ↔ id ∈ record.properties ∨ record.HasElement id := by
  unfold LeadsTo IsMember HasElement
  tauto

theorem leadsTo_of_mem (held : id ∈ record.properties) : record.LeadsTo id := leadsTo_iff.mpr (.inl held)

theorem HasElement.leadsTo (element : record.HasElement id) : record.LeadsTo id :=
  leadsTo_iff.mpr (.inr element)

/-- What an analysis goes on to is neither a branch nor a negation. -/
theorem LeadsTo.inside (leads : record.LeadsTo id) :
    ∃ place, place ≠ .branch ∧ place ≠ .negation ∧ id ∈ record.inside place := by
  rcases leadsTo_iff.mp leads with property | element
  · exact ⟨.property, nofun, nofun, property⟩
  · -- The place of an element is one of three, neither a branch nor a negation.
    obtain ⟨place, element, held⟩ := hasElement_iff.mp element
    refine ⟨place, ?_, ?_, held⟩
    · rintro rfl
      exact element
    · rintro rfl
      exact element

/-- Where a record lies in others and what lies in it, and which checks it owns. -/
def layout (record : Record) : (PlaceKind → List RecordId) × CheckSetId × Option RecordId :=
  (record.inside, record.checks, record.negationOf)

end Record

namespace Ledger

variable {before after ledger : Ledger} {id other child property parent container : RecordId}
variable {origin : Option SchemaId} {copies : List RecordId} {place : PlaceKind}

/-- Whether the records of a later ledger lie in the same places and own the same sets of checks. -/
structure SameLayout (before after : Ledger) : Prop where
  size : after.size = before.size
  sets : after.checkSets.size = before.checkSets.size
  record : ∀ id, (after.record id).layout = (before.record id).layout

namespace SameLayout

theorem refl (ledger : Ledger) : ledger.SameLayout ledger := ⟨rfl, rfl, fun _ => rfl⟩

theorem trans {middle : Ledger} (first : before.SameLayout middle) (second : middle.SameLayout after) :
    before.SameLayout after :=
  ⟨second.size.trans first.size, second.sets.trans first.sets,
    fun id => (second.record id).trans (first.record id)⟩

theorem inside (same : before.SameLayout after) :
    (after.record id).inside = (before.record id).inside := congrArg Prod.fst (same.record id)

theorem checks (same : before.SameLayout after) :
    (after.record id).checks = (before.record id).checks := congrArg (·.2.1) (same.record id)

theorem negationOf (same : before.SameLayout after) :
    (after.record id).negationOf = (before.record id).negationOf := congrArg (·.2.2) (same.record id)

theorem properties (same : before.SameLayout after) :
    (after.record id).properties = (before.record id).properties := congrFun same.inside .property

theorem hasElement (same : before.SameLayout after) :
    (after.record id).HasElement child ↔ (before.record id).HasElement child := by
  rw [Record.hasElement_iff, Record.hasElement_iff, same.inside]

theorem leadsTo (same : before.SameLayout after) :
    (after.record id).LeadsTo child ↔ (before.record id).LeadsTo child := by
  rw [Record.leadsTo_iff, Record.leadsTo_iff, same.properties, same.hasElement]

/-- A record that changes without a change of its layout. -/
theorem update {change : Record → Record}
    (kept : (change (ledger.record id)).layout = (ledger.record id).layout) :
    ledger.SameLayout (ledger.update id change) :=
  ⟨size_update, rfl, fun _ => field_update Record.layout kept⟩

end SameLayout

/-- Whether each record stands in places of one kind, elements own other sets of checks than properties,
and neither of them is a negation. -/
structure Placed (ledger : Ledger) : Prop where
  inRange : ledger.InRange
  enclosed : ∀ (id : RecordId) (place : PlaceKind), ∀ child ∈ (ledger.record id).inside place,
    child.index < ledger.size
  single : ∀ (a b child : RecordId) (place other : PlaceKind), child ∈ (ledger.record a).inside place →
    child ∈ (ledger.record b).inside other → place = other
  apart : ∀ a b element property : RecordId, (ledger.record a).HasElement element →
    property ∈ (ledger.record b).properties →
    (ledger.record element).checks ≠ (ledger.record property).checks
  positive : ∀ id child : RecordId, (ledger.record id).LeadsTo child →
    (ledger.record child).negationOf = none

/-- The records of a survey are in their places. -/
theorem Sound.placed (sound : ledger.Sound) : ledger.Placed where
  -- Soundness describes children; the places sort them.
  inRange := sound.owned.present
  enclosed id place child held :=
    (sound.forest.inside id child (Record.mem_children_iff.mpr ⟨place, held⟩)).2
  single a b child place other held held' := by
    have same := sound.forest.single a b child (Record.mem_children_iff.mpr ⟨place, held⟩)
      (Record.mem_children_iff.mpr ⟨other, held'⟩)
    subst same
    -- A record with two holders would have two parents.
    exact Record.place_eq (sound.forest.nodup a) held held'
  apart a b element property held held' shared := by
    have leads : (ledger.record a).LeadsTo element := held.leadsTo
    have leads' : (ledger.record b).LeadsTo property := Record.leadsTo_of_mem held'
    -- A shared set would have both records as its owner, since none of them is a negation.
    have owner := sound.owned.apart element property
      (sound.forest.inside a element leads.mem_children).2
      (sound.forest.inside b property leads'.mem_children).2 shared
    unfold positive at owner
    rw [sound.negationOf_eq_none leads, sound.negationOf_eq_none leads'] at owner
    -- The record would be both an element and a property.
    change element = property at owner
    subst owner
    obtain ⟨place, isElement, held⟩ := Record.hasElement_iff.mp held
    have held' : element ∈ (ledger.record b).inside .property := held'
    have same := sound.forest.single a b element (Record.mem_children_iff.mpr ⟨place, held⟩)
      (Record.mem_children_iff.mpr ⟨.property, held'⟩)
    subst same
    rw [Record.place_eq (sound.forest.nodup a) held held'] at isElement
    exact isElement
  positive id child leads := sound.negationOf_eq_none leads

namespace Placed

/-- No record is both an element and a property. -/
theorem not_hasElement (placed : ledger.Placed) (held : child ∈ (ledger.record id).properties) :
    ¬(ledger.record other).HasElement child := by
  intro element
  obtain ⟨place, element, held'⟩ := Record.hasElement_iff.mp element
  rw [placed.single other id child place .property held' held] at element
  exact element

/-- An analysis goes on to no branch. -/
theorem not_leadsTo_branch (placed : ledger.Placed) (held : child ∈ (ledger.record id).oneOf) :
    ¬(ledger.record other).LeadsTo child := by
  intro leads
  obtain ⟨place, noBranch, -, held'⟩ := leads.inside
  exact noBranch (placed.single other id child place .branch held' held)

/-- An analysis goes on to no negation. -/
theorem not_leadsTo_negation (placed : ledger.Placed)
    (held : (ledger.record id).negation = some child) : ¬(ledger.record other).LeadsTo child := by
  intro leads
  obtain ⟨place, -, noNegation, held'⟩ := leads.inside
  exact noNegation (placed.single other id child place .negation held' (Option.mem_toList.mpr held))

/-- An analysis goes on to records that are there. -/
theorem present (placed : ledger.Placed) (leads : (ledger.record id).LeadsTo child) :
    child.index < ledger.size := by
  obtain ⟨place, -, -, held⟩ := leads.inside
  exact placed.enclosed id place child held

/-- Records stay in their places while their layout is the same. -/
theorem congr (placed : before.Placed) (same : before.SameLayout after) : after.Placed where
  inRange id present := by
    rw [same.checks, same.sets]
    exact placed.inRange id (same.size ▸ present)
  enclosed id place child held := by
    rw [same.size]
    exact placed.enclosed id place child (same.inside ▸ held)
  single a b child place other held held' :=
    placed.single a b child place other (same.inside ▸ held) (same.inside ▸ held')
  apart a b element property held held' := by
    rw [same.checks, same.checks]
    exact placed.apart a b element property (same.hasElement.mp held) (same.properties ▸ held')
  positive id child leads := by
    rw [same.negationOf]
    exact placed.positive id child (same.leadsTo.mp leads)

end Placed

/-- What stands in the places of a record that joins as a variant or as a copy stood there in one that was
there, or is a copy of a property. -/
theorem Varies.mem_inside (varies : before.Varies container origin copies after) (place : PlaceKind)
    (held : child ∈ (after.record id).inside place) :
    (∃ source, child ∈ (before.record source).inside place) ∨ place = .property ∧ child ∈ copies := by
  -- What was there holds what it held before.
  by_cases old : id.index < before.size
  · rw [varies.record id old] at held
    exact .inl ⟨id, held⟩
  · by_cases present : id.index < after.size
    · -- A record that is new is the variant itself, or the copy of a property.
      rcases varies.cases old present with rfl | ⟨source, member, repeats⟩
      · rw [varies.record_variant] at held
        -- The variant holds copies as its properties, no branches, no negation, and the rest of its
        -- container.
        cases place with
        | property => exact .inr ⟨rfl, held⟩
        | branch => exact absurd held List.not_mem_nil
        | negation => exact absurd held List.not_mem_nil
        | _ => exact .inl ⟨container, held⟩
      · rw [repeats.record] at held
        -- The copy of a property holds all but a negation.
        cases place with
        | negation => exact absurd held List.not_mem_nil
        | _ => exact .inl ⟨source, held⟩
    · rw [record_of_size_le (Nat.not_lt.mp present)] at held
      cases place <;> exact absurd held List.not_mem_nil

/-- The elements of a record after a variant has joined were elements before. -/
theorem Varies.hasElement (varies : before.Varies container origin copies after)
    (element : (after.record id).HasElement child) :
    ∃ source, (before.record source).HasElement child := by
  obtain ⟨place, isElement, held⟩ := Record.hasElement_iff.mp element
  rcases varies.mem_inside place held with ⟨source, held⟩ | ⟨rfl, -⟩
  · exact ⟨source, Record.hasElement_iff.mpr ⟨place, isElement, held⟩⟩
  · exact isElement.elim

/-- What an analysis goes on to after a variant has joined it did before, or it is a copy. -/
theorem Varies.leadsTo (varies : before.Varies container origin copies after)
    (leads : (after.record id).LeadsTo child) :
    (∃ source, (before.record source).LeadsTo child) ∨ child ∈ copies := by
  rcases Record.leadsTo_iff.mp leads with property | element
  · rcases varies.mem_inside .property property with ⟨source, held⟩ | ⟨-, copied⟩
    · exact .inl ⟨source, Record.leadsTo_of_mem held⟩
    · exact .inr copied
  · obtain ⟨source, element⟩ := varies.hasElement element
    exact .inl ⟨source, element.leadsTo⟩

/-- What stands in the places of a record after a property of another one has joined a third did so before. -/
theorem mem_inside_join (held : property ∈ (ledger.record parent).properties) (place : PlaceKind)
    (member : child ∈ ((ledger.update id fun record =>
      { record with properties := record.properties ++ [property] }).record other).inside place) :
    ∃ source, child ∈ (ledger.record source).inside place := by
  rw [record_update] at member
  -- Only the record that is joined holds something more, namely the property.
  split at member
  · cases place with
    | property =>
      rcases List.mem_append.mp member with earlier | new
      · exact ⟨id, earlier⟩
      · rw [List.mem_singleton.mp new]
        exact ⟨parent, held⟩
    | _ => exact ⟨id, member⟩
  · exact ⟨other, member⟩

/-- No other records are elements then. -/
theorem hasElement_join (held : property ∈ (ledger.record parent).properties)
    (element : ((ledger.update id fun record =>
      { record with properties := record.properties ++ [property] }).record other).HasElement child) :
    ∃ source, (ledger.record source).HasElement child := by
  obtain ⟨place, isElement, member⟩ := Record.hasElement_iff.mp element
  obtain ⟨source, member⟩ := mem_inside_join held place member
  exact ⟨source, Record.hasElement_iff.mpr ⟨place, isElement, member⟩⟩

/-- An analysis goes on to no other records then. -/
theorem leadsTo_join (held : property ∈ (ledger.record parent).properties)
    (leads : ((ledger.update id fun record =>
      { record with properties := record.properties ++ [property] }).record other).LeadsTo child) :
    ∃ source, (ledger.record source).LeadsTo child := by
  rcases Record.leadsTo_iff.mp leads with member | element
  · obtain ⟨source, member⟩ := mem_inside_join held .property member
    exact ⟨source, Record.leadsTo_of_mem member⟩
  · obtain ⟨source, element⟩ := hasElement_join held element
    exact ⟨source, element.leadsTo⟩

namespace Placed

/-- A variant that joins with its copies leaves all records in their places. -/
theorem vary (placed : before.Placed) (varies : before.Varies container origin copies after) :
    after.Placed where
  inRange := varies.inRange placed.inRange
  enclosed id place child held := by
    -- What stood in a place before is present in the larger ledger.
    rcases varies.mem_inside place held with ⟨source, held⟩ | ⟨-, copied⟩
    · exact Nat.lt_of_lt_of_le (placed.enclosed source place child held) varies.size_le
    · obtain ⟨source, -, repeats⟩ := varies.repeats child copied
      exact repeats.present
  single a b child place other held held' := by
    -- A copy is later than all records that stood in places before.
    have apart {place : PlaceKind} {source : RecordId}
        (held : child ∈ (before.record source).inside place) : child ∉ copies := by
      intro copied
      obtain ⟨source', -, repeats⟩ := varies.repeats child copied
      exact absurd (placed.enclosed source place child held) (Nat.not_lt.mpr repeats.late)
    -- A child is not held both as a new copy and as something from before.
    rcases varies.mem_inside place held with ⟨source, held⟩ | ⟨rfl, copied⟩
    · rcases varies.mem_inside other held' with ⟨source', held'⟩ | ⟨-, copied⟩
      · exact placed.single source source' child place other held held'
      · exact absurd copied (apart held)
    · rcases varies.mem_inside other held' with ⟨source', held'⟩ | ⟨rfl, -⟩
      · exact absurd copied (apart held')
      · rfl
  apart a b element property held held' := by
    -- An element was one before, since only properties are copied.
    obtain ⟨source, held⟩ := varies.hasElement held
    have present := placed.present held.leadsTo
    rw [varies.record element present]
    rcases varies.mem_inside .property held' with ⟨source', held'⟩ | ⟨-, copied⟩
    · rw [varies.record property (placed.enclosed source' .property property held')]
      exact placed.apart source source' element property held held'
    · -- A copy has a set of checks that was not there before.
      obtain ⟨source', -, repeats⟩ := varies.repeats property copied
      intro shared
      have old := placed.inRange element present
      rw [shared] at old
      exact absurd old (Nat.not_lt.mpr repeats.fresh)
  positive id child leads := by
    -- A child that was led to before is as it was, and a copy is positive like its source.
    rcases varies.leadsTo leads with ⟨source, leads⟩ | copied
    · rw [varies.record child (placed.present leads)]
      exact placed.positive source child leads
    · obtain ⟨source, member, repeats⟩ := varies.repeats child copied
      rw [repeats.record]
      exact placed.positive container source (Record.leadsTo_of_mem member)

/-- A property of one record may become one of another as well. -/
theorem join (placed : ledger.Placed) (held : property ∈ (ledger.record parent).properties) :
    (ledger.update id fun record =>
      { record with properties := record.properties ++ [property] }).Placed := by
  refine ⟨fun other present => ?_, fun a place child member => ?_,
    fun a b child place other member member' => ?_, fun a b element other member member' => ?_,
    fun a child leads => ?_⟩
  · -- The update changes properties, so that sets of checks are as before.
    rw [field_update Record.checks rfl]
    exact placed.inRange other (size_update ▸ present)
  · obtain ⟨b, member⟩ := mem_inside_join held place member
    rw [size_update]
    exact placed.enclosed b place child member
  · -- What lies inside the property that joins lay inside it before, in whichever record it was.
    obtain ⟨a', member⟩ := mem_inside_join held place member
    obtain ⟨b', member'⟩ := mem_inside_join held other member'
    exact placed.single a' b' child place other member member'
  · -- An element stays what it is, and a property is one of the same records as before.
    obtain ⟨a', member⟩ := hasElement_join held member
    obtain ⟨b', member'⟩ := mem_inside_join held .property member'
    rw [field_update Record.checks rfl, field_update Record.checks rfl]
    exact placed.apart a' b' element other member member'
  · rw [field_update Record.negationOf rfl]
    -- The property that joins was led to before, so it is positive.
    obtain ⟨b, leads⟩ := leadsTo_join held leads
    exact placed.positive b child leads

end Placed

end Ledger

end SchemaClasses
