import Mathlib.Data.List.Find
import SchemaClasses.Proofs.Survey.Refining
import SchemaClasses.Proofs.Survey.Sound

/-! The places of records inside others: what stands in a place goes on standing there, a survey of a
record stays under it, and a record that has lost its place is not reached again. -/

namespace SchemaClasses

/-- A kind of place that a record has inside another one. -/
inductive PlaceKind where
  | property
  | patternProperty
  | additional
  | items
  | branch
  | negation

namespace Record

/-- The records inside a record that stand in places of one kind. -/
def inside (record : Record) : PlaceKind → List RecordId
  | .property => record.properties
  | .patternProperty => record.patternProperties.map (·.record)
  | .additional => (record.additional.bind (·.record?)).toList
  | .items => record.items.toList
  | .branch => record.oneOf
  | .negation => record.negation.toList

variable {record merged : Record} {child : RecordId} {place other : PlaceKind}

/-- What lies inside a record stands in a place of some kind. -/
theorem mem_children_iff : child ∈ record.children ↔ ∃ place, child ∈ record.inside place := by
  constructor
  · -- The places are the six kinds, in the order in which the children are listed.
    intro member
    simp only [children, List.mem_append] at member
    rcases member with ((((member | member) | member) | member) | member) | member
    · exact ⟨.property, member⟩
    · exact ⟨.patternProperty, member⟩
    · exact ⟨.additional, member⟩
    · exact ⟨.items, member⟩
    · exact ⟨.branch, member⟩
    · exact ⟨.negation, member⟩
  · rintro ⟨place, member⟩
    simp only [children, List.mem_append]
    cases place <;> simp only [inside] at member <;> simp only [member, true_or, or_true]

/-- A record that lies inside another one only once stands in a place of one kind. -/
theorem place_eq (nodup : record.children.Nodup) (member : child ∈ record.inside place)
    (member' : child ∈ record.inside other) : place = other := by
  have once : record.children.count child ≤ 1 := List.nodup_iff_count.mp nodup child
  have first := List.count_pos_iff.mpr member
  have second := List.count_pos_iff.mpr member'
  simp only [children, List.count_append] at once
  -- Two places of different kinds would count the record twice.
  cases place <;> cases other <;> simp only [inside] at first second <;> first | rfl | omega

variable {tree : SchemaTree}

/-- What is stated in a record puts no other record into its places. -/
theorem Restated.inside_subset (restated : record.Restated tree merged) (place : PlaceKind) :
    merged.inside place ⊆ record.inside place := by
  -- Only the place of additional properties may be emptied.
  have emptied (additional : AdditionalProperties) (none : additional.record? = Option.none) :
      { record with additional := some additional }.inside place ⊆ record.inside place := by
    cases place with
    | additional => simp [inside, none]
    | _ => exact List.Subset.refl _
  -- All else that is stated leaves the places alone.
  cases restated with
  | keyword absorbed =>
    rw [← restate_absorb absorbed]
    cases place <;> exact List.Subset.refl _
  | forbidden => exact emptied .forbidden rfl
  | allowed _ => exact emptied .allowed rfl
  | _ => cases place <;> exact List.Subset.refl _

end Record

namespace Slot

variable {slot : Slot} {ledger : Ledger} {id child : RecordId} {tree : SchemaTree}

/-- A record put into a place stands there, beside those that did before. -/
theorem mem_inside_fill {record : Record} {link : RecordId} {place : PlaceKind}
    (member : link ∈ (slot.fill child record).inside place) :
    link = child ∨ link ∈ record.inside place := by
  -- Only the places of the slot's own kind have changed.
  cases slot with
  | property name =>
    cases place with
    | property => simpa [fill, Record.inside, or_comm] using member
    | _ => exact .inr member
  | patternProperty pattern =>
    cases place with
    | patternProperty =>
      simp only [fill, Record.inside, List.map_append, List.mem_append] at member
      exact member.symm.imp_left List.mem_singleton.mp
    | _ => exact .inr member
  | additional =>
    cases place with
    | additional => exact .inl (List.mem_singleton.mp member)
    | _ => exact .inr member
  | items =>
    cases place with
    | items => exact .inl (List.mem_singleton.mp member)
    | _ => exact .inr member

/-- The record that stands in a place. -/
def held? (ledger : Ledger) (id : RecordId) : Slot → Option RecordId
  | property name => ledger.property? id name
  | patternProperty pattern =>
    ((ledger.record id).patternProperties.find? fun entry => entry.pattern == pattern).map (·.record)
  | additional => (ledger.record id).additional.bind (·.record?)
  | items => (ledger.record id).items

/-- A place is free if no record stands in it. -/
theorem isFree_iff : slot.IsFree ledger id ↔ slot.held? ledger id = none := by
  cases slot with
  | property name => exact Iff.rfl
  | patternProperty pattern => simp [IsFree, held?]
  | additional =>
    cases held : (ledger.record id).additional with
    | none => simp [IsFree, held?, held]
    | some additional => cases additional <;> simp [IsFree, held?, held, AdditionalProperties.record?]
  | items => exact Iff.rfl

/-- A place in which a record stands lies inside the record around it. -/
theorem mem_children_of_held? (held : slot.held? ledger id = some child) :
    child ∈ (ledger.record id).children := by
  rw [Record.mem_children_iff]
  -- Each lookup finds a member of the list it looks at.
  cases slot with
  | property name => exact ⟨.property, List.mem_of_find?_eq_some held⟩
  | patternProperty pattern =>
    obtain ⟨entry, found, same⟩ := Option.map_eq_some_iff.mp held
    exact ⟨.patternProperty, List.mem_map.mpr ⟨entry, List.mem_of_find?_eq_some found, same⟩⟩
  | additional => exact ⟨.additional, Option.mem_toList.mpr held⟩
  | items => exact ⟨.items, Option.mem_toList.mpr held⟩

/-- Properties that join at the end are looked up after those that were there. -/
theorem property?_of_append {later : Ledger} {name : String} {rest : List RecordId}
    (grown : (later.record id).properties = (ledger.record id).properties ++ rest)
    (named : ∀ property ∈ (ledger.record id).properties,
      (later.record property).name = (ledger.record property).name) :
    later.property? id name = (ledger.property? id name).or
      (rest.find? fun property => (later.record property).name == some name) := by
  unfold Ledger.property?
  -- Names did not change, so the first part of the lookup is the one from before.
  rw [grown, List.find?_append]
  congr 1
  exact List.find?_congr fun property member => by rw [named property member]

/-- A record goes on standing in its place, unless additional properties become forbidden. -/
theorem held?_of_refines {later : Ledger} (refines : ledger.Refines tree later)
    (forest : ledger.Forest) (present : id.index < ledger.size)
    (held : slot.held? ledger id = some child) :
    slot.held? later id = some child ∨
      slot = additional ∧ (later.record id).additional = some .forbidden := by
  have refined := refines.record id present
  cases slot with
  | property name =>
    refine .inl ?_
    -- The properties that were there come first and have kept their names.
    obtain ⟨rest, grown⟩ := refined.lists.properties
    have named (property : RecordId) (member : property ∈ (ledger.record id).properties) :
        (later.record property).name = (ledger.record property).name := by
      have inside := forest.inside id property (Record.mem_children.mpr (.inl member))
      exact (refines.record property inside.2).origin.name
    have held : ledger.property? id name = some child := held
    show later.property? id name = some child
    rw [property?_of_append grown.symm named, held, Option.some_or]
  | patternProperty pattern =>
    refine .inl ?_
    -- Patterns that were there come first, so the same one is found.
    obtain ⟨rest, grown⟩ := refined.lists.patternProperties
    obtain ⟨entry, found, same⟩ := Option.map_eq_some_iff.mp held
    simp only [held?, ← grown, List.find?_append, found, Option.some_or, Option.map_some, same]
  | additional =>
    -- A schema stands in the place of additional properties.
    have before : (ledger.record id).additional = some (.schema child) := by
      cases stands : (ledger.record id).additional with
      | none => simp [held?, stands] at held
      | some additional =>
        cases additional <;> simp_all [held?, AdditionalProperties.record?]
    have rises := refined.additional
    rw [before] at rises
    have rank := rises.rank_le
    -- Its rank has not gone down, so it is a schema still or forbids.
    cases after : (later.record id).additional with
    | none => simp [after, AdditionalProperties.rank] at rank
    | some additional =>
      cases additional with
      | allowed => simp [after, AdditionalProperties.rank] at rank
      | forbidden => exact .inr ⟨rfl, rfl⟩
      | schema kept =>
        refine .inl ?_
        rw [rises.same child kept rfl after] at after
        simp [held?, after, AdditionalProperties.record?]
  | items => exact .inl (refined.items child held)

/-- A record that is made for a free place stands in it. -/
theorem held?_attach (free : slot.IsFree ledger id) (forest : ledger.Forest)
    (present : id.index < ledger.size) (schema : SchemaId) :
    slot.held? ((ledger.create (some schema) slot.name?).2.update id (slot.fill ⟨ledger.size⟩)) id =
      some ⟨ledger.size⟩ := by
  -- The ledger behind both changes is given a name.
  obtain ⟨later, grown⟩ : ∃ later : Ledger,
      (ledger.create (some schema) slot.name?).2.update id (slot.fill ⟨ledger.size⟩) = later :=
    ⟨_, rfl⟩
  have filled : later.record id = slot.fill ⟨ledger.size⟩ (ledger.record id) := by
    rw [← grown, Ledger.record_update_self (by simpa using Nat.lt_succ_of_lt present),
      Ledger.record_create_of_lt present]
  rw [grown]
  cases slot with
  | property name =>
    -- The names are those of the ledger in which the record was made.
    have kept (other : RecordId) : (later.record other).name =
        ((ledger.create (some schema) (some name)).2.record other).name := by
      rw [← grown]
      exact Ledger.field_update Record.name rfl
    have named (property : RecordId) (member : property ∈ (ledger.record id).properties) :
        (later.record property).name = (ledger.record property).name := by
      have inside := forest.inside id property (Record.mem_children.mpr (.inl member))
      rw [kept, Ledger.record_create_of_lt inside.2]
    have newest : (later.record ⟨ledger.size⟩).name = some name := by
      rw [kept, Ledger.record_create, if_pos rfl]
      rfl
    have free : ledger.property? id name = none := free
    show later.property? id name = some ⟨ledger.size⟩
    -- No earlier property has the name, so the lookup goes on to the new one.
    rw [property?_of_append (by rw [filled]; rfl) named, free, Option.none_or]
    simp [newest]
  | patternProperty pattern =>
    -- No earlier pattern is the same.
    have before : (ledger.record id).patternProperties.find?
        (fun entry => entry.pattern == pattern) = none := by
      rw [List.find?_eq_none]
      intro entry member
      simpa using free entry member
    simp only [held?, filled]
    simp [fill, before]
  | additional =>
    simp only [held?, filled]
    simp [fill, AdditionalProperties.record?]
  | items =>
    simp only [held?, filled]
    simp [fill]

end Slot

namespace Ledger

variable {ledger : Ledger} {id : RecordId} {schema : SchemaId}

/-- The record in a place, made for a schema on first use. -/
def provide (ledger : Ledger) (id : RecordId) (slot : Slot) (schema : SchemaId) :
    RecordId × Ledger :=
  match slot.held? ledger id with
  | some child => (child, ledger)
  | none =>
    (⟨ledger.size⟩, (ledger.create (some schema) slot.name?).2.update id (slot.fill ⟨ledger.size⟩))

theorem property_eq_provide (name : String) :
    ledger.property id name schema = ledger.provide id (.property name) schema := by
  cases held : ledger.property? id name with
  | none =>
    simp only [property, provide, Slot.held?, held]
    rfl
  | some property => simp only [Ledger.property, provide, Slot.held?, held]

theorem patternProperty_eq_provide (pattern : String) :
    ledger.patternProperty id pattern schema =
      ledger.provide id (.patternProperty pattern) schema := by
  -- The lookup of the pattern decides both functions.
  cases held : (ledger.record id).patternProperties.find? fun entry => entry.pattern == pattern with
  | none =>
    simp only [patternProperty, provide, Slot.held?, held]
    rfl
  | some entry =>
    simp only [patternProperty, provide, Slot.held?, held]
    rfl

theorem items_eq_provide : ledger.items id schema = ledger.provide id .items schema := by
  cases held : (ledger.record id).items with
  | none =>
    simp only [items, provide, Slot.held?, held]
    rfl
  | some items => simp only [Ledger.items, provide, Slot.held?, held]

/-- The record that says what another one must not be: its negation, or the one that it negates. -/
def mirror? (ledger : Ledger) (id : RecordId) : Option RecordId :=
  (ledger.record id).negationOf <|> (ledger.record id).negation

/-- A negation that is there is used again. -/
theorem negation_of_mirror? {mirror : RecordId} (held : ledger.mirror? id = some mirror) :
    ledger.negation id = (mirror, ledger) := by
  unfold mirror? at held
  unfold negation
  -- A record is positive or a negation, which tells where its mirror is.
  cases origin : (ledger.record id).negationOf with
  | some positive =>
    rw [origin] at held
    cases held
    simp only [origin]
  | none =>
    rw [origin] at held
    have negation : (ledger.record id).negation = some mirror := held
    simp only [origin, negation]

/-- A record without a mirror neither has a negation nor is one. -/
theorem mirror?_eq_none :
    ledger.mirror? id = none ↔
      (ledger.record id).negationOf = none ∧ (ledger.record id).negation = none := by
  unfold mirror?
  cases (ledger.record id).negationOf <;> simp

/-- A mirror stays. -/
theorem mirror?_of_refines {tree : SchemaTree} {later : Ledger} {mirror : RecordId}
    (refines : ledger.Refines tree later) (present : id.index < ledger.size)
    (held : ledger.mirror? id = some mirror) : later.mirror? id = some mirror := by
  have refined := refines.record id present
  unfold mirror? at *
  rw [refined.origin.negationOf]
  -- The side of a record never changes.
  cases origin : (ledger.record id).negationOf with
  | some positive =>
    rw [origin] at held
    exact held
  | none =>
    rw [origin] at held
    exact refined.negation mirror held

/-- Whether a record has a branch for a schema. -/
def hasBranch (ledger : Ledger) (id : RecordId) (branch : SchemaId) : Bool :=
  (ledger.record id).oneOf.any fun known => (ledger.record known).schema == some branch

/-- A branch stays where it is. -/
theorem hasBranch_of_refines {tree : SchemaTree} {before after : Ledger} {id : RecordId}
    {branch : SchemaId} (refines : before.Refines tree after) (forest : before.Forest)
    (present : id.index < before.size) (known : before.hasBranch id branch) :
    after.hasBranch id branch := by
  -- The branch that was listed is listed still.
  obtain ⟨record, member, made⟩ := List.any_eq_true.mp known
  have inside := (forest.inside id record
    (Record.mem_children_iff.mpr ⟨.branch, member⟩)).2
  refine List.any_eq_true.mpr
    ⟨record, (refines.record id present).lists.oneOf.subset member, ?_⟩
  -- It was made for the same schema.
  rw [(refines.record record inside).origin.schema]
  exact made

end Ledger

namespace Survey

/-- A stage of a survey within a region of a ledger: it acts on records of the region alone, to which
all new ones belong; nothing leads out of it, no old record gets another place, and what lies outside
is as it was. -/
structure Stage.Within (base : Ledger) (region : Set RecordId) (stage : Stage) : Prop where
  size_le : base.size ≤ stage.ledger.size
  fresh : ∀ id : RecordId, base.size ≤ id.index → id ∈ region
  known : ∀ id ∈ stage.known, id ∈ region
  pending : ∀ entry ∈ stage.pending, base.size ≤ entry.2.index
  links : ∀ id ∈ region, ∀ link ∈ (stage.ledger.record id).links, link ∈ region
  held : ∀ (parent : RecordId) (place : PlaceKind) (child : RecordId), child.index < base.size →
    child ∈ (stage.ledger.record parent).inside place → child ∈ (base.record parent).inside place
  kept : ∀ id ∉ region, stage.ledger.record id = base.record id

namespace Stage.Within

variable {base grown : Ledger} {region : Set RecordId} {stage : Stage}

/-- A record of the region changes, as long as only new records get into its places. -/
theorem update (within : stage.Within base region) {id : RecordId} {change : Record → Record}
    (acts : id ∈ region)
    (places : ∀ place, ∀ child ∈ (change (stage.ledger.record id)).inside place,
      base.size ≤ child.index ∨ child ∈ (stage.ledger.record id).inside place)
    (origin : (change (stage.ledger.record id)).negationOf =
      (stage.ledger.record id).negationOf) :
    Stage.Within base region { stage with ledger := stage.ledger.update id change } where
  size_le := by simpa using within.size_le
  fresh := within.fresh
  known := within.known
  pending := within.pending
  links other inRegion link member := by
    -- For the record that changes, links are new or were there.
    rw [Ledger.record_update] at member
    split at member
    · rw [Record.mem_links, Record.mem_children_iff, origin] at member
      rcases member with ⟨place, stands⟩ | positive
      · rcases places place link stands with new | old
        · exact within.fresh link new
        · exact within.links id acts link
            (Record.mem_links.mpr (.inl (Record.mem_children_iff.mpr ⟨place, old⟩)))
      · exact within.links id acts link (Record.mem_links.mpr (.inr positive))
    · exact within.links other inRegion link member
  -- What was there before has stayed in its place.
  held parent place child old member := by
    rw [Ledger.record_update] at member
    split at member
    · rename_i same
      rw [same.1]
      rcases places place child member with new | held
      · omega
      · exact within.held id place child old held
    · exact within.held parent place child old member
  -- Records outside are not the one that changes.
  kept other outside := by
    have apart : other ≠ id := fun same => outside (same ▸ acts)
    rw [Ledger.record_update_of_ne apart]
    exact within.kept other outside

/-- A record joins the ledger with nothing in its places. -/
theorem push (within : stage.Within base region) {added : Record} (barren : added.children = [])
    (origin : ∀ positive, added.negationOf = some positive → positive ∈ region)
    (size : grown.size = stage.ledger.size + 1)
    (records : ∀ id, grown.record id =
      if id = ⟨stage.ledger.size⟩ then added else stage.ledger.record id) :
    Stage.Within base region
      { stage with known := insert ⟨stage.ledger.size⟩ stage.known, ledger := grown } where
  size_le := by
    have := within.size_le
    simp only [size]
    omega
  fresh := within.fresh
  -- The record that is known from now on is the new one.
  known other member := by
    rcases Set.mem_insert_iff.mp member with rfl | member
    · exact within.fresh _ within.size_le
    · exact within.known other member
  pending := within.pending
  links other inRegion link member := by
    simp only [records] at member
    split at member
    · -- Links of the new record can only lead to what it negates.
      rw [Record.mem_links, barren] at member
      exact origin link (member.resolve_left List.not_mem_nil)
    · exact within.links other inRegion link member
  held parent place child old member := by
    simp only [records] at member
    split at member
    · -- Nothing stands in a place of the new record.
      have inside : child ∈ added.children := Record.mem_children_iff.mpr ⟨place, member⟩
      rw [barren] at inside
      cases inside
    · exact within.held parent place child old member
  kept other outside := by
    -- The new record belongs to the region, unlike the one that is asked for.
    have apart : other ≠ ⟨stage.ledger.size⟩ := by
      rintro rfl
      exact outside (within.fresh _ within.size_le)
    simp only [records, if_neg apart]
    exact within.kept other outside

end Stage.Within

variable {tree : SchemaTree} {base : Ledger} {region : Set RecordId} {stage next : Stage}

/-- A step within a region stays within it. -/
theorem Step.within (taken : Step tree stage next) (within : stage.Within base region) :
    next.Within base region := by
  -- To make a record is to add one that holds nothing.
  have created (schema : SchemaId) (name : Option String) :
      Stage.Within base region
        { stage with
          known := insert ⟨stage.ledger.size⟩ stage.known
          ledger := (stage.ledger.create (some schema) name).2 } :=
    within.push (by simp [Ledger.fresh, Record.children]) (fun _ none => by cases none)
      Ledger.size_create fun _ => Ledger.record_create
  -- What is new lies in the region, since its number is that of no record of the base.
  cases taken with
  | @learn id link acts linked =>
    refine { within with known := fun other member => ?_ }
    rcases Set.mem_insert_iff.mp member with rfl | member
    · -- The link leads from a known record, hence into the region.
      exact within.links id (within.known id acts) _ linked
    · exact within.known other member
  | restate acts restated =>
    exact within.update (within.known _ acts)
      (fun place child member => .inr (restated.inside_subset place member))
      restated.sameOrigin.negationOf
  | attach acts schema free =>
    refine (created schema _).update (within.known _ acts) (fun place child member => ?_)
      Slot.sameOrigin_fill.negationOf
    -- The place is filled with the new record or holds what it held.
    rcases Slot.mem_inside_fill member with rfl | held
    · exact .inl within.size_le
    · exact .inr held
  | @negate id acts positive unset =>
    have barren : (stage.ledger.negative id).children = [] := by
      simp [Ledger.negative, Record.children]
    have pushed := within.push barren
      -- The negation leads to its record, which is known.
      (fun origin same => by
        obtain rfl := Option.some.inj same
        exact within.known _ acts)
      Ledger.size_push fun _ => Ledger.record_push
    rw [Ledger.negation_of_unset positive unset]
    refine pushed.update (within.known _ acts) (fun place child member => ?_) rfl
    -- Only the place of negations is filled.
    cases place with
    | negation =>
      obtain rfl : child = ⟨stage.ledger.size⟩ := by simpa [Record.inside] using member
      exact .inl within.size_le
    | _ => exact .inr member
  | openBranch acts schema =>
    refine { created schema none with pending := fun entry member => ?_ }
    -- The branch that was opened last is the new record.
    rcases List.mem_cons.mp member with rfl | member
    · exact within.size_le
    · exact within.pending entry member
  | @linkBranch id branch rest acts latest =>
    have updated : Stage.Within base region
        { stage with
          ledger := stage.ledger.update id fun held =>
            { held with oneOf := held.oneOf ++ [branch] } } := by
      refine within.update (within.known _ acts) (fun place child member => ?_) rfl
      cases place with
      | branch =>
        -- The branch that is linked was pending.
        rcases List.mem_append.mp member with held | new
        · exact .inr held
        · rw [List.mem_singleton.mp new]
          exact .inl (within.pending (id, branch) (latest ▸ List.mem_cons_self))
      | _ => exact .inr member
    exact { updated with
      pending := fun entry member =>
        within.pending entry (latest ▸ List.mem_cons_of_mem _ member) }

/-- Any number of steps within a region stay within it. -/
theorem Steps.within (taken : Steps tree stage next) (within : stage.Within base region) :
    next.Within base region := by
  induction taken with
  | refl => exact within
  | tail _ last ih => exact last.within ih

end Survey

namespace Ledger

/-- A later ledger of a survey: all records are refined, and an old record stands at most where it
stood before. -/
structure Descends (tree : SchemaTree) (before after : Ledger) : Prop where
  refines : before.Refines tree after
  held : ∀ (parent : RecordId) (place : PlaceKind) (child : RecordId), child.index < before.size →
    child ∈ (after.record parent).inside place → child ∈ (before.record parent).inside place
  sound : before.Sound → after.Sound

variable {tree : SchemaTree} {a b c ledger later : Ledger} {id other : RecordId}

theorem Descends.trans (first : Descends tree a b) (second : Descends tree b c) :
    Descends tree a c where
  refines := first.refines.trans second.refines
  held parent place child old member :=
    first.held parent place child old
      (second.held parent place child (Nat.lt_of_lt_of_le old first.refines.size_le) member)
  sound sound := second.sound (first.sound sound)

/-- The records that lie under a record, at any depth. -/
def under (ledger : Ledger) (top : RecordId) : Set RecordId :=
  { id | Relation.ReflTransGen (fun parent child => child ∈ (ledger.record parent).children) top id }

/-- What lies under a record does not come before it. -/
theorem le_of_mem_under (forest : ledger.Forest) (below : other ∈ ledger.under id) :
    id.index ≤ other.index := by
  induction below with
  | refl => exact Nat.le_refl _
  | tail _ child ih => exact Nat.le_trans ih (forest.inside _ _ child).1.le

/-- Nothing but the record itself lies under one with nothing inside. -/
theorem eq_of_mem_under (childless : (ledger.record id).children = [])
    (below : other ∈ ledger.under id) : other = id := by
  rcases Relation.ReflTransGen.cases_head below with same | ⟨child, inside, -⟩
  · exact same.symm
  · rw [childless] at inside
    cases inside

/-- No link leads away from what lies under a record that is no negation. -/
theorem links_subset_under (sound : ledger.Sound) (positive : (ledger.record id).negationOf = none)
    (below : other ∈ ledger.under id) {link : RecordId}
    (linked : link ∈ (ledger.record other).links) : link ∈ ledger.under id := by
  rcases Record.mem_links.mp linked with child | origin
  · exact below.tail child
  · -- A negation lies inside the record that it negates, and only there.
    have mirrored := (sound.owned.mirror link other).mpr origin
    have inside : other ∈ (ledger.record link).children :=
      Record.mem_children.mpr (.inr (.inr (.inr (.inr (.inr mirrored)))))
    -- The record at the top is no negation, so it has a parent below the top.
    cases below with
    | refl =>
      rw [positive] at origin
      cases origin
    | tail above child =>
      obtain rfl := sound.forest.single _ _ _ child inside
      exact above

/-- A record that stands for additional properties is no negation. -/
theorem negationOf_additional (sound : ledger.Sound)
    (stands : (ledger.record id).additional = some (.schema other)) :
    (ledger.record other).negationOf = none := by
  cases origin : (ledger.record other).negationOf with
  | none => rfl
  | some positive =>
    -- It would stand for additional properties and for a negation at once.
    have here : other ∈ (ledger.record id).inside .additional := by
      simp [Record.inside, stands, AdditionalProperties.record?]
    have there : other ∈ (ledger.record positive).inside .negation := by
      simp [Record.inside, (sound.owned.mirror positive other).mpr origin]
    -- It would stand in two places of one record.
    obtain rfl := sound.forest.single _ _ _ (Record.mem_children_iff.mpr ⟨_, here⟩)
      (Record.mem_children_iff.mpr ⟨_, there⟩)
    cases Record.place_eq (sound.forest.nodup id) here there

/-- What lay under the record for additional properties does not lie under any record before it once
they are forbidden. -/
theorem not_mem_under_of_forbidden {inner top : RecordId} (sound : ledger.Sound)
    (descends : ledger.Descends tree later) (present : id.index < ledger.size)
    (stands : (ledger.record id).additional = some (.schema inner))
    (forbidden : (later.record id).additional = some .forbidden) (before : top.index ≤ id.index)
    (lies : other ∈ ledger.under inner) : other ∉ later.under top := by
  have here : inner ∈ (ledger.record id).inside .additional := by
    simp [Record.inside, stands, AdditionalProperties.record?]
  have child := Record.mem_children_iff.mpr ⟨_, here⟩
  have after := (sound.forest.inside id inner child).1
  intro below
  -- On the way down from the top, the first record of the lost ones had another place before.
  induction below with
  | refl =>
    have := le_of_mem_under sound.forest lies
    omega
  | @tail parent other _ placed ih =>
    obtain ⟨place, placed⟩ := Record.mem_children_iff.mp placed
    cases lies with
    | refl =>
      -- It was in this place before, so the parent is the record at hand.
      have old := descends.held parent place inner (sound.forest.inside id inner child).2 placed
      obtain rfl := sound.forest.single _ _ _ (Record.mem_children_iff.mpr ⟨place, old⟩) child
      obtain rfl := Record.place_eq (sound.forest.nodup parent) old here
      simp [Record.inside, forbidden, AdditionalProperties.record?] at placed
    | tail above child' =>
      -- All further down stood where they stand now.
      have old := descends.held parent place other (sound.forest.inside _ other child').2 placed
      obtain rfl := sound.forest.single _ _ _ (Record.mem_children_iff.mpr ⟨place, old⟩) child'
      exact ih above

end Ledger

namespace Survey

variable {tree : SchemaTree} {part : Surveying Unit} {id : RecordId} {survey last : Survey}

/-- A part of a survey that starts at one record of a sound ledger. -/
theorem Stage.sound_single (sound : survey.ledger.Sound) (present : id.index < survey.ledger.size) :
    Stage.Sound ⟨{id}, [], survey.ledger⟩ where
  ledger := sound
  known other member := by
    obtain rfl := Set.mem_singleton_iff.mp member
    exact present
  pending entry member := absurd member List.not_mem_nil
  apart := List.nodup_nil

end Survey

namespace Ledger.Sound

open Survey

variable {ledger : Ledger} {id : RecordId}

/-- A ledger in which a free place was filled is sound. -/
theorem attach (sound : ledger.Sound) (present : id.index < ledger.size) {slot : Slot}
    (free : slot.IsFree ledger id) (schema : SchemaId) :
    ((ledger.create (some schema) slot.name?).2.update id (slot.fill ⟨ledger.size⟩)).Sound := by
  have step : Step {} ⟨{id}, [], ledger⟩ _ := .attach (Set.mem_singleton id) schema free
  exact (step.sound (@Stage.sound_single id { ledger } sound present)).1.ledger

end Ledger.Sound

namespace Survey

variable {tree : SchemaTree} {part : Surveying Unit} {id : RecordId} {survey last : Survey}

/-- A part of a survey leads to a later ledger. -/
theorem Works.descends (works : Works tree id part) (refining : Refining tree part)
    (sound : survey.ledger.Sound) (present : id.index < survey.ledger.size)
    (ran : part survey = .ok () last) : survey.ledger.Descends tree last.ledger := by
  have refines := refining survey
  unfold lastState at refines
  rw [ran] at refines
  obtain ⟨known, -, steps⟩ :=
    (works survey ⟨{id}, [], survey.ledger⟩ rfl (Set.mem_singleton id)).of_ok ran
  -- Any record may be reached from here, so the region is not limited.
  have within : Stage.Within survey.ledger Set.univ ⟨{id}, [], survey.ledger⟩ := {
    size_le := Nat.le_refl _
    fresh := fun _ _ => trivial
    known := fun _ _ => trivial
    pending := fun _ member => absurd member List.not_mem_nil
    links := fun _ _ _ _ => trivial
    held := fun _ _ _ _ member => member
    kept := fun _ outside => absurd trivial outside }
  exact {
    refines := refines.ledger
    held := (steps.within within).held
    sound := fun _ => (steps.sound (Stage.sound_single sound present)).1.ledger }

/-- A part of a survey that acts on a record under a top changes only what lies there and what is
new. -/
theorem Works.record_eq {top : RecordId} (works : Works tree id part) (sound : survey.ledger.Sound)
    (positive : (survey.ledger.record top).negationOf = none) (below : id ∈ survey.ledger.under top)
    (ran : part survey = .ok () last) {other : RecordId}
    (present : other.index < survey.ledger.size) (outside : other ∉ survey.ledger.under top) :
    last.ledger.record other = survey.ledger.record other := by
  obtain ⟨known, -, steps⟩ :=
    (works survey ⟨{id}, [], survey.ledger⟩ rfl (Set.mem_singleton id)).of_ok ran
  have within : Stage.Within survey.ledger
      (survey.ledger.under top ∪ { new | survey.ledger.size ≤ new.index })
      ⟨{id}, [], survey.ledger⟩ := {
    size_le := Nat.le_refl _
    fresh := fun _ new => .inr new
    known := fun other member => by
      -- The part knows one record to begin with, the one that it acts on.
      obtain rfl := Set.mem_singleton_iff.mp member
      exact .inl below
    pending := fun _ member => absurd member List.not_mem_nil
    links := fun other inRegion link member => by
      -- A link leads on under the top, or it leads from a new record.
      rcases inRegion with below | new
      · exact .inl (Ledger.links_subset_under sound positive below member)
      · -- There is no record yet that could lead anywhere.
        rw [Ledger.record_of_size_le new] at member
        cases member
    held := fun _ _ _ _ member => member
    kept := fun _ _ => rfl }
  refine (steps.within within).kept other ?_
  -- The other record neither lies under the top nor is it new.
  rintro (below | new)
  · exact outside below
  · exact absurd present (Nat.not_lt.mpr new)

/-- A part of a survey that acts on a record that leads nowhere changes no other record. -/
theorem Works.record_eq_of_childless (works : Works tree id part) (sound : survey.ledger.Sound)
    (childless : (survey.ledger.record id).links = []) (ran : part survey = .ok () last)
    {other : RecordId} (present : other.index < survey.ledger.size) (apart : other ≠ id) :
    last.ledger.record other = survey.ledger.record other := by
  obtain ⟨children, origin⟩ := List.append_eq_nil_iff.mp childless
  refine works.record_eq sound (Option.toList_eq_nil_iff.mp origin) .refl ran present
    fun below => apart ?_
  exact Ledger.eq_of_mem_under children below

/-- A part of a survey that acts on a record that was just made for a schema changes no other record,
and the record stays one for the schema. -/
theorem Works.of_create {schema : SchemaId} (works : Works tree ⟨survey.ledger.size⟩ part)
    (refining : Refining tree part) (sound : survey.ledger.Sound)
    (ran : part { survey with ledger := (survey.ledger.create (some schema) none).2 } =
      .ok () last) :
    survey.ledger.size < last.ledger.size ∧ last.ledger.Sound ∧
      (last.ledger.record ⟨survey.ledger.size⟩).schema = some schema ∧
      ∀ other : RecordId, other.index < survey.ledger.size →
        last.ledger.record other = survey.ledger.record other := by
  -- The survey with the new record is given a name.
  obtain ⟨start, same⟩ : ∃ start : Survey,
      { survey with ledger := (survey.ledger.create (some schema) none).2 } = start := ⟨_, rfl⟩
  have created : (survey.ledger.create (some schema) none).2 = start.ledger := by rw [← same]
  have sound : start.ledger.Sound := created ▸ (sound.create schema none).1
  have newest : start.ledger.record ⟨survey.ledger.size⟩ = survey.ledger.fresh (some schema) none := by
    rw [← created, Ledger.record_create, if_pos rfl]
  -- Making the record changes no other.
  have kept (other : RecordId) (there : other.index < survey.ledger.size) :
      start.ledger.record other = survey.ledger.record other := by
    rw [← created, Ledger.record_create_of_lt there]
  have inside : survey.ledger.size < start.ledger.size := by
    rw [← created, Ledger.size_create]
    exact Nat.lt_succ_self _
  rw [same] at ran
  -- The new record has no links yet, so nothing else can be reached from it.
  have alone : (start.ledger.record ⟨survey.ledger.size⟩).links = [] := by
    rw [newest]
    rfl
  have descends := works.descends refining sound inside ran
  refine ⟨Nat.lt_of_lt_of_le inside descends.refines.size_le, descends.sound sound, ?_,
    fun other there => ?_⟩
  · -- The origin of the record is kept by the part.
    rw [(descends.refines.record ⟨survey.ledger.size⟩ inside).origin.schema, newest]
    rfl
  · -- The other record cannot be reached, so it is as it was.
    rw [← kept other there]
    exact works.record_eq_of_childless sound alone ran (Nat.lt_trans there inside)
      (RecordId.ne_next there)

/-- A record for a branch that has none yet. -/
def addBranch (visit : SchemaId → RecordId → Surveying Unit) (id : RecordId) (branch : SchemaId) :
    Surveying Unit := do
  let ledger := (← get).ledger
  unless (ledger.record id).oneOf.any fun known => (ledger.record known).schema == some branch do
    let record ← onLedger (·.create (some branch) none)
    visit branch record
    update id fun held => { held with oneOf := held.oneOf ++ [record] }

/-- A branch that is known is left alone, and another one gets a record that is linked in the end. -/
theorem addBranch_eq {visit : SchemaId → RecordId → Surveying Unit} {branch : SchemaId} :
    addBranch visit id branch survey =
      (if survey.ledger.hasBranch id branch then .ok () survey
      else (do
        let record ← onLedger (·.create (some branch) none)
        visit branch record
        update id fun held => { held with oneOf := held.oneOf ++ [record] } : Surveying Unit)
          survey) := by
  show (if survey.ledger.hasBranch id branch then pure () else _ : Surveying Unit) survey = _
  -- The two sides test the same.
  split <;> rfl

theorem works_addBranch {visit : SchemaId → RecordId → Surveying Unit} {branch : SchemaId}
    (visits : ∀ schema record, Works tree record (visit schema record)) :
    Works tree id (addBranch visit id branch) := by
  have works : Works tree id (addBranches visit id [branch]) := works_addBranches visits
  have works : Works tree id (addBranch visit id branch >>= pure) := works
  rwa [bind_pure] at works

theorem refining_addBranch {visit : SchemaId → RecordId → Surveying Unit} {branch : SchemaId}
    (visits : ∀ schema record, Refining tree (visit schema record)) :
    Refining tree (addBranch visit id branch) := by
  have refining : Refining tree (addBranch visit id branch >>= pure) :=
    refining_addBranches visits id [branch]
  rwa [bind_pure] at refining

end Survey

end SchemaClasses
