import SchemaClasses.Proofs.Survey.Forest
import SchemaClasses.Proofs.Survey.Outline

/-! Records that are sound: a forest whose properties have names of their own. -/

namespace SchemaClasses

/-! The properties of a record have names, and no two of them have the same one. -/

namespace Record

variable {tree : SchemaTree} {record merged : Record}

/-- What is stated in a record does not touch its properties. -/
theorem Restated.properties_eq (restated : record.Restated tree merged) :
    merged.properties = record.properties := by
  cases restated with
  -- A keyword restates a record of its own, which has the properties of the old one.
  | keyword absorbed =>
    rw [← restate_absorb absorbed]
    rfl
  | _ => rfl

end Record

namespace Ledger

variable {ledger before after grown : Ledger} {id source : RecordId}

/-- The names of the properties of a record. -/
def names (ledger : Ledger) (id : RecordId) : List (Option String) :=
  (ledger.record id).properties.map ledger.name

/-- A record with the same properties, none of them renamed, has the same names. -/
theorem names_congr (properties : (after.record id).properties = (before.record id).properties)
    (kept : ∀ property ∈ (before.record id).properties, after.name property = before.name property) :
    after.names id = before.names id := by
  unfold names
  rw [properties]
  exact List.map_congr_left kept

/-- A record without properties has no names. -/
theorem names_of_barren (barren : (ledger.record id).properties = []) : ledger.names id = [] := by
  rw [names, barren, List.map_nil]

/-- No property has a name that is still free. -/
theorem not_mem_names {name : String} (free : ledger.property? id name = none) :
    some name ∉ ledger.names id := by
  intro member
  obtain ⟨property, held, named⟩ := List.mem_map.mp member
  exact List.find?_eq_none.mp free property held (beq_iff_eq.mpr named)

/-- Whether all properties have names, and those of one record different ones. -/
structure Named (ledger : Ledger) : Prop where
  named : ∀ id, none ∉ ledger.names id
  nodup : ∀ id, (ledger.names id).Nodup

namespace Named

theorem empty : Named {} := ⟨fun _ => List.not_mem_nil, fun _ => List.nodup_nil⟩

/-- Records that have the names of others, or none, tell their properties apart as these do. -/
theorem of_names (named : before.Named)
    (known : ∀ id, after.names id = [] ∨ ∃ source, after.names id = before.names source) :
    after.Named where
  named id := by
    -- No names, or those of a source that tells them apart.
    rcases known id with none | ⟨source, same⟩
    · rw [none]
      exact List.not_mem_nil
    · rw [same]
      exact named.named source
  nodup id := by
    rcases known id with none | ⟨source, same⟩
    · rw [none]
      exact List.nodup_nil
    · rw [same]
      exact named.nodup source

/-- A record that changes without a change of its properties and its own name. -/
theorem update (named : ledger.Named) {change : Record → Record}
    (properties : (change (ledger.record id)).properties = (ledger.record id).properties)
    (name : (change (ledger.record id)).name = (ledger.record id).name) :
    (ledger.update id change).Named :=
  named.of_names fun other => .inr ⟨other, names_congr (field_update Record.properties properties)
    fun _ _ => field_update Record.name name⟩

/-- A record without properties joins the ledger. -/
theorem push (named : ledger.Named) (forest : ledger.Forest) {added : Record}
    (barren : added.properties = [])
    (records : ∀ id, grown.record id = if id = ⟨ledger.size⟩ then added else ledger.record id) :
    grown.Named := by
  refine named.of_names fun other => ?_
  -- The new record has no names, and the others have theirs.
  by_cases new : other = ⟨ledger.size⟩
  · refine .inl (names_of_barren ?_)
    rw [records, if_pos new]
    exact barren
  · -- The properties of an old record are old as well, so none is the new record.
    have same : grown.record other = ledger.record other := by rw [records, if_neg new]
    refine .inr ⟨other, names_congr (congrArg Record.properties same) fun property held => ?_⟩
    have present := (forest.inside other property (Record.mem_children.mpr (.inl held))).2
    rw [name, records, if_neg (RecordId.ne_next present)]
    rfl

/-- A property of a free name joins those of a record. -/
theorem join (named : ledger.Named) {property : RecordId} {name : String}
    (called : ledger.name property = some name) (free : some name ∉ ledger.names id) :
    (ledger.update id fun record =>
      { record with properties := record.properties ++ [property] }).Named := by
  -- No record is renamed, and one only gets a name more.
  have renamed (other : RecordId) : (ledger.update id fun record =>
      { record with properties := record.properties ++ [property] }).name other = ledger.name other :=
    field_update Record.name rfl
  have names (other : RecordId) :
      (ledger.update id fun record =>
        { record with properties := record.properties ++ [property] }).names other =
          if other = id ∧ id.index < ledger.size then ledger.names id ++ [some name]
          else ledger.names other := by
    unfold Ledger.names
    rw [funext renamed, record_update]
    split
    · rw [List.map_append, List.map_cons, List.map_nil, called]
    · rfl
  constructor
  · -- The list of names is longer by one for the record that was joined.
    intro other
    rw [names]
    split
    · simpa using named.named id
    · exact named.named other
  · intro other
    rw [names]
    split
    · -- The new name was free, so it is none of those before.
      refine List.nodup_append.mpr ⟨named.nodup id, List.pairwise_singleton _ _, ?_⟩
      intro earlier held new last same
      rw [same, List.mem_singleton.mp last] at held
      exact free held
    · exact named.nodup other

/-- A record for a schema is put into a free place. -/
theorem attach (named : ledger.Named) (forest : ledger.Forest) (present : id.index < ledger.size)
    {schema : Option SchemaId} {slot : Slot} (free : slot.IsFree ledger id) :
    ((ledger.create schema slot.name?).2.update id (slot.fill ⟨ledger.size⟩)).Named := by
  -- The record is made first and has no properties yet; then it is put into its place.
  have created : (ledger.create schema slot.name?).2.Named :=
    named.push forest rfl fun _ => record_create
  cases slot with
  | property name =>
    have called : (ledger.create schema (some name)).2.name ⟨ledger.size⟩ = some name := by
      rw [Ledger.name, record_create, if_pos rfl]
      rfl
    -- The record around the place still has the names that it had before.
    have old {other : RecordId} (inside : other.index < ledger.size) :
        (ledger.create schema (some name)).2.record other = ledger.record other :=
      record_create_of_lt inside
    have same : (ledger.create schema (some name)).2.names id = ledger.names id :=
      names_congr (congrArg Record.properties (old present)) fun property held =>
        congrArg Record.name
          (old (forest.inside id property (Record.mem_children.mpr (.inl held))).2)
    refine created.join called ?_
    rw [Slot.name?, same]
    exact not_mem_names free
  -- All other places are no properties.
  | _ => exact created.update rfl rfl

end Named

end Ledger

/-! Whatever is surveyed, the records stay a forest in which each owns its checks, none of them
planned yet, and the properties of each have different names. -/

/-- Whether a record is as the survey leaves it: without a shape, a class or a base property, not yet
marked as required, and without anything planned for its class. -/
structure Record.Raw (record : Record) : Prop where
  shape : record.shape = none
  typeRef : record.typeRef = none
  baseProperty : record.baseProperty = none
  mapBacked : record.mapBacked = false
  isRequired : record.isRequired = false
  constants : ∀ entry ∈ record.patternProperties, entry.constant = none

variable {tree : SchemaTree}

/-- What is stated in a record leaves it raw. -/
theorem Record.Restated.raw {record merged : Record} (restated : record.Restated tree merged)
    (raw : record.Raw) : merged.Raw := by
  cases restated with
  | keyword absorbed =>
    rw [← restate_absorb absorbed]
    exact { raw with }
  | _ => exact { raw with }

/-- A filled place leaves the record around it raw. -/
theorem Slot.raw_fill {slot : Slot} {child : RecordId} {record : Record} (raw : record.Raw) :
    (slot.fill child record).Raw := by
  cases slot with
  | patternProperty pattern =>
    refine { raw with constants := fun entry member => ?_ }
    rcases List.mem_append.mp member with earlier | new
    · exact raw.constants entry earlier
    · rw [List.mem_singleton.mp new]
  | _ => exact { raw with }

/-- A filled place leaves the negation of the record around it alone. -/
theorem Slot.negation_fill {slot : Slot} {child : RecordId} {record : Record} :
    (slot.fill child record).negation = record.negation := by
  cases slot <;> rfl

namespace Ledger

/-- The records of a survey: a forest of raw records for schemas, with empty sets of checks that
each of them owns, whose properties are told apart by their names. -/
structure Sound (ledger : Ledger) : Prop where
  forest : ledger.Forest
  owned : ledger.Owned
  named : ledger.Named
  raw : ∀ id : RecordId, (ledger.record id).Raw
  idle : ∀ set ∈ ledger.checkSets, set = {}
  schema : ∀ id : RecordId, id.index < ledger.size → (ledger.record id).schema.isSome

namespace Sound

variable {ledger : Ledger} {id : RecordId}

theorem empty : Sound {} where
  forest := .empty
  owned := .empty
  named := .empty
  raw _ := ⟨rfl, rfl, rfl, rfl, rfl, fun _ member => absurd member List.not_mem_nil⟩
  idle _ member := absurd member (Array.not_mem_empty _)
  schema _ inside := absurd inside (Nat.not_lt_zero _)

/-- A record changes while the ledger stays a forest. -/
theorem update (sound : ledger.Sound) {change : Record → Record}
    (forest : (ledger.update id change).Forest) (named : (ledger.update id change).Named)
    (kept : (ledger.record id).SameOrigin (change (ledger.record id)))
    (negation : (change (ledger.record id)).negation = (ledger.record id).negation)
    (raw : (change (ledger.record id)).Raw) : (ledger.update id change).Sound where
  forest := forest
  owned := sound.owned.update kept negation
  named := named
  -- Only the record that changes has to be looked at, by what is assumed of it.
  raw other := by
    rw [record_update]
    split
    · exact raw
    · exact sound.raw other
  idle := sound.idle
  schema other inside := by
    rw [size_update] at inside
    rw [record_update]
    split
    · -- Its schema is kept and is there, as for all others.
      rename_i same
      rw [kept.schema, ← same.1]
      exact sound.schema other inside
    · exact sound.schema other inside

/-- A record is created for a schema. -/
theorem create (sound : ledger.Sound) (schema : SchemaId) (name : Option String) :
    (ledger.create (some schema) name).2.Sound ∧
      (ledger.create (some schema) name).2.IsRoot ⟨ledger.size⟩ := by
  obtain ⟨forest, root⟩ := sound.forest.push
    -- The new record holds no other, so it joins the forest as a root.
    (by simp [fresh, Record.children] : (ledger.fresh (some schema) name).children = [])
    size_create fun _ => record_create
  have named : (ledger.create (some schema) name).2.Named :=
    sound.named.push sound.forest rfl fun _ => record_create
  -- A fresh record holds nothing, and its set of checks is empty.
  refine ⟨⟨forest, sound.owned.create, named, fun other => ?_, fun set member => ?_,
    fun other inside => ?_⟩, root⟩
  · rw [record_create]
    split
    · exact ⟨rfl, rfl, rfl, rfl, rfl, fun _ member => absurd member List.not_mem_nil⟩
    · exact sound.raw other
  · rw [checkSets_create] at member
    -- A set of checks was there before, or it is the empty one of the new record.
    rcases Array.mem_push.mp member with before | rfl
    · exact sound.idle set before
    · rfl
  · rw [record_create]
    split
    · -- The new record was made for the schema.
      rfl
    · rename_i here
      rw [size_create] at inside
      exact sound.schema other (RecordId.lt_last inside here)

/-- A record gets its negation. -/
theorem negate (sound : ledger.Sound) (inside : id.index < ledger.size)
    (positive : (ledger.record id).negationOf = none)
    (unset : (ledger.record id).negation = none) : (ledger.negation id).2.Sound := by
  obtain ⟨forest, root⟩ := sound.forest.push
    (by simp [negative, Record.children] : (ledger.negative id).children = [])
    size_push fun _ => record_push
  have same : (ledger.push (ledger.negative id)).2.record id = ledger.record id := by
    rw [record_push, if_neg (RecordId.ne_next inside)]
  -- The negation joins the ledger as a root and is then adopted by its record.
  refine ⟨?_, sound.owned.negate inside positive unset, ?_, fun other => ?_, ?_,
    fun other present => ?_⟩
  · rw [negation_of_unset positive unset]
    refine forest.adopt root (by simpa using inside) (by simp) ?_
    rw [same]
    exact Record.children_negation unset
  · -- To be negated changes no property of a record.
    rw [negation_of_unset positive unset]
    exact (sound.named.push sound.forest rfl fun _ => record_push).update rfl rfl
  · rw [record_negation inside positive unset]
    split
    · exact ⟨rfl, rfl, rfl, rfl, rfl, fun _ member => absurd member List.not_mem_nil⟩
    · -- Apart from the new record, only the negated one has changed.
      split
      · exact { sound.raw id with }
      · exact sound.raw other
  · rw [checkSets_negation positive unset]
    exact sound.idle
  · rw [size_negation positive unset] at present
    rw [record_negation inside positive unset]
    split
    · exact sound.schema id inside
    · split
      · -- The negated record keeps its schema.
        exact sound.schema id inside
      · rename_i here _
        exact sound.schema other (RecordId.lt_last present here)

end Sound

end Ledger

namespace Survey

/-- The records of a survey and the branches that still lie inside no other record. -/
structure Stage.Sound (stage : Stage) : Prop where
  ledger : stage.ledger.Sound
  known : ∀ id ∈ stage.known, id.index < stage.ledger.size
  pending : ∀ entry ∈ stage.pending, entry.1.index < entry.2.index ∧
    entry.2.index < stage.ledger.size ∧ stage.ledger.IsRoot entry.2
  apart : (stage.pending.map (·.2)).Nodup

variable {stage next : Stage}

/-- A root other than the pending branches stays one. -/
structure KeepsRoots (stage next : Stage) : Prop where
  size_le : stage.ledger.size ≤ next.ledger.size
  root : ∀ id : RecordId, id.index < stage.ledger.size → stage.ledger.IsRoot id →
    id ∉ stage.pending.map (·.2) → next.ledger.IsRoot id ∧ id ∉ next.pending.map (·.2)

namespace Stage.Sound

/-- What joins the ledger has the next number, so all that was known is still in its place. -/
theorem recalled (sound : stage.Sound) (id : RecordId)
    (member : id ∈ insert ⟨stage.ledger.size⟩ stage.known) : id.index < stage.ledger.size + 1 := by
  rcases Set.mem_insert_iff.mp member with rfl | member
  · exact Nat.lt_succ_self _
  · exact Nat.lt_succ_of_lt (sound.known id member)

/-- A change of the ledger after which it is sound and every root still is one leaves the branches
pending that are so. -/
theorem keep {known : Set RecordId} {ledger : Ledger} (sound : stage.Sound) (changed : ledger.Sound)
    (size_le : stage.ledger.size ≤ ledger.size) (inside : ∀ id ∈ known, id.index < ledger.size)
    (roots : ∀ root : RecordId, root.index < stage.ledger.size → stage.ledger.IsRoot root →
      ledger.IsRoot root) :
    Stage.Sound ⟨known, stage.pending, ledger⟩ ∧ KeepsRoots stage ⟨known, stage.pending, ledger⟩ := by
  refine ⟨⟨changed, inside, fun entry member => ?_, sound.apart⟩, size_le,
    fun root present isRoot free => ⟨roots root present isRoot, free⟩⟩
  obtain ⟨behind, present, isRoot⟩ := sound.pending entry member
  exact ⟨behind, Nat.lt_of_lt_of_le present size_le, roots entry.2 present isRoot⟩

/-- A link of a known record leads to one that is there. -/
theorem learn {id link : RecordId} (sound : stage.Sound)
    (linked : link ∈ (stage.ledger.record id).links) :
    Stage.Sound { stage with known := insert link stage.known } ∧
      KeepsRoots stage { stage with known := insert link stage.known } := by
  refine sound.keep sound.ledger (Nat.le_refl _) (fun other member => ?_) fun _ _ isRoot => isRoot
  rcases Set.mem_insert_iff.mp member with rfl | member
  · -- Links lead to children or to the record that is negated, which are both there.
    rcases Record.mem_links.mp linked with child | origin
    · exact (sound.ledger.forest.inside id other child).2
    · exact (sound.ledger.owned.shares id other origin).1
  · exact sound.known other member

/-- A restated record lists no record that it did not list. -/
theorem restate {id : RecordId} {merged : Record} (sound : stage.Sound)
    (restated : (stage.ledger.record id).Restated tree merged) :
    Stage.Sound { stage with ledger := stage.ledger.update id fun _ => merged } ∧
      KeepsRoots stage { stage with ledger := stage.ledger.update id fun _ => merged } := by
  refine sound.keep ?_ (by simp) (by simpa using sound.known) fun root _ isRoot =>
    isRoot.update fun member => isRoot id (restated.children_sublist.subset member)
  exact sound.ledger.update (sound.ledger.forest.update restated.children_sublist)
    (sound.ledger.named.update restated.properties_eq restated.sameOrigin.name) restated.sameOrigin
    restated.negation_eq (restated.raw (sound.ledger.raw id))

/-- A new record joins as a root and fills its place at once. -/
theorem attach {id : RecordId} {slot : Slot} (sound : stage.Sound) (acts : id ∈ stage.known)
    (schema : SchemaId) (free : slot.IsFree stage.ledger id) :
    let next : Stage :=
      { stage with
        known := insert ⟨stage.ledger.size⟩ stage.known
        ledger := (stage.ledger.create (some schema) slot.name?).2.update id
          (slot.fill ⟨stage.ledger.size⟩) }
    next.Sound ∧ KeepsRoots stage next := by
  have present := sound.known id acts
  -- The new record is a root until its place is filled.
  obtain ⟨grown, newRoot⟩ := sound.ledger.create schema slot.name?
  have same : (stage.ledger.create (some schema) slot.name?).2.record id = stage.ledger.record id :=
    Ledger.record_create_of_lt present
  have joined : (slot.fill ⟨stage.ledger.size⟩ (stage.ledger.record id)).children.Perm
      (⟨stage.ledger.size⟩ :: (stage.ledger.record id).children) := Slot.children_fill free
  rw [← same] at joined
  refine sound.keep ?_ (by simp) (by simpa using sound.recalled) fun root present isRoot => ?_
  · -- It is adopted by the record around it.
    exact grown.update (grown.forest.adopt newRoot present (by simp) joined)
      (sound.ledger.named.attach sound.ledger.forest present free)
      Slot.sameOrigin_fill Slot.negation_fill (Slot.raw_fill (grown.raw id))
  · -- All that the record lists besides what it listed is the new one.
    refine (isRoot.push rfl fun _ => Ledger.record_create).update fun member => ?_
    rw [joined.mem_iff, List.mem_cons, same] at member
    exact member.elim (RecordId.ne_next present) (isRoot id)

/-- The negation of a record is a new one, and lies inside it alone. -/
theorem negate {id : RecordId} (sound : stage.Sound) (acts : id ∈ stage.known)
    (positive : (stage.ledger.record id).negationOf = none)
    (unset : (stage.ledger.record id).negation = none) :
    let next : Stage :=
      { stage with
        known := insert ⟨stage.ledger.size⟩ stage.known
        ledger := (stage.ledger.negation id).2 }
    next.Sound ∧ KeepsRoots stage next := by
  have present := sound.known id acts
  have size := Ledger.size_negation positive unset
  refine sound.keep (sound.ledger.negate present positive unset) (size ▸ Nat.le_succ _)
    (size ▸ sound.recalled) fun root present' isRoot parent member => ?_
  -- What was a root stays one, since the only new child is the negation.
  rw [Ledger.record_negation present positive unset] at member
  split at member
  · simp [Ledger.negative, Record.children] at member
  · split at member
    · -- The negated record lists its negation, which is no old root.
      rw [(Record.children_negation unset).mem_iff, List.mem_cons] at member
      exact member.elim (RecordId.ne_next present') (isRoot id)
    · exact isRoot parent member

/-- A branch stays a root until it is linked, and is pending for so long. -/
theorem openBranch {id : RecordId} (sound : stage.Sound) (acts : id ∈ stage.known)
    (schema : SchemaId) :
    let next : Stage :=
      { known := insert ⟨stage.ledger.size⟩ stage.known
        pending := (id, ⟨stage.ledger.size⟩) :: stage.pending
        ledger := (stage.ledger.create (some schema) none).2 }
    next.Sound ∧ KeepsRoots stage next := by
  obtain ⟨grown, newRoot⟩ := sound.ledger.create schema none
  have roots (root : RecordId) (isRoot : stage.ledger.IsRoot root) :
      (stage.ledger.create (some schema) none).2.IsRoot root :=
    isRoot.push rfl fun _ => Ledger.record_create
  -- The number of the branch is new, so it is not pending yet.
  have unopened : (⟨stage.ledger.size⟩ : RecordId) ∉ stage.pending.map (·.2) := by
    intro member
    obtain ⟨entry, member, same⟩ := List.mem_map.mp member
    exact RecordId.ne_next (sound.pending entry member).2.1 same
  refine ⟨⟨grown, by simpa using sound.recalled, fun entry member => ?_, ?_⟩, by simp,
    fun root present isRoot free => ⟨roots root isRoot, ?_⟩⟩
  · rcases List.mem_cons.mp member with rfl | member
    · -- The new branch comes first among those that are pending.
      exact ⟨sound.known id acts, by simp, newRoot⟩
    · -- The ones that were pending have been roots and stay so.
      obtain ⟨behind, present, isRoot⟩ := sound.pending entry member
      exact ⟨behind, by simpa using Nat.lt_succ_of_lt present, roots entry.2 isRoot⟩
  · -- No branch is pending twice.
    exact List.nodup_cons.mpr ⟨unopened, sound.apart⟩
  · exact List.not_mem_cons_of_ne_of_not_mem (RecordId.ne_next present) free

/-- A branch is pending once only, so the others that are pending remain roots when it is linked. -/
theorem linkBranch {id branch : RecordId} {rest : List (RecordId × RecordId)} (sound : stage.Sound)
    (latest : stage.pending = (id, branch) :: rest) :
    let next : Stage :=
      { stage with
        pending := rest
        ledger := stage.ledger.update id fun held => { held with oneOf := held.oneOf ++ [branch] } }
    next.Sound ∧ KeepsRoots stage next := by
  obtain ⟨ledger, known, pending, apart⟩ := sound
  -- The branch is the latest of those that are pending, so it is a root.
  rw [latest] at pending apart
  obtain ⟨behind, present, branchRoot⟩ := pending (id, branch) List.mem_cons_self
  obtain ⟨unique, apart⟩ := List.nodup_cons.mp apart
  -- Of all roots only the branch is one no more.
  have roots (root : RecordId) (isRoot : stage.ledger.IsRoot root) (other : root ≠ branch) :
      (stage.ledger.update id fun held =>
        { held with oneOf := held.oneOf ++ [branch] }).IsRoot root := by
    refine isRoot.update fun member => ?_
    rw [Record.children_branch.mem_iff, List.mem_cons] at member
    exact member.elim other (isRoot id)
  refine ⟨⟨?_, by simpa using known, fun entry member => ?_, apart⟩, by simp,
    fun root _ isRoot free => ?_⟩
  · -- The record adopts it, and nothing else changes.
    exact ledger.update (ledger.forest.adopt branchRoot behind present Record.children_branch)
      (ledger.named.update rfl rfl) ⟨rfl, rfl, rfl, rfl⟩ rfl { ledger.raw id with }
  · obtain ⟨behind, present, isRoot⟩ := pending entry (List.mem_cons_of_mem _ member)
    refine ⟨behind, by simpa using present, roots entry.2 isRoot fun same => unique ?_⟩
    -- If an entry were the same branch, it would be pending twice.
    exact List.mem_map.mpr ⟨entry, member, same⟩
  · rw [latest] at free
    obtain ⟨other, free⟩ := List.ne_and_not_mem_of_not_mem_cons free
    exact ⟨roots root isRoot other, free⟩

end Stage.Sound

/-- A step keeps the records a forest, and its roots. -/
theorem Step.sound (taken : Step tree stage next) (sound : stage.Sound) :
    next.Sound ∧ KeepsRoots stage next := by
  cases taken with
  | learn _ linked => exact sound.learn linked
  | restate _ restated => exact sound.restate restated
  | attach acts schema free => exact sound.attach acts schema free
  | negate acts positive unset => exact sound.negate acts positive unset
  | openBranch acts schema => exact sound.openBranch acts schema
  | linkBranch _ latest => exact sound.linkBranch latest

/-- Any number of steps keeps the records a forest, and its roots. -/
theorem Steps.sound (taken : Steps tree stage next) (sound : stage.Sound) :
    next.Sound ∧ KeepsRoots stage next := by
  induction taken with
  | refl => exact ⟨sound, Nat.le_refl _, fun _ _ root free => ⟨root, free⟩⟩
  | tail _ last ih =>
    obtain ⟨middle, kept⟩ := ih
    -- The roots that are free in the middle are free at the end.
    obtain ⟨final, kept'⟩ := last.sound middle
    refine ⟨final, Nat.le_trans kept.size_le kept'.size_le, fun id present root free => ?_⟩
    obtain ⟨root, free⟩ := kept.root id present root free
    exact kept'.root id (Nat.lt_of_lt_of_le present kept.size_le) root free

/-- A record begun behind all others: a root of a forest in which they did not change. -/
structure Begun (before after : Ledger) (id : RecordId) : Prop where
  index : id = ⟨before.size⟩
  present : id.index < after.size
  sound : after.Sound
  root : after.IsRoot id
  roots : ∀ other : RecordId, other.index < before.size → before.IsRoot other → after.IsRoot other
  undisturbed : before.Undisturbed before.size after

/-- The stage at which a survey begins: it knows the record that is made for its root. -/
def Stage.opening (ledger : Ledger) (root : SchemaId) : Stage where
  known := {⟨ledger.size⟩}
  pending := []
  ledger := (ledger.create (some root) none).2

section Opening

variable {ledger : Ledger} {root : SchemaId}

/-- A survey of a sound ledger begins soundly. -/
theorem Stage.sound_opening (sound : ledger.Sound) : (Stage.opening ledger root).Sound := by
  refine ⟨(sound.create root none).1, ?_, by simp [opening], by simp [opening]⟩
  rintro id rfl
  rw [opening, Ledger.size_create]
  exact Nat.lt_succ_self _

/-- From the record that a survey begins with nothing leads back to those before it. -/
theorem Stage.sealed_opening : (Stage.opening ledger root).Sealed ledger.size := by
  refine ⟨by simp [opening], fun id member => ?_, by simp [opening], fun id above link member => ?_⟩
  · exact Nat.le_of_eq (congrArg RecordId.index member).symm
  · rw [opening, Ledger.record_create] at member
    split at member
    · simp [Ledger.fresh, Record.links, Record.children] at member
    · rw [Ledger.record_of_size_le above] at member
      cases member

/-- The record that a survey begins with disturbs none before it. -/
theorem Stage.undisturbed_opening :
    ledger.Undisturbed ledger.size (Stage.opening ledger root).ledger :=
  .push (Nat.le_refl _) Ledger.size_create fun _ => Ledger.record_create

/-- A survey of a schema takes steps from its opening stage, however it ends. -/
theorem works_begin {survey : Survey} :
    Ends (begin tree root) survey
      (fun id last => id = ⟨survey.ledger.size⟩ ∧
        Finished tree (Stage.opening survey.ledger root) last)
      (Stopped tree (Stage.opening survey.ledger root)) := by
  simp only [begin, merge, ends_bind, ends_onLedger, ends_pure]
  exact (works_visit tree.ids root ⟨survey.ledger.size⟩ _ (Stage.opening survey.ledger root) rfl
    (Set.mem_singleton _)).mono fun _ last finished => ⟨rfl, finished⟩

end Opening

/-- A survey begun in a sound ledger ends in one, with a root for the schema. -/
theorem begin_sound {survey : Survey} {root : SchemaId} (sound : survey.ledger.Sound) :
    Ends (begin tree root) survey
      (fun id last => Begun survey.ledger last.ledger id)
      (fun last => last.ledger.Sound) := by
  obtain ⟨-, newRoot⟩ := sound.create root none
  have start : (Stage.opening survey.ledger root).Sound := Stage.sound_opening sound
  refine works_begin.imp (fun id last ⟨same, known, _, steps⟩ => ?_)
    (fun last ⟨stage, same, steps⟩ => ?_)
  · subst same
    obtain ⟨final, kept⟩ := steps.sound start
    -- The root of the survey is the first record behind those that were there.
    have present : survey.ledger.size < (Stage.opening survey.ledger root).ledger.size := by
      simp [Stage.opening]
    refine ⟨rfl, Nat.lt_of_lt_of_le present kept.size_le, final.ledger, ?_, fun other below isRoot => ?_,
      Stage.undisturbed_opening.trans (steps.undisturbed Stage.sealed_opening).2⟩
    · -- Records that were roots before the survey are roots behind it.
      exact (kept.root ⟨survey.ledger.size⟩ present newRoot (by simp [Stage.opening])).1
    · have grown : (Stage.opening survey.ledger root).ledger.IsRoot other :=
        isRoot.push rfl fun _ => Ledger.record_create
      exact (kept.root other (Nat.lt_trans below present) grown (by simp [Stage.opening])).1
  · -- The ledger is sound even if the survey fails on the way.
    rw [← same]
    exact (steps.sound start).1.ledger

end Survey

end SchemaClasses
