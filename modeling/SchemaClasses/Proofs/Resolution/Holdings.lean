import SchemaClasses.Proofs.Resolution.Required
import SchemaClasses.Proofs.Resolution.Turns

/-! Which classes hold a property: no two do, while variants with copies of properties join. So a mark
of a required name is only warranted by the class that the property belongs to. -/

namespace SchemaClasses

namespace Ledger.Varies

variable {before after : Ledger} {container holder property : RecordId} {origin : Option SchemaId}
variable {copies : List RecordId}

/-- A property in a ledger that a variant has joined is one of a record that was there, a copy for the
variant, or one that lies inside a property that was copied. -/
theorem holds (varies : before.Varies container origin copies after)
    (held : property ∈ (after.record holder).properties) :
    (holder.index < before.size ∧ property ∈ (before.record holder).properties) ∨
      (holder = ⟨before.size⟩ ∧ property ∈ copies) ∨
      ∃ source ∈ (before.record container).properties,
        property ∈ (before.record source).properties := by
  by_cases old : holder.index < before.size
  · -- A record that was there holds what it held.
    rw [varies.record holder old] at held
    exact .inl ⟨old, held⟩
  · by_cases present : holder.index < after.size
    · -- The record joined as the variant or as a copy, and a copy holds what its source holds.
      rcases varies.cases old present with rfl | ⟨source, member, repeats⟩
      · rw [varies.record_variant] at held
        exact .inr (.inl ⟨rfl, held⟩)
      · rw [repeats.record] at held
        exact .inr (.inr ⟨source, member, held⟩)
    · rw [record_of_size_le (Nat.not_lt.mp present)] at held
      exact absurd held List.not_mem_nil

/-- The sets of checks stay in range when a variant joins. -/
theorem inRange (varies : before.Varies container origin copies after) (inRange : before.InRange) :
    after.InRange := by
  intro id present
  by_cases old : id.index < before.size
  · rw [varies.record id old]
    exact Nat.lt_of_lt_of_le (inRange id old) varies.sets_le
  · obtain ⟨source, -, copies, -⟩ := varies.source old present
    exact copies.inRange

/-- All properties are there when a variant joins, if they were before. -/
theorem enclosed (varies : before.Varies container origin copies after)
    (enclosed : ∀ holder, ∀ property ∈ (before.record holder).properties, property.index < before.size)
    (held : property ∈ (after.record holder).properties) : property.index < after.size := by
  rcases varies.holds held with ⟨-, held⟩ | ⟨-, copied⟩ | ⟨source, -, held⟩
  · exact Nat.lt_of_lt_of_le (enclosed holder property held) varies.size_le
  · obtain ⟨source, -, repeats⟩ := varies.repeats property copied
    exact repeats.present
  · exact Nat.lt_of_lt_of_le (enclosed source property held) varies.size_le

end Ledger.Varies

namespace Model

variable {varied gain : Set RecordId} {first model before after : Model} {owner : DeclarationId}
variable {nested added : NestedClass} {a b id property holder source container branch : RecordId}

/-- Where the properties of a nested class come from: those that were surveyed lie inside one record,
which is that of the class itself, or the branch that a variant was made for. The properties that a varied
record may still gain lie there as well. -/
structure Draws (varied gain : Set RecordId) (first model : Model) (owner : DeclarationId)
    (nested : NestedClass) (source : RecordId) : Prop where
  member : source ∈ first.realm owner
  made : (first.ledger.record source).schema = nested.origin
  place : nested.record = source ∨ source ∈ first.inBranches owner
  present : nested.record.index < model.ledger.size
  surveyed : ∀ property ∈ (model.ledger.record nested.record).properties,
    property.index < first.ledger.size → property ∈ (first.ledger.record source).properties
  gained : nested.record ∈ varied → ∀ property ∈ gain, property ∈ (first.ledger.record source).properties

/-- A model whose classes hold their properties alone, each of them marked if its class requires it.
Varied records may still gain properties, and they are yet to be reconciled. -/
structure Tidy (varied gain : Set RecordId) (first model : Model) : Prop where
  inRange : model.ledger.InRange
  enclosed : ∀ holder, ∀ property ∈ (model.ledger.record holder).properties,
    property.index < model.ledger.size
  reconciled : ∀ id, model.Entered id → id ∈ varied ∨ model.Reconciled id
  warranted : ∀ holder, ∀ property ∈ (model.ledger.record holder).properties,
    (model.ledger.record property).isRequired = true → model.Warrants property
  drawn : ∀ owner, ∀ nested ∈ (model.declaration owner).nested,
    ∃ source, Draws varied gain first model owner nested source
  lone : ∀ a b property, first.ledger.size ≤ property.index →
    property ∈ (model.ledger.record a).properties → property ∈ (model.ledger.record b).properties → a = b
  gained : ∀ property ∈ gain, property.index < first.ledger.size ∧
    ∃ holder, property ∈ (model.ledger.record holder).properties

/-- A declaration that has a nested class is there. -/
theorem inside_of_mem_nested (member : nested ∈ (model.declaration owner).nested) :
    owner.index < model.declarations.size := by
  by_contra past
  rw [declaration_of_size_le (Nat.not_lt.mp past)] at member
  exact absurd member (Array.not_mem_empty _)

/-- A declaration that was begun is there. -/
theorem inside_of_isAnalysed (begun : (model.declaration owner).isAnalysed = true) :
    owner.index < model.declarations.size := by
  by_contra past
  rw [declaration_of_size_le (Nat.not_lt.mp past)] at begun
  cases begun

/-- The properties of a record of a declaration are those that were surveyed. -/
theorem Arranged.properties_eq (arranged : first.Arranged model)
    (inside : owner.index < first.declarations.size) (member : id ∈ first.realm owner) :
    (model.ledger.record id).properties = (first.ledger.record id).properties :=
  (arranged.settles inside member).properties_eq

/-- A record of a declaration holds no property that was not surveyed. -/
theorem Arranged.surveyed (arranged : first.Arranged model) (present : id.index < first.ledger.size)
    (held : property ∈ (model.ledger.record id).properties) : property.index < first.ledger.size := by
  rw [(arranged.ledger.record id present).properties_eq] at held
  exact (arranged.declared.sound.forest.inside id property (Record.mem_children.mpr (.inl held))).2

/-- How a class is found from the record that a surveyed property lies inside: it was declared for that
record, or it is nested and was made for its schema. -/
inductive Stands (first model : Model) (owner : DeclarationId) (source : RecordId) : RecordId → Prop where
  | declared (same : source = (first.declaration owner).record) : Stands first model owner source source
  | nested {nested : NestedClass} (member : nested ∈ (model.declaration owner).nested)
      (made : (first.ledger.record source).schema = nested.origin)
      (place : nested.record = source ∨ source ∈ first.inBranches owner) :
      Stands first model owner source nested.record

/-- The surveyed properties of a class that was entered lie inside one record of its declaration. -/
theorem Tidy.exists_stands (tidy : Tidy varied gain first model) (arranged : first.Arranged model)
    (entered : model.Entered id) :
    ∃ owner source, owner.index < first.declarations.size ∧ source ∈ first.realm owner ∧
      (∀ property ∈ (model.ledger.record id).properties, property.index < first.ledger.size →
        property ∈ (first.ledger.record source).properties) ∧
      first.Stands model owner source id := by
  cases entered with
  | @declared owner concrete begun =>
    -- What was begun is declared, since only declarations have marks.
    have inside : owner.index < first.declarations.size :=
      arranged.size ▸ inside_of_isAnalysed begun
    rw [(arranged.grows owner).record]
    refine ⟨owner, _, inside, Ledger.mem_scope_self, fun property held _ => ?_, .declared rfl⟩
    rw [arranged.properties_eq inside Ledger.mem_scope_self] at held
    exact held
  | @nested owner nested member concrete =>
    -- A nested class draws on a record of its declaration, and the properties that it holds were
    -- surveyed there.
    obtain ⟨source, draws⟩ := tidy.drawn owner nested member
    exact ⟨owner, source, arranged.size ▸ inside_of_mem_nested member, draws.member, draws.surveyed,
      .nested member draws.made draws.place⟩

/-- No two classes are found from one record. -/
theorem Stands.unique (arranged : first.Arranged model) (stands : first.Stands model owner source a)
    (stands' : first.Stands model owner source b) : a = b := by
  have sound := arranged.declared.sound
  -- The record of the declaration lies in no branch.
  have apart (branch : (first.declaration owner).record ∈ first.inBranches owner) : False :=
    Nat.lt_irrefl _ (lt_of_inBranches sound branch)
  cases stands with
  | declared same =>
    cases stands' with
    | declared => rfl
    | nested member made place =>
      exact (place.resolve_right fun branch => apart (same ▸ branch)).symm
  | @nested nested member made place =>
    cases stands' with
    | declared same => exact place.resolve_right fun branch => apart (same ▸ branch)
    | @nested other member' made' place' =>
      -- Classes nested in one declaration were made for different schemas.
      have origins : ((model.declaration owner).nested.toList.map (·.origin)).Nodup :=
        List.pairwise_map.mpr (arranged.orderly owner).origins
      rw [List.inj_on_of_nodup_map origins (Array.mem_toList_iff.mpr member)
        (Array.mem_toList_iff.mpr member') (made.symm.trans made')]

/-- No two classes that were entered hold the same property. -/
theorem Tidy.disjoint (tidy : Tidy varied gain first model) (arranged : first.Arranged model)
    (entered : model.Entered a) (entered' : model.Entered b)
    (held : property ∈ (model.ledger.record a).properties)
    (held' : property ∈ (model.ledger.record b).properties) : a = b := by
  -- What joined after the survey is held once, which is part of being tidy.
  by_cases late : first.ledger.size ≤ property.index
  · exact tidy.lone a b property late held held'
  · have present := Nat.not_le.mp late
    have declared := arranged.declared
    obtain ⟨owner, source, inside, member, surveyed, stands⟩ := tidy.exists_stands arranged entered
    obtain ⟨owner', source', inside', member', surveyed', stands'⟩ :=
      tidy.exists_stands arranged entered'
    -- The property lies inside one record only, and this below one declaration.
    obtain rfl : source = source' := declared.sound.forest.single source source' property
      (Record.mem_children.mpr (.inl (surveyed property held present)))
      (Record.mem_children.mpr (.inl (surveyed' property held' present)))
    obtain rfl : owner = owner' := declared.apart owner owner' inside inside'
      (declared.sound.scope_disjoint (declared.root owner inside).2 (declared.root owner' inside').2
        member member')
    -- Each record is the place of one class at most.
    exact stands.unique arranged stands'

/-- A class that was entered is made for a record that is there. -/
theorem Tidy.present (tidy : Tidy varied gain first model) (arranged : first.Arranged model)
    (entered : model.Entered id) : id.index < model.ledger.size := by
  cases entered with
  | @declared owner concrete begun =>
    have inside : owner.index < first.declarations.size :=
      arranged.size ▸ inside_of_isAnalysed begun
    -- A declared class has a record from the survey, which the larger ledger still has.
    rw [(arranged.grows owner).record]
    exact Nat.lt_of_lt_of_le (arranged.declared.root owner inside).1 arranged.ledger.size_le
  | @nested owner nested member concrete =>
    obtain ⟨source, draws⟩ := tidy.drawn owner nested member
    exact draws.present

/-- In the end a class marks exactly those of its properties that it requires. -/
theorem Tidy.isRequired_iff (tidy : Tidy ∅ gain first model) (arranged : first.Arranged model)
    (entered : model.Entered id) (held : property ∈ (model.ledger.record id).properties) :
    (model.ledger.record property).isRequired = true ↔ model.ledger.Requires id property := by
  constructor
  · intro marked
    -- The holder that warrants the mark is the class itself, as no other class holds the property.
    obtain ⟨holder, entered', held', requires⟩ := tidy.warranted id property held marked
    rw [tidy.disjoint arranged entered entered' held held']
    exact requires
  · have reconciled := (tidy.reconciled id entered).resolve_left (Set.notMem_empty id)
    exact (reconciled property held (tidy.enclosed id property held)).1

/-- In the end something stands in for each property of a class. -/
theorem Tidy.covered (tidy : Tidy ∅ gain first model) (entered : model.Entered id)
    (held : property ∈ (model.ledger.record id).properties) :
    (model.ledger.record property).IsCovered :=
  (((tidy.reconciled id entered).resolve_left (Set.notMem_empty id)) property held
    (tidy.enclosed id property held)).2

/-- What is surveyed is tidy: no class was entered yet, and no property is marked. -/
theorem Declared.tidy (declared : first.Declared) : Tidy ∅ ∅ first first where
  inRange id inside := declared.sound.owned.present id inside
  enclosed holder property held :=
    (declared.sound.forest.inside holder property (Record.mem_children.mpr (.inl held))).2
  -- Neither a declaration is begun nor a class nested.
  reconciled id entered := by
    cases entered with
    | @declared owner _ begun =>
      rw [(declared.raw owner).isAnalysed] at begun
      cases begun
    | @nested owner _ member _ =>
      rw [(declared.raw owner).nested] at member
      exact absurd member (Array.not_mem_empty _)
  warranted holder property held marked := by
    rw [(declared.sound.raw property).isRequired] at marked
    cases marked
  drawn owner nested member := by
    -- No class is nested yet.
    rw [(declared.raw owner).nested] at member
    exact absurd member (Array.not_mem_empty _)
  lone a b property late held _ := by
    -- A property beyond the survey is in nobody's hands.
    have inside := (declared.sound.forest.inside a property (Record.mem_children.mpr (.inl held))).2
    exact absurd inside (Nat.not_lt.mpr late)
  gained property member := absurd member (Set.notMem_empty property)

open Modelling

/-- A model stays tidy where required names are heeded and the varied records are reconciled in the
end. -/
theorem Tidy.heed (tidy : Tidy varied gain first before) (heeding : Heeding varied gain before after)
    (arranged : first.Arranged after) (closed : ∀ id ∈ varied, after.Reconciled id) :
    Tidy ∅ ∅ first after where
  inRange id inside := by
    -- The checks of a record are where they were, and the sets are as many.
    rw [(heeding.record id).origin.2.2, heeding.sets]
    exact tidy.inRange id (heeding.size ▸ inside)
  enclosed holder property held := by
    rw [heeding.size]
    -- A property that is gained was enclosed before as one of its former holder.
    rcases (heeding.record holder).gained property held with earlier | ⟨-, new⟩
    · exact tidy.enclosed holder property earlier
    · obtain ⟨-, holder, held⟩ := tidy.gained property new
      exact tidy.enclosed holder property held
  reconciled id entered := by
    -- A class was open, reconciled before or reconciled by the run.
    by_cases open' : id ∈ varied
    · exact .inr (closed id open')
    · rcases heeding.reconciled id entered with earlier | varied | reconciled
      · exact .inr (heeding.stays open' ((tidy.reconciled id earlier).resolve_left open'))
      · exact absurd varied open'
      · exact .inr reconciled
  warranted holder property held marked := by
    rcases heeding.warranted property marked with earlier | warrants
    · -- Whatever a varied record gains was held by some record before.
      have known : ∃ holder, property ∈ (before.ledger.record holder).properties :=
        ((heeding.record holder).gained property held).elim (fun earlier => ⟨holder, earlier⟩)
          fun new => (tidy.gained property new.2).2
      obtain ⟨holder, held⟩ := known
      exact heeding.warrants (tidy.warranted holder property held earlier)
    · exact warrants
  drawn owner nested member := by
    -- A class that was nested before draws on the same record as before.
    rcases heeding.nested owner nested member with earlier | ⟨plain, made⟩
    · obtain ⟨source, draws⟩ := tidy.drawn owner nested earlier
      refine ⟨source, { draws with
        present := heeding.size ▸ draws.present
        surveyed := fun property held present => ?_
        gained := fun open' => absurd open' (Set.notMem_empty _) }⟩
      -- A property of the class was there before or is one that may be gained.
      rcases (heeding.record nested.record).gained property held with earlier | ⟨open', new⟩
      · exact draws.surveyed property earlier present
      · exact draws.gained open' property new
    · -- A class that the analysis has nested is made from a record of the declaration.
      have inside : owner.index < first.declarations.size :=
        arranged.size ▸ inside_of_mem_nested member
      have belongs := (arranged.belongs owner nested member).record plain
      have settles := arranged.settles inside belongs
      refine ⟨nested.record, belongs, ?_, .inl rfl, ?_, fun property held _ => ?_,
        fun open' => absurd open' (Set.notMem_empty _)⟩
      · rw [made, settles.sameOrigin.schema]
      · exact Nat.lt_of_lt_of_le ((arranged.declared.closed_scope inside).present _ belongs)
          arranged.ledger.size_le
      · rw [settles.properties_eq] at held
        exact held
  lone a b property late held held' := by
    have earlier {id : RecordId} (held : property ∈ (after.ledger.record id).properties) :
        property ∈ (before.ledger.record id).properties :=
      -- What may be gained was surveyed, and this property was not.
      ((heeding.record id).gained property held).resolve_right fun new =>
        absurd (tidy.gained property new.2).1 (Nat.not_lt.mpr late)
    exact tidy.lone a b property late (earlier held) (earlier held')
  gained property member := absurd member (Set.notMem_empty property)

/-- A class is nested for a branch; it is yet to be reconciled. -/
theorem Tidy.nestBranch (tidy : Tidy ∅ ∅ first before) (arranged : first.Arranged before)
    (inside : owner.index < first.declarations.size) (member : added.record ∈ first.realm owner)
    (made : added.origin = (before.ledger.record added.record).schema) :
    Tidy {added.record} ∅ first (before.updateDeclaration owner fun declaration =>
      { declaration with nested := declaration.nested.push added }) where
  inRange := tidy.inRange
  enclosed := tidy.enclosed
  -- The new class is the one that is left open, and all others are as they were.
  reconciled id entered := (entered_push entered).symm.imp (fun new => new.1)
    fun earlier => (tidy.reconciled id earlier).resolve_left (Set.notMem_empty id)
  warranted holder property held marked := by
    obtain ⟨holder, entered, rest⟩ := tidy.warranted holder property held marked
    exact ⟨holder, entered.forward .nest, rest⟩
  drawn other nested listed := by
    -- The pushed class is the one to look at; the others draw on what they drew on.
    rcases mem_push listed with earlier | ⟨rfl, rfl⟩
    · obtain ⟨source, draws⟩ := tidy.drawn other nested earlier
      exact ⟨source, { draws with gained := fun _ property new => absurd new (Set.notMem_empty _) }⟩
    · -- The class draws on the record of the branch itself, which is as it was surveyed.
      have settles := arranged.settles inside member
      refine ⟨nested.record, member, ?_, .inl rfl, ?_, fun property held _ => ?_,
        fun _ property new => absurd new (Set.notMem_empty _)⟩
      · rw [made, settles.sameOrigin.schema]
      · exact Nat.lt_of_lt_of_le ((arranged.declared.closed_scope inside).present _ member)
          arranged.ledger.size_le
      · rw [← settles.properties_eq]
        exact held
  lone := tidy.lone
  gained property new := absurd new (Set.notMem_empty property)

section

variable {copies : List RecordId} {ledger : Ledger}

/-- Records that were there hold the same properties when a variant joins, so they require the same. -/
theorem Warrants.vary {origin : Option SchemaId} (warrants : before.Warrants property)
    (present : ∀ id, before.Entered id → id.index < before.ledger.size)
    (there : property.index < before.ledger.size) (forward : Forward before after)
    (varies : before.ledger.Varies container origin copies after.ledger) : after.Warrants property := by
  obtain ⟨holder, entered, held, requires⟩ := warrants
  -- The holder was there, so it holds and requires the same as before.
  have same := varies.record holder (present holder entered)
  refine ⟨holder, entered.forward forward, ?_, ?_⟩
  · rw [same]
    exact held
  · rw [Ledger.Requires, same, varies.record property there]
    exact requires

/-- A property that was not surveyed is held by one record only, also when a variant of a surveyed record
joins. -/
theorem Tidy.lone_vary {origin : Option SchemaId} (tidy : Tidy varied gain first before)
    (arranged : first.Arranged before) (present : container.index < first.ledger.size)
    (varies : before.ledger.Varies container origin copies ledger)
    (late : first.ledger.size ≤ property.index) (held : property ∈ (ledger.record a).properties)
    (held' : property ∈ (ledger.record b).properties) : a = b := by
  -- What lies inside a property that was copied was surveyed.
  have old {holder : RecordId} (held : property ∈ (ledger.record holder).properties) :
      property ∈ (before.ledger.record holder).properties ∨
        holder = ⟨before.ledger.size⟩ ∧ before.ledger.size ≤ property.index := by
    -- It was held before, or is a copy held by the variant, or lies inside a property from the
    -- survey.
    rcases varies.holds held with ⟨-, held⟩ | ⟨same, copied⟩ | ⟨source, held, below⟩
    · exact .inl held
    · obtain ⟨source, -, repeats⟩ := varies.repeats property copied
      exact .inr ⟨same, repeats.late⟩
    · have there := arranged.surveyed (arranged.surveyed present held) below
      exact absurd there (Nat.not_lt.mpr late)
  -- One of the two can be a copy and the other not, in which case the copy would have been there
  -- before.
  rcases old held with held | ⟨same, last⟩ <;> rcases old held' with held' | ⟨same', last'⟩
  · exact tidy.lone a b property late held held'
  · exact absurd (tidy.enclosed a property held) (Nat.not_lt.mpr last')
  · exact absurd (tidy.enclosed b property held') (Nat.not_lt.mpr last)
  · rw [same, same']

/-- Where a class was reconciled before a variant joined, it still is. -/
theorem Tidy.reconciled_vary {origin : Option SchemaId} (tidy : Tidy ∅ gain first before)
    (arranged : first.Arranged before) (entered : before.Entered id)
    (varies : before.ledger.Varies container origin copies after.ledger) : after.Reconciled id := by
  intro property held _
  -- A class that was entered has a record that was there, and its properties were as well.
  have same := varies.record id (tidy.present arranged entered)
  rw [same] at held
  have there := tidy.enclosed id property held
  have reconciled := (tidy.reconciled id entered).resolve_left (Set.notMem_empty id)
  rw [Ledger.Requires, same, varies.record property there]
  exact reconciled property held there

/-- A copy for a variant is marked where the class that it was copied from requires its name, and the
variant requires the same. -/
theorem Tidy.warrants_copy {origin : Option SchemaId} (tidy : Tidy ∅ gain first before)
    (arranged : first.Arranged before) (entered : before.Entered container)
    (varies : before.ledger.Varies container origin copies after.ledger)
    (joined : after.Entered ⟨before.ledger.size⟩) (copied : property ∈ copies)
    (marked : (after.ledger.record property).isRequired = true) : after.Warrants property := by
  -- The mark is that of the source, which the container warrants.
  obtain ⟨source, held, repeats⟩ := varies.repeats property copied
  rw [repeats.record] at marked
  have requires := (tidy.isRequired_iff arranged entered held).mp marked
  -- The variant requires what the container requires, and it holds the copy.
  refine ⟨⟨before.ledger.size⟩, joined, ?_, ?_⟩
  · rw [varies.record_variant]
    exact copied
  · rw [Ledger.Requires, varies.record_variant, repeats.record]
    exact requires

/-- Every mark is warranted where a variant has joined and its class was entered. -/
theorem Tidy.warranted_vary {origin : Option SchemaId} (tidy : Tidy ∅ gain first before)
    (arranged : first.Arranged before) (entered : before.Entered container)
    (forward : Forward before after)
    (varies : before.ledger.Varies container origin copies after.ledger)
    (joined : after.Entered ⟨before.ledger.size⟩)
    (held : property ∈ (after.ledger.record holder).properties)
    (marked : (after.ledger.record property).isRequired = true) : after.Warrants property := by
  -- A mark that was warranted before is so in the end.
  have kept {holder : RecordId} (held : property ∈ (before.ledger.record holder).properties) :
      after.Warrants property := by
    have there := tidy.enclosed holder property held
    rw [varies.record property there] at marked
    exact (tidy.warranted holder property held marked).vary
      (fun _ entered => tidy.present arranged entered) there forward varies
  -- The property is held by a record from before, by the variant, or by a property that was copied.
  rcases varies.holds held with ⟨-, held⟩ | ⟨-, copied⟩ | ⟨source, -, held⟩
  · exact kept held
  · exact tidy.warrants_copy arranged entered varies joined copied marked
  · exact kept held

/-- A nested class draws on the same record after a variant has joined, and is none that may gain. -/
theorem Draws.vary {origin : Option SchemaId} (draws : Draws varied gain first before owner nested source)
    (varies : before.ledger.Varies container origin copies after.ledger) (gain' : Set RecordId) :
    Draws {⟨before.ledger.size⟩} gain' first after owner nested source := by
  -- The class draws on a record that was there, and nothing about it has changed.
  have same := varies.record nested.record draws.present
  exact { draws with
    present := Nat.lt_of_lt_of_le draws.present varies.size_le
    surveyed := fun property held present => draws.surveyed property (same ▸ held) present
    gained := fun new => by
      -- The variant is none of the classes from before.
      have present := draws.present
      rw [Set.mem_singleton_iff.mp new] at present
      exact absurd present (Nat.lt_irrefl _) }

/-- The class of a variant draws on the branch that it was made for: what it holds already is copied,
and what it may gain lies in the branch. -/
theorem Arranged.draws_variant {origin : Option SchemaId} (arranged : first.Arranged before)
    (inside : owner.index < first.declarations.size) (belongs : branch ∈ first.inBranches owner)
    (varies : before.ledger.Varies container origin copies after.ledger)
    (record : added.record = ⟨before.ledger.size⟩)
    (made : added.origin = (before.ledger.record branch).schema) :
    Draws varied {property | property ∈ (first.ledger.record branch).properties} first after owner
      added branch where
  member := inBranches_subset belongs
  made := by rw [made, (arranged.settles inside (inBranches_subset belongs)).sameOrigin.schema]
  place := .inr belongs
  present := by
    rw [record]
    exact varies.variant.present
  surveyed property held present := by
    -- The copies come behind all that was surveyed.
    rw [record, varies.record_variant] at held
    obtain ⟨source, -, repeats⟩ := varies.repeats property held
    exact absurd (Nat.lt_of_lt_of_le present arranged.ledger.size_le) (Nat.not_lt.mpr repeats.late)
  gained _ _ held := held

/-- A class is nested for the variant of a class that was entered, and for one of its branches; it may
still gain the properties of the branch, and it is yet to be reconciled. -/
theorem Tidy.nestVariant (tidy : Tidy ∅ ∅ first before) (arranged : first.Arranged before)
    (inside : owner.index < first.declarations.size) (entered : before.Entered container)
    (member : container ∈ first.realm owner) (belongs : branch ∈ first.inBranches owner)
    (varies : before.ledger.Varies container (before.ledger.record branch).schema copies ledger)
    (record : added.record = ⟨before.ledger.size⟩)
    (made : added.origin = (before.ledger.record branch).schema) (concrete : added.kind = .concrete) :
    Tidy {⟨before.ledger.size⟩} {property | property ∈ (first.ledger.record branch).properties} first
      ((before.withLedger ledger).updateDeclaration owner fun declaration =>
        { declaration with nested := declaration.nested.push added }) := by
  have closed := arranged.declared.closed_scope inside
  have branched : branch ∈ first.realm owner := inBranches_subset belongs
  -- Nothing that was noted is lost when a class is nested.
  have forward : Forward before ((before.withLedger ledger).updateDeclaration owner fun declaration =>
      { declaration with nested := declaration.nested.push added }) := Forward.survey.trans .nest
  -- The variant is a class that has been entered, namely the one that is pushed.
  have joined : ((before.withLedger ledger).updateDeclaration owner fun declaration =>
      { declaration with nested := declaration.nested.push added }).Entered ⟨before.ledger.size⟩ := by
    rw [← record]
    exact entered_push_self (arranged.size ▸ inside) concrete
  exact {
    inRange := varies.inRange tidy.inRange
    enclosed := fun holder property held => varies.enclosed tidy.enclosed held
    reconciled := fun id entered => by
      -- All classes but the new one are reconciled as before.
      rcases entered_push entered with earlier | new
      · exact .inr (tidy.reconciled_vary arranged (earlier.congr fun _ => rfl) varies)
      · exact .inl (new.1.trans record)
    warranted := fun holder property held marked =>
      tidy.warranted_vary arranged entered forward varies joined held marked
    drawn := fun other nested listed => by
      -- The new class draws on the branch, every other one on its record of old.
      rcases mem_push listed with earlier | ⟨rfl, rfl⟩
      · obtain ⟨source, draws⟩ := tidy.drawn other nested earlier
        exact ⟨source, draws.vary varies _⟩
      · exact ⟨branch, arranged.draws_variant inside belongs varies record made⟩
    lone := fun a b property late => tidy.lone_vary arranged (closed.present container member) varies late
    gained := fun property held => by
      -- The branch is still as it was surveyed.
      refine ⟨(arranged.declared.sound.forest.inside branch property
        (Record.mem_children.mpr (.inl held))).2, branch, ?_⟩
      have there := Nat.lt_of_lt_of_le (closed.present branch branched) arranged.ledger.size_le
      rw [ledger_updateDeclaration, ledger_withLedger, varies.record branch there,
        (arranged.settles inside branched).properties_eq]
      exact held }

end

end Model

end SchemaClasses
