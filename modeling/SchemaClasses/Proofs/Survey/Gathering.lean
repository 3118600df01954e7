import SchemaClasses.Proofs.Survey.Telling

/-! Every record under a root gathers what is told about the value at the end of the route to it, all of
it and nothing else, in whatever order a survey comes upon it. -/

namespace SchemaClasses

namespace Ledger

/-- A record has the branches it had as long as it lists the same records and these are made for the
same schemas. -/
theorem hasBranch_congr {ledger later : Ledger} {id : RecordId} (forest : ledger.Forest)
    (listed : (later.record id).oneOf = (ledger.record id).oneOf)
    (made : ∀ known : RecordId, known.index < ledger.size →
      (later.record known).schema = (ledger.record known).schema) :
    (fun schema => later.hasBranch id schema = true) =
      fun schema => ledger.hasBranch id schema = true := by
  funext schema
  simp only [hasBranch, listed, List.any_eq_true, eq_iff_iff]
  -- The listed records were made before, so their schemas are those that were known.
  refine exists_congr fun known => and_congr_right fun member => ?_
  rw [made known (forest.inside id known (Record.mem_children_iff.mpr ⟨.branch, member⟩)).2]

/-- Records are made for the same schemas as long as that is so for the one that changes. -/
theorem schema_eq {ledger later : Ledger} {id : RecordId}
    (origin : (ledger.record id).SameOrigin (later.record id))
    (others : ∀ other : RecordId, other.index < ledger.size → other ≠ id →
      later.record other = ledger.record other) (known : RecordId)
    (present : known.index < ledger.size) :
    (later.record known).schema = (ledger.record known).schema := by
  by_cases same : known = id
  · exact same ▸ origin.schema
  · rw [others known present same]

/-- A ledger in which the records under a root have gathered all that was told: each sums up what was
told about its value, and wherever a schema describes a value, there is a record for it, unless it is
lost. -/
structure Gathered (tree : SchemaTree) (root : RecordId) (log : Set (Route × Entry))
    (ledger : Ledger) : Prop where
  sound : ledger.Sound
  present : root.index < ledger.size
  positive : (ledger.record root).negationOf = none
  sums : ∀ route id, ledger.standing root route = .here id →
    (ledger.record id).Sums tree (fun schema => ledger.hasBranch id schema)
      { entry | (route, entry) ∈ log }
  described : ∀ route id, ledger.standing root route = .here id → (route, .described) ∈ log
  standing : ∀ route, (route, .described) ∈ log → ledger.standing root route ≠ .vacant
  owned : ∀ note ∈ log, (note.1, .described) ∈ log

/-- What is told of a value once more is told of it. -/
theorem told_union_singleton {log : Set (Route × Entry)} {route : Route} {entry : Entry} :
    { other | (route, other) ∈ log ∪ {(route, entry)} } =
      insert entry { other | (route, other) ∈ log } := by
  ext other
  simp

namespace Gathered

variable {tree : SchemaTree} {root id : RecordId} {log notes : Set (Route × Entry)}
variable {ledger later : Ledger} {route further : Route}

/-- Between two ledgers one record changes and at most one new record is put at the end of a route where
there was none, while the other records and all other routes stay what they are, but for what is lost.
What is noted is about the record that changes, or says that there is a value where the new one is. -/
structure Advances (root : RecordId) (notes : Set (Route × Entry)) (ledger later : Ledger)
    (route further : Route) (id new : RecordId) : Prop where
  here : ledger.standing root route = .here id
  size_le : ledger.size ≤ later.size
  origin : (ledger.record id).SameOrigin (later.record id)
  others : ∀ other : RecordId, other.index < ledger.size → other ≠ id →
    later.record other = ledger.record other
  standing : ∀ q, later.standing root q = ledger.standing root q ∨ later.standing root q = .lost ∨
    q = further ∧ later.standing root q = .here new ∧ ledger.standing root q = .vacant
  only : ∀ note ∈ notes, note.1 = route ∨
    note = (further, .described) ∧ later.standing root further ≠ .vacant

namespace Advances

variable {new other : RecordId} {q : Route}

/-- Only where a record changed is something new told of a record that was there. -/
theorem told_eq (advances : Advances root notes ledger later route further id new)
    (gathered : ledger.Gathered tree root log) (there : ledger.standing root q = .here other)
    (apart : q ≠ route) : { entry | (q, entry) ∈ log ∪ notes } = { entry | (q, entry) ∈ log } := by
  ext entry
  refine or_iff_left_of_imp fun noted => ?_
  rcases advances.only _ noted with same | ⟨same, -⟩
  · exact absurd same apart
  · -- That there is a value was told before, since there is a record for it.
    rw [show entry = .described from congrArg Prod.snd same]
    exact gathered.described q other there

/-- All that is told of a new record is that there is a value. -/
theorem told_of_vacant (advances : Advances root notes ledger later route further id new)
    (gathered : ledger.Gathered tree root log) (vacant : ledger.standing root q = .vacant)
    (noted : (q, .described) ∈ notes) : { entry | (q, entry) ∈ log ∪ notes } = {.described} := by
  ext entry
  constructor
  · rintro (told | told)
    · -- Where no record was, nothing was told.
      exact absurd vacant (gathered.standing q (gathered.owned _ told))
    · -- What was noted now is about the route or about the value that has joined.
      rcases advances.only _ told with same | ⟨same, -⟩
      · rw [show q = route from same, advances.here] at vacant
        cases vacant
      · exact congrArg Prod.snd same
  · rintro rfl
    exact .inr noted

/-- The records that were there still sum up what is told if the one that changes does. -/
theorem sums_of_here (advances : Advances root notes ledger later route further id new)
    (gathered : ledger.Gathered tree root log)
    (sums : (later.record id).Sums tree (fun schema => later.hasBranch id schema)
      { entry | (route, entry) ∈ log ∪ notes }) (there : ledger.standing root q = .here other) :
    (later.record other).Sums tree (fun schema => later.hasBranch other schema)
      { entry | (q, entry) ∈ log ∪ notes } := by
  have inside := (bounds_of_standing gathered.sound gathered.present there).2
  -- The route at hand is the only one that may be told something new.
  by_cases same : q = route
  · subst same
    have itself : other = id := Standing.here.inj (there.symm.trans advances.here)
    exact itself ▸ sums
  · -- No other route leads to the record that changes.
    have apart : other ≠ id := by
      rintro rfl
      exact same (standing_inj gathered.sound gathered.present there advances.here)
    have unchanged := advances.others other inside apart
    -- Its branches were listed by the same records.
    have branched := hasBranch_congr gathered.sound.forest (congrArg Record.oneOf unchanged)
      (schema_eq advances.origin advances.others)
    rw [advances.told_eq gathered there same, branched, unchanged]
    exact gathered.sums q other there

/-- No value is lost sight of. -/
theorem not_vacant (advances : Advances root notes ledger later route further id new)
    (known : ledger.standing root q ≠ .vacant) : later.standing root q ≠ .vacant := by
  rcases advances.standing q with same | lost | ⟨-, -, vacant⟩
  · rwa [same]
  · rw [lost]
    exact Standing.noConfusion
  · exact absurd vacant known

end Advances

/-- If the record that changes sums up what is told of it, and a new one that a value is described,
everything is gathered. -/
theorem advance {new : RecordId} (gathered : ledger.Gathered tree root log)
    (advances : Advances root notes ledger later route further id new) (sound : later.Sound)
    (sums : (later.record id).Sums tree (fun schema => later.hasBranch id schema)
      { entry | (route, entry) ∈ log ∪ notes })
    (fresh : ledger.standing root further = .vacant → (further, .described) ∈ notes ∧
      (later.record new).Sums tree (fun schema => later.hasBranch new schema) {.described}) :
    later.Gathered tree root (log ∪ notes) where
  sound := sound
  present := Nat.lt_of_lt_of_le gathered.present advances.size_le
  positive := by
    -- The root is the record that changes or keeps its sides.
    by_cases same : root = id
    · subst same
      exact advances.origin.negationOf.trans gathered.positive
    · rw [advances.others root gathered.present same]
      exact gathered.positive
  sums q other stands := by
    -- A record at the end of a route was there before, or is the new one.
    rcases advances.standing q with same | lost | ⟨rfl, newest, vacant⟩
    · exact advances.sums_of_here gathered sums (same ▸ stands)
    · rw [lost] at stands
      cases stands
    · -- The new record is told nothing but that it is there.
      rw [newest] at stands
      cases stands
      rw [advances.told_of_vacant gathered vacant (fresh vacant).1]
      exact (fresh vacant).2
  -- Whoever stands somewhere is described there by the earlier notes or by the new one.
  described q other stands := by
    rcases advances.standing q with same | lost | ⟨rfl, -, vacant⟩
    · exact .inl (gathered.described q other (same ▸ stands))
    · rw [lost] at stands
      cases stands
    · exact .inr (fresh vacant).1
  -- Nothing is noted for a place that stays vacant.
  standing q noted := by
    rcases noted with noted | noted
    · exact advances.not_vacant (gathered.standing q noted)
    · rcases advances.only _ noted with same | ⟨same, stands⟩
      · refine advances.not_vacant ?_
        rw [show q = route from same, advances.here]
        exact Standing.noConfusion
      · cases same
        exact stands
  -- Every note belongs to a value that was described.
  owned note noted := by
    rcases noted with noted | noted
    · exact .inl (gathered.owned note noted)
    · rcases advances.only note noted with same | ⟨rfl, -⟩
      · exact .inl (same ▸ gathered.described route id advances.here)
      · exact .inr noted

/-- One record changes, while the others and all routes stay what they are, but for what is lost. -/
theorem step (gathered : ledger.Gathered tree root log)
    (here : ledger.standing root route = .here id) (sound : later.Sound)
    (size_le : ledger.size ≤ later.size)
    (origin : (ledger.record id).SameOrigin (later.record id))
    (others : ∀ other : RecordId, other.index < ledger.size → other ≠ id →
      later.record other = ledger.record other)
    (standing : ∀ q, later.standing root q = ledger.standing root q ∨ later.standing root q = .lost)
    (only : ∀ note ∈ notes, note.1 = route)
    (sums : (later.record id).Sums tree (fun schema => later.hasBranch id schema)
      { entry | (route, entry) ∈ log ∪ notes }) : later.Gathered tree root (log ∪ notes) := by
  -- The only place where something new could stand is taken.
  have taken : ledger.standing root route ≠ .vacant := by
    rw [here]
    exact Standing.noConfusion
  -- There is no second route: the one at hand plays both parts.
  have advances : Advances root notes ledger later route route id id :=
    ⟨here, size_le, origin, others, fun q => (standing q).imp_right .inl,
      fun note noted => .inl (only note noted)⟩
  exact gathered.advance advances sound sums fun vacant => absurd vacant taken

/-- What is told about values that are lost has no effect. -/
theorem skip (gathered : ledger.Gathered tree root log)
    (lost : ledger.standing root further = .lost) (beyond : ∀ note ∈ notes, further <:+ note.1)
    (owned : ∀ note ∈ notes, (note.1, .described) ∈ notes) :
    ledger.Gathered tree root (log ∪ notes) where
  sound := gathered.sound
  present := gathered.present
  positive := gathered.positive
  sums q other stands := by
    -- Where a value is lost, all beyond it is lost as well, so no record is told any of this.
    have told : { entry | (q, entry) ∈ log ∪ notes } = { entry | (q, entry) ∈ log } := by
      ext entry
      refine or_iff_left fun noted => ?_
      rw [standing_of_suffix lost (beyond _ noted)] at stands
      cases stands
    rw [told]
    exact gathered.sums q other stands
  -- No new record stands anywhere.
  described q other stands := .inl (gathered.described q other stands)
  standing q noted := by
    rcases noted with noted | noted
    · exact gathered.standing q noted
    · rw [standing_of_suffix lost (beyond _ noted)]
      exact Standing.noConfusion
  owned note noted := noted.imp (gathered.owned note) (owned note)

/-- A record settles what a keyword says about additional properties. -/
theorem settle {schema : SchemaId} {additional : Option AdditionalProperties}
    (gathered : ledger.Gathered tree root log) (here : ledger.standing root route = .here id)
    (sound : later.Sound) (size_le : ledger.size ≤ later.size)
    (self : later.record id = { ledger.record id with additional })
    (others : ∀ other ≠ id, later.record other = ledger.record other)
    (rank : AdditionalProperties.rank additional =
      max (AdditionalProperties.rank (ledger.record id).additional) (tree.additionalRank schema))
    (standing : ∀ q,
      later.standing root q = ledger.standing root q ∨ later.standing root q = .lost) :
    later.Gathered tree root (log ∪ {(route, .keyword (.additionalProperties schema))}) := by
  -- The record keeps its origin, and its branches stay.
  have origin : (ledger.record id).SameOrigin (later.record id) := self ▸ ⟨rfl, rfl, rfl, rfl⟩
  have branches := hasBranch_congr gathered.sound.forest (by rw [self])
    (schema_eq origin fun other _ => others other)
  -- The rank of the place is all that a keyword of this kind adds.
  refine gathered.step here sound size_le origin (fun other _ => others other) standing (by simp) ?_
  rw [branches, self, told_union_singleton]
  exact (gathered.sums route id here).settle rank

/-- Changes elsewhere have no effect. -/
theorem of_record_eq (gathered : ledger.Gathered tree root log) (sound : later.Sound)
    (size_le : ledger.size ≤ later.size)
    (records : ∀ other : RecordId, other.index < ledger.size →
      later.record other = ledger.record other) :
    later.Gathered tree root log ∧
      ∀ q, later.standing root q = ledger.standing root q := by
  have here : ledger.standing root [] = .here root := rfl
  -- Routes run over the records that were there, none of which changed.
  have legs (id : RecordId) (present : id.index < ledger.size) (leg : Leg) :
      later.leg id leg = ledger.leg id leg := by
    refine leg_congr (records id present ▸ .refl _ _) fun property member => ?_
    have inside := gathered.sound.forest.inside id property (Record.mem_children.mpr (.inl member))
    unfold Ledger.name
    rw [records property inside.2]
  have standing (q : Route) : later.standing root q = ledger.standing root q :=
    standing_congr gathered.sound gathered.present legs
  have branches := hasBranch_congr gathered.sound.forest
    (congrArg Record.oneOf (records root gathered.present)) fun known present =>
      congrArg Record.schema (records known present)
  -- This is a step without notes, and the record at hand is the root.
  have stepped : later.Gathered tree root (log ∪ ∅) :=
    gathered.step here sound size_le (records root gathered.present ▸ .refl _)
      (fun other present _ => records other present)
      (fun q => .inl (standing q)) (fun _ noted => absurd noted (Set.notMem_empty _)) (by
        rw [records root gathered.present, branches, Set.union_empty]
        exact gathered.sums [] root here)
  rw [Set.union_empty] at stepped
  exact ⟨stepped, standing⟩

/-- A record without any statement sums up what is told of one that was just put somewhere. -/
theorem sums_of_fresh {new : RecordId} (stated : (later.record new).stated = {})
    (additional : (later.record new).additional = none) (oneOf : (later.record new).oneOf = []) :
    (later.record new).Sums tree (fun schema => later.hasBranch new schema) {.described} := by
  have branches : (fun schema => later.hasBranch new schema = true) = fun _ => False := by
    funext schema
    simp [hasBranch, oneOf]
  rw [branches]
  exact .of_fresh stated additional

/-- A new record is put where none was before. -/
theorem put {leg : Leg} {new : RecordId} (gathered : ledger.Gathered tree root log)
    (here : ledger.standing root route = .here id) (vacant : ledger.leg id leg = .vacant)
    (leads : later.leg id leg = .here new) (barren : ∀ leg, later.leg new leg = .vacant)
    (legs : ∀ other : RecordId, other.index < ledger.size → ∀ leg', ¬ (other = id ∧ leg' = leg) →
      later.leg other leg' = ledger.leg other leg')
    (sound : later.Sound) (size_le : ledger.size ≤ later.size)
    (origin : (ledger.record id).SameOrigin (later.record id))
    (others : ∀ other : RecordId, other.index < ledger.size → other ≠ id →
      later.record other = ledger.record other)
    (only : ∀ note ∈ notes, note.1 = route)
    (sums : (later.record id).Sums tree (fun schema => later.hasBranch id schema)
      { entry | (route, entry) ∈ log ∪ notes })
    (fresh : (later.record new).Sums tree (fun schema => later.hasBranch new schema) {.described}) :
    later.Gathered tree root (log ∪ (notes ∪ {(leg :: route, .described)})) ∧
      later.standing root (leg :: route) = .here new := by
  -- A route runs as before, ends at the new record, or is lost.
  have standing (q : Route) :=
    @standing_of_new _ _ _ _ _ q _ gathered.sound gathered.present _ here vacant leads barren legs
  -- The way to the holder is none that ends in the new record.
  have stays : later.standing root route = .here id := by
    rcases standing route with same | ⟨same, -⟩
    · rw [same, here]
    · exact absurd same.symm (List.cons_ne_self _ _)
  have put : later.standing root (leg :: route) = .here new := by
    rw [standing_cons stays, leads]
  -- The notes are about the holder, except for the one that describes the new record.
  have advances : Advances root (notes ∪ {(leg :: route, .described)}) ledger later route
      (leg :: route) id new := by
    refine ⟨here, size_le, origin, others, fun q => (standing q).imp_right .inr,
      fun note noted => noted.imp (only note) fun same => ⟨same, ?_⟩⟩
    rw [put]
    exact Standing.noConfusion
  refine ⟨gathered.advance advances sound ?_ fun _ => ⟨.inr rfl, fresh⟩, put⟩
  -- The new note is not about the record at hand.
  have same : { entry | (route, entry) ∈ log ∪ (notes ∪ {(leg :: route, .described)}) } =
      { entry | (route, entry) ∈ log ∪ notes } := by
    ext entry
    have apart : (route, entry) ≠ (leg :: route, .described) := fun same =>
      List.cons_ne_self _ _ (congrArg Prod.fst same).symm
    simp only [Set.mem_ofPred_eq, Set.mem_union, Set.mem_singleton_iff, apart, or_false]
  rw [same]
  exact sums

/-- A place is filled with a new record. -/
theorem attach {slot : Slot} (gathered : ledger.Gathered tree root log)
    (here : ledger.standing root route = .here id) (free : slot.IsFree ledger id)
    (open' : slot = .additional → (ledger.record id).additional ≠ some .forbidden)
    (schema : SchemaId) (only : ∀ note ∈ notes, note.1 = route)
    (sums : (slot.fill ⟨ledger.size⟩ (ledger.record id)).Sums tree
      (fun schema => ledger.hasBranch id schema) { entry | (route, entry) ∈ log ∪ notes }) :
    let later := (ledger.create (some schema) slot.name?).2.update id (slot.fill ⟨ledger.size⟩)
    later.Gathered tree root (log ∪ (notes ∪ {(.slot slot :: route, .described)})) ∧
      later.standing root (.slot slot :: route) = .here ⟨ledger.size⟩ := by
  -- The place of the new record leads nowhere before.
  have present := (bounds_of_standing gathered.sound gathered.present here).2
  obtain ⟨leads, barren, legs⟩ := leg_attach gathered.sound present free schema
  have there : id.index < (ledger.create (some schema) slot.name?).2.size := by
    simpa using Nat.lt_succ_of_lt present
  -- The ledger with the record in it is given a name.
  obtain ⟨later, same⟩ : ∃ later : Ledger,
      (ledger.create (some schema) slot.name?).2.update id (slot.fill ⟨ledger.size⟩) = later :=
    ⟨_, rfl⟩
  have filled : later.record id = slot.fill ⟨ledger.size⟩ (ledger.record id) := by
    rw [← same, record_update_self there, record_create_of_lt present]
  -- Making the record and filling its place changes nothing but that place.
  have others (other : RecordId) (inside : other.index < ledger.size) (apart : other ≠ id) :
      later.record other = ledger.record other := by
    rw [← same, record_update_of_ne apart, record_create_of_lt inside]
  have newest : later.record ⟨ledger.size⟩ = ledger.fresh (some schema) slot.name? := by
    rw [← same, record_update_of_ne (RecordId.ne_next present).symm, record_create, if_pos rfl]
  have origin : (ledger.record id).SameOrigin (later.record id) :=
    filled ▸ Slot.sameOrigin_fill
  -- Filling a place leaves the branches alone.
  have listed : (later.record id).oneOf = (ledger.record id).oneOf := by
    rw [filled]
    cases slot <;> rfl
  have branches := hasBranch_congr gathered.sound.forest listed (schema_eq origin others)
  have sound : later.Sound := same ▸ gathered.sound.attach present free schema
  have size : later.size = ledger.size + 1 := by rw [← same]; simp
  -- All that put asks for is known now, except that the holder sums up what it is told.
  rw [same] at leads barren legs ⊢
  refine gathered.put here (leg_slot_of_free (Slot.isFree_iff.mp free) open') leads barren legs sound
    (by omega) origin others only ?_ (sums_of_fresh (by rw [newest]; rfl) (by rw [newest]; rfl)
      (by rw [newest]; rfl))
  rw [branches, filled]
  exact sums

/-- A negation is made for a record that has none. -/
theorem negate (gathered : ledger.Gathered tree root log)
    (here : ledger.standing root route = .here id)
    (positive : (ledger.record id).negationOf = none) (unset : (ledger.record id).negation = none) :
    (ledger.negation id).2.Gathered tree root (log ∪ {(.mirror :: route, .described)}) ∧
      (ledger.negation id).2.standing root (.mirror :: route) = .here ⟨ledger.size⟩ := by
  -- The mirror is looked up in the ledger with the negation.
  have present := (bounds_of_standing gathered.sound gathered.present here).2
  obtain ⟨leads, barren, legs⟩ := leg_negation gathered.sound present positive unset
  have records (other : RecordId) := @record_negation ledger id other present positive unset
  have self := records id
  rw [if_neg (RecordId.ne_next present), if_pos rfl] at self
  -- The new record is blank but for its side.
  have newest := records ⟨ledger.size⟩
  rw [if_pos rfl] at newest
  have others (other : RecordId) (inside : other.index < ledger.size) (apart : other ≠ id) :
      (ledger.negation id).2.record other = ledger.record other := by
    rw [records, if_neg (RecordId.ne_next inside), if_neg apart]
  -- Only the link to the mirror changes in the record.
  have origin : (ledger.record id).SameOrigin ((ledger.negation id).2.record id) := by
    rw [self]
    exact ⟨rfl, rfl, rfl, rfl⟩
  -- There was no mirror, so the new record stands where none was before.
  have vacant : ledger.leg id .mirror = .vacant := by
    rw [leg, unset]
    rfl
  have branches := hasBranch_congr gathered.sound.forest (by rw [self]) (schema_eq origin others)
  have put : (ledger.negation id).2.Gathered tree root
        (log ∪ (∅ ∪ {(.mirror :: route, .described)})) ∧
      -- To mirror is to put a record, without notes about the holder.
      (ledger.negation id).2.standing root (.mirror :: route) = .here ⟨ledger.size⟩ := by
    refine gathered.put here vacant leads barren legs (gathered.sound.negate present positive unset)
      (by rw [size_negation positive unset]; omega) origin others
      (fun _ noted => absurd noted (Set.notMem_empty _)) ?_
      (sums_of_fresh (by rw [newest]; rfl) (by rw [newest]; rfl) (by rw [newest]; rfl))
    -- The record with its mirror sums up the same.
    rw [branches, Set.union_empty, self]
    exact (gathered.sums route id here).congr rfl rfl
  rwa [Set.empty_union] at put

/-- A record that was made for a branch is linked. -/
theorem link {known : RecordId} {branch : SchemaId} (gathered : ledger.Gathered tree root log)
    (here : ledger.standing root route = .here id)
    (made : (ledger.record known).schema = some branch)
    (sound : (ledger.update id fun held => { held with oneOf := held.oneOf ++ [known] }).Sound) :
    (ledger.update id fun held => { held with oneOf := held.oneOf ++ [known] }).Gathered tree root
      (log ∪ {(route, .branch branch)}) := by
  -- The branch is linked in a record that is there.
  have present := (bounds_of_standing gathered.sound gathered.present here).2
  obtain ⟨later, same⟩ : ∃ later : Ledger,
      (ledger.update id fun held => { held with oneOf := held.oneOf ++ [known] }) = later := ⟨_, rfl⟩
  have self : later.record id =
      { ledger.record id with oneOf := (ledger.record id).oneOf ++ [known] } := by
    rw [← same, record_update_self present]
  -- No record is made for another schema by this.
  have schemas (other : RecordId) :
      (later.record other).schema = (ledger.record other).schema := by
    rw [← same]
    exact field_update Record.schema rfl
  have others (other : RecordId) (apart : other ≠ id) :
      later.record other = ledger.record other := by
    rw [← same, record_update_of_ne apart]
  -- Routes do not lead into branches, so that they all stay as they were.
  have legs (other : RecordId) (leg : Leg) : later.leg other leg = ledger.leg other leg := by
    rw [← same]
    exact leg_update (by rcases leg with (_ | _ | _ | _) | _ <;> rfl) rfl
  have size : later.size = ledger.size := by rw [← same, size_update]
  rw [same] at sound ⊢
  -- A step that tells the record of one branch.
  refine gathered.step here sound size.ge (self ▸ ⟨rfl, rfl, rfl, rfl⟩)
    (fun other _ apart => others other apart)
    (fun q => .inl (standing_congr gathered.sound gathered.present fun other _ leg => legs other leg))
    (by simp) ?_
  rw [told_union_singleton]
  refine ((gathered.sums route id here).congr (by rw [self]; rfl) (by rw [self])).branch
    fun other => ?_
  -- The listed branches are the earlier ones and this one.
  unfold hasBranch
  simp only [self, List.any_append, List.any_cons, List.any_nil, schemas, made, Bool.or_false,
    Bool.or_eq_true, beq_iff_eq, Option.some.injEq]
  exact or_congr_right eq_comm

end Gathered

end Ledger

namespace Survey

/-- A part of a survey that acts on the record at the end of a route and gathers what is noted. -/
structure Gathers (tree : SchemaTree) (root : RecordId) (route : Route) (id : RecordId)
    (part : Surveying Unit) (notes : Set (Route × Entry)) : Prop where
  works : Works tree id part
  refining : Refining tree part
  gathers : ∀ (log : Set (Route × Entry)) (start last : Survey),
    start.ledger.Gathered tree root log → start.ledger.standing root route = .here id →
    part start = .ok () last → last.ledger.Gathered tree root (log ∪ notes)

namespace Gathers

variable {tree : SchemaTree} {root id : RecordId} {route : Route} {part : Surveying Unit}
variable {notes notes' log : Set (Route × Entry)}

/-- The same notes in other words. -/
theorem congr (gathers : Gathers tree root route id part notes) (same : notes = notes') :
    Gathers tree root route id part notes' := same ▸ gathers

/-- The record at the end of a route stays there while a part acts on it. -/
theorem stays {start last : Survey} (gathers : Gathers tree root route id part notes)
    (gathered : start.ledger.Gathered tree root log)
    (here : start.ledger.standing root route = .here id) (ran : part start = .ok () last) :
    last.ledger.standing root route = .here id :=
  gathers.works.standing_eq gathers.refining gathered.sound gathered.present gathered.positive here ran

/-- A part that leaves the ledger alone gathers nothing. -/
theorem of_ledger_eq (refining : Refining tree part)
    (same : ∀ survey : Survey, Ends part survey (fun _ last => last.ledger = survey.ledger)
      (fun _ => False)) : Gathers tree root route id part ∅ where
  works := works_of_ledger_eq same
  refining := refining
  gathers log start last gathered _ ran := by
    rw [(same start).of_ok ran, Set.union_empty]
    exact gathered

theorem pure : Gathers tree root route id (Pure.pure ()) ∅ := .of_ledger_eq .pure fun _ => rfl

/-- One part after the other. -/
theorem bind {next : Unit → Surveying Unit} (gathers : Gathers tree root route id part notes)
    (gathers' : Gathers tree root route id (next ()) notes') :
    Gathers tree root route id (part >>= next) (notes ∪ notes') where
  works := gathers.works.bind fun _ => gathers'.works
  refining := gathers.refining.bind fun _ => gathers'.refining
  gathers log start last gathered here ran := by
    -- The first part ran to a ledger from which the second went on.
    obtain ⟨middle, ran, ran'⟩ := bind_eq_ok.mp ran
    rw [← Set.union_assoc]
    exact gathers'.gathers _ middle last (gathers.gathers log start middle gathered here ran)
      (gathers.stays gathered here ran) ran'

/-- A part for each item of a list. -/
theorem forM {α : Type} {items : List α} {round : α → Surveying Unit}
    {told : α → Set (Route × Entry)}
    (gathers : ∀ item ∈ items, Gathers tree root route id (round item) (told item)) :
    Gathers tree root route id (items.forM round) { note | ∃ item ∈ items, note ∈ told item } := by
  induction items with
  | nil => exact pure.congr (by simp)
  | cons item rest ih =>
    -- The notes of the list are those of its first item and of the rest.
    rw [List.forM]
    refine ((gathers item List.mem_cons_self).bind
      (ih fun other member => gathers other (List.mem_cons_of_mem _ member))).congr ?_
    ext note
    simp

/-- Before a part, something is noted that the record sums up already. -/
theorem noting {entry : Entry} (gathers : Gathers tree root route id part notes)
    (sums : ∀ (branched : SchemaId → Prop) (told : Set Entry) (record : Record),
      record.Sums tree branched told → record.Sums tree branched (insert entry told)) :
    Gathers tree root route id part ({(route, entry)} ∪ notes) where
  works := gathers.works
  refining := gathers.refining
  gathers log start last gathered here ran := by
    -- The entry is told first, without a change to the ledger.
    rw [← Set.union_assoc]
    refine gathers.gathers _ start last ?_ here ran
    refine gathered.step here gathered.sound (Nat.le_refl _) (.refl _) (fun _ _ _ => rfl)
      (fun _ => .inl rfl) (fun _ noted => congrArg Prod.fst noted) ?_
    rw [Ledger.told_union_singleton]
    exact sums _ _ _ (gathered.sums route id here)

/-- A keyword that only has schemas inside is noted before these are told. -/
theorem noting_inner {keyword : Keyword} (gathers : Gathers tree root route id part notes)
    (holds : keyword.HoldsSchemas) (other : ∀ schema, keyword ≠ .additionalProperties schema)
    (plain : ¬ keyword.AdmitsNull tree) :
    Gathers tree root route id part ({(route, .keyword keyword)} ∪ notes) :=
  gathers.noting fun _ _ _ sums => sums.inner holds other plain

/-- A part that only changes what the record itself says. -/
theorem of_takes (works : Works tree id part) (refining : Refining tree part)
    (only : ∀ note ∈ notes, note.1 = route)
    (takes : ∀ start last, id.index < start.ledger.size → part start = .ok () last →
      (∀ other ≠ id, last.ledger.record other = start.ledger.record other) ∧
        (start.ledger.record id).Takes tree { entry | (route, entry) ∈ notes }
          (last.ledger.record id)) :
    Gathers tree root route id part notes where
  works := works
  refining := refining
  gathers log start last gathered here ran := by
    have present := (Ledger.bounds_of_standing gathered.sound gathered.present here).2
    -- The part descends, so the ledger behind it is sound.
    have descends := works.descends refining gathered.sound present ran
    obtain ⟨others, origin, places, sums⟩ := takes start last present ran
    -- Names are not changed by it.
    have named (known : RecordId) : last.ledger.name known = start.ledger.name known := by
      unfold Ledger.name
      by_cases same : known = id
      · exact same ▸ origin.name
      · rw [others known same]
    -- The part changes what the record says and nothing about where its places lead.
    have legs (other : RecordId) (leg : Leg) :
        last.ledger.leg other leg = start.ledger.leg other leg := by
      refine Ledger.leg_congr ?_ fun property _ => named property
      by_cases same : other = id
      · exact same ▸ places _
      · rw [others other same]
        exact .refl _ _
    -- The branches are listed as they were.
    have branches := Ledger.hasBranch_congr gathered.sound.forest (places .branch)
      (Ledger.schema_eq origin fun other _ => others other)
    -- It is a step at the route in which nothing is lost.
    refine gathered.step here (descends.sound gathered.sound) descends.refines.size_le origin
      (fun other _ apart => others other apart)
      (fun q => .inl (Ledger.standing_congr gathered.sound gathered.present fun other _ leg =>
        legs other leg)) only ?_
    rw [branches]
    exact sums _ _ (gathered.sums route id here)

/-- A change of the record that makes it sum up more. -/
theorem of_update {change : Record → Record} (works : Works tree id (update id change))
    (refining : Refining tree (update id change)) (only : ∀ note ∈ notes, note.1 = route)
    (takes : ∀ record : Record,
      record.Takes tree { entry | (route, entry) ∈ notes } (change record)) :
    Gathers tree root route id (update id change) notes := by
  -- An update touches no other record.
  refine of_takes works refining only fun start last present ran => ?_
  cases ran
  refine ⟨fun other apart => Ledger.record_update_of_ne apart, ?_⟩
  rw [Ledger.record_update_self present]
  exact takes _

end Gathers

variable {tree : SchemaTree} {root id : RecordId} {route : Route}

theorem gathers_noteTitles (schema : Schema) :
    Gathers tree root route id (noteTitles schema id) ∅ := by
  refine .of_update works_noteTitles (refining_noteTitles schema id) (by simp) fun record => ?_
  exact .of_stated rfl ⟨rfl, rfl, rfl, rfl⟩ (fun place => by cases place <;> rfl) rfl

theorem gathers_noteReference (schema : SchemaId) :
    Gathers tree root route id (noteReference tree schema id) ∅ := by
  refine .of_takes works_noteReference (refining_noteReference schema id) (by simp)
    fun start last present ran => ?_
  -- The reference may be noted or not, and neither is about the value.
  have notes : Notes tree schema id start (noteReference tree schema id start) :=
    notes_noteReference
  rw [ran] at notes
  generalize result : EStateM.Result.ok () last = outcome at notes
  -- In both cases the record says the same as before.
  cases notes with
  | idle _ =>
    cases result
    exact ⟨fun _ _ => rfl, .of_stated rfl (.refl _) (fun _ => .refl _ _) rfl⟩
  | note _ _ _ =>
    cases result
    refine ⟨fun other apart => Ledger.record_update_of_ne apart, ?_⟩
    rw [Ledger.record_update_self present]
    exact .of_stated rfl ⟨rfl, rfl, rfl, rfl⟩ (fun place => by cases place <;> rfl) rfl

/-- A boolean schema is told. -/
theorem gathers_boolean :
    Gathers tree root route id (update id fun record => { record with nullable := some true })
      {(route, .boolean)} := by
  refine .of_update works_nullable (refining_nullable id) (by simp) fun record => ?_
  exact ⟨⟨rfl, rfl, rfl, rfl⟩, fun place => by cases place <;> rfl,
    fun _ _ sums => by simpa using sums.boolean⟩

/-- A keyword that admits null is told. -/
theorem gathers_admitNull {keyword : Keyword} (admits : keyword.AdmitsNull tree) :
    Gathers tree root route id (update id fun record => { record with nullable := some true })
      {(route, .keyword keyword)} := by
  refine .of_update works_nullable (refining_nullable id) (by simp) fun record => ?_
  exact ⟨⟨rfl, rfl, rfl, rfl⟩, fun place => by cases place <;> rfl,
    fun _ _ sums => by simpa using sums.admitNull admits⟩

/-- A keyword without schemas inside is told. -/
theorem gathers_absorb {clause : Clause} (plain : ¬ clause.keyword.HoldsSchemas)
    (stated : ∀ side bound, clause.keyword = .bound side bound → tree.StatesBound side bound)
    (proper : tree.HasProperBounds) :
    Gathers tree root route id (do
      match (← record id).absorb clause.location clause.keyword with
      | .ok merged => update id fun _ => merged
      | .error fault => throw fault) {(route, .keyword clause.keyword)} := by
  -- All that is noted is about the route at hand.
  refine .of_takes works_absorb (refining_absorb stated proper) (by simp)
    fun start last present ran => ?_
  rw [record_bind] at ran
  -- A keyword that cannot be absorbed ends the survey.
  cases absorbed : (start.ledger.record id).absorb clause.location clause.keyword with
  | error fault =>
    rw [absorbed] at ran
    cases ran
  | ok merged =>
    rw [absorbed] at ran
    cases ran
    refine ⟨fun other apart => Ledger.record_update_of_ne apart, ?_⟩
    rw [Ledger.record_update_self present]
    -- Absorbing neither moves the record nor its places.
    refine ⟨?_, fun place => ?_, fun _ _ sums => by simpa using sums.absorb absorbed plain⟩
    · rw [← Record.restate_absorb absorbed]
      exact ⟨rfl, rfl, rfl, rfl⟩
    · rw [← Record.restate_absorb absorbed]
      cases place <;> rfl

/-- What a schema for additional properties tells itself, unless it is a boolean. -/
def additionalTold (tree : SchemaTree) (told : SchemaId → Route → Set (Route × Entry)) (route : Route)
    (schema : SchemaId) : Set (Route × Entry) :=
  { note | (∀ value, (tree.schema schema).body ≠ .boolean value) ∧
    note ∈ told schema (.slot .additional :: route) }

section Parts

variable {visit : SchemaId → RecordId → Surveying Unit}
variable {told : SchemaId → Route → Set (Route × Entry)} {schema : SchemaId}

/-- A boolean schema tells nothing of the additional properties. -/
theorem additionalTold_of_boolean {value : Bool} (body : (tree.schema schema).body = .boolean value) :
    additionalTold tree told route schema = ∅ := by
  ext note
  exact iff_of_false (fun noted => noted.1 value body) (Set.notMem_empty _)

/-- A schema object tells all it has to tell of the additional properties. -/
theorem additionalTold_of_object (body : ∀ value, (tree.schema schema).body ≠ .boolean value) :
    additionalTold tree told route schema = told schema (.slot .additional :: route) := by
  ext note
  exact and_iff_right body

/-- A record that is put into a place is visited there. -/
theorem Gathers.enter {part : Surveying Unit} {inner : RecordId} {further : Route}
    {log notes : Set (Route × Entry)} {start last : Survey}
    (visits : Gathers tree root further inner part notes)
    (described : (further, .described) ∈ notes)
    (gathered : start.ledger.Gathered tree root (log ∪ {(further, .described)}))
    (here : start.ledger.standing root further = .here inner) (ran : part start = .ok () last) :
    last.ledger.Gathered tree root (log ∪ notes) := by
  have entered := visits.gathers _ start last gathered here ran
  rwa [Set.union_assoc, Set.singleton_union, Set.insert_eq_of_mem described] at entered

variable (visits : ∀ schema id route, Gathers tree root route id (visit schema id) (told schema route))
variable (described : ∀ schema route, (route, .described) ∈ told schema route)

include visits described

/-- What a schema tells about the value in a place is gathered by the record that stands there. -/
theorem gathers_provide {slot : Slot} {change : Ledger → RecordId × Ledger}
    (same : ∀ ledger, change ledger = ledger.provide id slot schema) (named : slot ≠ .additional)
    (works : Works tree id (onLedger change >>= visit schema))
    (refining : Refining tree (onLedger change >>= visit schema)) :
    Gathers tree root route id (onLedger change >>= visit schema)
      (told schema (.slot slot :: route)) where
  works := works
  refining := refining
  gathers log start last gathered here ran := by
    -- To provide a record is the change that was made.
    have ran : visit schema (start.ledger.provide id slot schema).1
        { start with ledger := (start.ledger.provide id slot schema).2 } = .ok () last := by
      rw [← same]
      exact ran
    cases held : slot.held? start.ledger id with
    -- A record stands in the place already, and it is the one that is visited.
    | some inner =>
      rw [Ledger.provide, held] at ran
      refine (visits schema inner _).gathers log start last gathered ?_ ran
      rw [Ledger.standing_cons here]
      exact Ledger.leg_slot_eq_here.mpr held
    | none =>
      -- The place is free, and the new record in it is described before it is visited.
      rw [Ledger.provide, held] at ran
      have present := (Ledger.bounds_of_standing gathered.sound gathered.present here).2
      have free := Slot.isFree_iff.mpr held
      obtain ⟨attached, stands⟩ := @Ledger.Gathered.attach _ _ _ _ ∅ _ _ _ gathered here free
        (fun same => absurd same named) schema (fun _ noted => absurd noted (Set.notMem_empty _)) (by
          -- Filling the place changes nothing of what the holder says.
          rw [Set.union_empty]
          refine (gathered.sums route id here).congr ?_ ?_
          · cases slot <;> rfl
          · cases slot <;> first | rfl | exact absurd rfl named)
      rw [Set.empty_union] at attached
      exact (visits schema _ _).enter (described schema _) attached stands ran

/-- What a schema tells about the opposite of a value is gathered by the mirror. -/
theorem gathers_negation : Gathers tree root route id (do
    let negation ← onLedger (·.negation id)
    visit schema negation) (told schema route.flip) where
  works := works_negation fun record => (visits schema record route).works
  refining := (refining_onLedger fun ledger => .negation tree ledger id).bind fun record =>
    (visits schema record route).refining
  gathers log start last gathered here ran := by
    have ran : visit schema (start.ledger.negation id).1
        { start with ledger := (start.ledger.negation id).2 } = .ok () last := ran
    -- The mirror of a record stands at the flipped route.
    have flipped := Ledger.standing_flip gathered.sound gathered.positive here
    cases held : start.ledger.mirror? id with
    -- The mirror is there, so it is the one that is visited.
    | some inner =>
      rw [Ledger.negation_of_mirror? held] at ran
      rw [held] at flipped
      exact (visits schema inner _).gathers log start last gathered flipped ran
    | none =>
      -- There is no mirror yet, and one is made.
      obtain ⟨positive, unset⟩ := Ledger.mirror?_eq_none.mp held
      obtain ⟨negated, stands⟩ := gathered.negate here positive unset
      have next : (start.ledger.negation id).1 = ⟨start.ledger.size⟩ := by
        rw [Ledger.negation_of_unset positive unset]
      rw [next] at ran
      -- The record is no negation, so the route does not lead back from one.
      have ahead : route.flip = .mirror :: route := by
        unfold Route.flip
        split
        · -- A record at the end of such a route would have a mirror.
          obtain ⟨origin, before, -⟩ := Ledger.exists_of_standing_cons here
          rw [held, Route.flip, before] at flipped
          cases flipped
        · rfl
      rw [ahead]
      exact (visits schema _ _).enter (described schema _) negated stands ran

omit described in
/-- A branch is told once there is a record for it. -/
theorem gathers_addBranch {branch : SchemaId} :
    Gathers tree root route id (addBranch visit id branch) {(route, .branch branch)} where
  works := works_addBranch fun schema record => (visits schema record route).works
  refining := refining_addBranch fun schema record => (visits schema record route).refining
  gathers log start last gathered here ran := by
    have present := (Ledger.bounds_of_standing gathered.sound gathered.present here).2
    -- The ledger is sound when the branch has been linked.
    have linked := ((works_addBranch fun schema record => (visits schema record route).works).descends
      (refining_addBranch fun schema record => (visits schema record route).refining) gathered.sound
      present ran).sound gathered.sound
    have only : ∀ note ∈ ({(route, .branch branch)} : Set (Route × Entry)), note.1 = route := by simp
    -- The branch is listed or it is made now.
    rw [addBranch_eq] at ran
    split at ran
    · rename_i known
      cases ran
      -- The branch is known, so it only has to be noted.
      refine gathered.step here gathered.sound (Nat.le_refl _) (.refl _) (fun _ _ _ => rfl)
        (fun _ => .inl rfl) only ?_
      rw [Ledger.told_union_singleton]
      exact (gathered.sums route id here).branch fun other =>
        (or_iff_left_of_imp fun same => same ▸ known).symm
    · obtain ⟨middle, visited, updated⟩ := bind_eq_ok.mp (show
        (visit branch ⟨start.ledger.size⟩ >>= fun _ =>
          update id fun held => { held with oneOf := held.oneOf ++ [⟨start.ledger.size⟩] })
          { start with ledger := (start.ledger.create (some branch) none).2 } = .ok () last from ran)
      -- The visit of the branch leaves all records alone that were there.
      obtain ⟨grown, sound, made, kept⟩ := (visits branch _ route).works.of_create
        (visits branch _ route).refining gathered.sound visited
      obtain ⟨gathered', standing⟩ := gathered.of_record_eq sound grown.le kept
      -- All that is left is to link it.
      cases updated
      exact gathered'.link ((standing route).trans here) made linked

/-- Where additional properties are still open, a new record is put there that gathers what the schema
tells of them. -/
theorem gathers_attachAdditional {log : Set (Route × Entry)} {start last : Survey}
    (gathered : start.ledger.Gathered tree root log)
    (here : start.ledger.standing root route = .here id)
    (body : ∀ value, (tree.schema schema).body ≠ .boolean value)
    (open' : (start.ledger.record id).additional = none ∨
      (start.ledger.record id).additional = some .allowed)
    (ran : visit schema ⟨start.ledger.size⟩ { start with
      ledger := (start.ledger.create (some schema) none).2.update id
        (Slot.additional.fill ⟨start.ledger.size⟩) } = .ok () last) :
    last.ledger.Gathered tree root (log ∪ {(route, .keyword (.additionalProperties schema))} ∪
      told schema (.slot .additional :: route)) := by
  -- What is open holds no schema.
  have free : Slot.additional.IsFree start.ledger id := by
    intro inner held
    rcases open' with unset | allowed <;> simp_all
  have allowed : Slot.additional = .additional →
      (start.ledger.record id).additional ≠ some .forbidden := by
    rcases open' with unset | allowed <;> simp [*]
  have only : ∀ note ∈ ({(route, .keyword (.additionalProperties schema))} :
      Set (Route × Entry)), note.1 = route := fun _ same => congrArg Prod.fst same
  -- The rank of the place rises to that of a schema.
  obtain ⟨attached, stands⟩ := gathered.attach here free allowed schema only (by
    rw [Ledger.told_union_singleton]
    refine (gathered.sums route id here).settle ?_
    rw [SchemaTree.additionalRank_of_object body]
    rcases open' with unset | allowed <;> simp [*, AdditionalProperties.rank])
  rw [← Set.union_assoc] at attached
  exact (visits schema _ _).enter (described schema _) attached stands ran

/-- A schema for additional properties is told, together with what it tells itself. -/
theorem gathers_mergeAdditional
    (suffix : ∀ schema slot rest, ∀ note ∈ told schema (.slot slot :: rest),
      .slot slot :: rest <:+ note.1)
    (owned : ∀ schema route, ∀ note ∈ told schema route, (note.1, .described) ∈ told schema route) :
    Gathers tree root route id (mergeAdditional tree visit schema id)
      ({(route, .keyword (.additionalProperties schema))} ∪ additionalTold tree told route schema) where
  works := works_mergeAdditional fun schema record => (visits schema record route).works
  refining := refining_mergeAdditional (fun schema record => (visits schema record route).refining)
    schema id
  gathers log start last gathered here ran := by
    have present := (Ledger.bounds_of_standing gathered.sound gathered.present here).2
    have beyond : start.ledger.standing root (.slot .additional :: route) =
        start.ledger.leg id (.slot .additional) := Ledger.standing_cons here
    -- What is settled already only has to be noted.
    have noted (rank : AdditionalProperties.rank (start.ledger.record id).additional =
        max (AdditionalProperties.rank (start.ledger.record id).additional)
          (tree.additionalRank schema)) :
        start.ledger.Gathered tree root
          (log ∪ {(route, .keyword (.additionalProperties schema))}) :=
      gathered.settle here gathered.sound (Nat.le_refl _) rfl (fun _ _ => rfl) rank fun _ => .inl rfl
    -- The part as a whole descends, which is used for its size and soundness.
    have descends := (works_mergeAdditional fun schema record => (visits schema record route).works)
      |>.descends (refining_mergeAdditional (fun schema record => (visits schema record route).refining)
        schema id) gathered.sound present ran
    have sound := descends.sound gathered.sound
    have size_le := descends.refines.size_le
    have settles : SettlesAdditional tree visit schema id start
      (mergeAdditional tree visit schema id start) := settlesAdditional_mergeAdditional
    -- The cases are those of how additional properties are settled.
    rw [ran] at settles
    rw [← Set.union_assoc]
    generalize result : EStateM.Result.ok () last = outcome at settles
    cases settles with
    | forbidden held =>
      cases result
      have lost : start.ledger.leg id (.slot .additional) = .lost :=
        Ledger.leg_eq_lost.mpr ⟨rfl, held⟩
      -- Forbidden is the highest rank, and the value beyond is lost.
      refine (noted ?_).skip (beyond.trans lost) (fun note noted => ?_) fun note noted => ?_
      · rw [AdditionalProperties.rank_eq_three.mpr held]
        exact (max_eq_left (SchemaTree.additionalRank_le_three _)).symm
      · exact suffix schema .additional route note noted.2
      · exact ⟨noted.1, owned schema _ note noted.2⟩
    -- A value that is true adds nothing to what is settled already.
    | settled body held =>
      cases result
      rw [additionalTold_of_boolean body, Set.union_empty]
      refine noted (max_eq_left ?_).symm
      rw [SchemaTree.additionalRank, body]
      exact Nat.pos_of_ne_zero (held ∘ AdditionalProperties.rank_eq_zero.mp)
    -- A value that is false forbids, which is the highest rank.
    | forbid body open' =>
      cases result
      rw [additionalTold_of_boolean body, Set.union_empty]
      refine gathered.settle here sound size_le (Ledger.record_update_self present)
        (fun _ => Ledger.record_update_of_ne) ?_
        fun q => Ledger.standing_forbid gathered.sound gathered.present
      rw [SchemaTree.additionalRank, body]
      exact (max_eq_right (AdditionalProperties.rank_le_three _)).symm
    -- True allows, where nothing was said before.
    | allow body unset =>
      cases result
      rw [additionalTold_of_boolean body, Set.union_empty]
      refine gathered.settle here sound size_le (Ledger.record_update_self present)
        (fun _ => Ledger.record_update_of_ne) ?_ fun q =>
        .inl (Ledger.standing_allow gathered.sound gathered.present unset)
      rw [SchemaTree.additionalRank, body, unset]
      rfl
    -- A schema stands there, and it is visited once more.
    | enter inner body held =>
      rw [additionalTold_of_object body]
      refine (visits schema inner _).gathers _ start last (noted ?_) ?_ result.symm
      · rw [held, SchemaTree.additionalRank_of_object body]
        rfl
      · rw [beyond]
        exact Ledger.leg_slot_eq_here.mpr (by simp [Slot.held?, held, AdditionalProperties.record?])
    | attach body open' =>
      rw [additionalTold_of_object body]
      exact gathers_attachAdditional visits described gathered here body open' result.symm

/-- What the keyword for additional properties tells is gathered. -/
theorem gathers_additionalProperties
    (suffix : ∀ schema slot rest, ∀ note ∈ told schema (.slot slot :: rest),
      .slot slot :: rest <:+ note.1)
    (owned : ∀ schema route, ∀ note ∈ told schema route, (note.1, .described) ∈ told schema route) :
    Gathers tree root route id (mergeAdditional tree visit schema id)
      (tree.clauseTold told route (.additionalProperties schema)) := by
  refine (gathers_mergeAdditional visits described suffix owned).congr ?_
  -- A boolean schema tells nothing beyond the place, and another one leads there.
  cases body : (tree.schema schema).body with
  | boolean value =>
    rw [additionalTold_of_boolean body, Set.union_empty]
    exact SchemaTree.clauseTold_of_nil (by simp) rfl (by simp [SchemaTree.leads, body])
  | object source clauses =>
    rw [additionalTold_of_object (by simp [body])]
    exact SchemaTree.clauseTold_of_lead (by simp) rfl (by simp [SchemaTree.leads, body])

omit described in
/-- What the one branch tells that stands beside null is gathered, and that null is admitted. -/
theorem gathers_nullableForm {keyword : Keyword} {branch : SchemaId}
    (admits : keyword.AdmitsNull tree) (own : ∀ branches, keyword ≠ .allOf branches)
    (bare : tree.branches keyword = []) (leads : tree.leads route keyword = [(branch, route)]) :
    Gathers tree root route id (do
      visit branch id
      update id fun record => { record with nullable := some true })
      (tree.clauseTold told route keyword) := by
  rw [← SchemaTree.clauseTold_of_lead own bare leads, Set.union_comm]
  exact (visits branch id route).bind (gathers_admitNull admits)

omit visits described in
/-- Of several branches that need not all hold nothing but the keyword is told. -/
theorem gathers_ignoredAnyOf {location : String} {branches : List SchemaId}
    (form : nullableForm? tree branches = none) :
    Gathers tree root route id (report (.ignoredAnyOf location branches.length))
      (tree.clauseTold told route (.anyOf branches)) := by
  rw [← SchemaTree.clauseTold_of_nil (by simp) rfl (by simp [SchemaTree.leads, form])]
  -- Without such a branch the keyword admits no null.
  have plain : ¬ Keyword.AdmitsNull tree (.anyOf branches) := by simp [Keyword.AdmitsNull, form]
  have noted : Gathers tree root route id (report (.ignoredAnyOf location branches.length))
      ({(route, .keyword (.anyOf branches))} ∪ ∅) :=
    (Gathers.of_ledger_eq (refining_report _) fun _ => rfl).noting_inner trivial (by simp) plain
  rwa [Set.union_empty] at noted

omit described in
/-- All branches of which exactly one has to hold are told. -/
theorem gathers_addBranches {branches : List SchemaId} (form : nullableForm? tree branches = none) :
    Gathers tree root route id (addBranches visit id branches)
      (tree.clauseTold told route (.oneOf branches)) := by
  -- The same holds for these branches.
  have plain : ¬ Keyword.AdmitsNull tree (.oneOf branches) := by simp [Keyword.AdmitsNull, form]
  have gathers : Gathers tree root route id (branches.forM (addBranch visit id))
      { note | ∃ branch ∈ branches, note ∈ ({(route, .branch branch)} : Set (Route × Entry)) } :=
    -- One branch after the other is told.
    Gathers.forM fun branch _ => gathers_addBranch visits
  have noted : Gathers tree root route id (addBranches visit id branches)
      ({(route, .keyword (.oneOf branches))} ∪ _) :=
    gathers.noting_inner trivial (by simp) plain
  refine noted.congr ?_
  ext note
  simp [SchemaTree.clauseTold, SchemaTree.branches, SchemaTree.leads, form]

omit described in
/-- A schema that is referred to is told, unless it is being visited: then it is only known to describe
the value. -/
theorem gathers_reference {isBusy : SchemaId → Bool} {text : String} {target : SchemaId}
    (busy : ∀ schema, isBusy schema = true → told schema route = {(route, .described)}) :
    Gathers tree root route id (unless isBusy target do visit target id)
      (tree.clauseTold told route (.reference text target)) := by
  rw [← SchemaTree.clauseTold_of_lead (by simp) rfl rfl]
  refine Gathers.noting_inner ?_ trivial (by simp) (by simp [Keyword.AdmitsNull])
  -- A schema that is being visited is known to describe the value, and no more.
  split
  · rename_i isBusy
    rw [busy target isBusy]
    exact (Gathers.pure.noting fun _ _ _ => (·.describe)).congr (Set.union_empty _)
  · exact visits target id route

omit described in
/-- All branches that have to hold tell of the value itself, and `allOf` tells nothing of its own. -/
theorem gathers_allOf {branches : List SchemaId} :
    Gathers tree root route id (branches.forM fun branch => visit branch id)
      (tree.clauseTold told route (.allOf branches)) := by
  refine (Gathers.forM fun branch _ => visits branch id route).congr ?_
  ext note
  simp [SchemaTree.clauseTold, SchemaTree.branches, SchemaTree.leads]

/-- A schema that must not hold tells of the opposite of the value. -/
theorem gathers_negationClause {inner : SchemaId} :
    Gathers tree root route id (do
      let negation ← onLedger (·.negation id)
      visit inner negation) (tree.clauseTold told route (.negation inner)) := by
  rw [← SchemaTree.clauseTold_of_lead (by simp) rfl rfl]
  exact (gathers_negation visits described).noting_inner trivial (by simp)
    (by simp [Keyword.AdmitsNull])

/-- Every property is told in the place of its name. -/
theorem gathers_properties {entries : List (String × SchemaId)} :
    Gathers tree root route id (entries.forM fun (name, inner) => do
      let property ← onLedger (·.property id name inner)
      visit inner property) (tree.clauseTold told route (.properties entries)) := by
  -- The visits work and refine for any record and at any route.
  have works (inner : SchemaId) (record : RecordId) := (visits inner record []).works
  have refining (inner : SchemaId) (record : RecordId) := (visits inner record []).refining
  rw [← SchemaTree.clauseTold_of_leads (by simp) rfl rfl]
  refine Gathers.noting_inner (.forM fun entry _ => ?_) trivial (by simp)
    (by simp [Keyword.AdmitsNull])
  -- The name decides the place, which is never that of additional properties.
  exact gathers_provide visits described (fun _ => Ledger.property_eq_provide entry.1)
    Slot.noConfusion (works_property fun record => works _ record)
    ((refining_onLedger fun ledger => .property tree ledger id _ _).bind fun _ => refining _ _)

/-- Every pattern is checked, which changes no record, and told in the place of its text. -/
theorem gathers_patternProperties {location : String} {entries : List (String × SchemaId)} :
    Gathers tree root route id (entries.forM fun (pattern, inner) => do
      checkPattern location pattern
      let value ← onLedger (·.patternProperty id pattern inner)
      visit inner value) (tree.clauseTold told route (.patternProperties entries)) := by
  have works (inner : SchemaId) (record : RecordId) := (visits inner record []).works
  have refining (inner : SchemaId) (record : RecordId) := (visits inner record []).refining
  rw [← SchemaTree.clauseTold_of_leads (by simp) rfl rfl]
  refine Gathers.noting_inner (.forM fun entry _ => ?_) trivial (by simp)
    (by simp [Keyword.AdmitsNull])
  -- The check is done first and tells nothing.
  refine ((Gathers.of_ledger_eq (refining_checkPattern _ _) ledger_checkPattern).bind ?_).congr
    (Set.empty_union _)
  exact gathers_provide visits described (fun _ => Ledger.patternProperty_eq_provide entry.1)
    Slot.noConfusion (works_patternProperty fun record => works _ record)
    ((refining_onLedger fun ledger => .patternProperty tree ledger id _ _).bind fun _ =>
      refining _ _)

/-- The schema of the items is told in their place. -/
theorem gathers_items {inner : SchemaId} :
    Gathers tree root route id (do
      let items ← onLedger (·.items id inner)
      visit inner items) (tree.clauseTold told route (.items inner)) := by
  have works (record : RecordId) := (visits inner record []).works
  have refining (record : RecordId) := (visits inner record []).refining
  rw [← SchemaTree.clauseTold_of_lead (by simp) rfl rfl]
  refine Gathers.noting_inner ?_ trivial (by simp) (by simp [Keyword.AdmitsNull])
  -- The record for the items is provided like all others.
  exact gathers_provide visits described (fun _ => Ledger.items_eq_provide) Slot.noConfusion
    (works_items works) ((refining_onLedger fun ledger => .items tree ledger id _).bind refining)

omit visits described in
/-- A keyword without schemas inside is taken into the record; a pattern is checked before. -/
theorem gathers_plain {clause : Clause} {text : String} (plain : ¬ clause.keyword.HoldsSchemas)
    (stated : ∀ side bound, clause.keyword = .bound side bound → tree.StatesBound side bound)
    (proper : tree.HasProperBounds) :
    Gathers tree root route id (do
      checkPattern clause.location text
      match (← record id).absorb clause.location clause.keyword with
      | .ok merged => update id fun _ => merged
      | .error fault => throw fault) (tree.clauseTold told route clause.keyword) := by
  rw [← SchemaTree.clauseTold_of_plain plain]
  -- The check of the text tells nothing either.
  exact ((Gathers.of_ledger_eq (refining_checkPattern _ _) ledger_checkPattern).bind
    (gathers_absorb plain stated proper)).congr (Set.empty_union _)

/-- All that a keyword tells is gathered when it is merged. -/
theorem gathers_mergeClause {clause : Clause}
    (stated : ∀ side bound, clause.keyword = .bound side bound → tree.StatesBound side bound)
    (proper : tree.HasProperBounds) {isBusy : SchemaId → Bool}
    (busy : ∀ schema, isBusy schema = true → told schema route = {(route, .described)})
    (suffix : ∀ schema slot rest, ∀ note ∈ told schema (.slot slot :: rest),
      .slot slot :: rest <:+ note.1)
    (owned : ∀ schema route, ∀ note ∈ told schema route, (note.1, .described) ∈ told schema route) :
    Gathers tree root route id (mergeClause tree visit isBusy id clause)
      (tree.clauseTold told route clause.keyword) := by
  unfold mergeClause
  split
  -- A schema that is referred to.
  case h_1 text target same =>
    rw [same]
    exact gathers_reference visits busy
  case h_2 branches same =>
    rw [same]
    exact gathers_allOf visits
  -- Alternatives: one of two may only admit null, and all others are ignored.
  case h_3 branches same =>
    rw [same]
    split
    · rename_i branch form
      exact gathers_nullableForm visits ⟨branches, .inl rfl, by simp [form]⟩ (by simp) rfl
        (by simp [SchemaTree.leads, form])
    · rename_i form
      exact gathers_ignoredAnyOf form
  -- Exclusive ones become branches unless one of two only admits null.
  case h_4 branches same =>
    rw [same]
    split
    · rename_i branch form
      exact gathers_nullableForm visits ⟨branches, .inr rfl, by simp [form]⟩ (by simp)
        (by simp [SchemaTree.branches, form]) (by simp [SchemaTree.leads, form])
    · rename_i form
      exact gathers_addBranches visits form
  case h_5 schema same =>
    rw [same]
    exact gathers_negationClause visits described
  case h_6 entries same =>
    rw [same]
    exact gathers_properties visits described
  case h_7 entries same =>
    rw [same]
    exact gathers_patternProperties visits described
  case h_8 schema same =>
    rw [same]
    exact gathers_additionalProperties visits described suffix owned
  case h_9 schema same =>
    rw [same]
    exact gathers_items visits described
  case h_10 =>
    -- What is left holds no schemas.
    have plain : ¬ clause.keyword.HoldsSchemas := by
      unfold Keyword.HoldsSchemas
      split <;> simp_all
    split
    · exact gathers_plain plain stated proper
    · rw [← SchemaTree.clauseTold_of_plain plain]
      exact gathers_absorb plain stated proper

end Parts

/-- All that a schema tells is gathered when it is merged. -/
theorem gathers_visit (proper : tree.HasProperBounds) (opened : List SchemaId) (schema : SchemaId)
    (id : RecordId) (route : Route) :
    Gathers tree root route id (visit tree opened schema id) (tree.told opened schema route) := by
  -- The list of open schemas grows shorter with every schema that is entered.
  induction opened, schema, id using visit.induct generalizing route with
  | case1 opened schema id ih =>
    rw [visit]
    -- To note the reference is to be described, and nothing else.
    have noted : Gathers tree root route id (noteReference tree schema id)
        ({(route, .described)} ∪ ∅) :=
      (gathers_noteReference schema).noting fun _ _ _ => (·.describe)
    rw [Set.union_empty] at noted
    -- A boolean schema admits null, which is what it tells.
    split
    · rename_i value body
      rw [SchemaTree.told_of_boolean body]
      exact noted.bind gathers_boolean
    · rename_i source clauses body
      split
      · rename_i isOpen
        rw [SchemaTree.told_of_open body isOpen]
        -- The keywords are merged in their order, each at the same route.
        have merged : Gathers tree root route id
            (clauses.forM fun clause => mergeClause tree (visit tree (opened.erase schema))
              (isBusy tree (opened.erase schema)) id clause)
            { note | ∃ clause ∈ clauses, note ∈
              tree.clauseTold (tree.told (opened.erase schema)) route clause.keyword } := by
          refine .forM fun clause member => gathers_mergeClause (ih isOpen) (fun _ _ => .described)
            (fun side bound same => ⟨schema, clause, ?_, same⟩) proper
            (fun _ => SchemaTree.told_of_busy)
            (fun _ _ _ _ tells => tells.suffix (List.suffix_refl _))
            fun _ _ _ tells => tells.described_of
          simpa [Schema.clauses, body] using member
        -- Examples are checked and told nothing of.
        have checked : Gathers tree root route id (checkExamples (tree.location schema) source) ∅ :=
          .of_ledger_eq (refining_checkExamples _ source) ledger_checkExamples
        refine noted.bind (((gathers_noteTitles _).bind (merged.bind checked)).congr ?_)
        rw [Set.empty_union, Set.union_empty]
      · -- A schema that is being visited already tells no more.
        rename_i closed
        rw [SchemaTree.told_of_closed body closed]
        exact (noted.bind .pure).congr (Set.union_empty _)

end Survey

/-- Right after it was created, a record is all that stands under itself. -/
theorem Ledger.Gathered.create {ledger : Ledger} (tree : SchemaTree) (sound : ledger.Sound)
    (schema : SchemaId) :
    (ledger.create (some schema) none).2.Gathered tree ⟨ledger.size⟩ {([], .described)} := by
  -- The ledger with the new record is given a name.
  obtain ⟨created, same⟩ : ∃ created, (ledger.create (some schema) none).2 = created := ⟨_, rfl⟩
  have sound : created.Sound := same ▸ (sound.create schema none).1
  have newest : created.record ⟨ledger.size⟩ = ledger.fresh (some schema) none := by
    rw [← same, record_create, if_pos rfl]
  have size : created.size = ledger.size + 1 := by rw [← same, size_create]
  rw [same]
  -- No route but the empty one leads to a record.
  have alone (route : Route) (id : RecordId) (here : created.standing ⟨ledger.size⟩ route = .here id) :
      route = [] ∧ id = ⟨ledger.size⟩ := by
    induction route generalizing id with
    | nil =>
      cases here
      exact ⟨rfl, rfl⟩
    | cons leg rest ih =>
      obtain ⟨parent, before, leads⟩ := exists_of_standing_cons here
      obtain ⟨-, rfl⟩ := ih parent before
      -- The new record has no places, so a longer route ends nowhere.
      rw [leg_of_barren (by rw [newest]; rfl) (by rw [newest]; simp [Ledger.fresh])] at leads
      cases leads
  refine ⟨sound, by simp [size], by rw [newest]; rfl, fun route id here => ?_, fun route id here => ?_,
    fun route noted => ?_, fun note noted => ?_⟩
  · -- At the empty route stands the new record, which is blank.
    obtain ⟨rfl, rfl⟩ := alone route id here
    have told : { entry | (([] : Route), entry) ∈ ({([], .described)} : Set (Route × Entry)) } =
        {.described} := by
      ext entry
      simp
    rw [told]
    exact sums_of_fresh (by rw [newest]; rfl) (by rw [newest]; rfl) (by rw [newest]; rfl)
  · rw [(alone route id here).1]
    rfl
  · -- The only note is about the route at which a record stands.
    cases noted
    exact Standing.noConfusion
  · cases Set.mem_singleton_iff.mp noted
    rfl

namespace Survey

/-- A survey of a schema gathers all that the schema tells, and nothing else. -/
theorem gathered_begin {tree : SchemaTree} {schema : SchemaId} {id : RecordId} {start last : Survey}
    (proper : tree.HasProperBounds) (sound : start.ledger.Sound)
    (began : begin tree schema start = .ok id last) :
    last.ledger.Gathered tree id (tree.told tree.ids schema []) := by
  -- To begin is to make the record and to merge the schema into it.
  obtain ⟨middle, merged, ended⟩ := bind_eq_ok.mp (show
    (merge tree schema ⟨start.ledger.size⟩ >>= fun _ => pure ⟨start.ledger.size⟩)
      { start with ledger := (start.ledger.create (some schema) none).2 } = .ok id last from began)
  cases ended
  have gathered := Ledger.Gathered.create tree sound schema
  -- Before anything is told there is only the note of the new record.
  rw [← Set.empty_union {(([] : Route), Entry.described)}] at gathered
  have told := (gathers_visit proper tree.ids schema ⟨start.ledger.size⟩ []).enter .described gathered
    rfl merged
  rwa [Set.empty_union] at told

end Survey

end SchemaClasses
