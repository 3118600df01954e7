import SchemaClasses.Proofs.Run
import SchemaClasses.Proofs.Survey.Sound

/-! Any number of surveys, failed ones among them, leave records that form disjoint, well-formed
trees. -/

namespace SchemaClasses

namespace Record

/-- Whether the types and the patterns of a record are told apart, and null is none of the types. -/
structure Tidy (record : Record) : Prop where
  types : record.types.Nodup
  notNull : .null ∉ record.types
  patterns : (record.patternProperties.map (·.pattern)).Nodup

variable {tree : SchemaTree} {record merged : Record}

/-- A record with neither types nor patterns is tidy. -/
theorem Tidy.of_nil (types : record.types = []) (patterns : record.patternProperties = []) :
    record.Tidy := by
  constructor
  · rw [types]
    exact List.nodup_nil
  · rw [types]
    exact List.not_mem_nil
  · rw [patterns]
    exact List.nodup_nil

/-- A record stays tidy while its types and its patterns stay. -/
theorem Tidy.congr (tidy : record.Tidy) (types : merged.types = record.types)
    (patterns : merged.patternProperties = record.patternProperties) : merged.Tidy := by
  constructor
  · rw [types]
    exact tidy.types
  · rw [types]
    exact tidy.notNull
  · rw [patterns]
    exact tidy.patterns

/-- A type is stated once, and null makes the value nullable instead. -/
theorem Tidy.addType (tidy : record.Tidy) (type : JsonType) : (record.addType type).Tidy := by
  unfold Record.addType
  split
  · exact tidy.congr rfl rfl
  · rename_i given
    refine ⟨nodup_addNew tidy.types, fun member => ?_, tidy.patterns⟩
    rcases mem_addNew.mp member with stated | same
    · exact tidy.notNull stated
    · exact given same.symm

/-- Types are stated one after the other. -/
theorem Tidy.foldl_addType (tidy : record.Tidy) (names : List JsonType) :
    (names.foldl Record.addType record).Tidy := by
  induction names generalizing record with
  | nil => exact tidy
  | cons name rest ih => exact ih (tidy.addType name)

/-- A keyword leaves a tidy record tidy. -/
theorem Tidy.absorb (tidy : record.Tidy) {location : String} {keyword : Keyword}
    (absorbed : record.absorb location keyword = .ok merged) : merged.Tidy := by
  -- A keyword only touches the types if it states some.
  unfold Record.absorb at absorbed
  split at absorbed
  case h_1 names =>
    cases absorbed
    exact tidy.foldl_addType names
  -- A value that is compared before it is set touches no list.
  case h_2 =>
    obtain ⟨-, rfl⟩ := setConstant_eq_ok.mp absorbed
    exact tidy.congr rfl rfl
  case h_3 =>
    obtain ⟨-, rfl⟩ := setEnumeration_eq_ok.mp absorbed
    exact tidy.congr rfl rfl
  case h_16 =>
    obtain ⟨-, -, -, rfl⟩ := setDefault_eq_ok.mp absorbed
    exact tidy.congr rfl rfl
  -- Examples and required names come in lists as well, of which each round keeps the record tidy.
  case h_17 values =>
    cases absorbed
    exact List.foldlRecOn values Record.addExample tidy fun held tidy _ _ => tidy.congr rfl rfl
  case h_18 names =>
    cases absorbed
    exact List.foldlRecOn names Record.addRequired tidy fun held tidy _ _ => tidy.congr rfl rfl
  all_goals
    cases absorbed
    exact tidy.congr rfl rfl

/-- What is stated in a tidy record leaves it tidy. -/
theorem Tidy.restated (tidy : record.Tidy) (restated : record.Restated tree merged) :
    merged.Tidy := by
  cases restated with
  | keyword absorbed => exact tidy.absorb absorbed
  | _ => exact tidy.congr rfl rfl

end Record

/-- A free place of a tidy record may be filled. -/
theorem Slot.tidy_fill {slot : Slot} {ledger : Ledger} {id child : RecordId}
    (free : slot.IsFree ledger id) (tidy : (ledger.record id).Tidy) :
    (slot.fill child (ledger.record id)).Tidy := by
  -- Only a pattern adds to a list that has to stay distinct.
  cases slot with
  | patternProperty pattern =>
    refine ⟨tidy.types, tidy.notNull, ?_⟩
    simp only [fill, List.map_append, List.map_cons, List.map_nil]
    refine List.nodup_append.mpr ⟨tidy.patterns, List.pairwise_singleton _ _, ?_⟩
    -- No entry that is there has the new pattern, or the place would not be free.
    rintro held member _ last rfl
    obtain ⟨entry, listed, same⟩ := List.mem_map.mp member
    exact free entry listed (same.trans (List.mem_singleton.mp last))
  | _ => exact tidy.congr rfl rfl

namespace Ledger

/-- Whether all records are tidy. -/
def Tidy (ledger : Ledger) : Prop := ∀ id : RecordId, (ledger.record id).Tidy

namespace Tidy

variable {ledger grown : Ledger} {id : RecordId}

theorem empty : Tidy {} := fun _ => .of_nil rfl rfl

/-- A record changes into a tidy one. -/
theorem update (tidy : ledger.Tidy) {change : Record → Record}
    (changed : (change (ledger.record id)).Tidy) : (ledger.update id change).Tidy := by
  intro other
  rw [record_update]
  split
  · exact changed
  · exact tidy other

/-- A record without types and patterns joins the ledger. -/
theorem push (tidy : ledger.Tidy) {added : Record} (types : added.types = [])
    (patterns : added.patternProperties = [])
    (records : ∀ id, grown.record id = if id = ⟨ledger.size⟩ then added else ledger.record id) :
    grown.Tidy := by
  intro other
  rw [records]
  split
  · exact .of_nil types patterns
  · exact tidy other

end Tidy

end Ledger

namespace Survey

variable {tree : SchemaTree} {stage next : Stage}

/-- A step of a survey keeps all records tidy. -/
theorem Step.tidy (taken : Step tree stage next) (sound : stage.Sound)
    (tidy : stage.ledger.Tidy) : next.ledger.Tidy := by
  -- A new record is blank and so it is tidy.
  have created (schema : SchemaId) (name : Option String) :
      (stage.ledger.create (some schema) name).2.Tidy :=
    tidy.push rfl rfl fun _ => Ledger.record_create
  cases taken with
  | learn _ _ => exact tidy
  | restate _ restated => exact tidy.update ((tidy _).restated restated)
  | attach acts schema free =>
    -- The record around the place is the one that it was before the new record was made.
    refine (created schema _).update ?_
    rw [Ledger.record_create_of_lt (sound.known _ acts)]
    exact Slot.tidy_fill free (tidy _)
  -- The record of a negation is new, and the negated one has a link more.
  | @negate id acts positive unset =>
    have pushed : (stage.ledger.push (stage.ledger.negative id)).2.Tidy :=
      tidy.push rfl rfl fun _ => Ledger.record_push
    rw [Ledger.negation_of_unset positive unset]
    exact pushed.update ((pushed _).congr rfl rfl)
  | openBranch _ schema => exact created schema none
  | linkBranch _ _ => exact tidy.update ((tidy _).congr rfl rfl)

/-- Any number of steps keeps all records tidy. -/
theorem Steps.tidy (taken : Steps tree stage next) (sound : stage.Sound)
    (tidy : stage.ledger.Tidy) : next.ledger.Tidy := by
  induction taken with
  | refl => exact tidy
  | tail earlier last ih => exact last.tidy (Steps.sound earlier sound).1 ih

/-- A survey of a schema keeps the records sound and tidy and disturbs none that was there before,
whether it fails or not. -/
theorem kept_begin {survey : Survey} {root : SchemaId} (sound : survey.ledger.Sound)
    (tidy : survey.ledger.Tidy) :
    (lastState (begin tree root) survey).ledger.Sound ∧
      (lastState (begin tree root) survey).ledger.Tidy ∧
      survey.ledger.Undisturbed survey.ledger.size (lastState (begin tree root) survey).ledger := by
  -- The opening stage is sound and tidy.
  have start : (Stage.opening survey.ledger root).Sound := Stage.sound_opening sound
  have tidied : (Stage.opening survey.ledger root).ledger.Tidy :=
    tidy.push rfl rfl fun _ => Ledger.record_create
  -- Both ends of the survey lie some steps behind its opening stage.
  have reached (last : Survey) (stopped : Stopped tree (Stage.opening survey.ledger root) last) :
      last.ledger.Sound ∧ last.ledger.Tidy ∧
        survey.ledger.Undisturbed survey.ledger.size last.ledger := by
    obtain ⟨stage, same, steps⟩ := stopped
    rw [← same]
    exact ⟨(steps.sound start).1.ledger, steps.tidy start tidied,
      Stage.undisturbed_opening.trans (steps.undisturbed Stage.sealed_opening).2⟩
  -- A survey that ends has stopped as well.
  have closes : Closes (begin tree root) survey
      (fun _ => Stopped tree (Stage.opening survey.ledger root))
      (fun _ => Stopped tree (Stage.opening survey.ledger root)) :=
    works_begin.mono fun _ _ finished => finished.2.stopped
  exact reached _ closes.lastState

end Survey

namespace Ledger

/-- Two records of which one says what the other must not be. -/
def Mirrored (ledger : Ledger) (a b : RecordId) : Prop :=
  (ledger.record a).negation = some b ∨ (ledger.record b).negation = some a

/-- The records of a ledger as disjoint trees: a record lies inside at most one other, at one place
and behind it, is told apart from its siblings, states no type twice, and shares its set of checks
with its mirror alone. -/
structure WellFormed (ledger : Ledger) : Prop where
  inside : ∀ parent child : RecordId, child ∈ (ledger.record parent).children →
    parent.index < child.index ∧ child.index < ledger.size
  single : ∀ a b child : RecordId, child ∈ (ledger.record a).children →
    child ∈ (ledger.record b).children → a = b
  once : ∀ parent : RecordId, (ledger.record parent).children.Nodup
  names : ∀ id : RecordId, (ledger.names id).Nodup
  patterns : ∀ id : RecordId, ((ledger.record id).patternProperties.map (·.pattern)).Nodup
  types : ∀ id : RecordId, (ledger.record id).types.Nodup ∧ .null ∉ (ledger.record id).types
  mirror : ∀ id negation : RecordId, (ledger.record id).negation = some negation ↔
    (ledger.record negation).negationOf = some id
  positive : ∀ negation : RecordId, (ledger.record negation).negationOf.isSome →
    (ledger.record negation).negation = none
  shares : ∀ a b : RecordId, a.index < ledger.size → b.index < ledger.size → a ≠ b →
    ((ledger.record a).checks = (ledger.record b).checks ↔ ledger.Mirrored a b)

/-- Different records with one set of checks are a record and its mirror. -/
theorem Owned.checks_eq_iff {ledger : Ledger} (owned : ledger.Owned) {a b : RecordId}
    (presentA : a.index < ledger.size) (presentB : b.index < ledger.size) (different : a ≠ b) :
    (ledger.record a).checks = (ledger.record b).checks ↔ ledger.Mirrored a b := by
  constructor
  · intro same
    have owner := owned.apart a b presentA presentB same
    unfold positive at owner
    -- The owner of a set is the positive one of its records.
    cases negatedA : (ledger.record a).negationOf with
    | none =>
      cases negatedB : (ledger.record b).negationOf with
      | none =>
        rw [negatedA, negatedB] at owner
        exact absurd owner different
      | some origin =>
        -- The owner of both is the first one, so the second is its mirror.
        rw [negatedA, negatedB] at owner
        have back : a = origin := owner
        subst back
        exact .inl ((owned.mirror a b).mpr negatedB)
    | some origin =>
      cases negatedB : (ledger.record b).negationOf with
      | none =>
        rw [negatedA, negatedB] at owner
        have back : origin = b := owner
        subst back
        exact .inr ((owned.mirror origin a).mpr negatedA)
      | some other =>
        -- A record has one mirror only, so two mirrors of the same record are one.
        rw [negatedA, negatedB] at owner
        have back : origin = other := owner
        subst back
        have first := (owned.mirror origin a).mpr negatedA
        have second := (owned.mirror origin b).mpr negatedB
        rw [first] at second
        exact absurd (Option.some.inj second) different
  · -- The other way, a mirror shares the set of its record.
    rintro (mirrored | mirrored)
    · exact (owned.shares b a ((owned.mirror a b).mp mirrored)).2.2.symm
    · exact (owned.shares a b ((owned.mirror b a).mp mirrored)).2.2

/-- The records of surveys are disjoint, well-formed trees. -/
theorem Sound.wellFormed {ledger : Ledger} (sound : ledger.Sound) (tidy : ledger.Tidy) :
    ledger.WellFormed where
  inside := sound.forest.inside
  single := sound.forest.single
  once := sound.forest.nodup
  names := sound.named.nodup
  patterns id := (tidy id).patterns
  types id := ⟨(tidy id).types, (tidy id).notNull⟩
  mirror := sound.owned.mirror
  -- What negates something has no negation itself.
  positive negation negated := by
    obtain ⟨origin, isNegation⟩ := Option.isSome_iff_exists.mp negated
    cases mirrored : (ledger.record negation).negation with
    | none => rfl
    | some second =>
      -- A mirror of the mirror would say that the mirror negates nothing.
      have positive := (sound.owned.shares second negation
        ((sound.owned.mirror negation second).mp mirrored)).2.1
      rw [isNegation] at positive
      cases positive
  shares _ _ presentA presentB different := sound.owned.checks_eq_iff presentA presentB different

end Ledger

namespace Survey

/-- One survey after the other into the same ledger, whether they fail or not. -/
def beginAll (tree : SchemaTree) (roots : List SchemaId) (survey : Survey) : Survey :=
  roots.foldl (fun survey root => lastState (begin tree root) survey) survey

/-- However many surveys fill a ledger, and wherever some of them fail, its records stay sound and
tidy. -/
theorem kept_beginAll (tree : SchemaTree) (roots : List SchemaId) :
    (beginAll tree roots {}).ledger.Sound ∧ (beginAll tree roots {}).ledger.Tidy := by
  refine List.foldlRecOn roots _
    (motive := fun survey : Survey => survey.ledger.Sound ∧ survey.ledger.Tidy)
    ⟨.empty, .empty⟩ fun survey kept root _ => ?_
  obtain ⟨sound, tidy, -⟩ := @kept_begin tree survey root kept.1 kept.2
  exact ⟨sound, tidy⟩

/-- However many surveys fill a ledger, and wherever some of them fail, its records form disjoint,
well-formed trees, and the next survey, failed or not, changes none of those that are there. -/
theorem wellFormed_beginAll (tree : SchemaTree) (roots : List SchemaId) (root : SchemaId) :
    (beginAll tree roots {}).ledger.WellFormed ∧
      ∀ id : RecordId, id.index < (beginAll tree roots {}).ledger.size →
        (lastState (begin tree root) (beginAll tree roots {})).ledger.record id =
          (beginAll tree roots {}).ledger.record id := by
  obtain ⟨sound, tidy⟩ := kept_beginAll tree roots
  obtain ⟨-, -, undisturbed⟩ := @kept_begin tree _ root sound tidy
  exact ⟨sound.wellFormed tidy, undisturbed.record_eq⟩

end Survey

end SchemaClasses
