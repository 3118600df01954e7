import SchemaClasses.Proofs.Planning.Repetition
import SchemaClasses.Proofs.Resolution.Moves
import SchemaClasses.Proofs.Resolution.Scopes

/-! Whatever a run has come to: a plan adds to the checks of its record and to the constants of the
declaration, it touches nothing else, and made a second time it does nothing. -/

namespace SchemaClasses

namespace Ledger

variable {before after ledger : Ledger} {id : RecordId}

/-- Whether all sets of checks are there, and the items of arrays are records that share no checks with
these. -/
structure Parted (ledger : Ledger) : Prop where
  inRange : ledger.InRange
  present : ∀ id items, (ledger.record id).items = some items → items.index < ledger.size
  apart : ∀ id items, (ledger.record id).items = some items →
    (ledger.record items).checks ≠ (ledger.record id).checks

namespace Parted

/-- Whether items are parted depends on nothing but which items and sets of checks records have. -/
theorem congr (parted : before.Parted) (size : after.size = before.size)
    (sets : after.checkSets.size = before.checkSets.size)
    (checks : ∀ id, (after.record id).checks = (before.record id).checks)
    (items : ∀ id, (after.record id).items = (before.record id).items) : after.Parted where
  inRange id inside := by
    -- The record has the set of checks that it had, and there are as many sets.
    rw [checks, sets]
    exact parted.inRange id (size ▸ inside)
  present id inner held := by
    rw [size]
    exact parted.present id inner (items id ▸ held)
  apart id inner held := by
    rw [checks, checks]
    exact parted.apart id inner (items id ▸ held)

/-- A change of a record that leaves its items and its set of checks. -/
theorem update (parted : ledger.Parted) {change : Record → Record}
    (checks : (change (ledger.record id)).checks = (ledger.record id).checks)
    (items : (change (ledger.record id)).items = (ledger.record id).items) :
    (ledger.update id change).Parted :=
  parted.congr size_update (by rw [checkSets_update]) (fun _ => field_update Record.checks checks)
    fun _ => field_update Record.items items

/-- A copy has a set of checks of its own, which is not that of the items that it shares. -/
theorem duplicate (parted : ledger.Parted) : (ledger.duplicate id).2.Parted := by
  have old {other : RecordId} (inside : other.index < ledger.size) :
      (ledger.duplicate id).2.record other = ledger.record other := record_duplicate_of_lt inside
  -- What has items after that is a record from before, or the copy.
  have source (other items : RecordId) (held : ((ledger.duplicate id).2.record other).items = some items) :
      (other.index < ledger.size ∧ (ledger.record other).items = some items) ∨
        (other = ⟨ledger.size⟩ ∧ (ledger.record id).items = some items) := by
    rw [record_duplicate] at held
    split at held
    · rename_i same
      exact .inr ⟨same, held⟩
    · by_cases inside : other.index < ledger.size
      · exact .inl ⟨inside, held⟩
      · rw [record_of_size_le (Nat.not_lt.mp inside)] at held
        cases held
  refine ⟨parted.inRange.duplicate, fun other items held => ?_, fun other items held => ?_⟩
  · rw [size_duplicate]
    -- Items that the copy shares were there before, as those of the record that was copied.
    rcases source other items held with ⟨-, held⟩ | ⟨-, held⟩
    · exact Nat.lt_succ_of_lt (parted.present other items held)
    · exact Nat.lt_succ_of_lt (parted.present id items held)
  · rcases source other items held with ⟨inside, held'⟩ | ⟨rfl, held'⟩
    · rw [old inside, old (parted.present other items held')]
      exact parted.apart other items held'
    · -- The copy owns the set that was made last, and its items own an earlier one.
      have there := parted.present id items held'
      rw [old there, record_duplicate, if_pos rfl]
      intro same
      have index := congrArg CheckSetId.index same
      exact absurd (parted.inRange items there) (by rw [index]; exact Nat.lt_irrefl _)

end Parted

/-- What was surveyed is parted: items lie inside their array and are no negation. -/
theorem Sound.parted (sound : ledger.Sound) : ledger.Parted := by
  have inner {id items : RecordId} (held : (ledger.record id).items = some items) :
      items ∈ (ledger.record id).children :=
    Record.mem_children.mpr (.inr (.inr (.inr (.inl held))))
  refine ⟨fun id inside => sound.owned.present id inside,
    fun id items held => (sound.forest.inside id items (inner held)).2, fun id items held same => ?_⟩
  obtain ⟨behind, inside⟩ := sound.forest.inside id items (inner held)
  have owner := sound.owned.apart items id inside (Nat.lt_trans behind inside) same
  unfold positive at owner
  rw [sound.negationOf_eq_none (.inr held)] at owner
  -- The owner of the checks of an array is the array or lies around it, never inside.
  cases negated : (ledger.record id).negationOf with
  | none =>
    rw [negated] at owner
    exact Nat.lt_irrefl _ (Nat.lt_of_lt_of_eq behind (congrArg RecordId.index owner))
  | some around =>
    rw [negated] at owner
    have outside := (sound.forest.inside around id (sound.child_of_negationOf negated)).1
    have same := congrArg RecordId.index owner
    simp only [Option.getD_none, Option.getD_some] at same
    omega

end Ledger

namespace Model

variable {model : Model} {context : Context} {owner : DeclarationId} {id : RecordId} {shape : Shape}

/-- A plan changes what is in one set of checks. -/
theorem checkSets_plan : (model.plan context owner id shape).ledger.checkSets =
    model.ledger.checkSets.modify (model.ledger.record id).checks.index
      fun _ => (model.planned context owner id shape).checks := by
  rw [plan_eq, ledger_updateDeclaration]
  show (Ledger.updateChecks _ id _).checkSets = _
  -- The record that the plan writes back keeps its number of the set.
  have same : (model.planned context owner id shape).record.checks = (model.ledger.record id).checks := by
    rw [planned_grows.record]
  have owned : ((model.ledger.update id fun _ =>
      (model.planned context owner id shape).record).record id).checks = (model.ledger.record id).checks :=
    Ledger.field_update Record.checks same
  rw [Ledger.updateChecks, owned, Ledger.checkSets_update]

theorem checkSets_size_plan :
    (model.plan context owner id shape).ledger.checkSets.size = model.ledger.checkSets.size := by
  rw [checkSets_plan, Array.size_modify]

/-- A later model that differs by a plan for one record of a declaration: checks for the side of the
record have joined behind those in its set, constants have joined behind those of the declaration, and
besides these only the library types of the declaration, the findings, and what is noted of the record's
own map and patterns may have changed. -/
structure PlannedAt (owner : DeclarationId) (id : RecordId) (before after : Model) : Prop where
  checks : ∃ added, (after.ledger.checks id).items = (before.ledger.checks id).items ++ added ∧
    ∀ check ∈ added, check.negated = (before.ledger.record id).isNegation
  sets : after.ledger.checkSets.size = before.ledger.checkSets.size ∧
    ∀ set, set ≠ (before.ledger.record id).checks.index →
      after.ledger.checkSets[set]? = before.ledger.checkSets[set]?
  record : after.ledger.record id =
    { before.ledger.record id with
      patternProperties := (after.ledger.record id).patternProperties
      mapBacked := (after.ledger.record id).mapBacked }
  patternProperties :
    (after.ledger.record id).patternProperties.map (fun entry => (entry.pattern, entry.record)) =
      (before.ledger.record id).patternProperties.map fun entry => (entry.pattern, entry.record)
  records : after.ledger.size = before.ledger.size ∧
    ∀ other, other ≠ id → after.ledger.record other = before.ledger.record other
  constants : (before.declaration owner).constants.entries <+: (after.declaration owner).constants.entries
  libraryTypes : (before.declaration owner).libraryTypes ⊆ (after.declaration owner).libraryTypes
  declaration : after.declaration owner =
    { before.declaration owner with
      constants := (after.declaration owner).constants
      libraryTypes := (after.declaration owner).libraryTypes }
  declarations : after.declarations.size = before.declarations.size ∧
    ∀ other, other ≠ owner → after.declaration other = before.declaration other
  counted : after.counted = before.counted

/-- A plan adds at the ends of its two lists, and is local. -/
theorem plannedAt_plan (plannable : model.Plannable owner id) :
    PlannedAt owner id model (model.plan context owner id shape) := by
  -- The plan grows from the draft of the record, and each field of the result is read off that.
  have grows := @planned_grows model context owner id shape
  have record := @record_plan_self model context owner id shape plannable
  have declaration := @declaration_plan_self model context owner id shape plannable
  refine ⟨?_, ⟨checkSets_size_plan, fun set apart => ?_⟩, ?_, ?_, ⟨size_plan, fun other apart => ?_⟩, ?_, ?_,
    ?_, ⟨declarations_size_plan, fun other apart => ?_⟩, rfl⟩
  · -- The checks of the record itself are extended at their end.
    rw [checks_plan_self plannable]
    obtain ⟨added, items, fresh⟩ := grows.checks
    exact ⟨added, items, fun check member => (fresh check member).1⟩
  · -- A set of another number was not touched.
    rw [checkSets_plan, Array.getElem?_modify, if_neg (Ne.symm apart)]
  · rw [record]
    exact grows.record
  · rw [record]
    exact grows.patternProperties
  · -- Neither was a record of another number.
    rw [record_plan, if_neg fun both => apart both.1]
  · rw [declaration]
    exact grows.constants
  · rw [declaration]
    exact grows.libraryTypes
  · rw [declaration]
  · rw [declaration_plan, if_neg fun both => apart both.1]

end Model

namespace Modelling

variable {context : Context} {before after first : Model}

/-- A move leaves items parted from their arrays. -/
theorem Move.parted (move : Move context before after) (parted : before.ledger.Parted) :
    after.ledger.Parted := by
  -- Only a copy makes a record; all other moves leave items and sets of checks where they are.
  cases move with
  | work work =>
    cases work with
    | note id noted =>
      refine parted.update ?_ ?_
      · rw [noted]
      · rw [noted]
    | require id name => exact parted.update rfl rfl
    | copy id => exact parted.duplicate
    | thin id set => exact parted.congr rfl Array.size_modify (fun _ => rfl) fun _ => rfl
    | extend id set => exact parted.congr rfl Array.size_modify (fun _ => rfl) fun _ => rfl
    | plan owner id shape =>
      exact parted.congr Model.size_plan Model.checkSets_size_plan
        (fun _ => Model.field_plan Record.checks fun _ _ _ => rfl)
        fun _ => Model.field_plan Record.items fun _ _ _ => rfl
    | nest owner added => exact parted
    | importing owner name => exact parted
  | based id base => exact parted
  | implemented id interface => exact parted
  | mark id marked => exact parted

/-- Items stay parted from their arrays, whatever moves are made. -/
theorem parted_of_moves (moves : Moves context before after) (parted : before.ledger.Parted) :
    after.ledger.Parted := by
  induction moves with
  | refl => exact parted
  | tail _ move ih => exact move.parted ih

/-- Planning is append-only, local and idempotent, whatever a run has come to. Moves lead from the classes
that were declared to the model in which a resolution ends, whether it succeeds or fails. Any model that
moves lead to, in whatever order, differs by nothing else than a plan when a record is planned for a
declaration, and planning the record in the same shape again changes nothing at all. -/
theorem plans_resolve {roots : List RootSchema} :
    Ends (roots.forM (declareRoot context)) {}
      (fun _ first =>
        Moves context first (lastState (resolve context) first) ∧
        ∀ model, Moves context first model → ∀ (owner : DeclarationId) (id : RecordId) (shape : Shape),
          owner.index < model.declarations.size → id.index < model.ledger.size →
          Model.PlannedAt owner id model (model.plan context owner id shape) ∧
            (model.plan context owner id shape).plan context owner id shape =
              model.plan context owner id shape)
      (fun _ => True) := by
  refine declared_roots.mono fun _ first declared =>
    ⟨moves_resolve, fun model moves owner id shape declared' present => ?_⟩
  -- Wherever moves lead, an array shares no checks with its items, so that a plan for the one is none for
  -- the other.
  have parted := parted_of_moves moves declared.sound.parted
  have plannable : model.Plannable owner id :=
    ⟨declared', present, parted.inRange id present, parted.apart id⟩
  exact ⟨Model.plannedAt_plan plannable, Model.plan_again plannable⟩

end Modelling

end SchemaClasses
