import SchemaClasses.Proofs.Resolution.Steps

/-! The checks that an analysis plans: they join behind those that are there, in the scope of the
class only, and the class has the constants and library types that they need. -/

namespace SchemaClasses

/-- Checks that are added come behind those that are there. -/
theorem CheckSet.prefix_extend (set more : CheckSet) : set.items <+: (set.extend more).items := by
  -- One check after the other is added to a set that grows, so the set varies in the induction.
  unfold extend
  generalize more.items = checks
  induction checks generalizing set with
  | nil => exact List.prefix_rfl
  | cons check rest ih =>
    refine List.IsPrefix.trans ?_ (ih (set.add check))
    unfold add
    -- A check that is there already is left out.
    split
    · exact List.prefix_rfl
    · exact List.prefix_append _ _

/-- No other checks are added than those given. -/
theorem CheckSet.mem_extend {set more : CheckSet} {check : Check}
    (member : check ∈ (set.extend more).items) : check ∈ set.items ∨ check ∈ more.items := by
  unfold extend at member
  -- The checks are added one by one, so that a new one is the first or one of the rest.
  generalize more.items = checks at member ⊢
  induction checks generalizing set with
  | nil => exact .inl member
  | cons first rest ih =>
    rcases ih member with earlier | later
    · exact (mem_add.mp earlier).imp_right fun new => List.mem_cons.mpr (.inl new)
    · exact .inr (List.mem_cons_of_mem _ later)

/-- The checks of a record after a plan: those of the plan for all records that share its set. -/
theorem Model.checks_plan {model : Model} {context : Context} {owner : DeclarationId}
    {id other : RecordId} {shape : Shape} :
    (model.plan context owner id shape).ledger.checks other =
      if (model.ledger.record other).checks = (model.ledger.record id).checks ∧
          (model.ledger.record id).checks.index < model.ledger.checkSets.size then
        (model.planned context owner id shape).checks
      else model.ledger.checks other := by
  -- A plan changes what is in the set of a record, and not which set the record owns.
  have same : (model.planned context owner id shape).record.checks =
      (model.ledger.record id).checks := by
    rw [Model.planned_grows.record]
  have owned (any : RecordId) :
      ((model.ledger.update id fun _ => (model.planned context owner id shape).record).record
        any).checks = (model.ledger.record any).checks := by
    exact Ledger.field_update Record.checks same
  -- The declaration is updated behind the record, which leaves the ledger alone.
  rw [Model.plan_eq, Model.ledger_updateDeclaration]
  show (Ledger.updateChecks _ id _).checks other = _
  rw [Ledger.checks_updateChecks, owned, owned, Ledger.checkSets_update, Ledger.checks_update same]

/-- Whether a class has what a record needs: the constants and library types of its checks, the
constants of its patterns, and maps if the record is backed by one. -/
structure Model.Supplied (model : Model) (owner : DeclarationId) (id : RecordId) : Prop where
  checks : ∀ check ∈ (model.ledger.checks id).items,
    check.IsSupplied (model.declaration owner).constants (model.declaration owner).libraryTypes
  entries : ∀ entry ∈ (model.ledger.record id).patternProperties,
    entry.IsSupplied (model.declaration owner).constants
  mapBacked : (model.ledger.record id).mapBacked = true →
    .map ∈ (model.declaration owner).libraryTypes

/-- Whether a class has what all records in its scope need. -/
def Model.Stocked (model : Model) (owner : DeclarationId) (scope : Set RecordId) : Prop :=
  ∀ id ∈ scope, model.Supplied owner id

/-- What a class has for a record it still has for one with the same needs when it holds more. -/
theorem Model.Supplied.of_grown {before after : Model} {owner : DeclarationId} {id copy : RecordId}
    (supplied : before.Supplied owner id)
    (grows : (before.declaration owner).Grows (after.declaration owner))
    (checks : after.ledger.checks copy = before.ledger.checks id)
    (entries : (after.ledger.record copy).patternProperties =
      (before.ledger.record id).patternProperties)
    (mapBacked : (after.ledger.record copy).mapBacked = (before.ledger.record id).mapBacked) :
    after.Supplied owner copy where
  checks check member := by
    rw [checks] at member
    exact (supplied.checks check member).of_grown grows.constants grows.libraryTypes
  entries entry member := by
    rw [entries] at member
    exact (supplied.entries entry member).of_grown grows.constants
  mapBacked backed := by
    rw [mapBacked] at backed
    exact grows.libraryTypes (supplied.mapBacked backed)

/-- Whether two scopes share no set of checks. -/
def Ledger.Apart (ledger : Ledger) (scope other : Set RecordId) : Prop :=
  ∀ a ∈ scope, ∀ b ∈ other, (ledger.record a).checks ≠ (ledger.record b).checks

namespace Modelling

variable {context : Context} {owner other : DeclarationId} {scope scope' : Set RecordId}
variable {before after : Model}

/-- Scopes without a common set of checks stay apart. -/
theorem Later.apart (later : Later before after) (apart : before.ledger.Apart scope scope') :
    after.ledger.Apart scope scope' := by
  intro a acts b acts'
  rw [(later.settles a).sameOrigin.checks, (later.settles b).sameOrigin.checks]
  exact apart a acts b acts'

/-- What a step does to the checks of a record: they stay, or a plan for the class of the analysis
adds to them. -/
inductive Planned (owner : DeclarationId) (scope : Set RecordId) (before after : Model)
    (id : RecordId) : Prop where
  | same (kept : after.ledger.checks id = before.ledger.checks id)
  | added {own : RecordId} {added : List Check} (acts : own ∈ scope)
      (shared : (before.ledger.record id).checks = (before.ledger.record own).checks)
      (items : (after.ledger.checks id).items = (before.ledger.checks id).items ++ added)
      (supplied : owner.index < before.declarations.size → ∀ check ∈ added,
        check.IsSupplied (after.declaration owner).constants
          (after.declaration owner).libraryTypes)

/-- A step keeps the checks of a record or plans some for its class. -/
theorem Step.planned (taken : Step context owner scope before after) (id : RecordId) :
    Planned owner scope before after id := by
  -- Marks, types, classes and notes leave the checks alone; only a plan adds some.
  cases taken with
  | mark acts marks =>
    refine .same (Ledger.checks_update ?_)
    show Record.checks _ = _
    rw [marks.eq]
    rfl
  | type acts unset suits shaped => exact .same (Ledger.checks_update rfl)
  | @plan other acts shape =>
    -- The plan shows in every record that shares the set, above all in the negation of its owner.
    by_cases shares : (before.ledger.record id).checks = (before.ledger.record other).checks ∧
        (before.ledger.record other).checks.index < before.ledger.checkSets.size
    · have grows : Plan.Grows _ (before.planned context owner other shape) := Model.planned_grows
      obtain ⟨added, items, fresh⟩ := grows.checks
      have own : before.ledger.checks id = before.ledger.checks other := by
        unfold Ledger.checks
        rw [shares.1]
      refine Planned.added acts shares.1 (?_ : _ = _ ++ added) fun declared check member => ?_
      · rw [Model.checks_plan, if_pos shares, own]
        exact items
      · rw [Model.declaration_plan, if_pos ⟨rfl, declared⟩]
        exact (fresh check member).2
    · -- A record with another set, or with one out of range, is not touched by the plan.
      refine .same ?_
      rw [Model.checks_plan, if_neg shares]
  | nest acts made places => exact .same rfl
  | note other notes => exact .same rfl

/-- What a step does to the patterns of a record: they stay, or a plan gives them constants of the
class. -/
theorem Step.entries (taken : Step context owner scope before after)
    (declared : owner.index < before.declarations.size) {id : RecordId} {entry : PatternProperty}
    (member : entry ∈ (after.ledger.record id).patternProperties) :
    entry ∈ (before.ledger.record id).patternProperties ∨
      entry.IsSupplied (after.declaration owner).constants := by
  -- Only a plan writes patterns, and only those of its own record.
  cases taken with
  | mark acts marks =>
    rw [Model.ledger_updateRecord,
      Ledger.field_update Record.patternProperties (by rw [marks.eq])] at member
    exact .inl member
  | type acts unset suits shaped =>
    rw [Model.ledger_updateRecord, Ledger.field_update Record.patternProperties rfl] at member
    exact .inl member
  | @plan other acts shape =>
    rw [Model.record_plan] at member
    rw [Model.declaration_plan, if_pos ⟨rfl, declared⟩]
    split at member
    · rename_i same
      rw [same.1]
      exact Model.planned_grows.entries entry member
    · exact .inl member
  | nest acts made places => exact .inl member
  | note other notes => exact .inl member

/-- A step lets a map back a record only if the class uses maps. -/
theorem Step.mapBacked (taken : Step context owner scope before after)
    (declared : owner.index < before.declarations.size) {id : RecordId}
    (backed : (after.ledger.record id).mapBacked = true) :
    (before.ledger.record id).mapBacked = true ∨
      .map ∈ (after.declaration owner).libraryTypes := by
  -- A map is only put behind a record by a plan, which notes the type with it.
  cases taken with
  | mark acts marks =>
    rw [Model.ledger_updateRecord, Ledger.field_update Record.mapBacked (by rw [marks.eq])] at backed
    exact .inl backed
  | type acts unset suits shaped =>
    rw [Model.ledger_updateRecord, Ledger.field_update Record.mapBacked rfl] at backed
    exact .inl backed
  | @plan other acts shape =>
    rw [Model.record_plan] at backed
    rw [Model.declaration_plan, if_pos ⟨rfl, declared⟩]
    split at backed
    · rename_i same
      rw [same.1]
      exact Model.planned_grows.mapBacked backed
    · exact .inl backed
  | nest acts made places => exact .inl backed
  | note other notes => exact .inl backed

/-- A step adds no set of checks. -/
theorem Step.checkSets_size (taken : Step context owner scope before after) :
    after.ledger.checkSets.size = before.ledger.checkSets.size := by
  cases taken with
  | mark acts marks => rfl
  | type acts unset suits shaped => rfl
  -- A plan writes into a set that is there.
  | plan acts shape =>
    rw [Model.plan_eq, Model.ledger_updateDeclaration]
    exact Array.size_modify
  | nest acts made places => rfl
  | note other notes => rfl

/-- Steps add no set of checks. -/
theorem Steps.checkSets_size (steps : Steps context owner scope before after) :
    after.ledger.checkSets.size = before.ledger.checkSets.size := by
  induction steps with
  | refl => rfl
  | tail _ taken ih => exact taken.checkSets_size.trans ih

/-- Checks only join those that are there. -/
theorem Steps.checks_prefix (steps : Steps context owner scope before after) (id : RecordId) :
    (before.ledger.checks id).items <+: (after.ledger.checks id).items := by
  induction steps with
  | refl => exact List.prefix_rfl
  | tail _ taken ih =>
    refine ih.trans ?_
    -- A single step keeps all checks or puts some behind them.
    cases taken.planned id with
    | same kept => simp [kept]
    | added acts shared items supplied =>
      rw [items]
      exact List.prefix_append _ _

/-- The checks of records outside of the scope stay. -/
theorem Steps.checks_eq (steps : Steps context owner scope before after) {id : RecordId}
    (apart : ∀ own ∈ scope, (before.ledger.record id).checks ≠ (before.ledger.record own).checks) :
    after.ledger.checks id = before.ledger.checks id := by
  induction steps with
  | refl => rfl
  -- A plan for the record would have acted on one that shares its set.
  | tail steps taken ih =>
    cases taken.planned id with
    | same kept => exact kept.trans ih
    | @added own added acts shared items supplied =>
      -- Records keep their sets, so the two shared theirs before the steps already.
      have origin (any : RecordId) := ((Steps.ahead steps).settles any).sameOrigin.checks
      rw [origin, origin] at shared
      exact absurd shared (apart own acts)

/-- A step leaves the class with what the record that it plans for needs. -/
theorem Step.supplied (taken : Step context owner scope before after)
    (declared : owner.index < before.declarations.size) {id : RecordId}
    (supplied : before.Supplied owner id) : after.Supplied owner id := by
  have grows := taken.ahead.grows owner
  refine ⟨fun check member => ?_, fun entry member => ?_, fun backed => ?_⟩
  · -- Either no check was planned for the record, or those that were added brought along what they need.
    cases taken.planned id with
    | same kept =>
      rw [kept] at member
      exact (supplied.checks check member).of_grown grows.constants grows.libraryTypes
    | added acts' shared items fresh =>
      rw [items] at member
      rcases List.mem_append.mp member with member | member
      · exact (supplied.checks check member).of_grown grows.constants grows.libraryTypes
      · exact fresh declared check member
  · rcases taken.entries declared member with earlier | fresh
    · exact (supplied.entries entry earlier).of_grown grows.constants
    · exact fresh
  · rcases taken.mapBacked declared backed with earlier | used
    · exact grows.libraryTypes (supplied.mapBacked earlier)
    · exact used

/-- Steps leave the class of an analysis with what a record needs. -/
theorem Steps.supplied (steps : Steps context owner scope before after)
    (declared : owner.index < before.declarations.size) {id : RecordId}
    (supplied : before.Supplied owner id) : after.Supplied owner id := by
  induction steps with
  | refl => exact supplied
  | tail steps taken ih =>
    exact taken.supplied (by rw [(Steps.ahead steps).declarations]; exact declared) ih

/-- Steps leave the class of an analysis with what the records in any scope need. -/
theorem Steps.stocked (steps : Steps context owner scope before after)
    (declared : owner.index < before.declarations.size) (stocked : before.Stocked owner scope') :
    after.Stocked owner scope' :=
  fun id acts => Steps.supplied steps declared (stocked id acts)

/-- The other classes go on holding what the records in their scopes need. -/
theorem Steps.stocked_apart (steps : Steps context owner scope before after)
    (apart : before.ledger.Apart scope' scope) (stocked : before.Stocked other scope') :
    after.Stocked other scope' := by
  intro id acts
  -- A record of the other scope would share its set with itself.
  have outside : id ∉ scope := fun member => apart id acts id member rfl
  have same := Steps.record_eq steps outside
  exact (stocked id acts).of_grown ((Steps.ahead steps).grows other)
    (steps.checks_eq (apart id acts)) (by rw [same]) (by rw [same])

end Modelling

end SchemaClasses
