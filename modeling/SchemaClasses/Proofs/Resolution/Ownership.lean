import SchemaClasses.Proofs.Planning.Locality
import SchemaClasses.Proofs.Resolution.Variants

/-! Every record that is made during a resolution has a set of checks to itself, so that an analysis leaves
alone what lies outside of the record that it is about. -/

namespace SchemaClasses

namespace Ledger

variable {before after ledger : Ledger} {id other root child parent : RecordId} {bound : Nat}

/-- Whether every record from a number on has a set of checks to itself. -/
structure Sole (bound : Nat) (ledger : Ledger) : Prop where
  inRange : ledger.InRange
  alone : ∀ id other : RecordId, bound ≤ id.index → id.index < ledger.size →
    other.index < ledger.size → (ledger.record id).checks = (ledger.record other).checks → id = other

namespace Sole

/-- Whether records share sets of checks depends on nothing but which sets they have. -/
theorem congr (sole : before.Sole bound) (size : after.size = before.size)
    (sets : after.checkSets.size = before.checkSets.size)
    (checks : ∀ id, (after.record id).checks = (before.record id).checks) : after.Sole bound where
  inRange id inside := by
    rw [checks, sets]
    exact sole.inRange id (size ▸ inside)
  alone id other late inside inside' same := by
    rw [checks, checks] at same
    exact sole.alone id other late (size ▸ inside) (size ▸ inside') same

/-- A record that changes keeps its set of checks. -/
theorem update (sole : ledger.Sole bound) {change : Record → Record}
    (kept : (change (ledger.record id)).checks = (ledger.record id).checks) :
    (ledger.update id change).Sole bound :=
  sole.congr size_update (by rw [checkSets_update]) fun _ => field_update Record.checks kept

/-- A copy gets a new set of checks. -/
theorem duplicate (sole : ledger.Sole bound) : (ledger.duplicate id).2.Sole bound := by
  have fresh : ((ledger.duplicate id).2.record ⟨ledger.size⟩).checks = ⟨ledger.checkSets.size⟩ := by
    rw [record_duplicate, if_pos rfl]
    rfl
  -- No record that was there has the set of the copy.
  have apart {other : RecordId} (old : other.index < ledger.size)
      (same : ((ledger.duplicate id).2.record other).checks = ⟨ledger.checkSets.size⟩) : False := by
    rw [record_duplicate_of_lt old] at same
    have inRange := sole.inRange other old
    rw [same] at inRange
    exact Nat.lt_irrefl _ inRange
  refine ⟨sole.inRange.duplicate, fun a b late inside inside' same => ?_⟩
  rw [size_duplicate] at inside inside'
  -- Of two records with one set, either both are the copy, or both were there.
  by_cases last : a = ⟨ledger.size⟩
  · by_cases last' : b = ⟨ledger.size⟩
    · exact last.trans last'.symm
    · rw [last, fresh] at same
      exact (apart (RecordId.lt_last inside' last') same.symm).elim
  · have old := RecordId.lt_last inside last
    by_cases last' : b = ⟨ledger.size⟩
    · rw [last', fresh] at same
      exact (apart old same).elim
    · -- Both were there, where they could not share a set.
      have old' := RecordId.lt_last inside' last'
      rw [record_duplicate_of_lt old, record_duplicate_of_lt old'] at same
      exact sole.alone a b late old old' same

end Sole

namespace Sound

/-- The owner of the checks of a record inside one that is no negation lies there as well. -/
theorem positive_inside (sound : ledger.Sound) (positive : (ledger.record root).negationOf = none)
    (member : id ∈ ledger.scope root) : ledger.positive id ∈ ledger.scope root := by
  unfold Ledger.positive
  cases negated : (ledger.record id).negationOf with
  -- A record that negates nothing owns its checks itself.
  | none => exact member
  | some parent =>
    have inside := sound.child_of_negationOf negated
    -- The negation lies inside the root below its parent, or it is the root.
    rcases Relation.ReflTransGen.cases_tail member with rfl | ⟨parent', above, child⟩
    · rw [positive] at negated
      cases negated
    · rw [sound.forest.single _ _ _ child inside] at above
      exact above

/-- A record outside another one that is no negation shares its checks with nothing inside that. -/
theorem apart_outside (sound : ledger.Sound) (positive : (ledger.record root).negationOf = none)
    (present : root.index < ledger.size) (present' : id.index < ledger.size)
    (outside : id ∉ ledger.scope root) : ledger.Apart {id} (ledger.scope root) := by
  intro own acts other below same
  rw [Set.mem_singleton_iff.mp acts] at same
  have owner := sound.owned.apart id other present' ((sound.closed_scope present).present other below) same
  have within := sound.positive_inside positive below
  rw [← owner] at within
  -- What owns the checks of the record lies inside, and so the record would, if only as a negation.
  refine outside ?_
  unfold Ledger.positive at within
  cases negated : (ledger.record id).negationOf with
  | none =>
    rw [negated] at within
    exact within
  | some holder =>
    rw [negated] at within
    exact mem_scope_of_child within (sound.child_of_negationOf negated)

end Sound

end Ledger

namespace Modelling

variable {context : Context} {before after first : Model} {bound : Nat}

/-- Work leaves records from a number on with sets of checks to themselves. -/
theorem Work.sole (work : Work context before after) (sole : before.ledger.Sole bound) :
    after.ledger.Sole bound := by
  -- Sets are made with their records, and a copy brings a new one.
  cases work with
  | note id noted =>
    refine sole.update ?_
    rw [noted]
  | require id name => exact sole.update rfl
  | copy id => exact sole.duplicate
  | thin id set => exact sole.congr rfl Array.size_modify fun _ => rfl
  | extend id set => exact sole.congr rfl Array.size_modify fun _ => rfl
  -- A plan writes into sets and moves no record to another one.
  | plan owner id shape =>
    exact sole.congr Model.size_plan Model.checkSets_size_plan fun _ =>
      Model.field_plan Record.checks fun _ _ _ => rfl
  | nest owner added => exact sole
  | importing owner name => exact sole

/-- So do moves. -/
theorem sole_of_moves (moves : Moves context before after) (sole : before.ledger.Sole bound) :
    after.ledger.Sole bound := by
  induction moves with
  | refl => exact sole
  | tail _ move ih =>
    cases move with
    | work work => exact work.sole ih
    | _ => exact ih

/-- A run inside declarations leaves records from a number on with sets of checks to themselves. -/
theorem ends_sole {α : Type} {step : Modelling α} (labours : ∀ first, Labours context first step)
    (sole : before.ledger.Sole bound) :
    Ends step before (fun _ last => last.ledger.Sole bound) (fun _ => True) := by
  have reached {last : Model} (works : Relation.ReflTransGen (Work context) before last) :
      last.ledger.Sole bound := by
    induction works with
    | refl => exact sole
    | tail _ work ih => exact work.sole ih
  have closes := labours before before .refl
  exact (closes.imp (fun _ _ works => reached works) fun _ _ _ => trivial).ends

variable {model last : Model} {site : Site} {floor : Nat} {id root : RecordId}

/-- A record outside another one that is no negation shares its checks with nothing inside that, at any
time. -/
theorem apart_outside (declared : first.Declared) (settles : first.ledger.Settles model.ledger)
    (sole : model.ledger.Sole first.ledger.size)
    (positive : (first.ledger.record root).negationOf = none) (present : root.index < first.ledger.size)
    (there : id ∈ model.everywhere) (outside : id ∉ first.ledger.scope root) :
    model.ledger.Apart {id} (first.ledger.scope root) := by
  intro own acts other below same
  have inside := (declared.sound.closed_scope present).present other below
  rw [Set.mem_singleton_iff.mp acts] at same
  by_cases old : id.index < first.ledger.size
  · -- Both records were surveyed, and have kept their sets.
    rw [(settles.record id old).sameOrigin.checks, (settles.record other inside).sameOrigin.checks] at same
    exact declared.sound.apart_outside positive present old outside id rfl other below same
  · -- A record that joined later has its set to itself.
    have late := Nat.not_lt.mp old
    -- Then the other record would be the same, which was there from the start.
    rw [sole.alone id other late there (Nat.lt_of_lt_of_le inside settles.size_le) same] at late
    exact absurd inside (Nat.not_lt.mpr late)

/-- The analysis of a record inside a branch takes steps inside the record. -/
theorem steps_analyseAny (resolving : Resolving context first site.owner floor model)
    (inside : root ∈ first.inBranches site.owner)
    (placed : ∀ index, site.scope = some index → model.HasClass (.nested site.owner index))
    (positive : (first.ledger.record root).negationOf = none) (role : Role) :
    Ends (analyseAny context site root role) model
      (fun _ last => Steps context site.owner (first.ledger.scope root) model last) (fun _ => True) := by
  have present := (resolving.surveyed.closed_scope resolving.declared).present root
    (Model.inBranches_subset inside)
  -- The record negates nothing still.
  have positive' : (model.ledger.record root).negationOf = none := by
    rw [(resolving.ledger.record root present).sameOrigin.negationOf]
    exact positive
  have settles : Yields context site.owner (first.ledger.scope root)
      (analyseAny context site root role) model fun _ last => last.Settled site.owner root :=
    works_analyseAny site root role model rfl Ledger.mem_scope_self (Nat.zero_le _) positive'
      (resolving.ready inside placed)
  exact Ends.imp settles (fun _ last walked => walked.1.steps) fun _ _ => trivial

/-- The analysis of a record inside a branch leaves all that lies outside of the record as it is. -/
theorem leaves_analyseAny (resolving : Resolving context first site.owner floor model)
    (sole : model.ledger.Sole first.ledger.size) (inside : root ∈ first.inBranches site.owner)
    (placed : ∀ index, site.scope = some index → model.HasClass (.nested site.owner index))
    (positive : (first.ledger.record root).negationOf = none) (role : Role) :
    Ends (analyseAny context site root role) model
      (fun _ last => ∀ id ∈ model.everywhere, id ∉ first.ledger.scope root →
        last.ledger.record id = model.ledger.record id ∧
          last.ledger.checks id = model.ledger.checks id)
      (fun _ => True) := by
  have present := (resolving.surveyed.closed_scope resolving.declared).present root
    (Model.inBranches_subset inside)
  refine (steps_analyseAny resolving inside placed positive role).mono fun _ last steps id there outside =>
    -- The checks outside are kept, as no set is shared across the border of the record.
    ⟨Steps.record_eq steps outside, Steps.checks_eq steps fun own acts => ?_⟩
  exact apart_outside resolving.surveyed resolving.ledger sole positive present there outside
    id rfl own acts

end Modelling

end SchemaClasses
