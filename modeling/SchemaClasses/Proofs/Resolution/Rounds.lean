import SchemaClasses.Proofs.Resolution.Members
import SchemaClasses.Proofs.Resolution.Turns

/-! A round is a sequence of turns on the branches of one class behind which every class that it nested
is whole and no analysis is half done. -/

namespace SchemaClasses

namespace Modelling

variable {context : Context} {first before after model a b c : Model} {owner : DeclarationId}
variable {floor : Nat} {id : RecordId} {site : Site}

/-- Where the branches of one class may be resolved: the class has what its records need, and what lies
inside these belongs to it as well. -/
structure Holding (context : Context) (first : Model) (owner : DeclarationId) (floor : Nat)
    (model : Model) : Prop extends Branching context first model where
  declared : owner.index < first.declarations.size
  low : first.ledger.size ≤ floor
  high : floor ≤ model.ledger.size
  closed : ∀ id ∈ first.home owner floor, ∀ child ∈ (model.ledger.record id).children,
    child ∈ first.home owner floor
  branches : ∀ id ∈ first.home owner floor, ∀ branch ∈ (model.ledger.record id).oneOf,
    ∃ parent ∈ first.ledger.scope (first.declaration owner).record,
      branch ∈ (first.ledger.record parent).oneOf
  stocked : model.Stocked owner (first.home owner floor ∩ model.everywhere)
  housed : ∀ nested ∈ (model.declaration owner).nested, nested.record ∈ first.home owner floor

/-- A turn leaves a class so that its branches may be resolved. -/
theorem Holding.turn (holding : Holding context first owner floor before)
    (turn : Turn context first owner floor before after) : Holding context first owner floor after where
  toBranching := holding.toBranching.turn holding.low turn
  declared := holding.declared
  low := holding.low
  high := Nat.le_trans holding.high turn.size_le.1
  closed id belongs child held := by
    by_cases present : id ∈ before.everywhere
    · -- What a record gains lies inside an alternative or behind the floor.
      rcases turn.mem_children present held with earlier | ⟨acts, -⟩
      · exact holding.closed id belongs child earlier
      · exact Model.branchScope_subset_home acts
    · by_cases there : id ∈ after.everywhere
      · -- The record is the new variant or a copy, whose children are copies too unless they are shared
        -- with the container or one of its properties.
        obtain ⟨container, origin, copies, -, belongs, -, -, -, varies⟩ := turn.varies present there
        rcases varies.mem_children present held with copy | ⟨source, place, inside⟩
        · obtain ⟨source, -, repeats⟩ := varies.repeats child copy
          exact .inr (Nat.le_trans holding.high repeats.late)
        · refine holding.closed source ?_ child inside
          rcases place with rfl | property
          · exact belongs
          · exact holding.closed container belongs source (Record.mem_children.mpr (.inl property))
      · rw [record_of_not_everywhere there] at held
        exact absurd held List.not_mem_nil
  branches id belongs branch held := by
    by_cases present : id ∈ before.everywhere
    · have same : (after.ledger.record id).oneOf = (before.ledger.record id).oneOf := by
        rw [(turn.lasts present).record]
      rw [same] at held
      exact holding.branches id belongs branch held
    · by_cases there : id ∈ after.everywhere
      · -- A variant has no alternatives of its own, and a copy has those of its property.
        obtain ⟨container, origin, copies, -, belongs, -, -, -, varies⟩ := turn.varies present there
        obtain ⟨source, property, held⟩ := varies.mem_oneOf present held
        exact holding.branches source
          (holding.closed container belongs source (Record.mem_children.mpr (.inl property))) branch held
      · rw [record_of_not_everywhere there] at held
        exact absurd held List.not_mem_nil
  stocked id acts := by
    by_cases present : id ∈ before.everywhere
    · refine turn.supplied holding.inRange ?_ present (holding.stocked id ⟨acts.1, present⟩)
      rw [holding.declarations]
      exact holding.declared
    · exact turn.supplied_new present acts.2 holding.closed holding.enclosed holding.stocked
  housed nested member :=
    (turn.nested_mem member).elim (holding.housed nested) fun new =>
      Model.branchScope_subset_home new.2

/-- Any number of turns on the branches of one class. -/
abbrev OwnTurns (context : Context) (first : Model) (owner : DeclarationId) (floor : Nat) :
    Model → Model → Prop :=
  Relation.ReflTransGen (Turn context first owner floor)

/-- Turns lead onward. -/
theorem OwnTurns.onward (turns : OwnTurns context first owner floor before after) :
    Onward before after := by
  induction turns with
  | refl => exact .refl before
  | tail _ turn ih => exact ih.trans turn.onward

/-- Turns leave a class so that its branches may be resolved. -/
theorem OwnTurns.holding (turns : OwnTurns context first owner floor before after)
    (holding : Holding context first owner floor before) : Holding context first owner floor after := by
  induction turns with
  | refl => exact holding
  | tail _ turn ih => exact ih.turn turn

/-- Classes that are whole stay so. -/
theorem OwnTurns.whole (turns : OwnTurns context first owner floor before after)
    (whole : before.Whole owner id) : after.Whole owner id := by
  induction turns with
  | refl => exact whole
  | tail _ turn ih => exact turn.whole ih

/-- Turns behind which the classes that they nested are whole and no analysis is half done. -/
structure Round (context : Context) (first : Model) (owner : DeclarationId) (floor : Nat)
    (before after : Model) : Prop where
  turns : OwnTurns context first owner floor before after
  whole : after.WholeFrom owner (before.declaration owner).nested.size
  clean : ∀ id ∈ before.everywhere, (before.ledger.record id).negationOf = none →
    before.Clean owner id → after.Clean owner id

namespace Round

theorem onward (round : Round context first owner floor before after) : Onward before after :=
  OwnTurns.onward round.turns

/-- Turns that nest no class and decide no shape. -/
theorem ofTurns (turns : OwnTurns context first owner floor before after)
    (same : (after.declaration owner).nested.size ≤ (before.declaration owner).nested.size)
    (shape : ∀ id ∈ before.everywhere,
      (after.ledger.record id).shape = (before.ledger.record id).shape) :
    Round context first owner floor before after where
  turns := turns
  -- A class beyond the old ones would make more of them.
  whole index nested atLeast there _ := by
    obtain ⟨inside, -⟩ := Array.getElem?_eq_some_iff.mp there
    omega
  -- The shape is the same, and what is settled stays so.
  clean id present _ clean :=
    clean.imp (fun unset => (shape id present).trans unset) (OwnTurns.onward turns).settled

theorem refl (model : Model) : Round context first owner floor model model :=
  ofTurns .refl (Nat.le_refl _) fun _ _ => rfl

theorem trans (led : Round context first owner floor a b)
    (led' : Round context first owner floor b c) : Round context first owner floor a c where
  turns := led.turns.trans led'.turns
  whole := wholeFrom_of_grown (led'.onward.grows owner) (fun _ => OwnTurns.whole led'.turns) led'.whole
    led.whole
  clean id present positive clean := by
    -- A record that was there is no negation later if it was none before.
    refine led'.clean id (Nat.lt_of_lt_of_le present led.onward.size_le) ?_
      (led.clean id present positive clean)
    have same : (b.ledger.record id).negationOf = (a.ledger.record id).negationOf := by
      rw [(led.onward.lasts id present).record]
    exact same.trans positive

end Round

/-- Steps in the branches of a class are turns. -/
theorem Steps.ownTurns {scope : Set RecordId} (steps : Steps context owner scope before after)
    (within : scope ⊆ first.branchScope owner floor) (present : scope ⊆ before.everywhere) :
    OwnTurns context first owner floor before after := by
  induction steps with
  | refl => exact .refl
  | @tail middle last steps taken ih =>
    refine ih.tail (.step taken within fun id acts => ?_)
    -- No record is added while steps are taken, so the scope is still present.
    show id.index < middle.ledger.size
    rw [(Steps.ahead steps).size]
    exact present acts

/-- A walk in the branches of a class is a round. -/
theorem Walk.round {scope : Set RecordId} (walk : Walk context owner scope before after)
    (within : scope ⊆ first.branchScope owner floor) (present : scope ⊆ before.everywhere) :
    Round context first owner floor before after :=
  ⟨Steps.ownTurns walk.steps within present, walk.whole, fun id _ => walk.clean id⟩

/-- Where the branches of one class may be resolved, and no analysis inside it is half done. -/
structure Resolving (context : Context) (first : Model) (owner : DeclarationId) (floor : Nat)
    (model : Model) : Prop extends Holding context first owner floor model where
  surveyed : first.Declared
  clean : model.CleanFrom owner (first.ledger.scope (first.declaration owner).record)
    ((first.declaration owner).record.index + 1)

/-- Turns that leave no analysis half done leave a class so that its branches may be resolved. -/
theorem Resolving.turns (resolving : Resolving context first owner floor before)
    (turns : OwnTurns context first owner floor before after)
    (clean : ∀ id ∈ before.everywhere, (before.ledger.record id).negationOf = none →
      before.Clean owner id → after.Clean owner id) :
    Resolving context first owner floor after where
  toHolding := OwnTurns.holding turns resolving.toHolding
  surveyed := resolving.surveyed
  clean id acts above positive := by
    -- The scope of the class was surveyed, so its records were there at any time since.
    have inside := (resolving.surveyed.closed_scope resolving.declared).present id acts
    have present : id ∈ before.everywhere := Nat.lt_of_lt_of_le inside resolving.ledger.size_le
    have same : (after.ledger.record id).negationOf = (before.ledger.record id).negationOf := by
      rw [((OwnTurns.onward turns).lasts id present).record]
    rw [same] at positive
    exact clean id present positive (resolving.clean id acts above positive)

/-- A round leaves a class so that its branches may be resolved. -/
theorem Resolving.round (resolving : Resolving context first owner floor before)
    (round : Round context first owner floor before after) :
    Resolving context first owner floor after :=
  resolving.turns round.turns round.clean

/-- A record inside an alternative may be analysed. -/
theorem Resolving.ready (resolving : Resolving context first site.owner floor model)
    (inside : id ∈ first.inBranches site.owner)
    (placed : ∀ index, site.scope = some index → model.HasClass (.nested site.owner index)) :
    Ready site (first.ledger.scope id) 0 model := by
  -- The scope of a record is closed under going inside.
  have closed : first.ledger.Closed (first.ledger.scope id) :=
    resolving.surveyed.sound.closed_scope
      ((resolving.surveyed.closed_scope resolving.declared).present id (Model.inBranches_subset inside))
  refine ⟨?_, placed, resolving.ledger.closed closed,
    resolving.ledger.ordered closed (resolving.surveyed.sound.ordered _), fun other acts _ => ?_⟩
  · rw [resolving.declarations]
    exact resolving.declared
  · -- The record lies in a branch, behind the record of its class.
    have inside' := Model.scope_subset_inBranches inside acts
    exact resolving.clean other (Model.inBranches_subset inside')
      (Model.lt_of_inBranches resolving.surveyed.sound inside')

/-- The records inside an alternative are there. -/
theorem Resolving.present (resolving : Resolving context first owner floor model)
    (inside : id ∈ first.inBranches owner) :
    first.ledger.scope id ⊆ model.everywhere := by
  intro other acts
  have inside' := (resolving.surveyed.closed_scope resolving.declared).present other
    (Model.inBranches_subset (Model.scope_subset_inBranches inside acts))
  exact Nat.lt_of_lt_of_le inside' resolving.ledger.size_le

/-- A walk inside an alternative is a round. -/
theorem Resolving.walk (resolving : Resolving context first owner floor before)
    (inside : id ∈ first.inBranches owner)
    (walk : Walk context owner (first.ledger.scope id) before after) :
    Round context first owner floor before after :=
  walk.round (fun _ acts => .inl (Model.scope_subset_inBranches inside acts))
    (resolving.present inside)

/-- The analysis of a record inside an alternative settles it. -/
theorem Resolving.analyseAny (resolving : Resolving context first site.owner floor model)
    (inside : id ∈ first.inBranches site.owner)
    (placed : ∀ index, site.scope = some index → model.HasClass (.nested site.owner index))
    (positive : (first.ledger.record id).negationOf = none) (role : Role) :
    Ends (analyseAny context site id role) model
      (fun _ last => Round context first site.owner floor model last ∧ last.Settled site.owner id)
      (fun _ => True) := by
  have present := (resolving.surveyed.closed_scope resolving.declared).present id
    (Model.inBranches_subset inside)
  -- A record of the survey negates what it negated then.
  have positive : (model.ledger.record id).negationOf = none := by
    rw [(resolving.ledger.record id present).sameOrigin.negationOf]
    exact positive
  have settles : Yields context site.owner (first.ledger.scope id)
      (Modelling.analyseAny context site id role) model fun _ last => last.Settled site.owner id :=
    works_analyseAny site id role model rfl Ledger.mem_scope_self (Nat.zero_le _) positive
      (resolving.ready inside placed)
  exact Ends.imp settles (fun _ last walked => ⟨resolving.walk inside walked.1, walked.2⟩)
    fun _ _ => trivial

end Modelling

end SchemaClasses
