import SchemaClasses.Proofs.Resolution.Estates
import SchemaClasses.Proofs.Survey.Places

/-! Thin overrides lose no check: whatever a run does after a comparison with a base class, each check
that was planned by then is still made by the property or by the one of the base class, and by one of them
only. -/

namespace SchemaClasses

/-- A comparison that stands in a model: the classes and properties are those that were compared, and
the planned checks are kept. -/
structure Comparison.Stands (comparison : Comparison) (model : Model) : Prop where
  based : (model.declaration comparison.owner).base = some comparison.base
  owned : comparison.property ∈
    (model.ledger.record (model.declaration comparison.owner).record).properties
  inherited : comparison.baseProperty ∈
    (model.ledger.record (model.declaration comparison.base).record).properties
  linked : (model.ledger.record comparison.property).baseProperty = some comparison.baseProperty
  kept : comparison.Kept model comparison.property

namespace Modelling

variable {context : Context} {bound : Nat} {first before after model : Model} {id : RecordId}

/-- What is known of all comparisons while branches are resolved. -/
structure Carried (bound : Nat) (told : List Comparison) (model : Model) : Prop where
  low : bound ≤ model.ledger.size
  inRange : model.ledger.InRange
  owners : ∀ id : DeclarationId, id.index < model.declarations.size →
    (model.declaration id).record.index < bound ∧
      ∀ property ∈ (model.ledger.record (model.declaration id).record).properties,
        property.index < bound
  within : ∀ comparison ∈ told, comparison.property.index < bound ∧
    comparison.baseProperty.index < bound ∧
    (model.declaration comparison.owner).record.index < bound ∧
    (model.declaration comparison.base).record.index < bound
  stands : ∀ comparison ∈ told, comparison.Stands model
  linked : ∀ id base, (model.ledger.record id).baseProperty = some base →
    ∃ comparison ∈ told, comparison.baseProperty = base ∧ comparison.Kept model id ∧
      (id.index < bound → comparison.property = id)

/-- A turn keeps what is known of all comparisons. -/
theorem Carried.turn {told : List Comparison} {owner : DeclarationId} {floor : Nat}
    (carried : Carried bound told before) (low : bound ≤ floor)
    (turn : Turn context first owner floor before after) : Carried bound told after := by
  -- Records below the bound lie below the floor as well, where a turn only settles them.
  have there {id : RecordId} (below : id.index < bound) : id ∈ before.everywhere :=
    Nat.lt_of_lt_of_le below carried.low
  have properties {id : RecordId} (below : id.index < bound) :
      (after.ledger.record id).properties = (before.ledger.record id).properties :=
    (turn.settles (there below) (Nat.lt_of_lt_of_le below low)).properties_eq
  have baseProperty {id : RecordId} (present : id ∈ before.everywhere) :
      (after.ledger.record id).baseProperty = (before.ledger.record id).baseProperty :=
    (turn.lasts present).baseProperty_eq
  have checks {id : RecordId} (present : id ∈ before.everywhere) :
      (before.ledger.checks id).items <+: (after.ledger.checks id).items :=
    turn.checks_prefix carried.inRange present
  -- What the property keeps depends on its own checks and on those of the base property.
  have kept {comparison : Comparison} (member : comparison ∈ told) {id copy : RecordId}
      (held : comparison.Kept before id)
      (own : (before.ledger.checks id).items <+: (after.ledger.checks copy).items) :
      comparison.Kept after copy :=
    held.of_grown own (checks (there (carried.within comparison member).2.1)).subset
      fun id => (turn.grows id).constants
  refine ⟨Nat.le_trans carried.low turn.size_le.1, turn.inRange carried.inRange,
    fun id inside => ?_, fun comparison member => ?_, fun comparison member => ?_,
    fun id base held => ?_⟩
  · -- Declared classes keep their records, with the properties that they have.
    rw [turn.size_le.2] at inside
    obtain ⟨below, inside⟩ := carried.owners id inside
    rw [(turn.grows _).record, properties below]
    exact ⟨below, inside⟩
  · rw [(turn.grows _).record, (turn.grows _).record]
    exact carried.within comparison member
  · -- What stands for a comparison is not moved by a turn.
    have stands := carried.stands comparison member
    obtain ⟨property, inherited, owner, base⟩ := carried.within comparison member
    refine ⟨(turn.base_eq _).trans stands.based, ?_, ?_,
      (baseProperty (there property)).trans stands.linked,
      kept member stands.kept (checks (there property))⟩
    · rw [(turn.grows _).record, properties owner]
      exact stands.owned
    · rw [(turn.grows _).record, properties base]
      exact stands.inherited
  · -- A record with a base property was there before, or joined as a copy.
    by_cases present : id ∈ before.everywhere
    · rw [baseProperty present] at held
      obtain ⟨comparison, member, same, holds, own⟩ := carried.linked id base held
      exact ⟨comparison, member, same, kept member holds (checks present), own⟩
    · -- A new record is a copy of one that has been compared.
      have new : id ∈ after.everywhere := by
        by_contra absent
        rw [record_of_not_everywhere absent] at held
        cases held
      obtain ⟨container, origin, copies, -, -, -, -, -, varies⟩ := turn.varies present new
      obtain ⟨source, -, copied, -, -, -, linked⟩ := varies.source present new
      rw [linked] at held
      obtain ⟨comparison, member, same, holds, -⟩ := carried.linked source base held
      refine ⟨comparison, member, same, kept member holds ?_,
        fun below => absurd (there below) present⟩
      rw [copied.checks]

/-- Turns keep what is known of all comparisons. -/
theorem Carried.turns {told : List Comparison}
    (carried : Carried first.ledger.size told before) (turns : Turns context first before after) :
    Carried first.ledger.size told after := by
  induction turns with
  | refl => exact carried
  | tail _ turn ih =>
    obtain ⟨owner, floor, low, turn⟩ := turn
    exact ih.turn low turn

variable {begun done : Set DeclarationId} {told : List Comparison}

/-- When all classes are analysed, all comparisons stand. -/
theorem AtRest.carried (rest : AtRest context first begun done told model)
    (declared : first.Declared) : Carried first.ledger.size told model := by
  have progress := rest.progress
  have present {parent child : RecordId} (member : child ∈ (first.ledger.record parent).properties) :
      child.index < first.ledger.size :=
    (declared.sound.forest.inside _ _ (Record.mem_children.mpr (.inl member))).2
  refine ⟨Nat.le_of_eq progress.later.size.symm, (progress.branching declared).inRange,
    fun id inside => ?_, fun comparison member => ?_, fun comparison member => ?_, fun id base held => ?_⟩
  · -- The root of a declaration comes from the survey, and so do its properties.
    rw [progress.later.declarations] at inside
    rw [(progress.later.grows _).record, (progress.later.settles _).properties_eq]
    exact ⟨(declared.root id inside).1, fun property member => present member⟩
  · -- Only declared classes are compared, and their records are roots of the survey.
    have known := progress.compared comparison member
    refine ⟨present known.owned, present known.inherited, ?_, ?_⟩
    · rw [(progress.later.grows _).record]
      exact (declared.root _ (rest.inside _ (rest.owners comparison member))).1
    · rw [(progress.later.grows _).record]
      exact (declared.root _ (rest.inside _ known.done)).1
  · -- The progress has recorded that both properties are owned and what the comparison kept.
    have known := progress.compared comparison member
    refine ⟨known.based, ?_, ?_, known.linked, known.kept⟩
    · rw [(progress.later.grows _).record, (progress.later.settles _).properties_eq]
      exact known.owned
    · rw [(progress.later.grows _).record, (progress.later.settles _).properties_eq]
      exact known.inherited
  · -- A base property is only noted by a comparison of that property.
    obtain ⟨comparison, member, rfl, same⟩ := progress.linked id base held
    exact ⟨comparison, member, same, (progress.compared comparison member).kept, fun _ => rfl⟩

/-- The members of all declarations are resolved first, and turns on their branches follow. -/
theorem ends_comparingResolve (declared : first.Declared) :
    Ends (comparingResolve context) first
      (fun told last => ∃ done middle, AtRest context first done done told middle ∧
        Turns context first middle last)
      (fun _ => True) := by
  refine (ends_comparingResolve_estates declared).imp (fun _ _ resolved => ?_) fun _ _ => trivial
  obtain ⟨done, middle, rest, turns, -⟩ := resolved
  exact ⟨done, middle, rest, turns⟩

/-- Thin overrides lose no check. For every run, the comparisons with base classes that it makes are
those of a run that tells them, and each of them stands at the end: every check that was planned on
the property, or on its negation, by the time of the comparison is still among its checks, in the
order of then, or the property of the base class has a check of the same kind and sign with the same
value. Every property of a declared class that has a base property was compared itself, and a copy
of one in a variant keeps what the comparison of the one left. -/
theorem stands_build {roots : List RootSchema} :
    Ends (build context roots) {}
      (fun _ last => ∃ told, comparingBuild context roots {} = .ok told last ∧
        (∀ comparison ∈ told, comparison.Stands last) ∧
        ∀ property base, (last.ledger.record property).baseProperty = some base →
          ∃ comparison ∈ told, comparison.baseProperty = base ∧ comparison.Kept last property ∧
            ∀ owner : DeclarationId, owner.index < last.declarations.size →
              property ∈ (last.ledger.record (last.declaration owner).record).properties →
              comparison.property = property)
      (fun _ => True) := by
  -- The bound is the size of the ledger when the members had been resolved.
  have all : Ends (comparingBuild context roots) {}
      (fun told last => ∃ bound, Carried bound told last) (fun _ => True) := by
    rw [comparingBuild, ends_bind]
    refine declared_roots.imp (fun _ first declared => ?_) fun _ _ => trivial
    refine (ends_comparingResolve declared).imp (fun told last ⟨done, middle, rest, turns⟩ => ?_)
      fun _ _ => trivial
    exact ⟨_, (rest.carried declared).turns turns⟩
  -- The plain run ends where the one that tells its comparisons does.
  rw [← tells_comparingBuild, ends_map]
  unfold Ends at all ⊢
  split at all
  · rename_i told last ran
    obtain ⟨bound, carried⟩ := all
    refine ⟨told, ran, carried.stands, fun property base held => ?_⟩
    -- A property of a declared class lies below the bound, so it is no copy.
    obtain ⟨comparison, member, same, kept, own⟩ := carried.linked property base held
    exact ⟨comparison, member, same, kept, fun owner inside owned =>
      own ((carried.owners owner inside).2 property owned)⟩
  · trivial

/-! What a comparison leaves is exact: no later part of a run adds to the checks of the properties that were
compared. -/

/-- The properties of the declared classes. -/
def ownProperties (first : Model) : Set RecordId :=
  { id | ∃ owner : DeclarationId, owner.index < first.declarations.size ∧
    id ∈ (first.ledger.record (first.declaration owner).record).properties }

/-- A state in which the properties of declared classes share no set of checks with what lies in branches. -/
structure Spared (first model : Model) : Prop where
  inRange : model.ledger.InRange
  present : ownProperties first ⊆ model.everywhere
  apart : ∀ owner, model.ledger.Apart (ownProperties first)
    (first.branchScope owner first.ledger.size ∩ model.everywhere)

/-- The properties of declared classes are no branches, nor do they lie in any. -/
theorem Later.spared (later : Later first model) (declared : first.Declared)
    (inRange : model.ledger.InRange) : Spared first model where
  inRange := inRange
  present id own := by
    obtain ⟨owner, -, held⟩ := own
    have inside := (declared.sound.forest.inside _ id (Record.mem_children.mpr (.inl held))).2
    exact Nat.lt_of_lt_of_eq inside later.size.symm
  -- A property shares no set with a branch, since two owners would have to be the same.
  apart owner := by
    refine later.apart fun id own other member same => ?_
    obtain ⟨holder, there, held⟩ := own
    have sound := declared.sound
    rcases member with ⟨⟨parent, -, branch, alternative, below⟩ | late, present⟩
    · have held' : id ∈ (first.ledger.record (first.declaration holder).record).inside .property := held
      have branch' : branch ∈ (first.ledger.record parent).inside .branch := alternative
      -- A branch is neither a property nor the negation of one.
      have only (place : PlaceKind) {other : RecordId}
          (held : branch ∈ (first.ledger.record other).inside place) : place = .branch := by
        have same := sound.forest.single _ _ _ (Record.mem_children_iff.mpr ⟨place, held⟩)
          (Record.mem_children_iff.mpr ⟨.branch, branch'⟩)
        subst same
        exact Record.place_eq (sound.forest.nodup _) held branch'
      refine sound.apart_below (declared.root holder there).2 held
        (Record.mem_children_iff.mpr ⟨.branch, branch'⟩) (fun same => ?_) (fun negated => ?_) id rfl other
        below same
      · cases only .property (same ▸ held')
      · cases only .negation (Option.mem_toList.mpr ((sound.owned.mirror id branch).mpr negated))
    · -- What joined late was not there, while the property was.
      exact absurd present (Nat.not_lt.mpr (Nat.le_trans (Nat.le_of_eq later.size) late))

/-- A turn leaves the checks of declared classes alone. -/
theorem Spared.turn {owner : DeclarationId} {floor : Nat} (spared : Spared first before)
    (low : first.ledger.size ≤ floor) (turn : Turn context first owner floor before after) :
    Spared first after ∧ ∀ id ∈ ownProperties first, after.ledger.checks id = before.ledger.checks id := by
  have higher : first.branchScope owner floor ⊆ first.branchScope owner first.ledger.size :=
    fun id acts => acts.imp_right (Nat.le_trans low)
  have apart : before.ledger.Apart (ownProperties first)
      -- The lower bound makes the scope of branches only larger.
      (first.branchScope owner floor ∩ before.everywhere) := fun id own other member =>
    spared.apart owner id own other ⟨higher member.1, member.2⟩
  refine ⟨⟨turn.inRange spared.inRange, fun id own => ?_, fun other => ?_⟩,
    fun id own => ((turn.apart spared.inRange spared.present apart).2 id own).2⟩
  · exact Nat.lt_of_lt_of_le (spared.present own) turn.size_le.1
  · exact turn.stays_apart spared.inRange spared.present (spared.apart other)

/-- Turns leave exact what is known exactly about the properties of declared classes. -/
theorem Spared.exact {comparison : Comparison} (spared : Spared first before)
    (turns : Turns context first before after) (own : comparison.property ∈ ownProperties first)
    (own' : comparison.baseProperty ∈ ownProperties first) (exact' : comparison.Exact before) :
    comparison.Exact after := by
  have steps : Spared first after ∧ comparison.Exact after := by
    induction turns with
    | refl => exact ⟨spared, exact'⟩
    | tail _ turn ih =>
      obtain ⟨owner, floor, low, turn⟩ := turn
      obtain ⟨spared, same⟩ := ih.1.turn low turn
      -- What is exact depends on the checks of two properties, neither of which has changed.
      exact ⟨spared, ih.2.of_same (same _ own) (same _ own') fun id => (turn.grows id).constants⟩
  exact steps.2

/-- Comparisons with base classes take away what these check already, and nothing else: at the end of every
run, each property that was compared has exactly those of the checks planned on it by then for which the
property of the base class has none of the same kind and sign with the same value. Every property of a
declared class that has a base property was compared. -/
theorem exact_build {roots : List RootSchema} :
    Ends (build context roots) {}
      (fun _ last => ∃ told, comparingBuild context roots {} = .ok told last ∧
        (∀ comparison ∈ told, comparison.Exact last) ∧
        ∀ owner : DeclarationId, owner.index < last.declarations.size →
          ∀ property ∈ (last.ledger.record (last.declaration owner).record).properties, ∀ base,
            (last.ledger.record property).baseProperty = some base →
              ∃ comparison ∈ told, comparison.property = property ∧ comparison.baseProperty = base)
      (fun _ => True) := by
  have all : Ends (comparingBuild context roots) {}
      (fun told last => (∀ comparison ∈ told, comparison.Exact last) ∧
        ∃ bound, Carried bound told last) (fun _ => True) := by
    rw [comparingBuild, ends_bind]
    refine declared_roots.imp (fun _ first declared => ?_) fun _ _ => trivial
    refine (ends_comparingResolve declared).imp (fun told last ⟨done, middle, rest, turns⟩ => ?_)
      fun _ _ => trivial
    have carried := rest.carried declared
    refine ⟨fun comparison member => ?_, _, carried.turns turns⟩
    -- The comparison was exact when it was made, and both properties belong to declared classes.
    have known := rest.progress.compared comparison member
    exact (rest.progress.later.spared declared carried.inRange).exact turns
      ⟨_, known.declared, known.owned⟩ ⟨_, rest.inside _ known.done, known.inherited⟩ known.exact'
  -- Telling what is compared does not change what is built.
  rw [← tells_comparingBuild, ends_map]
  unfold Ends at all ⊢
  split at all
  · rename_i told last ran
    obtain ⟨exact', bound, carried⟩ := all
    refine ⟨told, ran, exact', fun owner inside property owned base held => ?_⟩
    obtain ⟨comparison, member, same, -, own⟩ := carried.linked property base held
    -- The comparison that left the base property is the one of this property itself.
    exact ⟨comparison, member, own ((carried.owners owner inside).2 property owned), same⟩
  · trivial

end Modelling

/-- A check that compares with no constant is left exactly if the property of the base class does not make
it as well, whatever stands behind it: so it is with the check that stands for those of all items. -/
theorem Comparison.Exact.mem_iff_of_plain {comparison : Comparison} {model : Model} {check : Check}
    (exact' : comparison.Exact model) (plain : ∀ name, check.operand ≠ some (.constant name)) :
    check ∈ (model.ledger.checks comparison.property).items ↔
      check ∈ comparison.planned.items ∧ check ∉ (model.ledger.checks comparison.baseProperty).items := by
  rw [exact'.mem_iff]
  refine and_congr_right fun _ => ⟨fun none member => none check member (.plain plain), ?_⟩
  rintro absent inherited member (_ | _)
  · exact absent member
  · exact plain _ rfl

end SchemaClasses
