import SchemaClasses.Proofs.Resolution.Analysis
import SchemaClasses.Proofs.Resolution.Variants

/-! Every class has an estate: records that are only its own, hold only each other and need nothing that
the class lacks. The resolution of its branches adds copies to the estate and leaves those of all other
classes alone. -/

namespace SchemaClasses

/-- The numbers of declarations are different. -/
theorem Model.nodup_ids {model : Model} : model.ids.Nodup :=
  List.nodup_range.map fun _ _ same => congrArg DeclarationId.index same

namespace Modelling

variable {context : Context} {first before after model last : Model} {owner id : DeclarationId}
variable {floor : Nat} {home : Set RecordId} {record : RecordId}

/-- The records of a class and what is known of them once its members have been analysed. -/
structure Estate (first : Model) (id : DeclarationId) (home : Set RecordId) (model : Model) :
    Prop where
  present : home ⊆ model.everywhere
  rooted : (first.declaration id).record ∈ home
  closed : ∀ record ∈ home, ∀ child ∈ (model.ledger.record record).children, child ∈ home
  stocked : model.Stocked id home
  housed : ∀ nested ∈ (model.declaration id).nested, nested.record ∈ home
  whole : (first.declaration id).kind = .concrete →
    model.Whole id (first.declaration id).record
  filled : model.WholeFrom id 0
  numbered : (model.declaration id).constants.Numbered

/-- A class that is whole stays so with the record that it was made for. -/
theorem Onward.whole (led : Onward before after) (whole : before.Whole id record)
    (same : after.ledger.record record = before.ledger.record record) : after.Whole id record := by
  refine ⟨Nat.lt_of_lt_of_le whole.present led.size_le, fun member held => ?_⟩
  rw [same] at held
  exact led.settled (whole.settled member held)

/-- Turns of one class leave the records that share no set of checks with its branches as they are. -/
theorem OwnTurns.apart (turns : OwnTurns context first owner floor before after)
    (inRange : before.ledger.InRange) (present : home ⊆ before.everywhere)
    (apart : before.ledger.Apart home (first.branchScope owner floor ∩ before.everywhere)) :
    after.ledger.Apart home (first.branchScope owner floor ∩ after.everywhere) ∧
      ∀ id ∈ home, after.ledger.record id = before.ledger.record id ∧
        after.ledger.checks id = before.ledger.checks id := by
  -- That all sets of checks are in range is carried along, as each turn asks for it.
  suffices after.ledger.InRange ∧
      after.ledger.Apart home (first.branchScope owner floor ∩ after.everywhere) ∧
      ∀ id ∈ home, after.ledger.record id = before.ledger.record id ∧
        after.ledger.checks id = before.ledger.checks id from this.2
  induction turns with
  | refl => exact ⟨inRange, apart, fun _ _ => ⟨rfl, rfl⟩⟩
  | tail turns turn ih =>
    obtain ⟨inRange, apart, same⟩ := ih
    -- The ledger grows, so that the home is there before every turn.
    have present' : home ⊆ _ :=
      fun id acts => Nat.lt_of_lt_of_le (present acts) (OwnTurns.onward turns).size_le
    -- One more turn leaves the home as it is, by the statement for single turns.
    obtain ⟨apart', same'⟩ := turn.apart inRange present' apart
    refine ⟨turn.inRange inRange, apart', fun id acts => ?_⟩
    exact ⟨(same' id acts).1.trans (same id acts).1, (same' id acts).2.trans (same id acts).2⟩

/-- Turns of one class leave what other classes hold alone. -/
theorem OwnTurns.keeps (turns : OwnTurns context first owner floor before after)
    (different : id ≠ owner) : (before.declaration id).Keeps (after.declaration id) := by
  induction turns with
  | refl => exact .refl _
  | tail _ turn ih => exact ih.trans (turn.keeps different)

/-- The estate of a class survives the turns of another one. -/
theorem Estate.turns (estate : Estate first id home before)
    (turns : OwnTurns context first owner floor before after) (different : id ≠ owner)
    (same : ∀ id ∈ home, after.ledger.record id = before.ledger.record id ∧
      after.ledger.checks id = before.ledger.checks id) : Estate first id home after := by
  have led := OwnTurns.onward turns
  -- What the class holds is kept by the turns, and what its records hold by assumption.
  have keeps := OwnTurns.keeps turns different
  refine ⟨fun record acts => Nat.lt_of_lt_of_le (estate.present acts) led.size_le, estate.rooted,
    fun record acts child held => ?_, fun record acts => ?_, fun nested member => ?_,
    fun concrete => led.whole (estate.whole concrete) (same _ estate.rooted).1,
    fun index nested _ there concrete => ?_, ?_⟩
  · -- What lies inside a record of the home is read off the records, which are the same.
    rw [(same record acts).1] at held
    exact estate.closed record acts child held
  · exact (estate.stocked record acts).of_grown (led.grows id) (same record acts).2
      (congrArg Record.patternProperties (same record acts).1)
      (congrArg Record.mapBacked (same record acts).1)
  · -- The other class nests nothing here.
    rw [keeps.nested] at member
    exact estate.housed nested member
  · rw [keeps.nested] at there
    -- A class that was filled is whole, because its record is in the home.
    exact led.whole (estate.filled index nested (Nat.zero_le _) there concrete)
      (same _ (estate.housed nested (Array.mem_of_getElem? there))).1
  · rw [keeps.constants]
    exact estate.numbered

/-- A class whose branches are being resolved has an estate. -/
theorem Nesting.estate (nesting : Nesting context first id floor model)
    (whole : (first.declaration id).kind = .concrete →
      model.Whole id (first.declaration id).record)
    (numbered : (model.declaration id).constants.Numbered) :
    Estate first id (first.home id floor ∩ model.everywhere) model where
  present _ acts := acts.2
  rooted := ⟨.inl Ledger.mem_scope_self, Nat.lt_of_lt_of_le
    (nesting.surveyed.root id nesting.declared).1 nesting.ledger.size_le⟩
  closed record acts child held :=
    -- What lies inside a record of the home belongs to the class and has joined by now.
    ⟨nesting.closed record acts.1 child held, nesting.enclosed record child held⟩
  stocked := nesting.stocked
  housed nested member := by
    obtain ⟨index, there⟩ := Array.mem_iff_getElem?.mp member
    exact ⟨nesting.housed nested member, (nesting.sane.nested id index nested there).1⟩
  whole := whole
  filled := nesting.filled
  numbered := numbered

/-- A class whose branches have not been resolved: its records are those that it was declared with. -/
structure Waiting (first : Model) (id : DeclarationId) (home : Set RecordId) (model : Model) :
    Prop where
  same : home = first.ledger.scope (first.declaration id).record
  clean : model.CleanFrom id home ((first.declaration id).record.index + 1)
  bare : (first.declaration id).kind ≠ .concrete → ∀ record ∈ home,
    record ≠ (first.declaration id).record → (model.ledger.record record).shape = none
  nestless : (first.declaration id).kind ≠ .concrete → (model.declaration id).nested = #[]
  unresolved : (model.declaration id).hasVariants = false

/-- A class goes on waiting while its records stay as they are. -/
theorem Waiting.onward (waiting : Waiting first id home before) (led : Onward before after)
    (keeps : (before.declaration id).Keeps (after.declaration id))
    (same : ∀ id ∈ home, after.ledger.record id = before.ledger.record id) :
    Waiting first id home after where
  same := waiting.same
  clean record acts above positive := by
    rw [same record acts] at positive
    exact (waiting.clean record acts above positive).imp
      -- The shape of the record is the one it had, and what is settled stays so.
      (fun unset => (congrArg Record.shape (same record acts)).trans unset) led.settled
  bare kind record acts apart :=
    (congrArg Record.shape (same record acts)).trans (waiting.bare kind record acts apart)
  nestless kind := keeps.nested.trans (waiting.nestless kind)
  unresolved := keeps.hasVariants.trans waiting.unresolved

/-- The estates of all classes while their branches are resolved, with the classes that are left. -/
structure Estates (context : Context) (first : Model) (homes : DeclarationId → Set RecordId)
    (left : List DeclarationId) (model : Model) : Prop extends Branching context first model where
  estate : ∀ id : DeclarationId, id.index < first.declarations.size →
    Estate first id (homes id) model
  apart : ∀ id other : DeclarationId, id.index < first.declarations.size →
    other.index < first.declarations.size → id ≠ other →
    model.ledger.Apart (homes id) (homes other)
  nodup : left.Nodup
  inside : ∀ id ∈ left, id.index < first.declarations.size
  waiting : ∀ id ∈ left, Waiting first id (homes id) model
  served : ∀ id : DeclarationId, id.index < first.declarations.size → id ∉ left → model.Served id

namespace Estates

variable {homes : DeclarationId → Set RecordId} {left : List DeclarationId}

/-- The branches of a class that waits may be resolved; what is copied for it comes behind all
records. -/
theorem nesting (estates : Estates context first homes (id :: left) model)
    (declared : first.Declared) :
    Nesting context first id model.ledger.size model := by
  have inside := estates.inside id List.mem_cons_self
  have estate := estates.estate id inside
  have waiting := estates.waiting id List.mem_cons_self
  have scope := waiting.same
  have within := (declared.closed_scope inside).present
  -- Nothing is copied yet.
  have present {record : RecordId} (late : model.ledger.size ≤ record.index) :
      model.ledger.record record = default := Ledger.record_of_size_le late
  refine { toBranching := estates.toBranching
           declared := inside
           low := estates.ledger.size_le
           high := Nat.le_refl _
           closed := fun record belongs child held => ?_
           branches := fun record belongs branch held => ?_
           stocked := fun record acts => ?_
           housed := fun nested member => .inl (scope ▸ estate.housed nested member)
           surveyed := declared
           clean := scope ▸ waiting.clean
           filled := estate.filled }
  · -- What belongs to the class is of the first model or comes behind it, and nothing has.
    rcases belongs with acts | late
    · exact .inl (scope ▸ estate.closed record (scope ▸ acts) child held)
    · rw [present late] at held
      exact absurd held List.not_mem_nil
  · -- A branch was one already when the documents were surveyed.
    rcases belongs with acts | late
    · refine ⟨record, acts, ?_⟩
      rw [(estates.ledger.record record (within record acts)).record] at held
      exact held
    · rw [present late] at held
      exact absurd held List.not_mem_nil
  · -- Every record acted on is of the home, where it is stocked.
    rcases acts.1 with acts' | late
    · exact estate.stocked record (scope ▸ acts')
    · exact absurd acts.2 (Nat.not_lt.mpr late)

/-- The records of other classes share no set of checks with the branches of a class that waits. -/
theorem apart_branches (estates : Estates context first homes (id :: left) model)
    {other : DeclarationId} (inside : other.index < first.declarations.size) (different : other ≠ id) :
    model.ledger.Apart (homes other)
      (first.branchScope id model.ledger.size ∩ model.everywhere) := by
  intro a acts b branch
  -- The branches of the class lie in its home, since nothing has joined behind it.
  refine estates.apart other id inside (estates.inside id List.mem_cons_self) different a acts b ?_
  rw [(estates.waiting id List.mem_cons_self).same]
  rcases branch.1 with inside | late
  · exact Model.inBranches_subset inside
  · exact absurd branch.2 (Nat.not_lt.mpr late)

/-- A round on the branches of a class that waits adds its copies to the estate of the class, and leaves
all other estates alone. -/
theorem round (estates : Estates context first homes (id :: left) model) (declared : first.Declared)
    (round : Round context first id model.ledger.size model last) (served : last.Served id) :
    Estates context first
      (Function.update homes id (first.home id model.ledger.size ∩ last.everywhere)) left last := by
  have inside := estates.inside id List.mem_cons_self
  have nesting := estates.nesting declared
  have estate := estates.estate id inside
  have scope := (estates.waiting id List.mem_cons_self).same
  have nesting' : Nesting context first id model.ledger.size last := Course.ready round nesting
  -- The class whose turn it is does not come a second time.
  obtain ⟨unlisted, nodup⟩ := List.nodup_cons.mp estates.nodup
  -- The estate of the class itself is made anew, with the copies in it.
  have own : Estate first id (first.home id model.ledger.size ∩ last.everywhere) last :=
    nesting'.estate (fun concrete => OwnTurns.whole round.turns (estate.whole concrete))
      ((round.onward.grows id).numbered estate.numbered)
  -- The estates of all others are those from before.
  have foreign {other : DeclarationId} (inside : other.index < first.declarations.size)
      (different : other ≠ id) := OwnTurns.apart round.turns estates.inRange
    (estates.estate other inside).present (estates.apart_branches inside different)
  have kept {other : DeclarationId} {record : RecordId}
      (inside : other.index < first.declarations.size) (acts : record ∈ homes other) :=
    (round.onward.lasts record ((estates.estate other inside).present acts)).checks_eq
  -- What belongs to the class was there before, or was copied in the round.
  have beside {other : DeclarationId} (inside' : other.index < first.declarations.size)
      (different : other ≠ id) :
      last.ledger.Apart (homes other) (first.home id model.ledger.size ∩ last.everywhere) := by
    intro a acts b belongs
    rcases belongs.1 with acts' | late
    · -- Both records were there before, where the estates did not meet.
      rw [← scope] at acts'
      rw [kept inside' acts, kept inside acts']
      exact estates.apart other id inside' inside different a acts b acts'
    · -- A copy has checks of its own.
      exact (foreign inside' different).1 a acts b ⟨.inr late, belongs.2⟩
  refine { toBranching := nesting'.toBranching
           estate := fun other inside' => ?_
           apart := fun one other inside' inside'' different => ?_
           nodup := nodup
           inside := fun other member => estates.inside other (List.mem_cons_of_mem _ member)
           waiting := fun other member => ?_
           served := fun other inside' resolved => ?_ }
  · by_cases same : other = id
    · subst same
      rw [Function.update_self]
      exact own
    · rw [Function.update_of_ne same]
      exact (estates.estate other inside').turns round.turns same (foreign inside' same).2
  · by_cases same : one = id
    · subst same
      rw [Function.update_self, Function.update_of_ne (Ne.symm different)]
      exact fun a acts b acts' => (beside inside'' (Ne.symm different) b acts' a acts).symm
    · rw [Function.update_of_ne same]
      by_cases same' : other = id
      · subst same'
        rw [Function.update_self]
        exact beside inside' same
      · rw [Function.update_of_ne same']
        intro a acts b acts'
        rw [kept inside' acts, kept inside'' acts']
        exact estates.apart one other inside' inside'' different a acts b acts'
  · -- Classes that are left go on waiting, since no turn of another class touches them.
    have different : other ≠ id := by
      rintro rfl
      exact unlisted member
    have listed := List.mem_cons_of_mem id member
    rw [Function.update_of_ne different]
    exact (estates.waiting other listed).onward round.onward (OwnTurns.keeps round.turns different)
      fun record acts => ((foreign (estates.inside other listed) different).2 record acts).1
  · by_cases same : other = id
    · subst same
      exact served
    · -- A class that was resolved earlier stays so.
      have before := estates.served other inside' fun listed =>
        resolved ((List.mem_cons.mp listed).resolve_left same)
      have estate := estates.estate other inside'
      refine round.onward.served estates.sane before ?_ (OwnTurns.keeps round.turns same).nested
      rw [(estates.grows other).record]
      exact estate.present estate.rooted

/-- The branches of one class more are resolved. -/
theorem resolve (estates : Estates context first homes (id :: left) model)
    (declared : first.Declared) :
    Ends (resolveVariants context id) model
      (fun _ last => Turns context first model last ∧
        ∃ homes, Estates context first homes left last) (fun _ => True) := by
  have estate := estates.estate id (estates.inside id List.mem_cons_self)
  have waiting := estates.waiting id List.mem_cons_self
  -- All that the class waited for is what its turn asks for.
  refine (ends_resolveVariants (estates.nesting declared) estate.whole
    (fun kind record acts => waiting.bare kind record (waiting.same ▸ acts)) waiting.nestless
    waiting.unresolved).imp (fun _ last resolved => ?_) fun _ _ => trivial
  obtain ⟨round, served⟩ := resolved
  -- The round of one class gives turns, and the estates for those that are left.
  refine ⟨?_, _, estates.round declared round served⟩
  exact Relation.ReflTransGen.mono (fun _ _ turn => ⟨id, _, estates.ledger.size_le, turn⟩) _ _
    round.turns

end Estates

/-- All branches are resolved, one class after the other. -/
theorem ends_resolveAllVariants {homes : DeclarationId → Set RecordId} (declared : first.Declared)
    (estates : Estates context first homes first.ids model) :
    Ends (first.ids.forM (resolveVariants context)) model
      (fun _ last => Turns context first model last ∧
        ∃ homes, Estates context first homes [] last) (fun _ => True) := by
  -- The estates carry the loop, with the classes that are left in them.
  refine Ends.forM_rest (fun left last => Turns context first model last ∧
    ∃ homes, Estates context first homes left last) ⟨.refl, homes, estates⟩
    fun id left middle resolved => ?_
  obtain ⟨turns, homes, estates⟩ := resolved
  refine (estates.resolve declared).imp (fun _ last further => ?_) fun _ _ => trivial
  exact ⟨turns.trans further.1, further.2⟩

variable {done : Set DeclarationId} {told : List Comparison}

/-- When all classes are analysed, their branches may be resolved. -/
theorem Progress.branching {begun : Set DeclarationId}
    (progress : Progress context first begun done told model) (declared : first.Declared) :
    Branching context first model where
  ledger := progress.later.ledger
  declarations := progress.later.declarations
  grows := progress.later.grows
  inRange id present := by
    -- The analysis neither adds sets of checks nor moves records to others.
    rw [(progress.later.settles id).sameOrigin.checks, progress.sets]
    rw [progress.later.size] at present
    exact declared.sound.owned.present id present
  sane := progress.sane
  -- The records inside are those that the survey put there.
  enclosed id child held := by
    rw [(progress.later.settles id).children_eq] at held
    show child.index < model.ledger.size
    rw [progress.later.size]
    exact (declared.sound.forest.inside id child held).2
  -- A comparison changes no name, so that names are as the survey made them.
  named := declared.sound.named.of_names fun id => .inr ⟨id, Ledger.names_congr
    (progress.later.settles id).properties_eq
    fun property _ => (progress.later.settles property).sameOrigin.name⟩
  paired holder property base _ linked := by
    -- A base property is only set by a comparison, which is of the same name and shape.
    obtain ⟨comparison, member, rfl, rfl⟩ := progress.linked property base linked
    have known := progress.compared comparison member
    rw [(progress.later.settles _).name_eq, (progress.later.settles _).name_eq]
    exact ⟨known.named, known.shaped⟩
  stacked id items held := by
    rw [(progress.later.settles id).items_eq] at held
    -- Items stay inside their array, and so behind it in the ledger.
    have inside := declared.sound.forest.inside id items
      (Record.mem_children.mpr (.inr (.inr (.inr (.inl held)))))
    exact ⟨inside.2, fun _ => inside.1⟩

/-- When all classes are analysed, each has the records that it was declared with, and all wait. -/
theorem AtRest.estates (rest : AtRest context first done done told model)
    (declared : first.Declared) (all : ∀ id ∈ first.ids, id ∈ done) :
    Estates context first (fun id => first.ledger.scope (first.declaration id).record) first.ids
      model := by
  have progress := rest.progress
  refine { toBranching := progress.branching declared
           estate := fun id inside => ?_
           apart := fun id other inside inside' different =>
             progress.apart declared inside' inside different
           nodup := Model.nodup_ids
           inside := fun id member => Model.mem_ids.mp member
           waiting := fun id member => ?_
           served := fun id inside resolved => absurd (Model.mem_ids.mpr inside) resolved }
  · -- The realm of a declaration is closed, and the progress says the rest.
    have closed := progress.later.closed (declared.closed_scope inside)
    exact ⟨closed.present, Ledger.mem_scope_self, closed.inside, progress.stocked id inside,
      progress.housed id inside, progress.whole id (all id (Model.mem_ids.mpr inside)),
      progress.filled id inside, progress.numbered id inside⟩
  · -- Nothing was nested or resolved for a class that waits, because its own turn is yet to come.
    have inside := Model.mem_ids.mp member
    exact ⟨rfl, progress.clean id inside, progress.bare id inside, progress.nestless id inside,
      progress.unresolved id⟩

/-- The members of all declarations are resolved first, and then their branches, class by class. -/
theorem ends_comparingResolve_estates (declared : first.Declared) :
    Ends (comparingResolve context) first
      (fun told last => ∃ done middle, AtRest context first done done told middle ∧
        Turns context first middle last ∧ ∃ homes, Estates context first homes [] last)
      (fun _ => True) := by
  rw [comparingResolve, ends_bind, ends_get]
  split
  · -- A circle fails the run before anything is done.
    rw [ends_bind, ends_throw]
    trivial
  · rename_i clear
    -- Without a circle of base classes, each class comes behind its base.
    have grounded : first.Grounded context.tree :=
      Model.grounded_of_circularBase? (Option.eq_none_iff_forall_ne_some.mpr clear)
    rw [ends_bind]
    refine (atRest_gather_all declared grounded).imp (fun told middle settled => ?_)
      fun _ _ => trivial
    obtain ⟨done, all, rest⟩ := settled
    -- The branches follow on the model in which all members are at rest.
    rw [ends_bind]
    refine (ends_resolveAllVariants declared (rest.estates declared all)).imp
      (fun _ last resolved => ?_) fun _ _ => trivial
    rw [ends_pure]
    exact ⟨done, middle, rest, resolved⟩

end Modelling

end SchemaClasses
