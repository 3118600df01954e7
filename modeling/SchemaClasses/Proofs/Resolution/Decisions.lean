import SchemaClasses.Proofs.Resolution.Reasons
import SchemaClasses.Proofs.Resolution.Variants

/-! Whatever is resolved, shapes and classes are decided for a reason: each part of a resolution that starts
where all was decided for one ends there. -/

namespace SchemaClasses

/-- Whether a record lies where its role says: as a property, or as an element. -/
def Ledger.Plays (ledger : Ledger) (id : RecordId) : Role → Prop
  | .property _ => ∃ holder, id ∈ (ledger.record holder).properties
  | .item _ | .value => ∃ holder, (ledger.record holder).HasElement id

namespace Ledger.Plays

variable {ledger : Ledger} {id holder : RecordId} {role : Role}

/-- An analysis goes on to a record with a role. -/
theorem leadsTo (plays : ledger.Plays id role) : ∃ holder, (ledger.record holder).LeadsTo id := by
  cases role with
  | property name =>
    obtain ⟨holder, held⟩ := plays
    exact ⟨holder, Record.leadsTo_of_mem held⟩
  | item | value =>
    obtain ⟨holder, element⟩ := plays
    exact ⟨holder, element.leadsTo⟩

/-- Enums are promoted for properties only. -/
theorem property (plays : ledger.Plays id role) (promotes : role.promotesEnums = true) :
    ∃ holder, id ∈ (ledger.record holder).properties := by
  cases role with
  | property name => exact plays
  | item | value => cases promotes

/-- The role of an element promotes no enums. -/
theorem promotesEnums_eq_false (plays : ledger.Plays id role) (placed : ledger.Placed)
    (element : (ledger.record holder).HasElement id) : role.promotesEnums = false := by
  cases role with
  | property name =>
    obtain ⟨parent, held⟩ := plays
    exact absurd element (placed.not_hasElement held)
  | item | value => rfl

/-- A property may be analysed under its name. -/
theorem named (name : String) (held : id ∈ (ledger.record holder).properties) :
    ledger.Plays id (.property name) := ⟨holder, held⟩

/-- An element may be analysed as a value without a name. -/
theorem value (element : (ledger.record holder).HasElement id) : ledger.Plays id .value :=
  ⟨holder, element⟩

/-- The items of an array play a role of their own. -/
theorem ofItems {array : RecordId} (items : (ledger.record array).items = some id) :
    ledger.Plays id role.ofItems := by
  cases role with
  | property | item | value => exact ⟨array, .inl items⟩

end Ledger.Plays

namespace Model.Abides

variable {before after : Model} {id holder : RecordId} {role : Role}

/-- A record goes on playing its role. -/
theorem plays (abides : before.Abides after) (plays : before.ledger.Plays id role) :
    after.ledger.Plays id role := by
  -- Whatever the role is, some record leads here, and that one is abiding.
  obtain ⟨parent, leads⟩ := plays.leadsTo
  cases role with
  | property name =>
    obtain ⟨holder, held⟩ := plays
    have present := Ledger.lt_size_of_leadsTo (Record.leadsTo_of_mem held)
    exact ⟨holder, (abides.record holder present).properties held⟩
  | item | value =>
    obtain ⟨holder, element⟩ := plays
    have present := Ledger.lt_size_of_leadsTo element.leadsTo
    exact ⟨holder, (abides.record holder present).hasElement.mpr element⟩

/-- A property goes on being one. -/
theorem isProperty (abides : before.Abides after) (held : id ∈ (before.ledger.record holder).properties) :
    id ∈ (after.ledger.record holder).properties :=
  (abides.record holder (Ledger.lt_size_of_leadsTo (Record.leadsTo_of_mem held))).properties held

end Model.Abides

/-- A record is classified with a plain shape only if no class is mapped to it and its keywords imply the
shape. -/
theorem Context.inferred_of_classify {context : Context} {ledger : Ledger} {id : RecordId}
    {promoteEnums : Bool} {shape : Shape} (classified : context.classify ledger id promoteEnums = shape)
    (plain : ∀ type, shape ≠ .reference type) :
    context.customClass? ledger id = none ∧ ledger.inferShape id promoteEnums = shape := by
  unfold classify Ledger.classify at classified
  -- A class mapped to the record or a type given to it would have made the shape a reference.
  split at classified
  · exact absurd classified.symm (plain _)
  · exact absurd classified.symm (plain _)
  · rename_i unmapped _
    exact ⟨unmapped, classified⟩

/-- Keywords imply an enum only as those of a text, and the shape of that where enums are not promoted. -/
theorem Ledger.inferShape_of_identifierEnum {ledger : Ledger} {id : RecordId} {promoteEnums : Bool}
    (enum : ledger.inferShape id promoteEnums = .identifierEnum) (promoteEnums' : Bool) :
    ledger.inferShape id promoteEnums' = (ledger.record id).stringShape promoteEnums' := by
  -- A whole number has one of the shapes of numbers.
  have whole : (ledger.record id).integerShape ≠ .identifierEnum := by
    unfold Record.integerShape
    split <;> exact nofun
  unfold inferShape at enum ⊢
  dsimp only at enum ⊢
  split at enum
  · exact absurd enum whole
  · -- Every type but that of texts has shapes of its own, none of which is an enum.
    cases enum
  · cases enum
  · cases enum
  · cases enum
  · rfl
  · -- Without a type the keywords are looked at in turn: members, items, those of texts.
    split at enum
    · cases enum
    · rename_i members
      split at enum
      · cases enum
      · rename_i items
        split at enum
        · rename_i keywords
          rw [if_neg members, if_neg items, if_pos keywords]
        · cases enum
  · cases enum

/-- Keywords imply an enum only where enums are promoted. -/
theorem Ledger.inferShape_false_ne_identifierEnum {ledger : Ledger} {id : RecordId} :
    ledger.inferShape id false ≠ .identifierEnum := by
  intro enum
  have text := (inferShape_of_identifierEnum enum false).symm.trans enum
  unfold Record.stringShape at text
  split at text
  · cases text
  · simp at text

namespace Modelling

variable {context : Context} {start middle : Model} {α β : Type}

/-- A run that starts where all was decided for a reason ends there, unless it fails: all records abide,
and a fact holds of the result and the last state. -/
def DecidesTo (context : Context) (start : Model) (step : Modelling α) (fact : α → Model → Prop) :
    Prop :=
  start.Reasoned context →
    Ends step start (fun result last => start.Abides last ∧ last.Reasoned context ∧ fact result last)
      fun _ => True

/-- A run that decides nothing without a reason. -/
abbrev Decides (context : Context) (start : Model) (step : Modelling α) : Prop :=
  DecidesTo context start step fun _ _ => True

namespace DecidesTo

variable {step : Modelling α} {fact fact' : α → Model → Prop}

/-- What is known of a state with reasons may be used. -/
theorem given (decides : start.Reasoned context → DecidesTo context start step fact) :
    DecidesTo context start step fact := fun reasoned => decides reasoned reasoned

/-- A run may promise less of its results. -/
theorem mono (decides : DecidesTo context start step fact)
    (weaker : ∀ result last, start.Abides last → last.Reasoned context → fact result last →
      fact' result last) : DecidesTo context start step fact' := fun reasoned =>
  (decides reasoned).mono fun result last done =>
    ⟨done.1, done.2.1, weaker result last done.1 done.2.1 done.2.2⟩

/-- A result alone decides nothing. -/
theorem pure {result : α} (holds : fact result start) :
    DecidesTo context start (Pure.pure result) fact := fun reasoned => ⟨.refl start, reasoned, holds⟩

/-- One run after the other. -/
theorem bind {next : α → Modelling β} {fact' : β → Model → Prop}
    (decides : DecidesTo context start step fact)
    (decides' : ∀ result middle, start.Abides middle → fact result middle →
      DecidesTo context middle (next result) fact') : DecidesTo context start (step >>= next) fact' := by
  intro reasoned
  rw [ends_bind]
  -- The second step starts from a model in which the first one has left everything in place.
  refine (decides reasoned).imp (fun result middle done => ?_) fun _ _ => trivial
  obtain ⟨abides, reasoned, holds⟩ := done
  exact (decides' result middle abides holds reasoned).mono fun _ last further =>
    ⟨abides.trans further.1, further.2⟩

/-- A run for each item of a list. -/
theorem forM {items : List β} {round : β → Modelling Unit}
    (decides : ∀ item ∈ items, ∀ middle, start.Abides middle → Decides context middle (round item)) :
    Decides context start (items.forM round) := by
  intro reasoned
  have rounds : Ends (items.forM round) start
      (fun _ last => start.Abides last ∧ last.Reasoned context) (fun _ => True) :=
    -- What all rounds keep is that the model abides and is reasoned.
    Ends.forM _ ⟨.refl start, reasoned⟩ fun item member middle kept =>
      (decides item member middle kept.1 kept.2).mono fun _ last further =>
        ⟨kept.1.trans further.1, further.2.1⟩
  exact rounds.mono fun _ _ kept => ⟨kept.1, kept.2, trivial⟩

/-- A single write. -/
theorem write {change : Model → Model}
    (decides : start.Reasoned context → start.Abides (change start) ∧ (change start).Reasoned context) :
    DecidesTo context start (modify change) fun _ last => last = change start := fun reasoned =>
  ⟨(decides reasoned).1, (decides reasoned).2, rfl⟩

end DecidesTo

namespace DecidesTo

variable {fact : α → Model → Prop}

/-- A run that begins with a look at the model. -/
theorem get {next : Model → Modelling α} (decides : DecidesTo context start (next start) fact) :
    DecidesTo context start (MonadState.get >>= next) fact := decides

/-- A run that begins with a look at the ledger. -/
theorem ledger {next : Ledger → Modelling α} (decides : DecidesTo context start (next start.ledger) fact) :
    DecidesTo context start (Modelling.ledger >>= next) fact := decides

/-- A run that begins with a look at a record. -/
theorem record {id : RecordId} {next : Record → Modelling α}
    (decides : DecidesTo context start (next (start.ledger.record id)) fact) :
    DecidesTo context start (Modelling.record id >>= next) fact := decides

/-- A run that begins with a look at a declaration. -/
theorem declaration {id : DeclarationId} {next : Declaration → Modelling α}
    (decides : DecidesTo context start (next (start.declaration id)) fact) :
    DecidesTo context start (Modelling.declaration id >>= next) fact := decides

end DecidesTo

variable {owner id : DeclarationId} {record holder : RecordId} {site : Site} {shape : Shape}

/-- A change of a record. -/
theorem decides_updateRecord {change : Record → Record}
    (decides : start.Reasoned context → start.Abides (start.updateRecord record change) ∧
      (start.updateRecord record change).Reasoned context) :
    DecidesTo context start (updateRecord record change)
      fun _ last => last = start.updateRecord record change := DecidesTo.write decides

/-- A remark about a record. -/
theorem decides_remark {change : Record → Record}
    (remark : (start.ledger.record record).IsRemark (change (start.ledger.record record))) :
    Decides context start (updateRecord record change) :=
  (decides_updateRecord fun reasoned => reasoned.remark remark).mono fun _ _ _ _ _ => trivial

/-- A record gets a shape for which there is a reason. -/
theorem decides_mark
    (shapes : start.Reasoned context → ∀ holder, (start.ledger.record holder).LeadsTo record →
      shape ≠ .string ∧ context.Shapes start.ledger record shape) :
    Decides context start (updateRecord record fun record => { record with shape := some shape }) :=
  (decides_updateRecord fun reasoned => reasoned.mark (shapes reasoned)).mono fun _ _ _ _ _ => trivial

/-- A class is lent to a record that has none. -/
theorem decides_lend {ref : ClassRef} (unset : (start.ledger.record record).typeRef = none)
    (lends : start.Reasoned context → ∀ holder, (start.ledger.record holder).HasElement record →
      start.Lends context record ref) :
    Decides context start
      (updateRecord record fun record => { record with typeRef := some (.generated ref) }) :=
  (decides_updateRecord fun reasoned => reasoned.lend unset (lends reasoned)).mono fun _ _ _ _ _ => trivial

/-- Something is noted about a declaration. -/
theorem decides_note {change : Declaration → Declaration}
    (same : ∀ declaration, change declaration =
      { declaration with
        base := (change declaration).base
        derived := (change declaration).derived
        interfaces := (change declaration).interfaces
        imports := (change declaration).imports
        isAnalysed := (change declaration).isAnalysed
        hasVariants := (change declaration).hasVariants }) :
    Decides context start (updateDeclaration id change) := by
  refine (DecidesTo.write fun reasoned => reasoned.note ?_ ?_).mono fun _ _ _ _ _ => trivial
  · -- Nothing in the list of links goes beyond what is noted here.
    rw [same]
    exact ⟨rfl, rfl, rfl, List.prefix_rfl, List.prefix_rfl, List.Subset.refl _, fun held => held⟩
  · rw [same]

theorem decides_plan : Decides context start (plan context owner record shape) := fun reasoned =>
  ⟨.plan, reasoned.plan, trivial⟩

/-- A record gets a shape for which there is a reason, and its checks are planned. -/
theorem decides_shapeAndPlan
    (shapes : ∀ holder, (start.ledger.record holder).LeadsTo record →
      context.Shapes start.ledger record shape) :
    Decides context start (do
      updateRecord record fun record => { record with shape := some shape }
      plan context owner record shape) := by
  intro reasoned
  obtain ⟨abides, reasoned⟩ := reasoned.shapeAndPlan shapes
  rw [ends_bind, ends_updateRecord, ends_plan]
  exact ⟨abides, reasoned, trivial⟩

/-- The negation of a record is shaped and planned. -/
theorem decides_planNegation : Decides context start (planNegation context owner record) := by
  refine .given fun reasoned => .record ?_
  split
  · rename_i negation held
    -- The negation has a record, which no member leads to.
    refine .record ?_
    split
    · exact .ledger (decides_shapeAndPlan fun holder leads =>
        absurd leads (reasoned.placed.not_leadsTo_negation held))
    · exact .pure trivial
  · exact .pure trivial

theorem decides_importDeclaration {other : DeclarationId} :
    Decides context start (importDeclaration id other) := by
  refine .declaration (.declaration ?_)
  split
  · exact decides_note fun _ => rfl
  · exact .pure trivial

/-- A record that refers to a declared schema or to that of a nested class is lent its class. -/
theorem decides_linkTarget : Decides context start (linkTarget context owner record) := by
  refine .record (.ledger ?_)
  -- Only a record without a class and without a target that was lent is linked.
  dsimp only
  split
  · rename_i free
    have unset : (start.ledger.record record).typeRef = none := by simpa using free.2
    split
    · rename_i target refers
      -- The target is declared, or a class nested in this one stands for it.
      refine .get ?_
      split
      · rename_i declared stands
        exact (decides_lend unset fun _ _ _ => .linked refers (.declared stands)).bind fun _ _ _ _ =>
          decides_importDeclaration
      · refine .declaration ?_
        split
        · rename_i index found
          -- Without a schema of its own, only a class of the same target can have been found.
          obtain ⟨nested, there, ⟨_, none, _⟩ | ⟨same, refers', made⟩⟩ :=
            Declaration.of_findNested? found
          · cases none
          · cases refers'
            exact decides_lend unset fun _ _ _ => .linked refers (.nested there made)
        · exact .pure trivial
    · exact .pure trivial
  · exact .pure trivial

/-- A property takes over the nested class of its base property. -/
theorem decides_inheritNestedClass {baseProperty : RecordId}
    (held : record ∈ (start.ledger.record holder).properties) :
    Decides context start (inheritNestedClass record baseProperty) := by
  refine .record ?_
  -- Only a property without a class takes over one.
  split
  · rename_i free
    have unset : (start.ledger.record record).typeRef = none := by simpa using free
    refine .record ?_
    split
    · refine .declaration ?_
      dsimp only
      split
      · -- A property is no element, so that nothing has to be said about the reason.
        exact decides_lend unset fun reasoned _ element =>
          absurd element (reasoned.placed.not_hasElement held)
      · exact .pure trivial
    · exact .pure trivial
  · exact .pure trivial

/-- A property is compared with its base property. -/
theorem decides_compareWithBase {baseProperty : RecordId}
    (held : record ∈ (start.ledger.record holder).properties) :
    Decides context start (compareWithBase id record baseProperty) := by
  refine .record (.record ?_)
  split
  · -- Thinning only removes checks of a property.
    refine .get ?_
    have thins {checks : CheckSet} : Decides context start (survey (modify fun survey : Survey =>
        { survey with ledger := survey.ledger.updateChecks record (·.removeAll checks) })) :=
      fun reasoned => ⟨(reasoned.thin held).1, (reasoned.thin held).2, trivial⟩
    refine thins.bind fun _ _ _ _ => decides_remark ?_
    rfl
  · -- A property of another shape gets two remarks, neither of which says anything of shapes.
    refine DecidesTo.bind (decides_remark ?_) fun _ _ _ _ => decides_remark ?_
    · rfl
    · rfl

/-- The required names of a record are heeded. -/
theorem decides_reconcileRequired : Decides context start (reconcileRequired record) :=
  .record (.forM fun _ _ _ _ => decides_remark Record.isRemark_reconciled)

/-- A way to analyse records in their roles that decides nothing without a reason. -/
def Analysis.Decides (analyse : Analysis) (context : Context) : Prop :=
  ∀ start site id role, start.ledger.Plays id role →
    Modelling.Decides context start (analyse site id role)

/-- A property is analysed: the nested class of the base, the analysis, and the comparison. -/
theorem decides_analyseProperty {analyse : Analysis} {base : Option RecordId}
    (decides : analyse.Decides context) (held : record ∈ (start.ledger.record holder).properties) :
    Decides context start (analyseProperty analyse site base record) := by
  refine .record (.ledger ?_)
  dsimp only
  cases base.bind (start.ledger.property? · ((start.ledger.record record).name.getD "")) with
  -- Without a base there is only the analysis.
  | none => exact (decides _ _ _ _ (.named _ held)).bind fun _ _ _ _ => .pure trivial
  | some baseProperty =>
    refine (decides_inheritNestedClass held).bind fun _ inherited abides _ => ?_
    -- The property is still one of the holder when the class was inherited.
    have held := abides.isProperty held
    refine (decides _ _ _ _ (.named _ held)).bind fun _ analysed abides _ => ?_
    exact decides_compareWithBase (abides.isProperty held)

/-- The members of an object are analysed. -/
theorem decides_analyseObject {analyse : Analysis} {base : Option RecordId}
    (decides : analyse.Decides context) :
    Decides context start (analyseObject context analyse site record base) := by
  rw [analyseObject_eq]
  -- Each property still belongs to the record when its turn comes.
  refine .record (DecidesTo.bind (.forM fun property held middle abides =>
    decides_analyseProperty decides (abides.isProperty held)) fun _ told _ _ => ?_)
  refine .record (DecidesTo.bind (.forM fun entry held middle abides => ?_) fun _ valued _ _ => ?_)
  · have element : (told.ledger.record record).HasElement entry.record :=
      .inr (.inl (List.mem_map_of_mem held))
    -- The value is an element of the record, which has not changed its members since.
    exact decides _ _ _ _ (abides.plays (.value element))
  -- What is left are the value of additional properties, the checks and the required names.
  have rest {start : Model} : Decides context start (do
      plan context site.owner record .object
      planNegation context site.owner record
      reconcileRequired record) :=
    decides_plan.bind fun _ _ _ _ => decides_planNegation.bind fun _ _ _ _ => decides_reconcileRequired
  refine .record ?_
  split
  · rename_i value held
    exact (decides _ _ _ _ (.value (.inr (.inr held)))).bind fun _ _ _ _ => rest
  · exact rest

/-- A class is found or nested for a record, with its target. -/
theorem decidesTo_nestedClass {kind : ClassKind} {role role' : Role}
    (plays : start.ledger.Plays record role') :
    DecidesTo context start (nestedClass context site record kind role)
      fun _ last => last.ledger = start.ledger := by
  refine .given fun reasoned => .record (.declaration ?_)
  split
  · -- A class that is found is used, and nothing changes.
    exact .pure rfl
  · -- Otherwise one is made for the record, which some parent leads to.
    obtain ⟨holder, leads⟩ := plays.leadsTo
    refine DecidesTo.bind (fun reasoned => ?_) fun _ _ _ same => .pure same
    refine ends_pushNested_push.mono fun _ last pushed => ?_
    obtain ⟨name, rfl⟩ := pushed
    obtain ⟨abides, reasoned⟩ := @Model.Reasoned.nest context start site.owner reasoned
      { name, parent := site.scope, kind, record, origin := (start.ledger.record record).schema
        target := (start.ledger.record record).target }
      (reasoned.placed.present leads) (fun isVariant => absurd isVariant Bool.false_ne_true)
      fun _ => ⟨⟨holder, leads⟩, rfl⟩
    exact ⟨abides, reasoned, rfl⟩

/-- A record in a role that has no class yet is settled on one. -/
theorem decidesTo_settle {role : Role} {ref : ClassRef} (plays : start.ledger.Plays record role)
    (unset : (start.ledger.record record).typeRef = none)
    (unmapped : context.customClass? start.ledger record = none)
    (lends : ∀ holder, (start.ledger.record holder).HasElement record →
      start.Lends context record ref) :
    DecidesTo context start (settle record ref)
      fun shape last => context.Shapes last.ledger record shape := by
  intro reasoned
  obtain ⟨holder, leads⟩ := plays.leadsTo
  obtain ⟨abides, reasoned'⟩ := reasoned.settle unset (fun _ _ => unmapped) lends
  rw [ends_settle]
  -- The record is settled on the class, and it is there to be written to.
  refine ⟨abides, reasoned', reasoned'.shapes holder record _ (abides.leadsTo leads) ?_⟩
  rw [Model.ledger_updateRecord, Ledger.record_update_self (reasoned.placed.present leads)]

/-- A record that was classified is developed into a shape for which there is a reason. -/
theorem decidesTo_develop {inner : Analysis} {role : Role} (decides : inner.Decides context)
    (plays : start.ledger.Plays record role)
    (classified : context.classify start.ledger record role.promotesEnums = shape) :
    DecidesTo context start (develop context inner site record role shape)
      fun shape last => context.Shapes last.ledger record shape := by
  refine .given fun reasoned => ?_
  obtain ⟨holder, leads⟩ := plays.leadsTo
  -- The shape was classified for this record, which is a reason for it.
  have shapes : context.Shapes start.ledger record shape :=
    classified ▸ Context.shapes_classify plays.property
  have stays {last : Model} (abides : start.Abides last) : context.Shapes last.ledger record shape :=
    abides.shapes reasoned.placed leads shapes
  unfold develop
  split
  · -- An object is settled on its nested class, whose members are analysed if it is new.
    have unset := Context.typeRef_eq_none_of_classify classified nofun
    obtain ⟨unmapped, inferred⟩ := Context.inferred_of_classify classified nofun
    refine (decidesTo_nestedClass plays).bind fun found nested abides same => ?_
    refine (decidesTo_settle (abides.plays plays) (same ▸ unset) (same ▸ unmapped)
      fun holder element => ?_).bind fun shape settled abides' shapes => .given fun reasoned' => ?_
    · rw [same] at element
      refine .object ?_
      rw [same, ← plays.promotesEnums_eq_false reasoned.placed element]
      exact inferred
    · -- A new class has its members analysed, which keeps the shape.
      split
      · exact (decides_analyseObject decides).bind fun _ last further _ => .pure
          (further.shapes reasoned'.placed (abides'.leadsTo (abides.leadsTo leads)) shapes)
      · exact .pure shapes
  · -- So is an enum, which is no element.
    have unset := Context.typeRef_eq_none_of_classify classified nofun
    obtain ⟨unmapped, inferred⟩ := Context.inferred_of_classify classified nofun
    refine (decidesTo_nestedClass plays).bind fun found nested abides same =>
      decidesTo_settle (abides.plays plays) (same ▸ unset) (same ▸ unmapped) fun holder element => ?_
    -- An element is not promoted, so that its keywords could not have implied an enum.
    rw [same] at element
    rw [plays.promotesEnums_eq_false reasoned.placed element] at inferred
    exact absurd inferred Ledger.inferShape_false_ne_identifierEnum
  · -- An array is known to be one before its items are analysed.
    refine DecidesTo.bind (decides_mark fun _ _ _ => ⟨nofun, shapes⟩) fun _ marked abides _ => .record ?_
    split
    · rename_i items held
      exact (decides _ _ _ _ (.ofItems held)).bind fun _ last further _ =>
        .pure (stays (abides.trans further))
    · exact .pure (stays abides)
  · -- Every other shape is taken as it is, with a note if the class needs one.
    split
    · refine DecidesTo.bind (decides_note fun _ => ?_) fun _ last abides _ => .pure (stays abides)
      rfl
    · exact .pure shapes
  · exact .pure shapes

/-- The analysis of a record decides nothing without a reason. -/
theorem decides_analyse {pending : List RecordId} : Analysis.Decides (analyse context pending) context := by
  -- The records inside are analysed with fewer pending ones, so the induction is on their number.
  induction size : pending.length using Nat.strong_induction_on generalizing pending with
  | _ size ih =>
    subst size
    intro start site id role plays
    rw [analyse]
    refine .record ?_
    split
    · -- A record that is not pending is being analysed further out.
      split
      · rename_i waiting
        have inner : Analysis.Decides (analyse context (pending.erase id)) context :=
          ih _ (length_erase_lt waiting) rfl
        refine decides_linkTarget.bind fun _ linked abides _ => .ledger ?_
        refine (decidesTo_develop inner (abides.plays plays) rfl).bind fun shape developed _ shapes => ?_
        -- The shape and the plan are set together, as the reason for the shape is known by then.
        rw [← bind_assoc]
        exact (decides_shapeAndPlan fun _ _ => shapes).bind fun _ _ _ _ => decides_planNegation
      · exact .pure trivial
    · exact .pure trivial

theorem decides_analyseAny : (analyseAny context).Decides context := fun _ _ _ _ plays =>
  .ledger (decides_analyse _ _ _ _ plays)

/-- A class is opened: its base is noted at both of them. -/
theorem decides_openClass (inside : id.index < start.declarations.size) :
    Decides context start (openClass context id (start.declaration id).record) := by
  -- The record of a declaration is not reached by any analysis.
  have rest {middle : Model} (abides : start.Abides middle) {base : Option DeclarationId} :
      Decides context middle (do
        updateRecord (start.declaration id).record fun record => { record with shape := some .object }
        let model ← MonadState.get
        return base.map fun base => (model.declaration base).record) := by
    -- The record of a class gets its shape without a reason, because no record leads to it.
    refine (decides_mark fun reasoned holder leads => ?_).bind fun _ _ _ _ => .get (.pure trivial)
    have root := (reasoned.roots id (abides.declarations ▸ inside)).2 holder
    rw [(abides.grows id).record] at root
    exact absurd leads root
  refine .get ?_
  dsimp only
  cases start.base? context.tree id with
  -- Without a base there is nothing to note.
  | none => exact rest (.refl start)
  | some base =>
    -- With a base, both classes and the imports are noted first.
    refine DecidesTo.bind (decides_note fun _ => ?_) fun _ _ abides _ => ?_
    · rfl
    refine DecidesTo.bind (decides_note fun _ => ?_) fun _ _ abides' _ => ?_
    · rfl
    exact decides_importDeclaration.bind fun _ _ abides'' _ => rest ((abides.trans abides').trans abides'')

/-- The members of a declaration are analysed. -/
theorem decides_analyseDeclaration (inside : id.index < start.declarations.size) :
    Decides context start (analyseDeclaration context id) := by
  -- Neither does anything lead to the record of any other declaration.
  have shaped (shape : Shape) : Decides context start (updateRecord (start.declaration id).record
      fun record => { record with shape := some shape }) :=
    decides_mark fun reasoned holder leads => absurd leads ((reasoned.roots id inside).2 holder)
  refine .declaration ?_
  split
  · exact shaped .identifierEnum
  · exact shaped .untyped
  · rw [analyseClass_eq]
    exact .declaration ((decides_openClass inside).bind fun _ _ _ _ =>
      decides_analyseObject decides_analyseAny)

/-- The members of a declaration and of its bases are analysed. -/
theorem decides_resolveMembers (inside : id.index < start.declarations.size) :
    Decides context start (resolveMembers context id) := by
  -- Whatever is analysed is the declaration itself or one of its bases, hence declared.
  have declared (other : DeclarationId) (member : other ∈ (id :: start.allBases context.tree id).takeWhile
      fun id => !(start.declaration id).isAnalysed) : other.index < start.declarations.size := by
    rcases List.mem_cons.mp (List.takeWhile_subset _ member) with rfl | met
    · exact inside
    · obtain ⟨k, -, -, reached⟩ := Model.mem_bases.mp met
      exact Model.inside_of_baseAfter inside reached
  refine .get (DecidesTo.bind (.forM fun _ _ _ _ => decides_note fun _ => ?_) fun _ marked abides _ =>
    .forM fun other member middle abides' => decides_analyseDeclaration ?_)
  · rfl
  · -- No declaration joins while members are analysed.
    rw [abides'.declarations, abides.declarations]
    exact declared other (List.mem_reverse.mp member)

end Modelling

/-! Branches are resolved for a reason as well. -/

/-- Whether a record is that of a variant. -/
def Model.IsVariant (model : Model) (id : RecordId) : Prop :=
  ∃ owner, ∃ nested ∈ (model.declaration owner).nested, nested.isVariant = true ∧ nested.record = id

namespace Model

variable {context : Context} {before after model : Model} {id holder : RecordId}

/-- An alternative of a record goes on being one. -/
theorem Abides.oneOf (abides : before.Abides after) (held : id ∈ (before.ledger.record holder).oneOf) :
    id ∈ (after.ledger.record holder).oneOf := by
  have present : holder.index < before.ledger.size := by
    by_contra absent
    rw [Ledger.record_of_size_le (Nat.le_of_not_lt absent)] at held
    exact absurd held List.not_mem_nil
  rw [(abides.record holder present).field Record.oneOf fun _ _ _ _ _ _ _ _ _ _ _ _ => rfl]
  exact held

/-- The record of a variant goes on being one. -/
theorem Abides.isVariant (abides : before.Abides after) (made : before.IsVariant id) :
    after.IsVariant id := by
  obtain ⟨owner, nested, member, isVariant⟩ := made
  have kept : nested ∈ (after.declaration owner).nested := Array.mem_toList_iff.mp
    ((abides.grows owner).nested.subset (Array.mem_toList_iff.mpr member))
  exact ⟨owner, nested, kept, isVariant⟩

/-- No analysis leads to the record of a variant. -/
theorem Reasoned.not_leadsTo (reasoned : model.Reasoned context) (made : model.IsVariant id) :
    ¬(model.ledger.record holder).LeadsTo id := by
  obtain ⟨owner, nested, member, isVariant, rfl⟩ := made
  exact reasoned.variants owner nested member isVariant holder

end Model

namespace Modelling

variable {context : Context} {start : Model} {owner id : DeclarationId} {site : Site}
variable {branch container holder variant property : RecordId}

/-- A class is nested for a variant that no analysis leads to. -/
theorem decidesTo_pushVariant {scope : Option Nat} {implements : ClassRef}
    (inside : owner.index < start.declarations.size) (present : variant.index < start.ledger.size)
    (apart : start.Reasoned context → ∀ holder, ¬(start.ledger.record holder).LeadsTo variant) :
    DecidesTo context start (pushVariant context owner scope variant branch implements)
      fun _ last => last.ledger = start.ledger ∧ last.IsVariant variant := by
  intro reasoned
  -- What is pushed has the schema of the branch, an interface and no target.
  refine ends_pushVariant_named.mono fun _ last pushed => ?_
  obtain ⟨name, rfl⟩ := pushed
  obtain ⟨abides, reasoned'⟩ := @Model.Reasoned.nest context start owner reasoned
    { name, parent := scope, kind := .concrete, record := variant
      origin := (start.ledger.record branch).schema, target := none
      interfaces := [implements], isVariant := true }
    -- A variant has to be led to by nothing, and nothing else is asked of it.
    present (fun _ => apart reasoned) fun plain => absurd plain.symm Bool.false_ne_true
  refine ⟨abides, reasoned', rfl, owner, ?_⟩
  rw [Model.declaration_updateDeclaration, if_pos ⟨rfl, inside⟩]
  exact ⟨_, Array.mem_push_self, rfl, rfl⟩

/-- A variant that has no class yet is settled on one. -/
theorem decides_settleVariant {ref : ClassRef} (made : start.IsVariant variant)
    (unset : (start.ledger.record variant).typeRef = none) :
    Decides context start (settle variant ref) := by
  intro reasoned
  obtain ⟨abides, reasoned'⟩ := @Model.Reasoned.settle context start variant reasoned ref unset
    (fun holder leads => absurd leads (reasoned.not_leadsTo made))
    fun holder element => absurd element.leadsTo (reasoned.not_leadsTo made)
  exact ⟨abides, reasoned', trivial⟩

/-- A branch of a union is resolved. -/
theorem decides_resolveBranch (inside : owner.index < start.declarations.size)
    (held : branch ∈ (start.ledger.record holder).oneOf) :
    Decides context start (resolveBranch context owner branch) := by
  refine .given fun reasoned => .record (.get ?_)
  split
  · split
    · -- A branch that is declared elsewhere implements the union, and both sides note it.
      refine DecidesTo.bind (decides_note fun _ => ?_) fun _ _ _ _ =>
        DecidesTo.bind (decides_note fun _ => ?_) fun _ _ _ _ => decides_importDeclaration
      · rfl
      · rfl
    · exact .pure trivial
  · -- Any other branch is nested as a class if it is an object without a class.
    refine .declaration (.ledger ?_)
    split
    · rename_i chosen
      simp only [Bool.and_eq_true, beq_iff_eq] at chosen
      have unset := Context.typeRef_eq_none_of_classify chosen.2 nofun
      -- A branch is reached from nowhere else, so that a class may be nested for it.
      have present := reasoned.placed.enclosed holder .branch branch held
      refine (decidesTo_pushVariant inside present fun reasoned holder =>
        reasoned.placed.not_leadsTo_branch held).bind fun index pushed _ made => ?_
      exact (decides_settleVariant made.2 (made.1 ▸ unset)).bind fun _ _ _ _ =>
        decides_analyseObject decides_analyseAny
    · -- All else is left to be what it is.
      exact .pure trivial

/-- A copy for a variant joins, which no analysis leads to. -/
theorem decidesTo_copyForVariant {origin : Option SchemaId} :
    DecidesTo context start (copyForVariant container origin) fun variant last =>
      variant.index < last.ledger.size ∧ (last.ledger.record variant).typeRef = none ∧
        ∀ holder, ¬(last.ledger.record holder).LeadsTo variant := by
  intro reasoned
  have enclosed := reasoned.placed.enclosed container .property
  refine ((ends_copyForVariant reasoned.placed.inRange enclosed).and
    (ends_copyForVariant_behind reasoned.placed.inRange enclosed)).imp
      (fun variant last made => ?_) fun _ _ => trivial
  obtain ⟨⟨rfl, copies, ledger, rfl, varies⟩, behind⟩ := made
  refine ⟨.vary reasoned.placed varies, reasoned.vary varies, varies.variant.present, ?_,
    fun holder leads => ?_⟩
  · -- The copy has been cleared of its class.
    rw [Model.ledger_withLedger, varies.record_variant]
  · -- What leads to the copy led to it before, where it was not yet there, or holds it as a copied
    -- property.
    rcases varies.leadsTo leads with ⟨source, leads⟩ | copied
    · exact absurd (reasoned.placed.present leads) (Nat.lt_irrefl _)
    · -- All copies of properties come behind the variant.
      have late := behind ⟨start.ledger.size⟩
      rw [Model.ledger_withLedger, varies.record_variant] at late
      exact absurd (late copied) (Nat.lt_irrefl _)

/-- A property of a branch joins a variant. -/
theorem decides_joinProperty (made : start.IsVariant variant)
    (held : property ∈ (start.ledger.record holder).properties) :
    Decides context start (joinProperty context site variant property) := by
  refine .record ((decides_analyseAny _ _ _ _ (.named _ held)).bind fun _ analysed abides _ => .ledger ?_)
  -- A property that is there already is extended by the checks of the branch.
  split
  · exact fun reasoned => ⟨reasoned.extend.1, reasoned.extend.2, trivial⟩
  · -- Otherwise the property joins, which no analysis notices, as none leads to the variant.
    intro reasoned
    have apart (holder : RecordId) := @Model.Reasoned.not_leadsTo context analysed variant holder
      reasoned (abides.isVariant made)
    exact ⟨.join apart, reasoned.join (abides.isProperty held) apart, trivial⟩

/-- A name that a branch requires joins its variant. -/
theorem decides_joinRequired {already : List String} {name : String} :
    Decides context start (joinRequired variant already name) := by
  have requires {middle : Model} : Decides context middle (updateRecord variant (·.addRequired name)) :=
    decides_remark rfl
  unfold joinRequired
  split
  · refine .ledger ?_
    -- A name that was not required before is checked no more for null.
    split
    · refine DecidesTo.bind (decides_remark ?_) fun _ _ _ _ => requires
      rfl
    · exact requires
  · exact requires

/-- A variant is filled with the members of its branch. -/
theorem decides_fillVariant_of_made (made : start.IsVariant variant) :
    Decides context start (fillVariant context site container branch variant) := by
  refine .record (DecidesTo.bind (.forM fun property held middle abides =>
    decides_joinProperty (abides.isVariant made) (abides.isProperty held)) fun _ _ _ _ => ?_)
  refine .record (.record (DecidesTo.bind (.forM fun _ _ _ _ => decides_joinRequired) fun _ _ _ _ => ?_))
  exact decides_plan.bind fun _ _ _ _ => decides_reconcileRequired

/-- The variant of a class for a branch is made. -/
theorem decides_addVariant (inside : site.owner.index < start.declarations.size) :
    Decides context start (addVariant context site container branch) := by
  refine .record (.declaration ?_)
  split
  · -- A branch without a class yet gets a variant, which is filled behind its settlement.
    refine decidesTo_copyForVariant.bind fun variant copied abides fresh => ?_
    obtain ⟨present, unset, apart⟩ := fresh
    refine (decidesTo_pushVariant (abides.declarations ▸ inside) present fun _ => apart).bind
      fun index pushed _ made => ?_
    refine (decides_settleVariant made.2 (made.1 ▸ unset)).bind fun _ settled abides' _ => ?_
    exact decides_fillVariant_of_made (abides'.isVariant made.2)
  · -- The variant is there already.
    exact .pure trivial

/-- The variants of a class are made. -/
theorem decides_addVariants (inside : site.owner.index < start.declarations.size) :
    Decides context start (addVariants context site container) :=
  .record (.forM fun _ _ _ abides => decides_addVariant (abides.declarations ▸ inside))

/-- The variants of nested classes are made from one class on. -/
theorem decides_addNestedVariants {steps index : Nat} (inside : owner.index < start.declarations.size) :
    Decides context start (addNestedVariants context owner steps index) := by
  induction steps generalizing start index with
  | zero => exact .pure trivial
  | succ steps ih =>
    refine .declaration ?_
    split
    · exact .pure trivial
    · split
      · -- The variants of this class are made, and those of the classes behind it follow.
        exact DecidesTo.bind (@decides_addVariants _ _ ⟨owner, some index⟩ _ inside) fun _ _ abides _ =>
          ih (abides.declarations ▸ inside)
      · exact ih inside

/-- The branches of a declaration and of the classes nested in it are resolved. -/
theorem decides_resolveVariants (inside : owner.index < start.declarations.size) :
    Decides context start (resolveVariants context owner) := by
  -- Whatever is resolved first, the classes nested by then are resolved after it.
  have nested {middle : Model} (abides : start.Abides middle) : Decides context middle (do
      let bound := (← declaration owner).nested.size + context.tree.schemas.size + (← ledger).size
      addNestedVariants context owner (bound + 1) 0) :=
    .declaration (.ledger (decides_addNestedVariants (abides.declarations ▸ inside)))
  refine .declaration ?_
  dsimp only
  split
  · refine DecidesTo.bind (decides_note fun _ => ?_) fun _ noted abides _ => ?_
    · rfl
    split
    · have inside' : owner.index < noted.declarations.size := abides.declarations ▸ inside
      cases (start.declaration owner).kind with
      -- The branches of an interface are resolved, and every other class gets variants.
      | interface =>
        refine .record (DecidesTo.bind (.forM fun branch held middle abides' => ?_) fun _ _ abides' _ =>
          nested (abides.trans abides'))
        exact decides_resolveBranch (abides'.declarations ▸ inside') (abides'.oneOf held)
      | _ =>
        exact DecidesTo.bind (@decides_addVariants _ _ ⟨owner, none⟩ _ inside') fun _ _ abides' _ =>
          nested (abides.trans abides')
    · exact .pure trivial
  · exact .pure trivial

/-- Whatever is resolved, shapes and classes are decided for a reason. -/
theorem decides_resolve : Decides context start (resolve context) := by
  refine .get ?_
  -- Declarations are not dropped, so that all of the list stay in range.
  have inside {id : DeclarationId} {middle : Model} (member : id ∈ start.ids)
      (abides : start.Abides middle) : id.index < middle.declarations.size :=
    abides.declarations ▸ Model.mem_ids.mp member
  have rest : Decides context start (do
      start.ids.forM (resolveMembers context)
      start.ids.forM (resolveVariants context)) :=
    DecidesTo.bind (.forM fun _ member _ abides => decides_resolveMembers (inside member abides))
      fun _ _ abides _ => .forM fun _ member _ abides' =>
        decides_resolveVariants (inside member (abides.trans abides'))
  dsimp only
  cases start.circularBase? context.tree with
  | none => exact rest
  -- A circle ends the run, and then nothing is claimed.
  | some id => exact fun _ => trivial

/-- Behind every run that succeeds, shapes and classes were decided for a reason. -/
theorem reasoned_build {roots : List RootSchema} :
    Ends (build context roots) {} (fun _ last => last.Reasoned context) (fun _ => True) := by
  rw [build, ends_bind]
  refine (declared_roots.and linked_roots).imp (fun _ first begun => ?_) fun _ _ => trivial
  exact (decides_resolve (begun.1.reasoned begun.2)).mono fun _ _ done => done.2.1

end Modelling

end SchemaClasses
