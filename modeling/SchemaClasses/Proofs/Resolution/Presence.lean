import SchemaClasses.Proofs.Resolution.Holdings
import SchemaClasses.Proofs.Resolution.Variants

/-! Whatever is resolved, a class marks just those of its properties that it requires, and something
stands in for each of the others. -/

namespace SchemaClasses

namespace Ledger

variable {a b c ledger : Ledger} {id variant property : RecordId}

/-- A later ledger in which a variant requires more names, and in which properties of it may have
ceased to be nullable. -/
structure JoinsRequired (variant : RecordId) (before after : Ledger) : Prop where
  size : after.size = before.size
  sets : after.checkSets = before.checkSets
  record : ∀ id, after.record id =
    { before.record id with
      required := (after.record id).required
      nullable := (after.record id).nullable }
  required : ∀ id, (before.record id).required ⊆ (after.record id).required
  listed : ∀ id, id ≠ variant → (after.record id).required = (before.record id).required
  nullable : ∀ id, id ∉ (before.record variant).properties →
    (after.record id).nullable = (before.record id).nullable

namespace JoinsRequired

theorem refl (ledger : Ledger) : ledger.JoinsRequired variant ledger :=
  ⟨rfl, rfl, fun _ => rfl, fun _ => List.Subset.refl _, fun _ _ => rfl, fun _ _ => rfl⟩

theorem trans (first : a.JoinsRequired variant b) (second : b.JoinsRequired variant c) : a.JoinsRequired variant c where
  size := second.size.trans first.size
  sets := second.sets.trans first.sets
  record id := by
    -- The second change starts from the record as the first one left it.
    conv_lhs => rw [second.record id, first.record id]
  required id := List.Subset.trans (first.required id) (second.required id)
  listed id apart := (second.listed id apart).trans (first.listed id apart)
  nullable id free := by
    refine (second.nullable id ?_).trans (first.nullable id free)
    rw [first.record variant]
    exact free

/-- A variant requires one name more. -/
theorem require {name : String} : ledger.JoinsRequired variant (ledger.update variant (·.addRequired name)) := by
  refine ⟨size_update, rfl, fun id => ?_, fun id => ?_, fun id apart => ?_,
    fun id _ => field_update Record.nullable rfl⟩
  · -- The names required are the only part of the variant that changes.
    rw [record_update]
    split
    · rename_i same
      rw [same.1]
      rfl
    · rfl
  · rw [record_update]
    split
    · rename_i same
      rw [same.1]
      -- A name is added to the list or stands there already.
      exact subset_addNew
    · exact List.Subset.refl _
  · rw [record_update_of_ne apart]

/-- A property of a variant is no longer nullable. -/
theorem relax (held : property ∈ (ledger.record variant).properties) :
    ledger.JoinsRequired variant (ledger.update property fun record => { record with nullable := none }) := by
  refine ⟨size_update, rfl, fun id => ?_, fun id => ?_, fun id _ => field_update Record.required rfl,
    fun id free => ?_⟩
  · -- The property changes in one field only.
    rw [record_update]
    split
    · rename_i same
      rw [same.1]
    · rfl
  · rw [field_update Record.required rfl]
    exact List.Subset.refl _
  · -- A record that is no property of the variant is not the one that is cleared.
    have apart : id ≠ property := fun same => free (same ▸ held)
    rw [record_update_of_ne apart]

end JoinsRequired

end Ledger

namespace Modelling

open Model

variable {context : Context} {varied gain : Set RecordId} {first start middle last : Model}
variable {owner : DeclarationId} {site : Site} {variant property container branch : RecordId}

/-- The names that a branch requires join its variant. -/
theorem ends_joinRequired {names already : List String} :
    Ends (names.forM (joinRequired variant already)) start
      (fun _ last => last = start.withLedger last.ledger ∧ start.ledger.JoinsRequired variant last.ledger)
      (fun _ => True) := by
  refine Ends.forM _ ⟨rfl, .refl _⟩ fun name _ middle joined => ?_
  obtain ⟨same, joins⟩ := joined
  generalize middle.ledger = ledger at same joins
  subst same
  simp only [joinRequired]
  -- A name may have been required by the class, or may be lacking from it.
  split
  · rw [ends_bind, ends_ledger]
    split
    · -- What the branch requires may not be absent any more.
      rename_i property found
      rw [ends_bind, ends_updateRecord, ends_updateRecord]
      exact ⟨rfl, (joins.trans (.relax (List.mem_of_find?_eq_some found))).trans .require⟩
    · rw [ends_updateRecord]
      exact ⟨rfl, joins.trans .require⟩
  · -- A name that was required before is only added to the list.
    rw [ends_updateRecord]
    exact ⟨rfl, joins.trans .require⟩

/-- Required names that join a variant are heeded, if it is reconciled in the end: a property that has
ceased to be nullable is covered again by then. -/
theorem Heeding.join {ledger : Ledger} (joins : start.ledger.JoinsRequired variant ledger)
    (heeding : Heeding {variant} gain (start.withLedger ledger) last)
    (reconciled : last.Reconciled variant) : Heeding {variant} gain start last where
  forward := Forward.survey.trans heeding.forward
  size := heeding.size.trans joins.size
  sets := heeding.sets.trans (congrArg Array.size joins.sets)
  record id := by
    obtain ⟨origin, properties, gained, required, listed, marked, covered⟩ := heeding.record id
    have same := joins.record id
    rw [ledger_withLedger] at origin properties gained required listed marked covered
    rw [same] at origin properties gained
    refine ⟨origin, properties, gained, List.Subset.trans (joins.required id) required,
      fun apart => (listed apart).trans (joins.listed id apart), fun held => marked ?_,
      -- Covering depends on nullability as well, which joining may change.
      fun held => ?_⟩
    · rw [same]
      exact held
    · -- A property of the variant is reconciled in the end; no other one is touched by the names that join.
      by_cases inner : id ∈ (start.ledger.record variant).properties
      · -- A record out of range would be the default one, which nothing covers.
        have present : id.index < start.ledger.size := by
          by_contra past
          rw [Ledger.record_of_size_le (Nat.not_lt.mp past)] at held
          exact Record.not_isCovered_default held
        refine (reconciled id ((heeding.record variant).properties ?_) ?_).2
        · rw [ledger_withLedger, joins.record variant]
          exact inner
        · rw [heeding.size, ledger_withLedger, joins.size]
          exact present
      · refine covered ?_
        rw [Record.IsCovered, joins.nullable id inner, same]
        exact held
  warranted id marked := by
    have warranted := heeding.warranted id marked
    rw [ledger_withLedger, joins.record id] at warranted
    exact warranted
  reconciled id entered :=
    (heeding.reconciled id entered).imp_left fun earlier => earlier.congr fun _ => rfl
  nested := heeding.nested

/-- A varied record gains a property, and nothing else changes. -/
theorem heeding_gain (member : property ∈ gain) :
    Heeding {variant} gain start (start.updateRecord variant fun record =>
      { record with properties := record.properties ++ [property] }) := by
  refine .of_records .survey Ledger.size_update rfl (fun id => ?_) (fun id marked => .inl ?_)
    fun _ => rfl
  · rw [ledger_updateRecord, Ledger.record_update]
    split
    · rename_i here
      rw [here.1]
      refine ⟨⟨rfl, rfl, rfl⟩, List.subset_append_left _ _, fun other held => ?_, List.Subset.refl _,
        fun _ => rfl, fun marked => marked, fun covered => covered⟩
      -- A property was held before or is the one that is gained.
      rcases List.mem_append.mp held with earlier | new
      · exact .inl earlier
      · rw [List.mem_singleton.mp new]
        exact .inr ⟨rfl, member⟩
    · exact .of_terms rfl
  · rw [ledger_updateRecord, Ledger.field_update Record.isRequired rfl] at marked
    exact marked

/-- A property of a branch joins the variant. -/
theorem heeds_joinProperty (member : property ∈ gain) :
    Heeds site.owner {variant} gain (joinProperty context site variant property) := by
  refine heeds_record.bind fun held => (heeds_analyseAny site property _ rfl).bind fun _ =>
    heeds_ledger.bind fun ledger => ?_
  split
  · exact fun start _ => .of_terms .survey rfl Array.size_modify (fun _ => rfl) fun _ => rfl
  · intro start _
    rw [ends_updateRecord]
    exact heeding_gain member

/-- The members of a branch and what it requires join a variant that was nested, and this is
reconciled. -/
theorem ends_fillVariant (held : ∀ property ∈ (start.ledger.record branch).properties, property ∈ gain)
    (inside : site.owner.index < start.declarations.size) (entered : start.Entered variant) :
    Ends (fillVariant context site container branch variant) start
      (fun _ last => Heeding {variant} gain start last ∧ last.Reconciled variant) (fun _ => True) := by
  simp only [fillVariant, ends_bind, ends_record]
  have joins : Heeds site.owner {variant} gain
      ((start.ledger.record branch).properties.forM (joinProperty context site variant)) :=
    Takes.forM fun property member => heeds_joinProperty (held property member)
  refine (joins start inside).imp (fun _ middle heeding => ?_) fun _ _ => trivial
  refine ends_joinRequired.imp (fun _ joined done => ?_) fun _ _ => trivial
  obtain ⟨same, joins⟩ := done
  -- The declaration is still there when the names have joined.
  have inside' : site.owner.index < joined.declarations.size := by
    rw [same]
    exact Nat.lt_of_lt_of_eq inside heeding.forward.size.symm
  have entered' : joined.Entered variant := by
    rw [same]
    exact (entered.forward heeding.forward).forward .survey
  -- Properties join first, names next, and the plan and the reconciliation come last.
  have rest : Reconciles site.owner {variant} gain variant (do
        plan context site.owner variant .object
        reconcileRequired variant) :=
    heeds_plan.reconciles fun _ _ _ entered => ends_reconcileRequired entered
  have closes := (rest joined inside' entered').mono fun _ last done =>
    And.intro (heeding.trans ((same ▸ done.1).join joins done.2)) done.2
  rw [ends_bind] at closes
  exact closes

/-- A part of the resolution that heeds required names leaves a tidy model tidy. -/
theorem tidies_of_heeds {α : Type} {part : Modelling α} (tidy : Tidy ∅ ∅ first start)
    (inside : owner.index < start.declarations.size) (heeds : Heeds owner ∅ ∅ part) :
    Ends part start (fun _ last => first.Arranged last → Tidy ∅ ∅ first last) (fun _ => True) :=
  (heeds start inside).mono fun _ _ heeding arranged =>
    tidy.heed heeding arranged fun id open' => absurd open' (Set.notMem_empty id)

/-- A class is nested for a branch. -/
theorem ends_pushVariant_push {scope : Option Nat} {record branch : RecordId} {implements : ClassRef} :
    Ends (pushVariant context owner scope record branch implements) start
      (fun _ last => ∃ added : NestedClass, added.record = record ∧
        added.origin = (start.ledger.record branch).schema ∧ added.kind = .concrete ∧
        last = start.updateDeclaration owner fun declaration =>
          { declaration with nested := declaration.nested.push added })
      (fun _ => True) := by
  refine ends_pushVariant_named.mono fun _ last pushed => ?_
  obtain ⟨name, rfl⟩ := pushed
  exact ⟨_, rfl, rfl, rfl, rfl⟩

/-- A branch of a union is resolved tidily. -/
theorem tidies_resolveBranch (tidy : Tidy ∅ ∅ first start) (arranged : first.Arranged start)
    (inside : owner.index < first.declarations.size) (member : branch ∈ first.realm owner) :
    Ends (resolveBranch context owner branch) start
      (fun _ last => first.Arranged last → Tidy ∅ ∅ first last) (fun _ => True) := by
  have there : owner.index < start.declarations.size := arranged.size ▸ inside
  simp only [resolveBranch, ends_bind, ends_record, ends_get]
  -- A branch that is declared elsewhere is related to the union by notes and an import.
  split
  · rename_i implementor found
    refine tidies_of_heeds tidy there ?_
    split
    · refine Takes.bind (heeds_updateDeclaration (fun _ => rfl) fun _ held => held) fun _ => ?_
      refine Takes.bind (heeds_updateDeclaration (fun _ => rfl) fun _ held => held) fun _ => ?_
      exact heeds_importDeclaration
    · exact heeds_pure
  · -- Any other branch may be nested as a class.
    rw [ends_bind, ends_declaration, ends_bind, ends_ledger]
    split
    · rw [ends_bind]
      refine ends_pushVariant_push.imp (fun index middle pushed => ?_) fun _ _ => trivial
      obtain ⟨added, rfl, made, concrete, rfl⟩ := pushed
      -- The class that is nested is open until its record is reconciled, which its analysis ends with.
      have opened := tidy.nestBranch arranged inside member made
      have whole : Reconciles owner {added.record} ∅ added.record (do
          let _ ← settle added.record (.nested owner index)
          analyseObject context (analyseAny context) ⟨owner, some index⟩ added.record none) :=
        heeds_settle.reconciles fun _ =>
          @reconciles_analyseObject context {added.record} ∅ added.record ⟨owner, some index⟩
            (analyseAny context) none heeds_analyseAny
      refine (whole _ ?_ (entered_push_self there concrete)).mono fun _ last done arranged => ?_
      · rw [size_updateDeclaration]
        exact there
      · refine opened.heed done.1 arranged fun id open' => ?_
        rw [Set.mem_singleton_iff.mp open']
        exact done.2
    · -- Otherwise the branch stays what it is.
      exact fun _ => tidy

/-- A variant that was nested is filled with what its branch has, and nothing is left to be reconciled. -/
theorem tidies_fillVariant (tidy : Tidy {variant} gain first start)
    (inside : site.owner.index < start.declarations.size)
    (held : ∀ property ∈ (start.ledger.record branch).properties, property ∈ gain)
    (entered : start.Entered variant) {ref : ClassRef} :
    Ends (do
        let _ ← settle variant ref
        fillVariant context site container branch variant) start
      (fun _ last => first.Arranged last → Tidy ∅ ∅ first last) (fun _ => True) := by
  rw [ends_bind]
  refine Ends.imp (@heeds_settle site.owner {variant} gain variant ref start inside)
    (fun _ settled heeding => ?_) fun _ _ => trivial
  -- What the branch holds now it held before, or may be gained anyway.
  have held (property : RecordId) (member : property ∈ (settled.ledger.record branch).properties) :
      property ∈ gain :=
    ((heeding.record branch).gained property member).elim (held property) And.right
  refine (ends_fillVariant held (Nat.lt_of_lt_of_eq inside heeding.forward.size.symm)
    (entered.forward heeding.forward)).mono fun _ last done arranged => ?_
  refine tidy.heed (heeding.trans done.1) arranged fun id open' => ?_
  rw [Set.mem_singleton_iff.mp open']
  exact done.2

/-- The variant of a class for a branch is made tidily. -/
theorem tidies_addVariant (tidy : Tidy ∅ ∅ first start) (arranged : first.Arranged start)
    (inside : site.owner.index < first.declarations.size) (entered : start.Entered container)
    (member : container ∈ first.realm site.owner) (belongs : branch ∈ first.inBranches site.owner) :
    Ends (addVariant context site container branch) start
      (fun _ last => first.Arranged last → Tidy ∅ ∅ first last) (fun _ => True) := by
  -- The declaration is there, since none is forgotten.
  have there : site.owner.index < start.declarations.size := arranged.size ▸ inside
  have settles := arranged.settles inside (inBranches_subset belongs)
  have present : branch.index < start.ledger.size :=
    Nat.lt_of_lt_of_le ((arranged.declared.closed_scope inside).present branch
      (inBranches_subset belongs)) arranged.ledger.size_le
  simp only [addVariant, ends_bind, ends_record, ends_declaration]
  split
  · rw [ends_bind]
    refine (ends_copyForVariant tidy.inRange (tidy.enclosed container)).imp
      (fun variant copied made => ?_) fun _ _ => trivial
    obtain ⟨rfl, copies, ledger, rfl, varies⟩ := made
    -- The branch was there before the copies, so they leave it as it was.
    have same : ledger.record branch = start.ledger.record branch := varies.record branch present
    rw [ends_bind]
    refine ends_pushVariant_push.imp (fun index middle pushed => ?_) fun _ _ => trivial
    obtain ⟨added, record, made, concrete, rfl⟩ := pushed
    -- What is filled in afterwards comes from the branch, which is as it was surveyed.
    refine tidies_fillVariant (tidy.nestVariant arranged inside entered member belongs varies record
      (made.trans (congrArg Record.schema same)) concrete) ?_ (fun property held => ?_) ?_
    · rw [size_updateDeclaration]
      exact there
    · -- The properties of the branch are the surveyed ones.
      rw [ledger_updateDeclaration, ledger_withLedger, same, settles.properties_eq] at held
      exact held
    · rw [← record]
      exact entered_push_self there concrete
  · -- The branch has its class, and nothing is done.
    exact fun _ => tidy

/-- A state between two steps of the resolution of branches: all members were analysed, and each class
holds its properties alone and has marked those that it requires. -/
structure Proceeding (first model : Model) : Prop where
  arranged : first.Arranged model
  tidy : Tidy ∅ ∅ first model
  begun : ∀ id : DeclarationId, id.index < first.declarations.size →
    (model.declaration id).isAnalysed = true

/-- A later state behind a trail, between steps if the earlier one was. -/
structure Proceeds (context : Context) (first before after : Model) : Prop where
  trail : Trail context first before after
  kept : Proceeding first before → Proceeding first after

namespace Proceeds

variable {a b c : Model}

theorem refl (model : Model) : Proceeds context first model model := ⟨.refl, fun held => held⟩

theorem trans (before : Proceeds context first a b) (after : Proceeds context first b c) :
    Proceeds context first a c :=
  ⟨before.trail.trans after.trail, fun held => after.kept (before.kept held)⟩

end Proceeds

instance : Course (Proceeding first) (Proceeds context first) where
  refl := .refl
  trans := .trans
  ready led proceeding := led.kept proceeding

/-- A tidy step along a trail leads from a state between steps to another one. -/
theorem Proceeding.step {step step' : Modelling Unit} (proceeding : Proceeding first start)
    (tracks : Tracks context first start step step')
    (tidies : Ends step start (fun _ last => first.Arranged last → Tidy ∅ ∅ first last)
      fun _ => True) :
    Ends step start (fun _ last => Proceeds context first start last) (fun _ => True) := by
  have closes := (tracks proceeding.arranged).2.ends
  -- The trail and tidiness are proved apart, and both hold of the same last state.
  refine (closes.and tidies).imp (fun _ last done => ?_) fun _ _ => trivial
  obtain ⟨⟨trail, -⟩, tidy⟩ := done
  have arranged := trail.arranged proceeding.arranged
  exact ⟨trail, fun _ => ⟨arranged, tidy arranged,
    fun id inside => trail.forward.isAnalysed id (proceeding.begun id inside)⟩⟩

/-- Every record is analysed alike by the plain recursion that goes as deep as there are records. -/
theorem alike_analyseAny : (analyseAny context).Tracks
    (analyseWithin context (pure ()) (first.ledger.size + 1)) context first owner 0 :=
  tracks_analyseAny (Nat.lt_succ_self _)

/-- A state between two variants of a class that was entered. -/
structure Varying (first : Model) (site : Site) (container : RecordId) (model : Model) : Prop
    extends Proceeding first model where
  stands : site.Stands first model
  entered : model.Entered container
  member : container ∈ first.realm site.owner

instance : Course (Varying first site container) (Proceeds context first) where
  refl := .refl
  trans := .trans
  ready led varying := ⟨led.kept varying.toProceeding, led.trail.stands varying.stands,
    varying.entered.forward led.trail.forward, varying.member⟩

/-- A variant of a class is made. -/
theorem proceeds_addVariant (varying : Varying first site container start)
    (held : branch ∈ (start.ledger.record container).oneOf) :
    Ends (addVariant context site container branch) start
      (fun _ last => Proceeds context first start last) (fun _ => True) := by
  have settles := varying.arranged.settles varying.stands.declared varying.member
  -- The branch is an alternative of the container since the survey.
  have belongs : branch ∈ first.inBranches site.owner :=
    ⟨container, varying.member, branch, settles.oneOf_eq ▸ held, Ledger.mem_scope_self⟩
  exact varying.step
    (tracks_addVariant varying.stands alike_analyseAny (inBranches_subset belongs))
    (tidies_addVariant varying.tidy varying.arranged varying.stands.declared varying.entered
      varying.member belongs)

/-- The variants of a class are made one after the other. -/
theorem proceeds_addVariants :
    Takes (Varying first site container) (Proceeds context first)
      (addVariants context site container) := by
  intro start varying
  simp only [addVariants, ends_bind, ends_record]
  have settles := varying.arranged.settles varying.stands.declared varying.member
  have each : Takes (Varying first site container) (Proceeds context first)
      ((start.ledger.record container).oneOf.forM (addVariant context site container)) := by
    refine Takes.forM fun branch held middle varying => proceeds_addVariant varying ?_
    -- The alternatives of a class stay what they were declared to be.
    rw [(varying.arranged.settles varying.stands.declared varying.member).oneOf_eq, ← settles.oneOf_eq]
    exact held
  exact each start varying

/-- The variants of a nested class may be made, unless it is one itself. -/
theorem Proceeding.varying {index : Nat} {nested : NestedClass} (proceeding : Proceeding first start)
    (inside : owner.index < first.declarations.size)
    (there : (start.declaration owner).nested[index]? = some nested) (concrete : nested.kind = .concrete)
    (plain : nested.isVariant = false) : Varying first ⟨owner, some index⟩ nested.record start := by
  have listed := Array.mem_of_getElem? there
  exact ⟨proceeding, Site.stands_nested inside (Array.getElem?_eq_some_iff.mp there).1,
    .nested listed concrete, (proceeding.arranged.belongs owner nested listed).record plain⟩

/-- So may those of a declared class. -/
theorem Proceeding.varying_declared (proceeding : Proceeding first start)
    (inside : owner.index < first.declarations.size)
    (concrete : (first.declaration owner).kind = .concrete) :
    Varying first ⟨owner, none⟩ (first.declaration owner).record start := by
  have grows := proceeding.arranged.grows owner
  refine ⟨proceeding, Site.stands_outermost inside, ?_, Ledger.mem_scope_self⟩
  rw [← grows.record]
  exact .declared (grows.kind.trans concrete) (proceeding.begun owner inside)

/-- The variants of nested classes are made from one class on. -/
theorem proceeds_addNestedVariants {steps index : Nat} (inside : owner.index < first.declarations.size) :
    Takes (Proceeding first) (Proceeds context first) (addNestedVariants context owner steps index) := by
  induction steps generalizing index with
  | zero => exact fun start _ => .refl start
  | succ steps ih =>
    intro start proceeding
    simp only [addNestedVariants, ends_bind, ends_declaration]
    split
    · -- No class is left.
      exact .refl start
    · rename_i nested there
      split
      · rename_i chosen
        simp only [Bool.and_eq_true, beq_iff_eq, Bool.not_eq_true'] at chosen
        -- Only a class that is no variant itself gets variants.
        have varying := proceeding.varying inside there chosen.1 chosen.2
        rw [ends_bind]
        -- After this class come those behind it.
        refine (proceeds_addVariants start varying).imp (fun _ middle led => ?_) fun _ _ => trivial
        exact (ih.further proceeding led)
      · exact ih start proceeding

/-- That a class is being resolved is noted. -/
theorem proceeds_mark (inside : owner.index < first.declarations.size) :
    Takes (Proceeding first) (Proceeds context first)
      (updateDeclaration owner fun declaration => { declaration with hasVariants := true }) := by
  intro middle proceeding
  have marked := @tracksTo_note context first middle owner
    (fun declaration => { declaration with hasVariants := true }) (fun _ => rfl)
    (fun _ held => held) fun _ _ => rfl
  exact proceeding.step (marked.mono fun _ _ _ _ => trivial)
    (tidies_of_heeds proceeding.tidy (proceeding.arranged.size ▸ inside)
      (heeds_updateDeclaration (fun _ => rfl) fun _ _ => rfl))

/-- The branches of an interface are resolved one after the other. -/
theorem proceeds_resolveBranches (proceeding : Proceeding first middle)
    (inside : owner.index < first.declarations.size) :
    Takes (Proceeding first) (Proceeds context first)
      ((middle.ledger.record (first.declaration owner).record).oneOf.forM (resolveBranch context owner)) := by
  refine Takes.forM fun branch held state proceeding' => ?_
  have inner := (proceeding.arranged.mem_realm inside Ledger.mem_scope_self
    (Record.mem_children.mpr (.inr (.inr (.inr (.inr (.inl held))))))).1
  exact proceeding'.step (tracks_resolveBranch inside alike_analyseAny inner)
    (tidies_resolveBranch proceeding'.tidy proceeding'.arranged inside inner)

/-- The branches of a declaration and of the classes nested in it are resolved. -/
theorem proceeds_resolveVariants (inside : owner.index < first.declarations.size) :
    Takes (Proceeding first) (Proceeds context first) (resolveVariants context owner) := by
  intro start proceeding
  have nested : Takes (Proceeding first) (Proceeds context first) (do
      let bound := (← declaration owner).nested.size + context.tree.schemas.size + (← ledger).size
      addNestedVariants context owner (bound + 1) 0) := fun middle proceeding =>
    proceeds_addNestedVariants inside middle proceeding
  have grows := proceeding.arranged.grows owner
  simp only [resolveVariants]
  -- The declaration is the one that was surveyed, as far as record and kind go.
  rw [ends_bind, ends_declaration, grows.record, grows.kind]
  split
  · rw [ends_bind]
    refine Ends.imp (@proceeds_mark context first owner inside start proceeding)
      (fun _ middle led => ?_) fun _ _ => trivial
    have proceeding' := led.kept proceeding
    -- Marking the declaration leads on, so the rest may start behind it.
    suffices rest : Ends _ middle (fun _ last => Proceeds context first middle last) fun _ => True from
      rest.mono fun _ _ further => led.trans further
    split
    · rename_i chosen
      cases kind : (first.declaration owner).kind with
      | interface =>
        -- The branches of an interface come before the nested classes.
        exact ((proceeds_resolveBranches proceeding' inside).bind fun _ => nested) middle proceeding'
      | enumeration => exact absurd kind chosen
      | concrete =>
        rw [ends_bind]
        -- A concrete class gets variants of its own first.
        refine (proceeds_addVariants middle (proceeding'.varying_declared inside kind)).imp
          (fun _ _ led => ?_) fun _ _ => trivial
        exact nested.further proceeding' led
    · exact .refl middle
  · exact .refl start

/-- The members of all declarations are resolved, and required names are heeded. -/
theorem heeds_resolveAllMembers (declared : first.Declared) (grounded : first.Grounded context.tree) :
    Ends (first.ids.forM (resolveMembers context)) first
      (fun _ last => Proceeding first last) (fun _ => True) := by
  -- What is heeded is kept from class to class.
  have heeds : Ends (first.ids.forM (resolveMembers context)) first
      (fun _ last => Heeding ∅ ∅ first last) (fun _ => True) := by
    refine Ends.forM _ (.refl first) fun id member middle heeding => ?_
    have inside : id.index < middle.declarations.size :=
      heeding.forward.size.symm ▸ Model.mem_ids.mp member
    exact (heeds_resolveMembers middle inside).mono fun _ _ further => heeding.trans further
  -- Beside that, all nested classes are in order, and all declarations are marked.
  have tracks : TracksTo context first first (first.ids.forM (resolveMembers context))
      (first.ids.forM (resolveMembersWithin context
        (analyseWithin context (pure ()) (first.ledger.size + 1)) (pure ())
        (first.declarations.size + 1)))
      fun _ last => ∀ id ∈ first.ids, (last.declaration id).isAnalysed :=
    TracksTo.forEach (fun id a b trail held => trail.forward.isAnalysed id held)
      fun id member middle _ => tracksTo_resolveMembers grounded (Model.mem_ids.mp member)
        (fun _ => alike_analyseAny) (Nat.lt_succ_self _)
  refine (((tracks declared.arranged).2.ends).and heeds).imp (fun _ last done => ?_) fun _ _ => trivial
  obtain ⟨⟨trail, analysed⟩, heeding⟩ := done
  have arranged := trail.arranged declared.arranged
  exact ⟨arranged, declared.tidy.heed heeding arranged fun id open' => absurd open' (Set.notMem_empty id),
    fun id inside => analysed id (Model.mem_ids.mpr inside)⟩

/-- Whatever is resolved, every class holds its properties alone in the end and marks those that it
requires. -/
theorem proceeds_resolve (declared : first.Declared) :
    Ends (resolve context) first (fun _ last => Proceeding first last) (fun _ => True) := by
  rw [resolve, ends_bind, ends_get]
  cases found : first.circularBase? context.tree with
  | some id => exact trivial
  | none =>
    have members := heeds_resolveAllMembers declared (Model.grounded_of_circularBase? found)
    have variants : Takes (Proceeding first) (Proceeds context first)
        (first.ids.forM (resolveVariants context)) :=
      Takes.forM fun id member => proceeds_resolveVariants (Model.mem_ids.mp member)
    refine ends_bind.mpr (members.imp (fun _ middle proceeding => ?_) fun _ _ => trivial)
    exact (variants middle proceeding).mono fun _ _ led => led.kept proceeding

end Modelling

end SchemaClasses
