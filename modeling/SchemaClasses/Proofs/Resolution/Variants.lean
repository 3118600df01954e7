import SchemaClasses.Proofs.Resolution.Rounds

/-! Whatever becomes of the branches of a declaration, resolving them is a round of turns, behind which a
class is nested for every branch. -/

namespace SchemaClasses

/-- The class that a site lies in. -/
def Site.ref (site : Site) : ClassRef :=
  match site.scope with
  | some index => .nested site.owner index
  | none => .declaration site.owner

namespace Model

/-- Whether a declaration has a nested class for the schema of a branch. -/
def Serves (model : Model) (owner : DeclarationId) (branch : RecordId) : Prop :=
  branch.index < model.ledger.size ∧
    ∃ nested ∈ (model.declaration owner).nested, nested.origin = (model.ledger.record branch).schema

/-- Whether a declaration has nested classes for all branches of the class nested in it under a number,
if that may have branches. -/
def ServesNested (model : Model) (owner : DeclarationId) (number : Nat) : Prop :=
  ∀ nested, (model.declaration owner).nested[number]? = some nested → nested.kind = .concrete →
    nested.isVariant = false → ∀ branch ∈ (model.ledger.record nested.record).oneOf,
      model.Serves owner branch

/-- A model in which all branches of a declaration and of the classes nested in it are resolved. -/
structure Served (model : Model) (owner : DeclarationId) : Prop where
  declared : (model.declaration owner).kind = .concrete →
    ∀ branch ∈ (model.ledger.record (model.declaration owner).record).oneOf, model.Serves owner branch
  nested : ∀ number, model.ServesNested owner number

end Model

namespace Modelling

variable {context : Context} {first start model last : Model} {owner : DeclarationId}
variable {floor : Nat} {scope : Set RecordId} {id branch variant container : RecordId} {site : Site}

namespace Onward

/-- A class for the schema of a branch stays there. -/
theorem serves (led : Onward start last) (serves : start.Serves owner branch) :
    last.Serves owner branch := by
  obtain ⟨present, nested, member, made⟩ := serves
  refine ⟨Nat.lt_of_lt_of_le present led.size_le, nested, ?_,
    made.trans (led.lasts branch present).schema_eq.symm⟩
  obtain ⟨index, there⟩ := Array.mem_iff_getElem?.mp member
  exact Array.mem_of_getElem? ((led.grows owner).getElem?_nested there)

/-- The branches of a nested class stay resolved. -/
theorem servesNested (led : Onward start last) (sane : start.Sane context) {number : Nat}
    (inside : number < (start.declaration owner).nested.size)
    (serves : start.ServesNested owner number) : last.ServesNested owner number := by
  intro nested there concrete plain branch held
  -- The class had the number before, and its record the same branches.
  have there' := Array.getElem?_eq_getElem inside
  have same := (led.grows owner).getElem?_nested there'
  rw [there] at same
  cases same
  have present := (sane.nested owner number _ there').1
  rw [(led.lasts _ present).oneOf_eq] at held
  exact led.serves (serves _ there' concrete plain branch held)

/-- A declaration whose branches are resolved stays so while no class is nested in it. -/
theorem served (led : Onward start last) (sane : start.Sane context) (served : start.Served owner)
    (present : (start.declaration owner).record.index < start.ledger.size)
    (same : (last.declaration owner).nested = (start.declaration owner).nested) :
    last.Served owner := by
  have grows := led.grows owner
  -- The declaration itself and the classes nested in it are looked at separately.
  refine ⟨fun concrete branch held => ?_, fun number => ?_⟩
  · rw [grows.kind] at concrete
    rw [grows.record, (led.lasts _ present).oneOf_eq] at held
    exact led.serves (served.declared concrete branch held)
  · by_cases inside : number < (start.declaration owner).nested.size
    · exact led.servesNested sane inside (served.nested number)
    · -- No class has the number, neither before nor after.
      intro nested there
      rw [same, Array.getElem?_eq_none (Nat.le_of_not_lt inside)] at there
      cases there

end Onward

/-- There are at most as many classes nested in a declaration as there are records for their schemas:
no two of them were made for one schema. -/
theorem nested_size_le (sane : last.Sane context)
    (schemas : ∀ id ∈ last.everywhere, ∃ source ∈ start.everywhere,
      (start.ledger.record source).schema = (last.ledger.record id).schema) :
    (last.declaration owner).nested.size ≤ start.ledger.size := by
  -- Each nested class is sent to a record for its schema, and no two of them to the same one.
  have exists_source (index : Fin (last.declaration owner).nested.size) :
      ∃ source : Fin start.ledger.size, (start.ledger.record ⟨source⟩).schema =
        (last.declaration owner).nested[index].origin := by
    obtain ⟨present, made⟩ := sane.nested owner index _ (Array.getElem?_eq_getElem index.2)
    obtain ⟨source, there, same⟩ := schemas _ present
    exact ⟨⟨source.index, there⟩, same.trans made.origin.symm⟩
  choose source made using exists_source
  have injective : Function.Injective source := by
    intro index other same
    have origin := made index
    -- Two classes with one source have one origin, and then they are one class.
    rw [same, made other] at origin
    exact Fin.ext ((sane.links owner).distinct index other _ _
      (Array.getElem?_eq_getElem index.2) (Array.getElem?_eq_getElem other.2) origin.symm)
  simpa using Fintype.card_le_of_injective source injective

/-- What there is when a class has been nested for a variant and its record has been settled on it. -/
structure Founded (context : Context) (owner : DeclarationId) (scope : Set RecordId) (id : RecordId)
    (start : Model) (index : Nat) (last : Model) : Prop where
  steps : Steps context owner scope start last
  self : last.ledger.record id =
    { start.ledger.record id with
      typeRef := some (.generated (.nested owner index))
      shape := some (.reference (.generated (.nested owner index))) }
  others : ∀ other, other ≠ id → last.ledger.record other = start.ledger.record other
  size_eq : (last.declaration owner).nested.size = index + 1
  serves : last.Serves owner id
  wholeFrom : ∀ later : Model, (last.declaration owner).Grows (later.declaration owner) →
    later.Whole owner id → later.WholeFrom owner (index + 1) →
    later.WholeFrom owner (start.declaration owner).nested.size

/-- The record of a variant is settled. -/
theorem Founded.settled {index : Nat} (founded : Founded context owner scope id start index last)
    (present : id.index < start.ledger.size) : last.Settled owner id := by
  -- A reference to a class has no library types and is no array.
  refine .intro ?_ (congrArg Record.shape founded.self) (by simp [Shape.IsValue])
    (by simp [Shape.libraryTypes]) fun array => nomatch array
  rw [(Steps.ahead founded.steps).size]
  exact present

/-- A class is nested for a variant, under some name. -/
theorem ends_pushVariant_named {parent : Option Nat} {implements : ClassRef} :
    Ends (pushVariant context owner parent id branch implements) start
      (fun _ last => ∃ name, last = start.updateDeclaration owner fun declaration =>
        { declaration with
          nested := declaration.nested.push
            { name, parent, kind := .concrete, record := id
              origin := (start.ledger.record branch).schema, target := none
              interfaces := [implements], isVariant := true } })
      (fun _ => True) := by
  simp only [pushVariant, ends_bind, ends_record]
  exact ends_pushNested_push

/-- A class is nested for a variant, and the record of the variant is settled on it. -/
theorem ends_pushVariant {parent : Option Nat} {implements : ClassRef}
    (declared : owner.index < start.declarations.size) (acts : id ∈ scope)
    (present : id.index < start.ledger.size)
    (schema : (start.ledger.record id).schema = (start.ledger.record branch).schema)
    (known : (start.ledger.record branch).schema.isSome)
    (unset : (start.ledger.record id).typeRef = none)
    (unshaped : (start.ledger.record id).shape = none)
    (placed : ∀ index, parent = some index → start.HasClass (.nested owner index))
    (there : start.HasClass implements)
    (absent : (start.declaration owner).findNested? (start.ledger.record branch).schema none = none)
    (hosts : ∃ kind container, start.Hosts owner implements kind container ∧
      branch ∈ (start.ledger.record container).oneOf)
    (inside : branch.index < start.ledger.size) :
    Ends (pushVariant context owner parent id branch implements) start
      (fun index middle => Founded context owner scope id start index
        (middle.updateRecord id fun record =>
          { record with
            typeRef := some (.generated (.nested owner index))
            shape := some (.reference (.generated (.nested owner index))) }))
      (fun _ => True) := by
  simp only [pushVariant, ends_bind, ends_record]
  obtain ⟨kind, container, hosts, held⟩ := hosts
  refine (@ends_pushNested context _ _ _ _ _ declared (fun _ => acts)
    -- The new class fits: it was made for this schema, stands in its place and is no second one.
    (fun _ => ⟨schema.symm, .inl rfl⟩) fun _ => ⟨placed, fun ref member => ?_,
      fun _ member => Declaration.origin_ne_of_findNested? known absent member,
      fun _ => ⟨implements, rfl, kind, container, hosts, branch, held, inside, rfl⟩⟩).imp
      (fun index middle pushes => ?_) fun _ _ => trivial
  · -- The only interface of the variant is the class that it was made for.
    rw [List.mem_singleton.mp member]
    exact there
  · obtain ⟨name, found⟩ := pushes.there
    obtain ⟨origin, made⟩ := Option.isSome_iff_exists.mp known
    rw [← pushes.ledger] at schema made unset unshaped present
    -- The class was made for the schema of the branch, which is that of the variant.
    have suits : middle.Suits context id (.nested owner index) := by
      refine .origin found (schema.trans made) ?_
      rw [pushes.ledger] at made
      exact made
    refine ⟨pushes.steps.tail (step_type acts unset suits (.inr ⟨unshaped, rfl⟩) rfl), ?_,
      -- Steps of the class nest it and settle the record, so that it is founded.
      fun other apart => ?_, pushes.size_eq, ⟨?_, _, Array.mem_of_getElem? found, ?_⟩,
      fun later grows whole rest => ?_⟩
    · rw [Model.ledger_updateRecord, Ledger.record_update_self present, pushes.ledger]
    · rw [Model.ledger_updateRecord, Ledger.record_update_of_ne apart, pushes.ledger]
    · exact Nat.lt_of_lt_of_eq present Ledger.size_update.symm
    · rw [Model.ledger_updateRecord, Ledger.field_update Record.schema rfl, schema, pushes.ledger]
    · -- Whatever is nested from here on is whole if this class is.
      exact pushes.wholeFrom grows (fun _ _ => whole) rest

/-- That a declared class implements an interface is only noted. -/
theorem walks_implement {implementor : DeclarationId} (declared : owner.index < start.declarations.size)
    (there : implementor.index < start.declarations.size) :
    Ends (do
      updateDeclaration implementor (·.addInterface (.declaration owner))
      updateDeclaration owner (·.addDerived implementor)
      importDeclaration implementor owner) start
      (fun _ last => Walk context owner scope start last) (fun _ => True) := by
  -- Each of the two declarations notes the other one, which is there.
  have implemented : Walk context owner scope start
      (start.updateDeclaration implementor (·.addInterface (.declaration owner))) := by
    refine walk_note ⟨rfl, fun _ member => .inl member, fun ref member => ?_⟩
    have joined : ref ∈ addNew (start.declaration implementor).interfaces
      (.declaration owner) := member
    refine (mem_addNew.mp joined).imp_right fun same => ?_
    rw [same]
    exact declared
  have derived : Walk context owner scope
      (start.updateDeclaration implementor (·.addInterface (.declaration owner)))
      ((start.updateDeclaration implementor (·.addInterface (.declaration owner))).updateDeclaration
        owner (·.addDerived implementor)) := by
    refine walk_note ⟨rfl, fun other member => ?_, fun _ member => .inl member⟩
    have joined : other ∈ addNew ((start.updateDeclaration implementor
      (·.addInterface (.declaration owner))).declaration owner).derived implementor := member
    refine (mem_addNew.mp joined).imp_right fun same => ?_
    rw [same]
    exact implemented.later.hasClass there
  simp only [ends_bind, ends_updateDeclaration]
  -- The import comes last and is a walk of its own.
  exact (yields_importDeclaration.further (implemented.trans derived)).imp
    (fun _ _ walked => walked.1) fun _ _ => trivial

/-- An object among the branches of an interface that is not declared is nested in it, settled and
analysed. -/
theorem walks_nestBranch (ready : Ready ⟨owner, none⟩ (first.ledger.scope branch) 0 start)
    (held : branch ∈ (start.ledger.record (start.declaration owner).record).oneOf)
    (unshaped : (start.ledger.record branch).shape = none)
    (absent : (start.declaration owner).findNested? (start.ledger.record branch).schema none = none)
    (object : context.classify start.ledger branch false = .object) :
    Ends (do
      let index ← pushVariant context owner none branch branch (.declaration owner)
      let _ ← settle branch (.nested owner index)
      analyseObject context (analyseAny context) ⟨owner, some index⟩ branch none) start
      (fun _ last => Walk context owner (first.ledger.scope branch) start last) (fun _ => True) := by
  have acts : branch ∈ first.ledger.scope branch := Ledger.mem_scope_self
  have unset := Context.typeRef_eq_none_of_classify object (by simp)
  have present := ready.closed.present branch acts
  rw [ends_bind]
  refine (@ends_pushVariant context start owner _ branch branch none (.declaration owner)
    ready.declared acts present rfl (ready.closed.schema branch acts) unset unshaped
    (fun _ held => absurd held.symm (Option.some_ne_none _)) ready.declared absent
    ⟨_, _, .declared, held⟩ present).imp
      (fun index middle founded => ?_) fun _ _ => trivial
  rw [ends_bind, ends_settle]
  have later := (Steps.ahead founded.steps).toLater
  -- The class is the place for what is analysed behind the branch.
  have behind : Ready ⟨owner, some index⟩ (first.ledger.scope branch) (branch.index + 1) _ :=
    { ready.behind later (Nat.zero_le _) fun other apart =>
        congrArg Record.shape (founded.others other apart) with
      placed := fun index held => by
        cases held
        exact Nat.lt_of_lt_of_eq (Nat.lt_succ_self _) founded.size_eq.symm }
  refine Ends.imp (@yields_analyseObject context ⟨owner, some index⟩ _ _ _ _ _ works_analyseAny
    behind acts (Nat.le_refl _)) (fun _ last walked => ?_) fun _ _ => trivial
  obtain ⟨walk, whole⟩ := walked
  refine ⟨founded.steps.trans walk.steps, ?_, fun other positive clean => ?_⟩
  · -- The class nested here is whole, as are those that its members have brought.
    refine founded.wholeFrom last (walk.later.grows owner) whole ?_
    rw [← founded.size_eq]
    exact walk.whole
  · -- The branch itself was settled on the class; behind it all is clean again.
    by_cases same : other = branch
    · rw [same]
      exact .inr (walk.later.settled (founded.settled present))
    · refine walk.clean other ?_ (later.clean clean (congrArg Record.shape (founded.others other same)))
      rw [founded.others other same]
      exact positive

/-- A branch that joins the classes of an interface is analysed inside the branch. -/
theorem walks_resolveBranch (resolving : Resolving context first owner floor start)
    (inside : branch ∈ first.inBranches owner)
    (held : branch ∈ (start.ledger.record (start.declaration owner).record).oneOf)
    (unshaped : (start.ledger.record branch).shape = none) :
    Ends (resolveBranch context owner branch) start
      (fun _ last => Walk context owner (first.ledger.scope branch) start last) (fun _ => True) := by
  have ready : Ready ⟨owner, none⟩ (first.ledger.scope branch) 0 start :=
    @Resolving.ready context first start floor branch ⟨owner, none⟩ resolving inside
      fun _ held => absurd held Site.scope_outermost
  simp only [resolveBranch, ends_bind, ends_record, ends_get]
  split
  · -- A schema that is declared has a class of its own, any other may need to be nested.
    rename_i implementor stands
    split
    · obtain ⟨target, -, stands⟩ := Option.bind_eq_some_iff.mp stands
      exact walks_implement ready.declared (Model.inside_of_declarationAlong? stands)
    · -- The branch stands for the interface itself, and nothing is noted.
      exact .refl start
  · simp only [ends_bind, ends_declaration, ends_ledger]
    split
    · rename_i candidate
      simp only [Bool.and_eq_true, beq_iff_eq, Bool.not_eq_true', Option.isSome_eq_false_iff,
        Option.isNone_iff_eq_none] at candidate
      exact walks_nestBranch ready held unshaped candidate.1 candidate.2
    · -- The branch has been nested before, or it is no object.
      exact .refl start

/-- A variant of a class that takes in the members of its branch: it is whole, and its properties are
copies or lie in the branch. -/
structure Filling (context : Context) (first : Model) (site : Site) (floor : Nat) (variant : RecordId)
    (model : Model) : Prop extends Resolving context first site.owner floor model where
  placed : ∀ index, site.scope = some index → model.HasClass (.nested site.owner index)
  late : floor ≤ variant.index
  properties : ∀ property ∈ (model.ledger.record variant).properties,
    property ∈ first.branchScope site.owner floor
  whole : model.Whole site.owner variant

instance : Course (Filling context first site floor variant)
    (Round context first site.owner floor) where
  refl := .refl
  trans := .trans
  ready {a b} round filling := by
    refine ⟨filling.toResolving.round round,
      fun index held => round.onward.hasClass (filling.placed index held), filling.late, ?_,
      OwnTurns.whole round.turns filling.whole⟩
    have turns := round.turns
    clear round
    -- A property that a turn puts in lies in the branches.
    induction turns with
    | refl => exact filling.properties
    | tail turns turn ih =>
      intro property held
      have present := Nat.lt_of_lt_of_le filling.whole.present (OwnTurns.onward turns).size_le
      exact (turn.mem_properties present held).elim (ih property) And.left

/-- A property of a branch joins a variant. -/
theorem takes_joinProperty {parent property : RecordId}
    (inside : property ∈ first.inBranches site.owner)
    (held : property ∈ (first.ledger.record parent).properties) :
    Takes (Filling context first site floor variant) (Round context first site.owner floor)
      (joinProperty context site variant property) := by
  intro start filling
  have surveyed := filling.surveyed
  have earlier : first.ledger.Settles start.ledger := filling.ledger
  -- The property of the branch is analysed first, whichever way it joins.
  simp only [joinProperty, ends_bind, ends_record, ends_ledger]
  refine (filling.analyseAny inside filling.placed
    (surveyed.sound.negationOf_eq_none (.inl (.inl held))) _).imp (fun _ middle analysed => ?_)
    fun _ _ => trivial
  obtain ⟨round, settled⟩ := analysed
  have filling : Filling context first site floor variant middle := Course.ready round filling
  have acts : property ∈ first.branchScope site.owner floor := .inl inside
  split
  · -- The checks of the property join those of the one with the same name.
    rename_i existing found
    have member := List.mem_of_find?_eq_some found
    have there : property ∈ middle.everywhere :=
      filling.present inside Ledger.mem_scope_self
    -- What the checks need is there, because the property lies in the home of the class.
    have supplied := filling.stocked property ⟨Model.branchScope_subset_home acts, there⟩
    rw [ends_survey, ends_modify]
    refine round.trans (.ofTurns (.single (.extend (filling.properties existing member)
      (filling.enclosed variant existing (Record.mem_children.mpr (.inl member)))
      supplied.checks)) (Nat.le_refl _) fun _ _ => rfl)
  · rw [ends_updateRecord]
    have origin := filling.ledger.record parent
      (Nat.lt_trans (surveyed.sound.forest.inside _ _ (Record.mem_children.mpr (.inl held))).1
        (surveyed.sound.forest.inside _ _ (Record.mem_children.mpr (.inl held))).2)
    -- The property has the name that it was surveyed with.
    obtain ⟨name, called⟩ : ∃ name, (first.ledger.record property).name = some name :=
      Option.ne_none_iff_exists'.mp fun absent => surveyed.sound.named.named parent
        (List.mem_map.mpr ⟨property, held, absent⟩)
    have inside' := (surveyed.sound.forest.inside _ _ (Record.mem_children.mpr (.inl held))).2
    have kept {model : Model} (settles : first.ledger.Settles model.ledger) :
        model.ledger.name property = some name :=
      (settles.record property inside').sameOrigin.name.trans called
    -- No property of the variant has the name, or it would have been found.
    have free : some name ∉ middle.ledger.names variant := by
      rename_i absent
      rw [show (start.ledger.record property).name = some name from kept earlier] at absent
      exact Ledger.not_mem_names absent
    -- The property joins under a free name, after it was settled.
    refine round.trans (.ofTurns (.single (.join filling.late filling.whole.present acts settled
      ⟨parent, ?_⟩ ⟨name, kept filling.ledger, free⟩)) (Nat.le_refl _)
        fun _ _ => Ledger.field_update Record.shape rfl)
    rw [origin.properties_eq]
    exact held

/-- A required name of a branch joins a variant. -/
theorem takes_joinRequired {already : List String} {name : String} :
    Takes (Filling context first site floor variant) (Round context first site.owner floor)
      (joinRequired variant already name) := by
  intro start filling
  -- A name more in the list changes no shape.
  have requires {model : Model} (filling : Filling context first site floor variant model) :
      Round context first site.owner floor model
        (model.updateRecord variant (·.addRequired name)) := by
    refine .ofTurns (.single (.require filling.late filling.whole.present name)) (Nat.le_refl _)
      fun _ _ => Ledger.field_update Record.shape ?_
    rfl
  simp only [joinRequired]
  split
  · rw [ends_bind, ends_ledger]
    split
    · -- What the branch requires may not be absent any more.
      rename_i property found
      have member := List.mem_of_find?_eq_some found
      have relaxed : Round context first site.owner floor start
          (start.updateRecord property fun record => { record with nullable := none }) :=
        .ofTurns (.single (.relax (filling.properties property member)
          (filling.enclosed variant property (Record.mem_children.mpr (.inl member)))))
          (Nat.le_refl _) fun _ _ => Ledger.field_update Record.shape rfl
      rw [ends_bind, ends_updateRecord, ends_updateRecord]
      exact relaxed.trans (requires (Course.ready relaxed filling))
    · rw [ends_updateRecord]
      -- No property of the variant has the name, and it is only required.
      exact requires filling
  · rw [ends_updateRecord]
    exact requires filling

/-- What comes of a variant once its class is there: the members of its branch, then its own checks. -/
def fillVariant (context : Context) (site : Site) (container branch variant : RecordId) :
    Modelling Unit := do
  (← record branch).properties.forM (joinProperty context site variant)
  let already := (← record container).required
  (← record branch).required.forM (joinRequired variant already)
  plan context site.owner variant .object
  reconcileRequired variant

theorem takes_fillVariant (inside : branch ∈ first.inBranches site.owner) :
    Takes (Filling context first site floor variant) (Round context first site.owner floor)
      (fillVariant context site container branch variant) := by
  intro start filling
  have surveyed := filling.surveyed
  have present := (surveyed.closed_scope filling.declared).present branch
    (Model.inBranches_subset inside)
  -- The checks of the variant come last.
  have closes : Takes (Filling context first site floor variant)
      (Round context first site.owner floor) (do
        plan context site.owner variant .object
        reconcileRequired variant) := by
    refine .bind (fun model filling => ?_) fun _ model filling => ?_
    · -- To plan checks is a walk over the variant alone, which is late and whole.
      have walk : Walk context site.owner {variant} model
          (model.plan context site.owner variant .object) := walk_plan (Set.mem_singleton variant) .object
      refine walk.round ?_ ?_
      · rintro other rfl
        exact .inr filling.late
      · rintro other rfl
        exact filling.whole.present
    · -- Only properties of the variant lose their null, and these are enclosed in it.
      refine Ends.imp (@yields_reconcileRequired context site.owner
        { property | property ∈ (model.ledger.record variant).properties } _ _ fun _ held => held)
        (fun _ last walked => walked.1.round filling.properties fun property held => ?_)
        fun _ _ => trivial
      exact filling.enclosed variant property (Record.mem_children.mpr (.inl held))
  -- First, every property of the branch joins or is tightened in place.
  have joins : Takes (Filling context first site floor variant)
      (Round context first site.owner floor)
      ((start.ledger.record branch).properties.forM (joinProperty context site variant)) := by
    refine Takes.forM fun property held => ?_
    -- The list that is run over was read before the class of the variant was made.
    rw [(filling.ledger.record branch present).properties_eq] at held
    refine takes_joinProperty (Model.scope_subset_inBranches inside ?_) held
    exact Ledger.mem_scope_of_property held
  simp only [fillVariant, ends_bind, ends_record]
  refine (joins start filling).imp (fun _ joined round => ?_) fun _ _ => trivial
  -- Next, its required names join those that the container does not have yet.
  have requires : Takes (Filling context first site floor variant)
      (Round context first site.owner floor)
      ((joined.ledger.record branch).required.forM
        (joinRequired variant (joined.ledger.record container).required)) :=
    Takes.forM fun _ _ => takes_joinRequired
  -- The two halves are one sequence for the round that has joined.
  have last := (requires.bind fun _ => closes).further filling round
  simp only [ends_bind] at last
  exact last

/-- The plain copy of a record that has been analysed counts as analysed. -/
theorem Onward.settled_copy {source copy : RecordId} (led : Onward start last)
    (repeats : start.ledger.Repeats last.ledger source copy) (settled : start.Settled owner source) :
    last.Settled owner copy := by
  -- The items are shared with the source, and they were settled with it.
  cases settled with
  | intro present shaped isValue used items =>
    have record := repeats.record
    refine .intro repeats.present ?_ isValue
      (List.Subset.trans used (led.grows owner).libraryTypes) fun array inner held => ?_
    · rw [record]
      exact shaped
    · rw [record] at held
      exact led.settled (items array inner held)

/-- A class that is whole has whole variants. -/
theorem Turn.whole_variant {origin : Option SchemaId} {copies : List RecordId}
    (turn : Turn context first owner floor start last) (whole : start.Whole owner container)
    (varies : start.ledger.Varies container origin copies last.ledger) :
    last.Whole owner ⟨start.ledger.size⟩ := by
  refine ⟨varies.variant.present, fun member held => ?_⟩
  -- Its properties are copies of settled ones; all other members are those of the class.
  rw [varies.record_variant] at held
  -- A copy repeats a member that is settled, so it is settled as well.
  rcases held with property | pattern | additional
  · obtain ⟨source, held, repeats⟩ := varies.repeats member property
    exact turn.onward.settled_copy repeats (whole.settled source (.inl held))
  · exact turn.onward.settled (whole.settled member (.inr (.inl pattern)))
  · exact turn.onward.settled (whole.settled member (.inr (.inr additional)))

/-- A whole class whose variants may be added. -/
structure Hosting (context : Context) (first : Model) (site : Site) (floor : Nat)
    (container : RecordId) (model : Model) : Prop
    extends Resolving context first site.owner floor model where
  placed : ∀ index, site.scope = some index → model.HasClass (.nested site.owner index)
  belongs : container ∈ first.home site.owner floor
  whole : model.Whole site.owner container
  hosts : ∃ kind, model.Hosts site.owner site.ref kind container

/-- A round leaves a class so that its variants may be added. -/
theorem Hosting.round (hosting : Hosting context first site floor container start)
    (round : Round context first site.owner floor start last) :
    Hosting context first site floor container last where
  toResolving := hosting.toResolving.round round
  placed index held := round.onward.hasClass (hosting.placed index held)
  belongs := hosting.belongs
  whole := OwnTurns.whole round.turns hosting.whole
  hosts := hosting.hosts.imp fun _ hosts => hosts.of_grown (round.onward.grows site.owner)

instance : Course (Hosting context first site floor container)
    (Round context first site.owner floor) where
  refl := .refl
  trans := .trans
  ready round hosting := hosting.round round

/-- A variant that has its class: turns have led there, no analysis has become half done, and the
variant is whole. -/
theorem Founded.turns {origin : Option SchemaId} {copies : List RecordId} {ledger : Ledger}
    {index : Nat}
    (founded : Founded context site.owner {⟨start.ledger.size⟩} ⟨start.ledger.size⟩
      (start.withLedger ledger) index model)
    (hosting : Hosting context first site floor container start)
    (made : ∃ branch ∈ start.everywhere, (start.ledger.record branch).schema = origin)
    (varies : start.ledger.Varies container origin copies ledger) :
    OwnTurns context first site.owner floor start model ∧
      (∀ id ∈ start.everywhere, start.Clean site.owner id → model.Clean site.owner id) ∧
      model.Whole site.owner ⟨start.ledger.size⟩ := by
  -- The copies come in one turn, and the class of the variant in steps on these.
  have turn : Turn context first site.owner floor start (start.withLedger ledger) :=
    .vary hosting.high hosting.whole.present hosting.belongs made varies
  have variant : ⟨start.ledger.size⟩ ∈ first.branchScope site.owner floor := .inr hosting.high
  have steps : OwnTurns context first site.owner floor (start.withLedger ledger) model :=
    Steps.ownTurns founded.steps (Set.singleton_subset_iff.mpr variant)
      (Set.singleton_subset_iff.mpr varies.variant.present)
  have turns : OwnTurns context first site.owner floor start model := steps.head turn
  refine ⟨turns, fun id present clean => clean.imp (fun unset => ?_) (OwnTurns.onward turns).settled,
    OwnTurns.whole steps (turn.whole_variant hosting.whole varies)⟩
  -- A record that was there is not the variant, which alone has been settled.
  have old : id ≠ ⟨start.ledger.size⟩ := RecordId.ne_next present
  rw [founded.others id old, Model.ledger_withLedger, varies.record id present]
  exact unset

/-- A variant that has its class may take in the members of its branch. -/
theorem Founded.filling {origin : Option SchemaId} {copies : List RecordId} {ledger : Ledger}
    {index : Nat}
    (founded : Founded context site.owner {⟨start.ledger.size⟩} ⟨start.ledger.size⟩
      (start.withLedger ledger) index model)
    (hosting : Hosting context first site floor container start)
    (made : ∃ branch ∈ start.everywhere, (start.ledger.record branch).schema = origin)
    (varies : start.ledger.Varies container origin copies ledger) :
    -- The variant was nested last, so its number is in range now.
    Filling context first { site with scope := some index } floor ⟨start.ledger.size⟩ model where
  toResolving := by
    obtain ⟨turns, clean, -⟩ := founded.turns hosting made varies
    exact hosting.toResolving.turns turns fun id present _ => clean id present
  placed number held := by
    cases held
    exact Nat.lt_of_lt_of_eq (Nat.lt_succ_self _) founded.size_eq.symm
  late := hosting.high
  -- A property of the variant is a copy, and copies are made after the floor.
  properties property held := by
    rw [founded.self, Model.ledger_withLedger, varies.record_variant] at held
    obtain ⟨source, -, repeats⟩ := varies.repeats property held
    exact .inr (Nat.le_trans hosting.high repeats.late)
  whole := (founded.turns hosting made varies).2.2

/-- The record of a variant for a branch is copied from that of the class, a class is nested for it, and it
is settled on that: this is where its members come in. Whatever copying brings about is known then. -/
theorem ends_foundVariant {done : Unit → Model → Prop} {rest : RecordId → Nat → Modelling Unit}
    (fact : Model → Prop) (hosting : Hosting context first site floor container start)
    (inside : branch ∈ first.inBranches site.owner)
    (held : branch ∈ (start.ledger.record container).oneOf)
    (absent : (start.declaration site.owner).findNested? (start.ledger.record branch).schema none = none)
    (copied : Ends (copyForVariant container (start.ledger.record branch).schema) start
      (fun _ last => fact last) fun _ => True)
    (further : ∀ (copies : List RecordId) (ledger : Ledger) (index : Nat) (middle : Model),
      start.ledger.Varies container (start.ledger.record branch).schema copies ledger →
      fact (start.withLedger ledger) →
      (∃ name, middle = (start.withLedger ledger).updateDeclaration site.owner fun declaration =>
        { declaration with
          nested := declaration.nested.push
            { name, parent := site.scope, kind := .concrete, record := ⟨start.ledger.size⟩
              origin := (start.ledger.record branch).schema, target := none
              interfaces := [site.ref], isVariant := true } }) →
      Founded context site.owner {⟨start.ledger.size⟩} ⟨start.ledger.size⟩ (start.withLedger ledger) index
        (middle.updateRecord ⟨start.ledger.size⟩ fun record =>
          { record with
            typeRef := some (.generated (.nested site.owner index))
            shape := some (.reference (.generated (.nested site.owner index))) }) →
      Ends (rest ⟨start.ledger.size⟩ index)
        (middle.updateRecord ⟨start.ledger.size⟩ fun record =>
          { record with
            typeRef := some (.generated (.nested site.owner index))
            shape := some (.reference (.generated (.nested site.owner index))) })
        done (fun _ => True)) :
    Ends (do
        let variant ← copyForVariant container (start.ledger.record branch).schema
        let index ← pushVariant context site.owner site.scope variant branch site.ref
        let _ ← settle variant (.nested site.owner index)
        rest variant index) start done (fun _ => True) := by
  -- The scope of the branch is there before anything is copied.
  have closed : start.ledger.Closed (first.ledger.scope branch) :=
    (hosting.ready inside hosting.placed).closed
  have there := closed.present branch Ledger.mem_scope_self
  have known := closed.schema branch Ledger.mem_scope_self
  have present (property : RecordId) (member : property ∈ (start.ledger.record container).properties) :
      property.index < start.ledger.size :=
    hosting.enclosed container property (Record.mem_children.mpr (.inl member))
  rw [ends_bind]
  refine ((ends_copyForVariant hosting.inRange present).and copied).imp (fun variant copied copying => ?_)
    fun _ _ => trivial
  -- After copying, all that is known of the ledger is said by the relation of variants.
  obtain ⟨⟨rfl, copies, ledger, rfl, varies⟩, known'⟩ := copying
  have record := varies.record_variant
  have old : ledger.record branch = start.ledger.record branch := varies.record branch there
  have declared : site.owner.index < (start.withLedger ledger).declarations.size := by
    rw [Model.declarations_withLedger, hosting.declarations]
    exact hosting.declared
  have schema : (ledger.record ⟨start.ledger.size⟩).schema = (ledger.record branch).schema := by
    rw [record, old]
  -- From here on, all is about the ledger with the copies in it.
  -- The container hosts variants in the ledger with copies as it did before.
  obtain ⟨kind, hosts⟩ := hosting.hosts
  have hosts : ∃ kind container, (start.withLedger ledger).Hosts site.owner site.ref kind container ∧
      branch ∈ (ledger.record container).oneOf := by
    refine ⟨kind, container, hosts.of_grown (.refl _), ?_⟩
    rw [varies.record container hosting.whole.present]
    exact held
  -- The class that the variant will implement exists: it is the site.
  have ref : (start.withLedger ledger).HasClass site.ref := by
    unfold Site.ref
    split
    · rename_i index placed
      exact hosting.placed index placed
    · exact declared
  -- The copy satisfies all that nesting a class asks for.
  have founds := @ends_pushVariant context (start.withLedger ledger) site.owner
    {⟨start.ledger.size⟩} ⟨start.ledger.size⟩ branch site.scope site.ref declared rfl
    varies.variant.present schema (old ▸ known) (congrArg Record.typeRef record)
    (congrArg Record.shape record) hosting.placed ref (old ▸ absent) hosts
    (Nat.lt_of_lt_of_le there varies.size_le)
  rw [ends_bind]
  refine (founds.and ends_pushVariant_named).imp (fun index middle found => ?_) fun _ _ => trivial
  rw [ends_bind, ends_settle]
  refine further copies ledger index middle varies known' ?_ found.1
  rw [← old]
  exact found.2

/-- A variant for one branch of a class, unless a class is nested for the schema of the branch. -/
theorem serves_addVariant (hosting : Hosting context first site floor container start)
    (inside : branch ∈ first.inBranches site.owner)
    (held : branch ∈ (start.ledger.record container).oneOf) :
    Ends (addVariant context site container branch) start
      (fun _ last => Round context first site.owner floor start last ∧ last.Serves site.owner branch)
      (fun _ => True) := by
  have there := (hosting.ready inside hosting.placed).closed.present branch Ledger.mem_scope_self
  simp only [addVariant, ends_bind, ends_record, ends_declaration]
  split
  · -- No class is nested for the branch yet.
    rename_i absent
    rw [Option.isNone_iff_eq_none] at absent
    have founds := @ends_foundVariant context first start floor branch container site
      (fun _ last => Round context first site.owner floor start last ∧ last.Serves site.owner branch)
      (fun variant index =>
        fillVariant context { site with scope := some index } container branch variant)
      (fun _ => True) hosting inside held absent (by unfold Ends; split <;> trivial)
      fun copies ledger index middle varies _ _ founded => by
        have made : ∃ branch' ∈ start.everywhere,
            (start.ledger.record branch').schema = (start.ledger.record branch).schema :=
          ⟨branch, there, rfl⟩
        -- The variant stands after turns, and it may be filled from there.
        obtain ⟨turns, clean, whole⟩ := founded.turns hosting made varies
        have fills := @takes_fillVariant context first floor branch ⟨start.ledger.size⟩ container
          { site with scope := some index } inside _ (founded.filling hosting made varies)
        -- Filling is one more round, and the two make one.
        refine Ends.imp fills (fun _ last round => ?_) fun _ _ => trivial
        have led := OwnTurns.onward turns
        refine ⟨⟨turns.trans round.turns, ?_, fun id present positive unhurt => ?_⟩, ?_⟩
        · refine founded.wholeFrom last (round.onward.grows site.owner)
            (OwnTurns.whole round.turns whole) ?_
          rw [← founded.size_eq]
          exact round.whole
        · refine round.clean id (Nat.lt_of_lt_of_le present led.size_le) ?_ (clean id present unhurt)
          rw [(led.lasts id present).record]
          exact positive
        · -- The class of the variant has the schema of the branch.
          obtain ⟨-, nested, member, origin⟩ := founded.serves
          refine round.onward.serves ⟨Nat.lt_of_lt_of_le there led.size_le, nested, member, ?_⟩
          rw [origin, (led.lasts branch there).schema_eq, founded.self]
          show (ledger.record ⟨start.ledger.size⟩).schema = _
          rw [varies.record_variant]
    exact founds
  · rename_i found
    -- The branch has its class already, so nothing happens.
    obtain ⟨index, found⟩ := Option.ne_none_iff_exists'.mp (by simpa using found)
    obtain ⟨nested, listed, ⟨schema, made, same⟩ | ⟨schema, none, -⟩⟩ :=
      Declaration.of_findNested? found
    · -- The class that was found serves the branch; it may be any that was made for the schema.
      exact ⟨.refl start, there, nested, Array.mem_of_getElem? listed, same.trans made.symm⟩
    · -- A class made for no schema is not found when one is asked for.
      exact absurd none (by simp)

/-- The alternatives of a class whose variants may be added lie in its branches. -/
theorem Hosting.inBranches (hosting : Hosting context first site floor container model)
    (held : branch ∈ (model.ledger.record container).oneOf) : branch ∈ first.inBranches site.owner := by
  obtain ⟨parent, above, held⟩ := hosting.branches container hosting.belongs branch held
  exact ⟨parent, above, branch, held, Ledger.mem_scope_self⟩

/-- The variants of a class: every branch has a class. -/
theorem serves_addVariants (hosting : Hosting context first site floor container start) :
    Ends (addVariants context site container) start
      (fun _ last => Round context first site.owner floor start last ∧
        ∀ branch ∈ (start.ledger.record container).oneOf, last.Serves site.owner branch)
      (fun _ => True) := by
  -- The branches are those of the start, as no turn changes the alternatives of a record.
  simp only [addVariants, ends_bind, ends_record]
  refine Takes.forEach (fun branch model => model.Serves site.owner branch) hosting
    (fun branch a b (round : Round context first site.owner floor a b) serves =>
      round.onward.serves serves) fun branch held state hosting' round => ?_
  refine serves_addVariant hosting' (hosting.inBranches held) ?_
  rw [(round.onward.lasts container hosting.whole.present).oneOf_eq]
  exact held

/-- A class whose branches may be resolved, with whole classes nested in it. -/
structure Nesting (context : Context) (first : Model) (owner : DeclarationId) (floor : Nat)
    (model : Model) : Prop extends Resolving context first owner floor model where
  filled : model.WholeFrom owner 0

instance : Course (Nesting context first owner floor) (Round context first owner floor) where
  refl := .refl
  trans := .trans
  ready round nesting :=
    ⟨nesting.toResolving.round round, wholeFrom_of_grown (round.onward.grows owner)
      (fun _ => OwnTurns.whole round.turns) round.whole nesting.filled⟩

/-- The variants of a nested class may be added, unless it is one itself. -/
theorem Nesting.hosting {index : Nat} {nested : NestedClass}
    (nesting : Nesting context first owner floor start)
    (found : (start.declaration owner).nested[index]? = some nested) (concrete : nested.kind = .concrete)
    (plain : nested.isVariant = false) :
    Hosting context first ⟨owner, some index⟩ floor nested.record start := by
  refine ⟨nesting.toResolving, fun number held => ?_,
    nesting.housed nested (Array.mem_of_getElem? found),
    nesting.filled index nested (Nat.zero_le _) found concrete, nested.kind, .nested found plain⟩
  -- The site is a nested class whose number was just looked up.
  cases held
  exact (Array.getElem?_eq_some_iff.mp found).1

/-- So may those of the declared class itself. -/
theorem Nesting.hosting_declared (nesting : Nesting context first owner floor start)
    (whole : start.Whole owner (first.declaration owner).record) :
    Hosting context first ⟨owner, none⟩ floor (first.declaration owner).record start := by
  have hosts : start.Hosts owner (Site.ref ⟨owner, none⟩) (start.declaration owner).kind
      (first.declaration owner).record := by
    rw [← (nesting.grows owner).record]
    exact .declared
  exact ⟨nesting.toResolving, fun _ held => absurd held Site.scope_outermost,
    .inl Ledger.mem_scope_self, whole, _, hosts⟩

/-- That a class is being resolved is noted without any other change. -/
theorem Round.resolve : Round context first owner floor start
    (start.updateDeclaration owner fun declaration => { declaration with hasVariants := true }) :=
  .ofTurns (.single .resolve) (Nat.le_of_eq (Model.field_updateDeclaration (·.nested.size) rfl))
    fun _ _ => rfl

/-- The variants of the nested classes from one of them on, as far as the steps lead. -/
theorem serves_addNestedVariants {steps index : Nat}
    (nesting : Nesting context first owner floor start) :
    Ends (addNestedVariants context owner steps index) start
      (fun _ last => Round context first owner floor start last ∧
        ∀ number, index ≤ number → number < index + steps → last.ServesNested owner number)
      (fun _ => True) := by
  -- The steps count the classes that are still to be looked at, those that join meanwhile included.
  induction steps generalizing index start with
  | zero => exact ⟨.refl start, fun number above below => absurd below (Nat.not_lt.mpr above)⟩
  | succ steps ih =>
    simp only [addNestedVariants, ends_bind, ends_declaration]
    split
    · -- There is no class under the number, and so none behind it.
      rename_i absent
      refine ⟨.refl start, fun number above _ nested there => ?_⟩
      obtain ⟨inside, -⟩ := Array.getElem?_eq_some_iff.mp there
      exact absurd (Nat.lt_of_le_of_lt above inside) (Nat.not_lt.mpr (Array.getElem?_eq_none_iff.mp absent))
    · rename_i nested found
      have inside := (Array.getElem?_eq_some_iff.mp found).1
      -- Behind the class under the number, the others follow.
      have onward {middle : Model} (round : Round context first owner floor start middle)
          (serves : middle.ServesNested owner index) :
          Ends (addNestedVariants context owner steps (index + 1)) middle
            (fun _ last => Round context first owner floor start last ∧
              ∀ number, index ≤ number → number < index + (steps + 1) →
                last.ServesNested owner number)
            (fun _ => True) := by
        have nesting' : Nesting context first owner floor middle := Course.ready round nesting
        refine (ih nesting').imp (fun _ last further => ?_) fun _ _ => trivial
        obtain ⟨round', later⟩ := further
        refine ⟨round.trans round', fun number above below => ?_⟩
        -- The class under the number was served here, and stays so; the others are served by the rest.
        rcases Nat.eq_or_lt_of_le above with rfl | above
        · exact round'.onward.servesNested nesting'.sane
            (Nat.lt_of_lt_of_le inside (round.onward.grows owner).size_le) serves
        · exact later number above (by omega)
      split
      · rename_i candidate
        simp only [Bool.and_eq_true, beq_iff_eq, Bool.not_eq_true'] at candidate
        obtain ⟨concrete, plain⟩ := candidate
        have hosting := nesting.hosting found concrete plain
        rw [ends_bind]
        refine (serves_addVariants hosting).imp (fun _ middle added => ?_) fun _ _ => trivial
        obtain ⟨round, serves⟩ := added
        -- The class and its alternatives are still those that the variants were added for.
        refine onward round fun other there _ _ branch held => ?_
        rw [(round.onward.grows owner).getElem?_nested found] at there
        cases there
        rw [(round.onward.lasts _ hosting.whole.present).oneOf_eq] at held
        exact serves branch held
      · -- A class that is no candidate may have no branches.
        rename_i candidate
        refine onward (.refl start) fun other there concrete plain => ?_
        rw [found] at there
        cases there
        simp [concrete, plain] at candidate

/-- The moments between two alternatives of an interface, with those that are left: none of these has
been analysed. -/
structure Between (context : Context) (first : Model) (owner : DeclarationId) (floor : Nat)
    (start : Model) (left : List RecordId) (model : Model) : Prop where
  round : Round context first owner floor start model
  within : left ⊆ (first.ledger.record (first.declaration owner).record).oneOf
  nodup : left.Nodup
  unshaped : ∀ branch ∈ left, (model.ledger.record branch).shape = none

/-- One alternative more is resolved. -/
theorem Between.resolve {left : List RecordId}
    (between : Between context first owner floor start (branch :: left) model)
    (resolving : Resolving context first owner floor start) :
    Ends (resolveBranch context owner branch) model
      (fun _ last => Between context first owner floor start left last) (fun _ => True) := by
  -- The next alternative is none of those that are left.
  obtain ⟨apart, nodup⟩ := List.nodup_cons.mp between.nodup
  have held := between.within List.mem_cons_self
  have inside : branch ∈ first.inBranches owner :=
    ⟨_, Ledger.mem_scope_self, branch, held, Ledger.mem_scope_self⟩
  have child {other : RecordId}
      (held : other ∈ (first.ledger.record (first.declaration owner).record).oneOf) :=
    Record.mem_children.mpr (.inr (.inr (.inr (.inr (.inl held)))))
  have resolving' := resolving.round between.round
  have present := (resolving.surveyed.root owner resolving.declared).1
  -- It is among the alternatives still, since none is taken from the record.
  have listed : branch ∈ (model.ledger.record (model.declaration owner).record).oneOf := by
    rw [(resolving'.grows owner).record, (resolving'.ledger.record _ present).oneOf_eq]
    exact held
  refine (walks_resolveBranch resolving' inside listed
    (between.unshaped branch List.mem_cons_self)).imp
    (fun _ last walk => ?_) fun _ _ => trivial
  refine ⟨between.round.trans (resolving'.walk inside walk),
    fun _ member => between.within (List.mem_cons_of_mem _ member), nodup, fun other member => ?_⟩
  -- What is left must not have been shaped by this step.
  have held' := between.within (List.mem_cons_of_mem _ member)
  -- The scopes of two alternatives are disjoint, so the walk in one leaves the other as it was.
  rw [Steps.record_eq walk.steps
    (resolving.surveyed.sound.not_mem_scope_of_child (child held) (child held') ?_)]
  · exact between.unshaped other (List.mem_cons_of_mem _ member)
  · rintro rfl
    exact apart member

/-- The alternatives of an interface are resolved one after the other. -/
theorem ends_resolveBranches {start : Model} (resolving : Resolving context first owner floor start)
    (round : Round context first owner floor start model)
    (bare : ∀ branch ∈ (first.ledger.record (first.declaration owner).record).oneOf,
      (model.ledger.record branch).shape = none) :
    Ends ((model.ledger.record (first.declaration owner).record).oneOf.forM
        (resolveBranch context owner)) model
      (fun _ last => Round context first owner floor start last) (fun _ => True) := by
  -- Alternatives are distinct, as the records form a forest.
  have nodup := resolving.surveyed.sound.forest.nodup (first.declaration owner).record
  simp only [Record.children, List.nodup_append] at nodup
  have present := (resolving.surveyed.root owner resolving.declared).1
  have same : (model.ledger.record (first.declaration owner).record).oneOf =
      (first.ledger.record (first.declaration owner).record).oneOf := by
    rw [((resolving.round round).ledger.record _ present).record]
  rw [same]
  -- The state between two alternatives is kept by each, with one fewer left.
  exact (Ends.forM_rest (Between context first owner floor start)
    ⟨round, List.Subset.refl _, nodup.1.2.1, bare⟩
    fun branch left middle between => between.resolve resolving).imp
      (fun _ _ between => between.round) fun _ _ => trivial

/-- Turns make records for no other schemas than those that have some. -/
theorem OwnTurns.exists_schema (turns : OwnTurns context first owner floor start last)
    (holding : Holding context first owner floor start) (present : id ∈ last.everywhere) :
    ∃ source ∈ start.everywhere,
      (start.ledger.record source).schema = (last.ledger.record id).schema := by
  induction turns generalizing id with
  | refl => exact ⟨id, present, rfl⟩
  | tail turns turn ih =>
    -- One step back, and then all the turns before it.
    obtain ⟨source, there, same⟩ := turn.exists_schema (OwnTurns.holding turns holding).enclosed present
    obtain ⟨original, there, same'⟩ := ih there
    exact ⟨original, there, same'.trans same⟩

/-- The variants of all nested classes: there are enough steps for every class that may be added, as
each of them is made for another schema. -/
theorem serves_allNested (nesting : Nesting context first owner floor start) :
    Ends (do
        let declared ← declaration owner
        let held ← ledger
        addNestedVariants context owner
          (declared.nested.size + context.tree.schemas.size + held.size + 1) 0) start
      (fun _ last => Round context first owner floor start last ∧
        ∀ number, last.ServesNested owner number)
      (fun _ => True) := by
  simp only [ends_bind, ends_declaration, ends_ledger]
  refine (serves_addNestedVariants nesting).imp (fun _ last added => ?_) fun _ _ => trivial
  obtain ⟨round, serves⟩ := added
  refine ⟨round, fun number => ?_⟩
  -- The first part is what the walk over the nested classes gives.
  have nesting' : Nesting context first owner floor last := Course.ready round nesting
  -- The steps were as many as there are records, and classes are no more than these.
  have size : (last.declaration owner).nested.size ≤ start.ledger.size :=
    nested_size_le nesting'.sane fun _ => OwnTurns.exists_schema round.turns nesting.toHolding
  -- Numbers past the end have no class to be served.
  by_cases below : number < (last.declaration owner).nested.size
  · exact serves number (Nat.zero_le _) (by omega)
  · intro nested there
    exact absurd (Array.getElem?_eq_some_iff.mp there).1 below

/-- Whatever comes first, the nested classes are resolved last, and then all branches are. -/
theorem served_allNested (nesting : Nesting context first owner floor start)
    (round : Round context first owner floor start model)
    (declared : (first.declaration owner).kind = .concrete →
      ∀ branch ∈ (model.ledger.record (first.declaration owner).record).oneOf,
        model.Serves owner branch) :
    Ends (do
        let declared ← declaration owner
        let held ← ledger
        addNestedVariants context owner
          (declared.nested.size + context.tree.schemas.size + held.size + 1) 0) model
      (fun _ last => Round context first owner floor start last ∧ last.Served owner)
      (fun _ => True) := by
  -- After the round, the nested classes may be walked as before.
  have nesting' : Nesting context first owner floor model := Course.ready round nesting
  refine (serves_allNested nesting').imp (fun _ last further => ?_) fun _ _ => trivial
  obtain ⟨round', serves⟩ := further
  refine ⟨round.trans round', fun concrete branch held => ?_, serves⟩
  -- The declaration lists the branches that it had when they were resolved.
  have led := round'.onward
  have present := Nat.lt_of_lt_of_le (nesting.surveyed.root owner nesting.declared).1
    nesting'.ledger.size_le
  -- The kind and the record of the declaration do not change on the way.
  rw [(led.grows owner).kind, (nesting'.grows owner).kind] at concrete
  rw [(led.grows owner).record, (nesting'.grows owner).record,
    (led.lasts _ present).oneOf_eq] at held
  exact led.serves (declared concrete branch held)

/-- The resolution of the branches of a class whose analysis is complete, or of an interface that has
not been analysed inside, is a round, behind which all branches are resolved. -/
theorem ends_resolveVariants (nesting : Nesting context first owner floor start)
    (whole : (first.declaration owner).kind = .concrete →
      start.Whole owner (first.declaration owner).record)
    (bare : (first.declaration owner).kind ≠ .concrete →
      ∀ id ∈ first.ledger.scope (first.declaration owner).record,
        id ≠ (first.declaration owner).record → (start.ledger.record id).shape = none)
    (nestless : (first.declaration owner).kind ≠ .concrete → (start.declaration owner).nested = #[])
    (unresolved : (start.declaration owner).hasVariants = false) :
    Ends (resolveVariants context owner) start
      (fun _ last => Round context first owner floor start last ∧ last.Served owner)
      (fun _ => True) := by
  have grows := nesting.grows owner
  -- Setting the flag is a round by itself.
  have begun : Round context first owner floor start (start.updateDeclaration owner fun declaration =>
      { declaration with hasVariants := true }) := .resolve
  simp only [resolveVariants, ends_bind, ends_declaration, unresolved, Bool.not_false, if_true]
  rw [ends_updateDeclaration, grows.kind, grows.record]
  split
  · rename_i plain
    split
    · -- An interface: its alternatives are the classes that implement it.
      rename_i interface
      have apart : (first.declaration owner).kind ≠ .concrete := by simp [interface]
      rw [ends_bind, ends_record, ends_bind]
      refine (ends_resolveBranches nesting.toResolving begun fun branch held => ?_).imp
        (fun _ _ round => served_allNested nesting round fun concrete => absurd concrete apart)
        fun _ _ => trivial
      have child : branch ∈ (first.ledger.record (first.declaration owner).record).children :=
        Record.mem_children.mpr (.inr (.inr (.inr (.inr (.inl held)))))
      -- An interface is not analysed inside before its branches are resolved.
      refine bare apart branch (Ledger.mem_scope_of_child Ledger.mem_scope_self child) ?_
      rintro rfl
      exact Nat.lt_irrefl _ (nesting.surveyed.sound.forest.inside _ _ child).1
    · -- A class: its alternatives become variants of it.
      rename_i other
      have concrete : (first.declaration owner).kind = .concrete := by
        cases kind : (first.declaration owner).kind with
        | concrete => rfl
        | interface => exact absurd kind other
        | enumeration => exact absurd kind plain
      -- The class of the declaration may get variants, and so it may once the flag is set.
      have hosting := nesting.hosting_declared (whole concrete)
      have hosting' := hosting.round begun
      rw [ends_bind]
      refine (serves_addVariants hosting').imp (fun _ middle added => ?_) fun _ _ => trivial
      obtain ⟨round, serves⟩ := added
      refine served_allNested nesting (begun.trans round) fun _ branch held => serves branch ?_
      rw [← (round.onward.lasts _ hosting'.whole.present).oneOf_eq]
      exact held
  · -- An enum: nothing is nested in it.
    rename_i plain
    have apart : (first.declaration owner).kind ≠ .concrete := by
      intro concrete
      exact plain (by simp [concrete])
    -- Such a declaration is served, as it has no alternatives to serve.
    refine ⟨begun, fun concrete => absurd ?_ apart, fun number nested there => ?_⟩
    · rw [← grows.kind, ← (begun.onward.grows owner).kind]
      exact concrete
    · have same : ((start.updateDeclaration owner fun declaration =>
          { declaration with hasVariants := true }).declaration owner).nested = #[] :=
        (Model.field_updateDeclaration Declaration.nested rfl).trans (nestless apart)
      rw [same] at there
      cases there

end Modelling

end SchemaClasses
