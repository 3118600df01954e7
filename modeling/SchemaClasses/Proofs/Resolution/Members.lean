import SchemaClasses.Proofs.Resolution.Walks

/-! The members of a class are analysed in steps inside the class, and behind each analysis that ends
the record is settled. -/

namespace SchemaClasses

/-- A nested class that is found was made for the schema or has the target. -/
theorem Declaration.of_findNested? {declaration : Declaration} {origin target : Option SchemaId}
    {index : Nat} (found : declaration.findNested? origin target = some index) :
    ∃ nested, declaration.nested[index]? = some nested ∧
      ((∃ schema, origin = some schema ∧ nested.origin = some schema) ∨
        ∃ schema, target = some schema ∧ nested.target = some schema) := by
  -- A class was found because its schema or its target is the one looked for, and is known.
  obtain ⟨inside, holds, -⟩ := Array.findIdx?_eq_some_iff_getElem.mp found
  refine ⟨_, Array.getElem?_eq_getElem inside, ?_⟩
  cases origin with
  | none =>
    -- Without a schema or a target nothing is looked for, and nothing is found.
    cases target with
    | none => simp at holds
    | some schema => exact .inr ⟨schema, rfl, by simpa using holds⟩
  | some schema =>
    cases target with
    | none => exact .inl ⟨schema, rfl, by simpa using holds⟩
    | some schema' =>
      -- Both are looked for, so the class has one of the two.
      simp only [Option.isSome_some, Bool.true_and, Bool.or_eq_true, beq_iff_eq] at holds
      exact holds.imp (fun same => ⟨schema, rfl, same⟩) fun same => ⟨schema', rfl, same⟩

/-- Where none is found for a schema, no nested class was made for it. -/
theorem Declaration.origin_ne_of_findNested? {declaration : Declaration}
    {origin target : Option SchemaId} (known : origin.isSome)
    (absent : declaration.findNested? origin target = none) {nested : NestedClass}
    (member : nested ∈ declaration.nested) : nested.origin ≠ origin := by
  intro same
  have other := Array.findIdx?_eq_none_iff.mp absent nested member
  simp [known, same] at other

/-- The shape that keywords imply is never a class. -/
theorem Ledger.inferShape_ne_reference {ledger : Ledger} {id : RecordId} {promoteEnums : Bool}
    {type : TypeRef} : ledger.inferShape id promoteEnums ≠ .reference type := by
  -- Strings and whole numbers are told apart further, but not as classes either.
  have string (record : Record) : record.stringShape promoteEnums ≠ .reference type := by
    unfold Record.stringShape
    split
    · simp
    · split <;> simp
  have integer (record : Record) : record.integerShape ≠ .reference type := by
    unfold Record.integerShape
    split <;> simp
  unfold inferShape
  dsimp only
  split
  · exact integer _
  · simp
  · simp
  · simp
  · simp
  · exact string _
  · -- Without a type the keywords are asked in turn, none of which names a class.
    split
    · simp
    · split
      · simp
      · split
        · exact string _
        · simp
  · simp

/-- A record is classified as a generated class only if the class was decided before. -/
theorem Context.typeRef_of_classify {context : Context} {ledger : Ledger} {id : RecordId}
    {promoteEnums : Bool} {ref : ClassRef}
    (classified : context.classify ledger id promoteEnums = .reference (.generated ref)) :
    (ledger.record id).typeRef = some (.generated ref) := by
  unfold classify Ledger.classify at classified
  split at classified
  · cases classified
  · rename_i held
    cases classified
    exact held
  · -- What keywords imply is never a class.
    exact absurd classified Ledger.inferShape_ne_reference

/-- A record is classified as anything else than a class only if no class was decided. -/
theorem Context.typeRef_eq_none_of_classify {context : Context} {ledger : Ledger} {id : RecordId}
    {promoteEnums : Bool} {shape : Shape}
    (classified : context.classify ledger id promoteEnums = shape)
    (plain : ∀ type, shape ≠ .reference type) : (ledger.record id).typeRef = none := by
  unfold classify Ledger.classify at classified
  split at classified
  · exact absurd classified.symm (plain _)
  · exact absurd classified.symm (plain _)
  · assumption

/-- Only what a change makes of the record matters. -/
theorem Model.updateRecord_congr {model : Model} {id : RecordId} {change change' : Record → Record}
    (same : change (model.ledger.record id) = change' (model.ledger.record id)) :
    model.updateRecord id change = model.updateRecord id change' := by
  have updated : model.survey.ledger.update id change = model.survey.ledger.update id change' :=
    Ledger.update_congr same
  simp only [updateRecord, updated]

namespace Modelling

variable {context : Context} {owner : DeclarationId} {site : Site} {scope : Set RecordId} {low : Nat}
variable {id : RecordId} {start : Model}

/-- What an analysis settles by itself is a step. -/
theorem step_mark {change : Record → Record} (acts : id ∈ scope)
    (marks : (start.ledger.record id).Marked (change (start.ledger.record id))) :
    Step context owner scope start (start.updateRecord id change) := by
  have marked : start.updateRecord id change =
      start.updateRecord id fun _ => change (start.ledger.record id) :=
    Model.updateRecord_congr rfl
  rw [marked]
  exact .mark acts marks

/-- A class that is decided is a step. -/
theorem step_type {change : Record → Record} {ref : ClassRef} {shape : Option Shape}
    (acts : id ∈ scope) (unset : (start.ledger.record id).typeRef = none)
    (suits : start.Suits context id ref)
    (shaped : shape = (start.ledger.record id).shape ∨
      (start.ledger.record id).shape = none ∧ shape = some (.reference (.generated ref)))
    (typed : change (start.ledger.record id) =
      { start.ledger.record id with typeRef := some (.generated ref), shape }) :
    Step context owner scope start (start.updateRecord id change) := by
  -- The change is only asked to have this effect on the record as it is.
  have decided : start.updateRecord id change = start.updateRecord id fun record =>
      { record with typeRef := some (.generated ref), shape } :=
    Model.updateRecord_congr typed
  rw [decided]
  exact .type acts unset suits shaped

/-- A plan decides no shape. -/
theorem shape_plan {shape : Shape} (other : RecordId) :
    ((start.plan context owner id shape).ledger.record other).shape =
      (start.ledger.record other).shape :=
  Model.field_plan Record.shape fun _ _ _ => rfl

/-- A plan nests no class. -/
theorem nested_plan {other : DeclarationId} {shape : Shape} :
    ((start.plan context owner id shape).declaration other).nested =
      (start.declaration other).nested := by
  rw [Model.declaration_plan_eq_update]
  exact Model.field_updateDeclaration Declaration.nested rfl

/-- A step on a record that keeps its shape is a walk. -/
theorem walk_updateRecord {change : Record → Record}
    (taken : Step context owner scope start (start.updateRecord id change))
    (kept : (change (start.ledger.record id)).shape = (start.ledger.record id).shape) :
    Walk context owner scope start (start.updateRecord id change) :=
  .ofSteps (.single taken) (Nat.le_refl _) fun _ _ => Ledger.field_update Record.shape kept

/-- A plan is a walk. -/
theorem walk_plan (acts : id ∈ scope) (shape : Shape) :
    Walk context owner scope start (start.plan context owner id shape) :=
  .ofSteps (.single (.plan acts shape)) (by rw [nested_plan]) fun other _ => shape_plan other

/-- What is noted about a declaration is a walk. -/
theorem walk_note {other : DeclarationId} {change : Declaration → Declaration}
    (notes : start.Notes (start.declaration other) (change (start.declaration other))) :
    Walk context owner scope start (start.updateDeclaration other change) := by
  -- A note changes no record and nests no class.
  refine .ofSteps (.single (.note other notes)) (Nat.le_of_eq ?_) fun _ _ => rfl
  refine Model.field_updateDeclaration (·.nested.size) ?_
  rw [notes.same]

theorem works_plan {shape : Shape} (acts : id ∈ scope) :
    Works context site scope low (plan context site.owner id shape) := by
  intro start ready
  rw [ends_plan]
  exact walk_plan acts shape

/-- The negation of a record is shaped and planned. -/
theorem ends_planNegation
    (negative : ∀ negation, (start.ledger.record id).negation = some negation →
      negation ∈ scope ∧ (start.ledger.record negation).negationOf.isSome) :
    Ends (planNegation context owner id) start (fun _ => Walk context owner scope start)
      (fun _ => True) := by
  unfold planNegation
  rw [ends_bind, ends_record]
  -- There may be no negation, or one that has a shape already.
  split
  · rename_i negation held
    obtain ⟨acts, negative⟩ := negative negation held
    rw [ends_bind, ends_record]
    split
    · rename_i unset
      have unset : (start.ledger.record negation).shape = none := by simpa using unset
      simp only [ends_bind, ends_ledger, ends_updateRecord, ends_plan]
      have typed := fun ref => @Context.typeRef_of_classify context start.ledger negation false ref
      have marked : Walk context owner scope start (start.updateRecord negation fun record =>
          { record with shape := some (context.classify start.ledger negation false) }) := by
        refine .ofSteps (.single (step_mark acts (.shaped (.inl unset) typed))) (Nat.le_refl _)
          fun other positive => ?_
        -- Only the negation is shaped, which is not positive.
        rw [Model.ledger_updateRecord, Ledger.record_update_of_ne]
        rintro rfl
        rw [positive] at negative
        cases negative
      -- The plan is a walk by itself, on the record just shaped.
      exact marked.trans (walk_plan acts _)
    · exact .refl start
  · exact .refl start

theorem works_planNegation (acts : id ∈ scope) :
    Works context site scope low (planNegation context site.owner id) := fun _ ready =>
  ends_planNegation fun negation held =>
    ⟨ready.closed.inside id acts negation (Record.mem_children.mpr (by simp [held])),
      ready.ordered.negative id acts negation held⟩

theorem notes_addImport (name : String) (declaration : Declaration) :
    start.Notes declaration (declaration.addImport name) :=
  ⟨rfl, fun _ member => .inl member, fun _ member => .inl member⟩

/-- An import is noted. -/
theorem yields_importDeclaration {other first : DeclarationId} :
    Yields context owner scope (importDeclaration first other) start fun _ last =>
      last.ledger = start.ledger := by
  simp only [Yields, importDeclaration, ends_bind, ends_declaration]
  split
  · rw [ends_updateDeclaration]
    exact ⟨walk_note (notes_addImport _ _), rfl⟩
  · exact ⟨.refl start, rfl⟩

/-- A record that takes the class of its target is not shaped by that. -/
theorem yields_linkTarget (acts : id ∈ scope) :
    Yields context owner scope (linkTarget context owner id) start fun _ last =>
      (last.ledger.record id).shape = (start.ledger.record id).shape := by
  simp only [Yields, linkTarget, ends_bind, ends_record, ends_ledger]
  split
  · rename_i free
    have unset : (start.ledger.record id).typeRef = none := by simpa using free.2
    -- The class is decided and nothing else.
    have decided {ref : ClassRef} (suits : start.Suits context id ref) :
        Walk context owner scope start (start.updateRecord id fun record =>
          { record with typeRef := some (.generated ref) }) :=
      walk_updateRecord (step_type acts unset suits (.inl rfl) rfl) rfl
    split
    · rename_i target refers
      simp only [ends_bind, ends_get]
      split
      · -- The target has a class of its own.
        rename_i declared stands
        rw [ends_bind, ends_updateRecord]
        refine (yields_importDeclaration.further (decided (.declared refers stands))).imp
          (fun _ last imported => ⟨imported.1, ?_⟩) fun _ _ => trivial
        rw [imported.2]
        exact Ledger.field_update Record.shape rfl
      · -- Otherwise a nested class may have been made for the target.
        rw [ends_bind, ends_declaration]
        split
        · rename_i index found
          obtain ⟨nested, there, ⟨schema, absent, -⟩ | ⟨schema, same, held⟩⟩ :=
            Declaration.of_findNested? found
          · cases absent
          · cases same
            exact ⟨decided (.target there refers held), Ledger.field_update Record.shape rfl⟩
        · exact ⟨.refl start, rfl⟩
    · exact ⟨.refl start, rfl⟩
  · exact ⟨.refl start, rfl⟩

/-- What there is when a class has been added to those nested in a declaration. -/
structure Pushed (context : Context) (owner : DeclarationId) (scope : Set RecordId)
    (nested : String → NestedClass) (start : Model) (index : Nat) (last : Model) : Prop where
  steps : Steps context owner scope start last
  ledger : last.ledger = start.ledger
  index : index = (start.declaration owner).nested.size
  pushed : ∃ name, (last.declaration owner).nested = (start.declaration owner).nested.push (nested name)

namespace Pushed

variable {nested : String → NestedClass} {index : Nat} {last : Model}

/-- The new class is found under its number. -/
theorem there (pushes : Pushed context owner scope nested start index last) :
    ∃ name, (last.declaration owner).nested[index]? = some (nested name) := by
  obtain ⟨name, pushed⟩ := pushes.pushed
  exact ⟨name, by rw [pushed, pushes.index, Array.getElem?_push_size]⟩

theorem size_eq (pushes : Pushed context owner scope nested start index last) :
    (last.declaration owner).nested.size = index + 1 := by
  obtain ⟨name, pushed⟩ := pushes.pushed
  rw [pushed, pushes.index, Array.size_push]

/-- All classes nested since are whole if the new one is and those behind it are. -/
theorem wholeFrom (pushes : Pushed context owner scope nested start index last) {later : Model}
    (grows : (last.declaration owner).Grows (later.declaration owner))
    (whole : ∀ name, (nested name).kind = .concrete → later.Whole owner (nested name).record)
    (rest : later.WholeFrom owner (index + 1)) :
    later.WholeFrom owner (start.declaration owner).nested.size := by
  intro number found atLeast there concrete
  rw [← pushes.index] at atLeast
  -- The class under the number is the new one, or it came later.
  rcases Nat.eq_or_lt_of_le atLeast with rfl | above
  · obtain ⟨name, own⟩ := pushes.there
    have kept := grows.getElem?_nested own
    rw [there] at kept
    cases kept
    exact whole name concrete
  · -- A class behind the new one is covered by the rest.
    exact rest number found above there concrete

end Pushed

/-- A class is nested under some name, and nothing else changes. -/
theorem ends_pushNested_push {candidate : String} {added : String → NestedClass} :
    Ends (pushNested owner candidate added) start
      (fun _ last => ∃ name, last = start.updateDeclaration owner fun declaration =>
        { declaration with nested := declaration.nested.push (added name) })
      (fun _ => True) := by
  simp only [pushNested, ends_bind, ends_declaration]
  refine ends_allocateName (fun name _ => ?_) trivial
  rw [ends_updateDeclaration, ends_pure]
  exact ⟨name, rfl⟩

/-- A nested class is added behind the others. -/
theorem ends_pushNested {candidate : String} {nested : String → NestedClass}
    (declared : owner.index < start.declarations.size) (acts : ∀ name, (nested name).record ∈ scope)
    (made : ∀ name, (nested name).MadeFrom (start.ledger.record (nested name).record))
    (places : ∀ name, start.Places owner (nested name)) :
    Ends (pushNested owner candidate nested) start (Pushed context owner scope nested start)
      (fun _ => True) := by
  simp only [pushNested, ends_bind, ends_declaration]
  -- The name is free whatever it is, and only the place matters from here on.
  refine ends_allocateName (fun name _ => ?_) trivial
  rw [ends_updateDeclaration, ends_pure]
  refine ⟨.single (.nest (acts name) (made name) (places name)), rfl, rfl, name, ?_⟩
  -- The name does not matter for where the class stands.
  rw [Model.declaration_updateDeclaration, if_pos ⟨rfl, declared⟩]

/-- The class that is nested for a record, and what there is when it has been found or added. -/
structure Nested (context : Context) (owner : DeclarationId) (scope : Set RecordId) (id : RecordId)
    (kind : ClassKind) (start : Model) (result : Nat × Bool) (last : Model) : Prop where
  suits : last.Suits context id (.nested owner result.1)
  found : result.2 = false → last = start
  pushed : result.2 = true → ∃ nested : String → NestedClass,
    (∀ name, (nested name).record = id ∧ (nested name).kind = kind) ∧
      Pushed context owner scope nested start result.1 last

namespace Nested

variable {kind : ClassKind} {result : Nat × Bool} {last : Model}

/-- Finding or adding a class takes steps that leave the records alone. -/
theorem steps (nests : Nested context owner scope id kind start result last) :
    Steps context owner scope start last ∧ last.ledger = start.ledger := by
  cases new : result.2 with
  | false =>
    rw [nests.found new]
    exact ⟨.refl, rfl⟩
  | true =>
    obtain ⟨nested, -, pushes⟩ := nests.pushed new
    exact ⟨pushes.steps, pushes.ledger⟩

end Nested

/-- The class nested for a record suits it. -/
theorem ends_nestedClass {kind : ClassKind} {role : Role} (ready : Ready site scope low start)
    (acts : id ∈ scope) :
    Ends (nestedClass context site id kind role) start
      (Nested context site.owner scope id kind start) (fun _ => True) := by
  simp only [nestedClass, ends_bind, ends_record, ends_declaration]
  split
  · -- One that was made before has the schema or the target of the record.
    rename_i index found
    rw [ends_pure]
    obtain ⟨nested, there, ⟨schema, made, same⟩ | ⟨target, refers, same⟩⟩ :=
      Declaration.of_findNested? found
    · exact ⟨.origin there made same, fun _ => rfl, fun new => absurd new Bool.false_ne_true⟩
    · exact ⟨.target there refers same, fun _ => rfl, fun new => absurd new Bool.false_ne_true⟩
  · -- A new one is made for the schema of the record.
    rename_i absent
    have known := ready.closed.schema id acts
    rw [ends_bind]
    refine (@ends_pushNested context _ _ _ _ _ ready.declared (fun _ => acts)
      (fun _ => ⟨rfl, .inr rfl⟩) fun _ => ⟨fun parent held => ready.placed parent held,
        fun _ held => absurd held List.not_mem_nil,
        fun _ member => Declaration.origin_ne_of_findNested? known absent member,
        fun isVariant => absurd isVariant Bool.false_ne_true⟩).imp
      (fun index last pushes => ?_) fun _ _ => trivial
    obtain ⟨name, there⟩ := pushes.there
    obtain ⟨schema, made⟩ := Option.isSome_iff_exists.mp known
    refine ⟨.origin there ?_ made, fun found => absurd found.symm Bool.false_ne_true,
      fun _ => ⟨_, fun _ => ⟨rfl, rfl⟩, pushes⟩⟩
    rw [pushes.ledger]
    exact made

/-- A record is settled on a class. -/
@[simp] theorem ends_settle {ref : ClassRef} {done : Shape → Model → Prop}
    {failed : Model → Prop} :
    Ends (settle id ref) start done failed ↔
      done (.reference (.generated ref)) (start.updateRecord id fun record =>
        { record with
          typeRef := some (.generated ref), shape := some (.reference (.generated ref)) }) :=
  Iff.rfl

/-- A property that takes over the nested class of its base property is not shaped by that. -/
theorem works_inheritNestedClass {property baseProperty : RecordId} (acts : property ∈ scope) :
    Works context site scope low (inheritNestedClass property baseProperty) := by
  intro start ready
  simp only [inheritNestedClass, ends_bind, ends_record]
  split
  · rename_i free
    have unset : (start.ledger.record property).typeRef = none := by simpa using free
    rw [ends_bind, ends_record]
    split
    · rename_i other index held
      rw [ends_bind, ends_declaration]
      -- The class fits if it was made for the same schema or has the same target.
      split
      · rename_i fits
        have there : ∃ nested, (start.declaration other).nested[index]? = some nested ∧
            (start.declaration other).nested.getD index default = nested := by
          cases found : (start.declaration other).nested[index]? with
          | some nested => exact ⟨nested, rfl, by simp [found]⟩
          | none =>
            -- No class is nested under the number: it would have neither a schema nor a target.
            have absent : (start.declaration other).nested.getD index default = default := by
              simp [found]
            rw [absent] at fits
            cases schema : (start.ledger.record property).schema <;>
              cases target : (start.ledger.record property).target <;>
              simp [schema, target, default, instInhabitedNestedClass.default] at fits
        obtain ⟨nested, there, same⟩ := there
        have suits : start.Suits context property (.nested other index) := by
          rw [same] at fits
          simp only [Bool.or_eq_true, Bool.and_eq_true, beq_iff_eq] at fits
          -- Whatever made the class fit is a reason for the record to take it.
          rcases fits with ⟨made, same⟩ | ⟨refers, same⟩
          · obtain ⟨schema, made⟩ := Option.isSome_iff_exists.mp made
            exact .origin there made (same.trans made)
          · obtain ⟨target, refers⟩ := Option.isSome_iff_exists.mp refers
            exact .target there refers (same.trans refers)
        rw [ends_updateRecord]
        exact walk_updateRecord (step_type acts unset suits (.inl rfl) rfl) rfl
      · exact .refl start
    · exact .refl start
  · exact .refl start

/-- The properties of a record are reconciled one by one, which plans no checks. -/
theorem yields_reconcileRequired
    (acts : ∀ property ∈ (start.ledger.record id).properties, property ∈ scope) :
    Yields context owner scope (reconcileRequired id) start fun _ last =>
      ∀ other, last.ledger.checks other = start.ledger.checks other := by
  simp only [Yields, reconcileRequired, ends_bind, ends_record]
  -- Each round reconciles one property, and no set of checks is touched meanwhile.
  refine Ends.forM (fun last => Walk context owner scope start last ∧
    ∀ other, last.ledger.checks other = start.ledger.checks other) ⟨.refl start, fun _ => rfl⟩
    fun property member middle walked => ?_
  obtain ⟨walk, same⟩ := walked
  rw [ends_updateRecord]
  refine ⟨walk.trans (walk_updateRecord (step_mark (acts property member) (.reconciled _)) ?_),
    fun other => ?_⟩
  · -- Only flags of the property are rewritten.
    rw [Record.reconciled_eq]
  · rw [Model.ledger_updateRecord, Ledger.checks_update, same]
    rw [Record.reconciled_eq]

theorem works_reconcileRequired (acts : id ∈ scope) :
    Works context site scope low (reconcileRequired id) := fun _ ready =>
  Ends.imp (yields_reconcileRequired fun property member =>
      ready.closed.inside id acts property (Record.mem_children.mpr (.inl member)))
    (fun _ _ walked => walked.1) fun _ _ => trivial

/-- An analysis that walks in a scope and settles the records of the scope from a number on. -/
def Analysis.Works (analyse : Analysis) (context : Context) (owner : DeclarationId)
    (scope : Set RecordId) (low : Nat) : Prop :=
  ∀ (site : Site) (id : RecordId) (role : Role) (start : Model), site.owner = owner → id ∈ scope →
    low ≤ id.index → (start.ledger.record id).negationOf = none → Ready site scope low start →
    Yields context owner scope (analyse site id role) start fun _ last => last.Settled owner id

variable {inner : Analysis}

/-- What comes of one property of an object: with a base record, the property of the same name is
compared. -/
def analyseProperty (analyse : Analysis) (site : Site) (base : Option RecordId)
    (property : RecordId) : Modelling Unit := do
  let name := (← record property).name.getD ""
  let ledger ← ledger
  let inherited := base.bind (ledger.property? · name)
  if let some baseProperty := inherited then inheritNestedClass property baseProperty
  analyse site property (.property name)
  if let some baseProperty := inherited then compareWithBase site.owner property baseProperty

/-- What comes of an object after its properties: the other records inside it, its own checks and
its required names. -/
def closeObject (context : Context) (analyse : Analysis) (site : Site) (id : RecordId) :
    Modelling Unit := do
  (← record id).patternProperties.forM fun entry => analyse site entry.record .value
  if let some (.schema value) := (← record id).additional then analyse site value .value
  plan context site.owner id .object
  planNegation context site.owner id
  reconcileRequired id

/-- An object is analysed property by property, and then the rest of it. -/
theorem analyseObject_eq {base : Option RecordId} :
    analyseObject context inner site id base = (do
      (← record id).properties.forM (analyseProperty inner site base)
      closeObject context inner site id) := rfl

/-- The analysis of a member of a record. -/
theorem Analysis.Works.member (works : inner.Works context site.owner scope low) {member : RecordId}
    (ready : Ready site scope low start) (acts : id ∈ scope) (above : low ≤ id.index + 1)
    (leads : (start.ledger.record id).LeadsTo member) (role : Role) :
    Yields context site.owner scope (inner site member role) start fun _ last =>
      last.Settled site.owner member := by
  -- A member lies behind its record, so it is still pending.
  have behind := ready.ordered.behind id acts member leads.mem_children
  exact works site member role start rfl (ready.closed.inside id acts member leads.mem_children)
    (Nat.le_trans above behind) (ready.ordered.positive id acts member leads) ready

/-- What comes of an object after its properties makes it whole. -/
theorem yields_closeObject (works : inner.Works context site.owner scope low)
    (ready : Ready site scope low start) (acts : id ∈ scope) (above : low ≤ id.index + 1)
    (settled : ∀ property ∈ (start.ledger.record id).properties, start.Settled site.owner property) :
    Yields context site.owner scope (closeObject context inner site id) start fun _ last =>
      last.Whole site.owner id := by
  simp only [Yields, closeObject, ends_bind, ends_record]
  -- The values of patterns and of all other names lie inside the object.
  have patterns : Yields context site.owner scope
      ((start.ledger.record id).patternProperties.forM fun entry =>
        inner site entry.record .value) start
      fun _ last => ∀ entry ∈ (start.ledger.record id).patternProperties,
        last.Settled site.owner entry.record := by
    refine yields_forM _ ready fun entry member middle ready' walk => ?_
    refine works.member ready' acts above (.inl ?_) .value
    exact (walk.later.settles id).isMember.mpr (.inr (.inl (List.mem_map_of_mem member)))
  -- Once these are settled, nothing of the object is left to be shaped.
  have last (middle : Model) (walk : Walk context site.owner scope start middle)
      (whole : middle.Whole site.owner id) : Ends (do
        plan context site.owner id .object
        planNegation context site.owner id
        reconcileRequired id) middle
      (fun _ last => Walk context site.owner scope start last ∧ last.Whole site.owner id)
      (fun _ => True) := by
    have works : Works context site scope low (do
        plan context site.owner id .object
        planNegation context site.owner id
        reconcileRequired id) :=
      (works_plan acts).bind fun _ => (works_planNegation acts).bind fun _ =>
        works_reconcileRequired acts
    -- What is whole stays whole while the checks are planned.
    refine (works middle (ready.walk walk)).imp (fun _ last further => ?_) fun _ _ => trivial
    exact ⟨walk.trans further, further.later.whole whole⟩
  refine patterns.imp (fun _ middle walked => ?_) fun _ _ => trivial
  obtain ⟨walk, valued⟩ := walked
  have same := walk.later.settles id
  -- Whatever comes later, all members have been settled by then.
  have whole (later : Model) (further : Later middle later)
      (additional : ∀ value, (start.ledger.record id).additional = some (.schema value) →
        later.Settled site.owner value) : later.Whole site.owner id := by
    refine ⟨(further.closed (walk.later.closed ready.closed)).present id acts, fun member held => ?_⟩
    rw [(further.settles id).isMember, same.isMember] at held
    rcases held with property | pattern | value
    · exact further.settled (walk.later.settled (settled member property))
    · obtain ⟨entry, listed, rfl⟩ := List.mem_map.mp pattern
      exact further.settled (valued entry listed)
    · exact additional member value
  rw [same.additional_eq]
  split
  · -- The value of additional properties is settled before the plan, if there is one.
    rename_i value held
    rw [ends_bind]
    have leads : (middle.ledger.record id).LeadsTo value :=
      .inl (same.isMember.mpr (.inr (.inr held)))
    refine (works.member (ready.walk walk) acts above leads .value).imp (fun _ valued walked => ?_)
      fun _ _ => trivial
    obtain ⟨walk', settled⟩ := walked
    refine last valued (walk.trans walk') (whole valued walk'.later fun other held' => ?_)
    rw [held] at held'
    cases held'
    exact settled
  · rename_i none
    exact last middle walk (whole middle (.refl middle) fun value held => absurd held (none value))

/-- The members of an object without a base are settled. -/
theorem yields_analyseObject (works : inner.Works context site.owner scope low)
    (ready : Ready site scope low start) (acts : id ∈ scope) (above : low ≤ id.index + 1) :
    Yields context site.owner scope (analyseObject context inner site id none) start
      fun _ last => last.Whole site.owner id := by
  rw [Yields, analyseObject_eq, ends_bind, ends_record, ends_bind]
  have properties : Yields context site.owner scope
      ((start.ledger.record id).properties.forM (analyseProperty inner site none)) start
      fun _ last => ∀ property ∈ (start.ledger.record id).properties,
        last.Settled site.owner property := by
    -- A record that is entered has not lost the pattern since the start.
    -- Each property is analysed behind the walks of those before it.
    refine yields_forM _ ready fun property member middle ready' walk => ?_
    have leads : (middle.ledger.record id).LeadsTo property :=
      .inl ((walk.later.settles id).isMember.mpr (.inl member))
    simp only [Yields, analyseProperty, ends_bind, ends_record, ends_ledger, Option.bind_none]
    refine Ends.imp (works.member ready' acts above leads _) (fun _ last walked => ?_)
      fun _ _ => trivial
    rw [ends_pure]
    exact walked
  refine Ends.imp properties (fun _ middle walked => ?_) fun _ _ => trivial
  obtain ⟨walk, settled⟩ := walked
  -- All properties are settled when the object is closed.
  refine (yields_closeObject works (ready.walk walk) acts above fun property member => ?_).further walk
  rw [(walk.later.settles id).properties_eq] at member
  exact settled property member

/-- What a developed shape leaves behind: only the record itself may be half done. -/
structure Developed (context : Context) (owner : DeclarationId) (scope : Set RecordId)
    (id : RecordId) (start : Model) (shape : Shape) (last : Model) : Prop where
  steps : Steps context owner scope start last
  whole : last.WholeFrom owner (start.declaration owner).nested.size
  clean : ∀ other, other ≠ id → (start.ledger.record other).negationOf = none →
    start.Clean owner other → last.Clean owner other
  typed : ∀ ref, shape = .reference (.generated ref) →
    (last.ledger.record id).typeRef = some (.generated ref)
  first : (last.ledger.record id).shape = none ∨ (last.ledger.record id).shape = some shape
  isValue : shape.IsValue
  items : shape = .array → ∀ items, (last.ledger.record id).items = some items →
    last.Settled owner items

/-- While a record is half done, the analysis may go on behind it. -/
theorem Ready.behind {last : Model} (ready : Ready site scope low start) (later : Later start last)
    (atMost : low ≤ id.index) (shape : ∀ other, other ≠ id →
      (last.ledger.record other).shape = (start.ledger.record other).shape) :
    Ready site scope (id.index + 1) last where
  declared := by
    rw [later.declarations]
    exact ready.declared
  placed index held := later.hasClass (ready.placed index held)
  closed := later.closed ready.closed
  ordered := later.ledger.ordered ready.closed ready.ordered
  -- The record itself lies below the new limit, so that it need not be clean.
  clean other acts above positive := by
    rw [(later.settles other).sameOrigin.negationOf] at positive
    have apart : other ≠ id := by
      rintro rfl
      omega
    exact later.clean (ready.clean other acts (by omega) positive) (shape other apart)

/-- A record on its own is settled on a class that was found or added for it. -/
theorem developed_settle {kind : ClassKind} {result : Nat × Bool} {middle : Model}
    (nests : Nested context owner scope id kind start result middle) (acts : id ∈ scope)
    (present : id.index < start.ledger.size)
    (unset : (start.ledger.record id).typeRef = none)
    (unshaped : (start.ledger.record id).shape = none) :
    let ref := ClassRef.nested owner result.1
    let last := middle.updateRecord id fun record =>
      { record with
        typeRef := some (.generated ref), shape := some (.reference (.generated ref)) }
    Steps context owner scope start last ∧
      (last.ledger.record id).typeRef = some (.generated ref) ∧
      (last.ledger.record id).shape = some (.reference (.generated ref)) ∧
      ∀ other, other ≠ id → (last.ledger.record other).shape = (start.ledger.record other).shape := by
  -- Finding or adding the class left the record as it was, so it is still undecided.
  obtain ⟨steps, same⟩ := nests.steps
  rw [← same] at unset unshaped present
  refine ⟨steps.tail (step_type acts unset nests.suits (.inr ⟨unshaped, rfl⟩) rfl), ?_, ?_,
    fun other apart => ?_⟩
  · rw [Model.ledger_updateRecord, Ledger.record_update_self present]
  · rw [Model.ledger_updateRecord, Ledger.record_update_self present]
  · -- No other record is touched.
    rw [Model.ledger_updateRecord, Ledger.record_update_of_ne apart, same]

/-- Where a class is found for a record, or one that is no concrete class is added for it, there is nothing
new to be whole. -/
theorem wholeFrom_of_nests {kind : ClassKind} {result : Nat × Bool} {middle : Model}
    {change : Record → Record}
    (nests : Nested context owner scope id kind start result middle)
    (empty : result.2 = true → kind ≠ .concrete) :
    (middle.updateRecord id change).WholeFrom owner (start.declaration owner).nested.size := by
  intro index nested atLeast there concrete
  rw [Model.declaration_updateRecord] at there
  obtain ⟨inside, -⟩ := Array.getElem?_eq_some_iff.mp there
  -- A class that was found was counted before, so none is new.
  cases new : result.2 with
  | false =>
    rw [nests.found new] at inside
    omega
  | true =>
    -- The class that was added is the last one.
    obtain ⟨made, kinds, pushes⟩ := nests.pushed new
    rw [pushes.size_eq, pushes.index] at inside
    have last : index = result.1 := by
      rw [pushes.index]
      omega
    obtain ⟨name, own⟩ := pushes.there
    rw [last, own] at there
    cases there
    exact absurd ((kinds name).2.symm.trans concrete) (empty new)

/-- An object becomes a nested class, whose members are analysed if it is new. -/
theorem developed_object {role : Role} (works : inner.Works context site.owner scope (id.index + 1))
    (ready : Ready site scope low start) (acts : id ∈ scope) (atMost : low ≤ id.index)
    (unshaped : (start.ledger.record id).shape = none)
    (unset : (start.ledger.record id).typeRef = none) :
    Ends (develop context inner site id role .object) start
      (Developed context site.owner scope id start) (fun _ => True) := by
  rw [develop, ends_bind]
  refine (ends_nestedClass ready acts).imp (fun result middle nests => ?_) fun _ _ => trivial
  obtain ⟨steps, typed, shaped, others⟩ := developed_settle nests acts
    (ready.closed.present id acts) unset unshaped
  have later := (Steps.ahead steps).toLater
  -- The record is settled before its members are looked at.
  rw [ends_bind, ends_settle]
  split
  · -- The members lie behind the record, so they are not touched by now.
    rename_i isNew
    obtain ⟨nested, made, pushes⟩ := nests.pushed isNew
    -- The new class is the scope of its members.
    have inside : Ready { site with scope := some result.1 } scope (id.index + 1) _ :=
      { ready.behind later atMost others with
        placed := fun index held => by
          cases held
          show result.1 < (middle.declaration site.owner).nested.size
          rw [pushes.size_eq]
          exact Nat.lt_succ_self _ }
    rw [ends_bind]
    refine Ends.imp (@yields_analyseObject context { site with scope := some result.1 } _ _ _ _ _
      works inside acts (Nat.le_refl _)) (fun _ last walked => ?_) fun _ _ => trivial
    obtain ⟨walk, whole⟩ := walked
    rw [ends_pure]
    refine ⟨steps.trans walk.steps, ?_, fun other apart positive clean => ?_, fun ref same => ?_,
      .inr ((walk.later.settles id).shape _ shaped), by simp [Shape.IsValue],
      fun array => nomatch array⟩
    · refine pushes.wholeFrom (walk.later.grows site.owner) (fun name _ => ?_) ?_
      · rw [(made name).1]
        exact whole
      · rw [← pushes.size_eq]
        exact walk.whole
    · refine walk.clean other ?_ (later.clean clean (others other apart))
      rw [(later.settles other).sameOrigin.negationOf]
      exact positive
    · cases same
      exact walk.ahead.typeRef id _ typed
  · -- The class was there, and nothing is analysed again.
    rename_i old
    refine ⟨steps, wholeFrom_of_nests nests fun new => absurd new old,
      fun other apart _ clean => later.clean clean (others other apart), fun ref same => ?_,
      .inr shaped, by simp [Shape.IsValue], fun array => nomatch array⟩
    cases same
    exact typed

/-- An enum becomes a nested class without members. -/
theorem developed_enum (inner : Analysis) (role : Role) (ready : Ready site scope low start)
    (acts : id ∈ scope) (unshaped : (start.ledger.record id).shape = none)
    (unset : (start.ledger.record id).typeRef = none) :
    Ends (develop context inner site id role .identifierEnum) start
      (Developed context site.owner scope id start) (fun _ => True) := by
  rw [develop, ends_bind]
  refine (ends_nestedClass ready acts).imp (fun result middle nests => ?_) fun _ _ => trivial
  obtain ⟨steps, typed, shaped, others⟩ := developed_settle nests acts
    (ready.closed.present id acts) unset unshaped
  have later := (Steps.ahead steps).toLater
  -- An enum has no members, so that settling the record is all.
  rw [ends_settle]
  refine ⟨steps, wholeFrom_of_nests nests fun _ => nofun,
    fun other apart _ clean => later.clean clean (others other apart), fun ref same => ?_,
    .inr shaped, by simp [Shape.IsValue], fun array => nomatch array⟩
  cases same
  exact typed

/-- The items of an array are analysed behind it. -/
theorem developed_array {role : Role} (works : inner.Works context site.owner scope (id.index + 1))
    (ready : Ready site scope low start) (acts : id ∈ scope) (atMost : low ≤ id.index)
    (unshaped : (start.ledger.record id).shape = none) :
    Ends (develop context inner site id role .array) start
      (Developed context site.owner scope id start) (fun _ => True) := by
  rw [develop, ends_bind, ends_updateRecord, ends_bind, ends_record]
  have marked : Steps context site.owner scope start
      (start.updateRecord id fun record => { record with shape := some .array }) :=
    .single (step_mark acts (.shaped (.inl unshaped) (by simp)))
  have later := (Steps.ahead marked).toLater
  have shaped : ((start.updateRecord id fun record =>
      { record with shape := some .array }).ledger.record id).shape = some .array := by
    rw [Model.ledger_updateRecord, Ledger.record_update_self (ready.closed.present id acts)]
  have others (other : RecordId) (apart : other ≠ id) :
      ((start.updateRecord id fun record =>
        { record with shape := some .array }).ledger.record other).shape =
          (start.ledger.record other).shape := by
    rw [Model.ledger_updateRecord, Ledger.record_update_of_ne apart]
  -- The record has its shape by now, and all behind it are as they were.
  have behind := ready.behind later atMost others
  split
  · rename_i items held
    rw [ends_bind]
    refine Ends.imp (works.member behind acts (Nat.le_refl _) (.inr held) role.ofItems)
      (fun _ last walked => ?_) fun _ _ => trivial
    obtain ⟨walk, settled⟩ := walked
    rw [ends_pure]
    refine ⟨marked.trans walk.steps, walk.whole, fun other apart positive clean => ?_,
      fun ref same => (nomatch same), .inr ((walk.later.settles id).shape _ shaped),
      by simp [Shape.IsValue], fun _ inner found => ?_⟩
    · refine walk.clean other ?_ (later.clean clean (others other apart))
      rw [(later.settles other).sameOrigin.negationOf]
      exact positive
    · rw [(walk.later.settles id).items_eq, held] at found
      cases found
      exact settled
  · -- An array without items is done with its shape.
    rename_i none
    have plain := (Walk.refl start : Walk context site.owner scope start start).whole
    exact ⟨marked, later.wholeFrom plain rfl,
      fun other apart _ clean => later.clean clean (others other apart),
      fun ref same => (nomatch same), .inr shaped, by simp [Shape.IsValue],
      fun _ inner found => absurd found (none inner)⟩

/-- A custom class may have to be imported. -/
theorem developed_custom (inner : Analysis) (role : Role) {custom : CustomClass}
    (unshaped : (start.ledger.record id).shape = none) :
    Ends (develop context inner site id role (.reference (.custom custom))) start
      (Developed context site.owner scope id start) (fun _ => True) := by
  have plain {last : Model} (walk : Walk context site.owner scope start last)
      (same : last.ledger = start.ledger) : Developed context site.owner scope id start
        (.reference (.custom custom)) last :=
    ⟨walk.steps, walk.whole, fun other _ positive => walk.clean other positive,
      fun ref same => (nomatch same), .inl (by rw [same]; exact unshaped), by simp [Shape.IsValue],
      fun array => nomatch array⟩
  rw [develop]
  -- The class is imported or not; in either case no record changes.
  split
  · rw [ends_bind, ends_updateDeclaration, ends_pure]
    exact plain (walk_note (notes_addImport _ _)) rfl
  · exact plain (.refl start) rfl

/-- A decided shape is developed, and a class that comes of it is that of the record. -/
theorem ends_develop {role : Role} {promoteEnums : Bool} {shape : Shape}
    (works : inner.Works context site.owner scope (id.index + 1))
    (ready : Ready site scope low start) (acts : id ∈ scope) (atMost : low ≤ id.index)
    (unshaped : (start.ledger.record id).shape = none)
    (classified : context.classify start.ledger id promoteEnums = shape) :
    Ends (develop context inner site id role shape) start
      (Developed context site.owner scope id start) (fun _ => True) := by
  unfold develop
  -- Four shapes are developed further, all others are taken as they are.
  split
  · exact developed_object works ready acts atMost unshaped
      (Context.typeRef_eq_none_of_classify classified (by simp))
  · exact developed_enum inner role ready acts unshaped
      (Context.typeRef_eq_none_of_classify classified (by simp))
  · exact developed_array works ready acts atMost unshaped
  · exact developed_custom inner role unshaped
  · -- A class that was decided before stays.
    rename_i noObject noEnum noArray _
    refine ⟨.refl, (Walk.refl start : Walk context site.owner scope start start).whole,
      fun _ _ _ clean => clean, fun ref same => ?_, .inl unshaped, ⟨noObject, noEnum⟩,
      fun array => absurd array noArray⟩
    rw [same] at classified
    exact Context.typeRef_of_classify classified

/-- A developed shape is kept and its checks are planned, which completes the analysis. -/
theorem Developed.settled {shape : Shape} {last : Model}
    (developed : Developed context owner scope id start shape last) (acts : id ∈ scope)
    (declared : owner.index < start.declarations.size) (present : id.index < start.ledger.size) :
    let settled := (last.updateRecord id fun record =>
      { record with shape := some shape }).plan context owner id shape
    Walk context owner scope start settled ∧ settled.Settled owner id := by
  -- The shape is kept first and planned then, which are two steps.
  have marked : Step context owner scope last (last.updateRecord id fun record =>
      { record with shape := some shape }) :=
    step_mark acts (.shaped developed.first developed.typed)
  have ahead := Steps.ahead developed.steps
  rw [← ahead.size] at present
  rw [← ahead.declarations] at declared
  have last' : Steps context owner scope last
      ((last.updateRecord id fun record =>
        { record with shape := some shape }).plan context owner id shape) :=
    (Relation.ReflTransGen.single marked).tail (.plan acts shape)
  have later := (Steps.ahead last').toLater
  have settled : Model.Settled ((last.updateRecord id fun record =>
      { record with shape := some shape }).plan context owner id shape) owner id := by
    -- A record is settled once it has its shape and the class uses what the shape needs.
    refine .intro ?_ ?_ developed.isValue ?_ fun array items held => ?_
    · rw [later.size]
      exact present
    · rw [shape_plan, Model.ledger_updateRecord, Ledger.record_update_self present]
    · rw [Model.declaration_plan, if_pos ⟨rfl, declared⟩]
      exact Plan.libraryTypes_checksOf ..
    · rw [(later.settles id).items_eq] at held
      exact later.settled (developed.items array items held)
  refine ⟨⟨developed.steps.trans last', later.wholeFrom developed.whole nested_plan,
    fun other positive clean => ?_⟩, settled⟩
  -- The record itself was half done up to now; all others were clean already.
  by_cases same : other = id
  · rw [same]
    exact .inr settled
  · -- The plan concerns the shape of no other record.
    refine later.clean (developed.clean other same positive clean) ?_
    rw [shape_plan, Model.ledger_updateRecord, Ledger.record_update_of_ne same]

/-- The analysis of a record settles it if it and all records behind it are pending. -/
theorem works_analyse (pending : List RecordId) (role : Role) (acts : id ∈ scope)
    (atMost : low ≤ id.index) (waits : ∀ other ∈ scope, id.index ≤ other.index → other ∈ pending)
    (positive : (start.ledger.record id).negationOf = none) (ready : Ready site scope low start) :
    Yields context site.owner scope (analyse context pending site id role) start fun _ last =>
      last.Settled site.owner id := by
  -- Each record that is entered leaves the list of those pending, so the induction is on its length.
  induction length : pending.length using Nat.strong_induction_on
    generalizing pending site id role low start
  rename_i bound ih
  rw [Yields, analyse, ends_bind, ends_record]
  split
  · rename_i unshaped
    have unshaped : (start.ledger.record id).shape = none := by simpa using unshaped
    have waiting := waits id acts (Nat.le_refl _)
    rw [dif_pos waiting]
    have shorter := length_erase_lt waiting
    -- What is entered from here waits in the shorter list.
    have works : Analysis.Works
        (fun site record role => analyse context (pending.erase id) site record role) context
        site.owner scope (id.index + 1) := by
      intro site' other role' middle same acts' above positive' ready'
      have behind (inner : RecordId) (member : inner ∈ scope) (atMost : other.index ≤ inner.index) :
          inner ∈ pending.erase id := by
        have apart : inner ≠ id := by
          rintro rfl
          omega
        exact (List.mem_erase_of_ne apart).mpr (waits inner member (by omega))
      -- By the hypothesis for shorter lists, whatever lies behind is settled.
      have inner := ih _ (length ▸ shorter) (pending.erase id) role' acts' above behind positive'
        ready' rfl
      rw [same] at inner
      exact inner
    rw [ends_bind]
    refine Ends.imp (yields_linkTarget acts) (fun _ linked walked => ?_) fun _ _ => trivial
    obtain ⟨walk, same⟩ := walked
    have ready' := ready.walk walk
    rw [ends_bind, ends_ledger, ends_bind]
    -- The record takes over the class of its target, is developed and planned, and then its negation.
    refine (ends_develop works ready' acts atMost (same.trans unshaped) rfl).imp
      (fun shape developed done => ?_) fun _ _ => trivial
    simp only [ends_bind, ends_updateRecord, ends_plan]
    obtain ⟨walk', settled⟩ := done.settled acts ready'.declared (ready'.closed.present id acts)
    have all := walk.trans walk'
    refine (works_planNegation acts _ (ready.walk all)).imp (fun _ last further => ?_)
      fun _ _ => trivial
    exact ⟨all.trans further, further.later.settled settled⟩
  · rename_i shaped
    -- A record with a shape was settled before, as only clean records are entered.
    refine ⟨.refl start, (ready.clean id acts atMost positive).resolve_left fun unshaped => ?_⟩
    rw [unshaped] at shaped
    exact shaped rfl

/-- A record of the ledger is listed. -/
theorem mem_ids {ledger : Ledger} : id ∈ ledger.ids ↔ id.index < ledger.size := by
  simp only [Ledger.ids, List.mem_map, List.mem_range]
  constructor
  · rintro ⟨index, inside, rfl⟩
    exact inside
  · exact fun inside => ⟨id.index, inside, rfl⟩

/-- The analysis of any record of a scope settles it. -/
theorem works_analyseAny : (analyseAny context).Works context owner scope low := by
  rintro site id role start rfl acts atMost positive ready
  rw [Yields, analyseAny, ends_bind, ends_ledger]
  exact works_analyse _ role acts atMost
    (fun other member _ => mem_ids.mpr (ready.closed.present other member)) positive ready

end Modelling

end SchemaClasses
