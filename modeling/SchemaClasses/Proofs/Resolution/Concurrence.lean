import SchemaClasses.Generation
import SchemaClasses.Proofs.Concurrence
import SchemaClasses.Proofs.Reading.Retracing

/-! Runs over two trees that say the same declare the same classes with the same members; only what they
report may differ. So the two dialects of exclusive bounds agree: what is made of a document in the first
one is also made of it in the second one. -/

namespace SchemaClasses

/-- Whether two models are the same, whatever they report. -/
def Model.EqUpToReports (model model' : Model) : Prop :=
  ∃ diagnostics, model' = { model with survey := { model.survey with diagnostics } }

namespace Model

variable {tree tree' : SchemaTree} {context context' : Context} {model model' : Model}

/-- The same records are planned alike. -/
theorem EqUpToReports.plan {owner : DeclarationId} {id : RecordId} {shape : Shape}
    (contexts : context.Corresponds context') (equal : model.EqUpToReports model') :
    (model.plan context owner id shape).EqUpToReports (model'.plan context' owner id shape) := by
  obtain ⟨found, rfl⟩ := equal
  -- The two plans start from the same record and class, and only their findings are others.
  let start (diagnostics : Diagnostics) : Plan :=
    { record := model.ledger.record id
      checks := model.ledger.checks id
      constants := (model.declaration owner).constants
      libraryTypes := (model.declaration owner).libraryTypes
      diagnostics }
  have same : (start model.survey.diagnostics).EqUpToReports (start found) := ⟨found, rfl⟩
  have checked : ((start model.survey.diagnostics).checksOf context model.ledger id shape).EqUpToReports
      ((start found).checksOf context' model.ledger id shape) := same.checksOf contexts
  obtain ⟨last, planned⟩ := checked
  refine ⟨last, ?_⟩
  -- The finished plans agree up to findings, hence so do the models they are written to.
  unfold Model.plan
  dsimp only [ledger, declaration, start] at planned ⊢
  rw [planned]
  rfl

variable (concurs : tree.Concurs tree') (models : model.EqUpToReports model')

include concurs models

/-- The same declaration is found along references. -/
theorem declarationAlong?_eq {steps : Nat} {schema : SchemaId} :
    model.declarationAlong? tree steps schema = model'.declarationAlong? tree' steps schema := by
  -- What is declared for a schema is no matter of reports.
  have declared : model.declared? = model'.declared? := by
    obtain ⟨_, rfl⟩ := models
    rfl
  -- References end at the same step, because both trees hold pure references at the same schemas.
  induction steps generalizing schema with
  | zero => exact congrFun declared schema
  | succ steps ih =>
    have onward : model.declarationAlong? tree steps = model'.declarationAlong? tree' steps :=
      funext fun _ => ih
    rw [declarationAlong?, declarationAlong?, concurs.pureReference?_eq, declared, onward]

/-- Schemas have the same declarations. -/
theorem declarationFor?_eq : model.declarationFor? tree = model'.declarationFor? tree' := by
  funext schema
  rw [declarationFor?, declarationFor?, concurs.size]
  exact declarationAlong?_eq concurs models

/-- Classes have the same bases. -/
theorem base?_eq : model.base? tree = model'.base? tree' := by
  have declared : model.declaration = model'.declaration := by
    obtain ⟨_, rfl⟩ := models
    rfl
  funext id
  unfold base?
  dsimp only
  rw [declared, concurs.allOf?_eq, declarationFor?_eq concurs models]
  simp only [concurs.pureReference?_eq]

theorem bases_eq {steps : Nat} {id : DeclarationId} :
    model.bases tree steps id = model'.bases tree' steps id := by
  induction steps generalizing id with
  | zero => rfl
  | succ steps ih =>
    rw [bases, bases, base?_eq concurs models]
    -- The chain of bases goes on in both models or ends in both.
    split
    · rw [ih]
    · rfl

theorem allBases_eq : model.allBases tree = model'.allBases tree' := by
  have size : model.declarations.size = model'.declarations.size := by
    obtain ⟨_, rfl⟩ := models
    rfl
  funext id
  rw [allBases, allBases, size]
  exact bases_eq concurs models

/-- The same classes are found in circles of bases. -/
theorem circularBase?_eq : model.circularBase? tree = model'.circularBase? tree' := by
  -- A class is looked at with its chain of bases, which is the same.
  have leads : model.leadsCircle tree = model'.leadsCircle tree' := by
    funext id
    rw [leadsCircle, leadsCircle, allBases_eq concurs models]
  have ids : model.ids = model'.ids := by
    obtain ⟨_, rfl⟩ := models
    rfl
  rw [circularBase?, circularBase?, leads, ids]

end Model

namespace Modelling

variable {id other : RecordId} {owner : DeclarationId}

/-- Steps of surveys in tandem are steps of models in tandem. -/
theorem tandem_survey {α : Type} {step step' : Surveying α} (tandem : Tandem Survey.SameLedger step step') :
    Tandem Model.EqUpToReports (survey step) (survey step') := by
  rintro ⟨⟨ledger, reported⟩, declarations, counted⟩ _ ⟨reported', rfl⟩
  have taken := tandem ⟨ledger, reported⟩ ⟨ledger, reported'⟩ rfl
  unfold survey
  dsimp only
  -- Both steps end alike, since surveys in tandem do not come apart.
  cases ran : step ⟨ledger, reported⟩ with
  | ok result last =>
    cases ran' : step' ⟨ledger, reported'⟩ with
    | ok result' last' =>
      -- The results are equal, and the last ledgers are.
      rw [ran, ran'] at taken
      obtain ⟨rfl, same⟩ := taken
      obtain ⟨_, found⟩ := last'
      obtain rfl : last.ledger = _ := same
      exact ⟨rfl, found, rfl⟩
    -- A run that succeeds beside one that fails would not be in tandem.
    | error fault' last' =>
      rw [ran, ran'] at taken
      exact taken.elim
  | error fault last =>
    cases ran' : step' ⟨ledger, reported'⟩ with
    | ok result' last' =>
      rw [ran, ran'] at taken
      exact taken.elim
    | error fault' last' =>
      rw [ran, ran'] at taken
      obtain ⟨rfl, same⟩ := taken
      obtain ⟨_, found⟩ := last'
      obtain rfl : last.ledger = _ := same
      exact ⟨rfl, found, rfl⟩

theorem tandem_ledger : Tandem Model.EqUpToReports ledger ledger := by
  rintro model _ ⟨found, rfl⟩
  exact ⟨rfl, found, rfl⟩

theorem tandem_record : Tandem Model.EqUpToReports (record id) (record id) := by
  rintro model _ ⟨found, rfl⟩
  exact ⟨rfl, found, rfl⟩

theorem tandem_declaration : Tandem Model.EqUpToReports (declaration owner) (declaration owner) := by
  rintro model _ ⟨found, rfl⟩
  exact ⟨rfl, found, rfl⟩

theorem tandem_updateRecord {change : Record → Record} :
    Tandem Model.EqUpToReports (updateRecord id change) (updateRecord id change) := by
  rintro model _ ⟨found, rfl⟩
  exact ⟨rfl, found, rfl⟩

theorem tandem_updateDeclaration {change : Declaration → Declaration} :
    Tandem Model.EqUpToReports (updateDeclaration owner change) (updateDeclaration owner change) := by
  rintro model _ ⟨found, rfl⟩
  exact ⟨rfl, found, rfl⟩

theorem tandem_countedName : Tandem Model.EqUpToReports countedName countedName := by
  rintro model _ ⟨found, rfl⟩
  exact ⟨rfl, found, rfl⟩

theorem tandem_allocateName {candidate : String} {taken : String → Bool} :
    Tandem Model.EqUpToReports (allocateName candidate taken) (allocateName candidate taken) := by
  -- The candidate is given a free form, or there is none in either run.
  unfold allocateName
  split
  · exact .pure
  · exact .throw

theorem tandem_declare {name uri : String} {package : Option String} {schema : SchemaId}
    {kind : ClassKind} :
    Tandem Model.EqUpToReports (declare name package uri schema id kind)
      (declare name package uri schema id kind) := by
  unfold declare
  refine .look ?_
  rintro model _ ⟨found, rfl⟩
  -- Names are allocated alike, and the declaration is pushed to the same place.
  dsimp only
  apply tandem_allocateName.bind
  intro name
  refine Tandem.bind ?_ fun _ => .pure
  rintro model _ ⟨found, rfl⟩
  exact ⟨rfl, found, rfl⟩

/-- A change of one record's checks, the same in both ledgers. -/
theorem tandem_updateChecks {change : CheckSet → CheckSet} :
    Tandem Model.EqUpToReports
      (survey (modify fun survey => { survey with ledger := survey.ledger.updateChecks id change }))
      (survey (modify fun survey => { survey with ledger := survey.ledger.updateChecks id change })) := by
  rintro model _ ⟨found, rfl⟩
  exact ⟨rfl, found, rfl⟩

theorem tandem_settle {ref : ClassRef} : Tandem Model.EqUpToReports (settle id ref) (settle id ref) :=
  tandem_updateRecord.bind fun _ => .pure

theorem tandem_importDeclaration {used : DeclarationId} :
    Tandem Model.EqUpToReports (importDeclaration owner used) (importDeclaration owner used) := by
  unfold importDeclaration
  apply tandem_declaration.bind
  intro used
  apply tandem_declaration.bind
  intro declared
  -- A class is imported only into another package, which both runs see alike.
  split
  · exact tandem_updateDeclaration
  · exact .pure

theorem tandem_pushNested {candidate : String} {nested : String → NestedClass} :
    Tandem Model.EqUpToReports (pushNested owner candidate nested) (pushNested owner candidate nested) := by
  unfold pushNested
  apply tandem_declaration.bind
  intro declared
  apply tandem_allocateName.bind
  -- The list of nested classes is the same, so the same name is free in it.
  intro name
  exact tandem_updateDeclaration.bind fun _ => .pure

theorem tandem_inheritNestedClass :
    Tandem Model.EqUpToReports (inheritNestedClass id other) (inheritNestedClass id other) := by
  unfold inheritNestedClass
  apply tandem_record.bind
  intro held
  -- There is something to inherit if the property has no type yet and its base has a class.
  split
  · apply tandem_record.bind
    intro base
    -- A class nested in the declaration of the base is handed on.
    split
    · apply tandem_declaration.bind
      intro declared
      dsimp only
      split
      · exact tandem_updateRecord
      · exact .pure
    · exact .pure
  · exact .pure

theorem tandem_compareWithBase :
    Tandem Model.EqUpToReports (compareWithBase owner id other) (compareWithBase owner id other) := by
  unfold compareWithBase
  apply tandem_record.bind
  intro held
  apply tandem_record.bind
  intro base
  -- Equal shapes are thinned, and different ones are declared anew.
  split
  · -- The base is looked at as a whole, and its checks are the same in both runs.
    refine .look ?_
    rintro model _ ⟨found, rfl⟩
    exact tandem_updateChecks.bind fun _ => tandem_updateRecord
  · exact tandem_updateRecord.bind fun _ => tandem_updateRecord

theorem tandem_reconcileRequired :
    Tandem Model.EqUpToReports (reconcileRequired id) (reconcileRequired id) := by
  unfold reconcileRequired
  exact tandem_record.bind fun held => .forM fun property _ => tandem_updateRecord

theorem tandem_copyForVariant {origin : Option SchemaId} :
    Tandem Model.EqUpToReports (copyForVariant id origin) (copyForVariant id origin) := by
  unfold copyForVariant
  apply (tandem_survey Survey.tandem_onLedger).bind
  intro variant
  apply tandem_record.bind
  intro copied
  -- The copies are made from the same ledger, so they get the same numbers.
  refine (Tandem.mapM fun property => tandem_survey Survey.tandem_onLedger).bind fun properties => ?_
  exact tandem_updateRecord.bind fun _ => .pure

theorem tandem_joinRequired {already : List String} {name : String} :
    Tandem Model.EqUpToReports (joinRequired id already name) (joinRequired id already name) := by
  unfold joinRequired
  -- A name joins if it was not required before, in both runs or in neither.
  split
  · apply tandem_ledger.bind
    intro ledger
    -- A property of the name is cleared, if there is one.
    split
    · exact tandem_updateRecord.bind fun _ => tandem_updateRecord
    · exact tandem_updateRecord
  · exact tandem_updateRecord

section

variable {context context' : Context} (corresponds : context.Corresponds context') {site : Site} {role : Role}

include corresponds

theorem tandem_plan {shape : Shape} :
    Tandem Model.EqUpToReports (plan context owner id shape) (plan context' owner id shape) :=
  .modify fun _ _ held => held.plan corresponds

theorem tandem_planNegation :
    Tandem Model.EqUpToReports (planNegation context owner id) (planNegation context' owner id) := by
  unfold planNegation
  -- Both contexts classify the negation alike.
  rw [← corresponds.classify_eq]
  apply tandem_record.bind
  intro held
  -- A negation is planned if there is one that has no shape yet.
  split
  · -- Its own shape decides what is planned for it.
    apply tandem_record.bind
    intro negation
    split
    · apply tandem_ledger.bind
      intro ledger
      exact tandem_updateRecord.bind fun _ => tandem_plan corresponds
    · exact .pure
  · exact .pure

/-- Nested classes get the same names. -/
theorem nestedName_eq : nestedName context = nestedName context' := by
  funext held role
  unfold nestedName
  rw [corresponds.settings, corresponds.tree.lastSegment_eq]

theorem tandem_nestedClass {kind : ClassKind} :
    Tandem Model.EqUpToReports (nestedClass context site id kind role)
      (nestedClass context' site id kind role) := by
  unfold nestedClass
  rw [← nestedName_eq corresponds]
  apply tandem_record.bind
  intro held
  apply tandem_declaration.bind
  intro declared
  -- A class nested for the same schema is used again.
  split
  · -- The class is pushed under the same name otherwise.
    exact .pure
  · exact tandem_pushNested.bind fun index => .pure

theorem tandem_linkTarget :
    Tandem Model.EqUpToReports (linkTarget context owner id) (linkTarget context' owner id) := by
  unfold linkTarget
  rw [← corresponds.customClass?_eq]
  apply tandem_record.bind
  intro held
  apply tandem_ledger.bind
  intro ledger
  dsimp only
  split
  · -- The reference is followed for a record that has neither a custom class nor a type.
    split
    · rename_i target refers
      refine .look fun model model' models => ?_
      -- Both chains of references end at the same declaration, or none of them does.
      rw [← Model.declarationFor?_eq corresponds.tree models]
      split
      · exact tandem_updateRecord.bind fun _ => tandem_importDeclaration
      · -- No class is declared along the chain, but one may be nested for the target.
        apply tandem_declaration.bind
        intro declared
        split
        · exact tandem_updateRecord
        · exact .pure
    · exact .pure
  · exact .pure

variable {inner inner' : Analysis}

/-- The members of objects are analysed alike if each of them is. -/
theorem tandem_analyseObject
    (analyses : ∀ site id role, Tandem Model.EqUpToReports (inner site id role) (inner' site id role))
    {base : Option RecordId} :
    Tandem Model.EqUpToReports (analyseObject context inner site id base)
      (analyseObject context' inner' site id base) := by
  unfold analyseObject
  apply tandem_record.bind
  intro held
  -- Properties come first, and then patterns and what else a value may hold.
  refine Tandem.bind (.forM fun property _ => ?_) fun _ => ?_
  · apply tandem_record.bind
    intro stated
    apply tandem_ledger.bind
    intro ledger
    dsimp only
    -- Only a property of the base class is compared.
    cases base.bind fun base => ledger.property? base (stated.name.getD "") with
    | some baseProperty =>
      apply tandem_inheritNestedClass.bind
      intro _
      exact (analyses _ _ _).bind fun _ => tandem_compareWithBase
    | none => exact (analyses _ _ _).bind fun _ => .pure
  · apply tandem_record.bind
    intro held
    refine Tandem.bind (.forM fun entry _ => analyses _ _ _) fun _ => ?_
    apply tandem_record.bind
    intro held
    -- What comes last is done whether additional properties have a record or not.
    have finished : Tandem Model.EqUpToReports
        (do
          plan context site.owner id .object
          planNegation context site.owner id
          reconcileRequired id)
        (do
          plan context' site.owner id .object
          planNegation context' site.owner id
          reconcileRequired id) :=
      (tandem_plan corresponds).bind fun _ =>
        (tandem_planNegation corresponds).bind fun _ => tandem_reconcileRequired
    -- Additional properties are analysed where they have a record.
    split
    · exact (analyses _ _ _).bind fun _ => finished
    · exact finished

/-- Records of one shape are developed alike. -/
theorem tandem_develop
    (analyses : ∀ site id role, Tandem Model.EqUpToReports (inner site id role) (inner' site id role))
    {shape : Shape} :
    Tandem Model.EqUpToReports (develop context inner site id role shape)
      (develop context' inner' site id role shape) := by
  unfold develop
  split
  · -- An object: its members are only analysed for a new class.
    apply (tandem_nestedClass corresponds).bind
    intro nested
    apply tandem_settle.bind
    intro shape
    split
    · exact (tandem_analyseObject corresponds analyses).bind fun _ => .pure
    · exact .pure
  · -- An enum is nested like a class, but it has no members.
    exact (tandem_nestedClass corresponds).bind fun nested => tandem_settle
  · -- An array, with a record for its items or without one.
    apply tandem_updateRecord.bind
    intro _
    apply tandem_record.bind
    intro held
    split
    · exact (analyses _ _ _).bind fun _ => .pure
    · exact .pure
  · -- A custom class of a package is imported, and nothing is done for other shapes.
    split
    · exact tandem_updateDeclaration.bind fun _ => .pure
    · exact .pure
  · exact .pure

/-- Records are analysed alike. -/
theorem tandem_analyse {pending : List RecordId} :
    Tandem Model.EqUpToReports (analyse context pending site id role)
      (analyse context' pending site id role) := by
  -- Inside, fewer records are pending, so the induction is on their number.
  induction size : pending.length using Nat.strong_induction_on generalizing pending site id role with
  | _ size ih =>
    subst size
    rw [analyse, analyse, ← corresponds.classify_eq]
    apply tandem_record.bind
    intro held
    -- A record that has its shape, or is being analysed already, is left alone.
    split
    · split
      · rename_i waiting
        apply (tandem_linkTarget corresponds).bind
        intro _
        apply tandem_ledger.bind
        intro ledger
        -- What is developed inside is analysed with this record pending no more.
        refine (tandem_develop corresponds fun _ _ _ =>
          ih _ (length_erase_lt waiting) rfl).bind fun shape => ?_
        apply tandem_updateRecord.bind
        intro _
        exact (tandem_plan corresponds).bind fun _ => tandem_planNegation corresponds
      · exact .pure
    · exact .pure

theorem tandem_analyseAny :
    Tandem Model.EqUpToReports (analyseAny context site id role) (analyseAny context' site id role) :=
  tandem_ledger.bind fun _ => tandem_analyse corresponds

theorem tandem_pushVariant {scope : Option Nat} {implements : ClassRef} :
    Tandem Model.EqUpToReports (pushVariant context owner scope id other implements)
      (pushVariant context' owner scope id other implements) := by
  unfold pushVariant
  rw [← corresponds.settings]
  exact tandem_record.bind fun held => tandem_pushNested

theorem tandem_resolveBranch :
    Tandem Model.EqUpToReports (resolveBranch context owner id) (resolveBranch context' owner id) := by
  unfold resolveBranch
  rw [← corresponds.classify_eq]
  refine tandem_record.bind fun held => .look fun model model' models => ?_
  rw [← Model.declarationFor?_eq corresponds.tree models]
  dsimp only
  -- The branch refers to a declared class, which then implements the interface.
  split
  · split
    · apply tandem_updateDeclaration.bind
      intro _
      exact tandem_updateDeclaration.bind fun _ => tandem_importDeclaration
    · exact .pure
  · apply tandem_declaration.bind
    intro declared
    apply tandem_ledger.bind
    intro ledger
    -- Otherwise a class is nested for the branch, unless there is one.
    split
    · apply (tandem_pushVariant corresponds).bind
      intro index
      apply tandem_settle.bind
      intro _
      exact tandem_analyseObject corresponds fun _ _ _ => tandem_analyseAny corresponds
    · exact .pure

theorem tandem_joinProperty :
    Tandem Model.EqUpToReports (joinProperty context site id other) (joinProperty context' site id other) := by
  unfold joinProperty
  apply tandem_record.bind
  intro held
  apply (tandem_analyseAny corresponds).bind
  intro _
  apply tandem_ledger.bind
  intro ledger
  -- A property that the variant has already is given more checks.
  split
  · exact tandem_updateChecks
  · exact tandem_updateRecord

theorem tandem_addVariant :
    Tandem Model.EqUpToReports (addVariant context site id other) (addVariant context' site id other) := by
  unfold addVariant
  apply tandem_record.bind
  intro branch
  apply tandem_declaration.bind
  intro declared
  dsimp only
  -- The branch gets a variant unless a class was made for it before.
  split
  · apply tandem_copyForVariant.bind
    intro variant
    apply (tandem_pushVariant corresponds).bind
    intro index
    apply tandem_settle.bind
    intro _
    apply tandem_record.bind
    intro branch
    -- Properties join first and required names next.
    refine Tandem.bind (.forM fun property _ => tandem_joinProperty corresponds) fun _ => ?_
    apply tandem_record.bind
    intro container
    apply tandem_record.bind
    intro branch
    refine Tandem.bind (.forM fun name _ => tandem_joinRequired) fun _ => ?_
    -- The plan comes last, and reconciling depends on the record alone.
    exact (tandem_plan corresponds).bind fun _ => tandem_reconcileRequired
  · exact .pure

theorem tandem_addVariants :
    Tandem Model.EqUpToReports (addVariants context site id) (addVariants context' site id) :=
  tandem_record.bind fun _ => .forM fun _ _ => tandem_addVariant corresponds

theorem tandem_addNestedVariants {steps index : Nat} :
    Tandem Model.EqUpToReports (addNestedVariants context owner steps index)
      (addNestedVariants context' owner steps index) := by
  -- The number of classes that may still come is counted down.
  induction steps generalizing index with
  | zero => exact .pure
  | succ steps ih =>
    rw [addNestedVariants, addNestedVariants]
    apply tandem_declaration.bind
    intro declared
    -- The walk ends behind the last nested class.
    split
    · exact .pure
    · -- Only a class that is no variant itself gets variants.
      split
      · exact (tandem_addVariants corresponds).bind fun _ => ih
      · exact ih

theorem tandem_resolveVariants :
    Tandem Model.EqUpToReports (resolveVariants context owner) (resolveVariants context' owner) := by
  unfold resolveVariants
  rw [← corresponds.tree.size]
  apply tandem_declaration.bind
  intro declared
  -- Classes that were resolved before are passed over.
  split
  · apply tandem_updateDeclaration.bind
    intro _
    split
    · -- The nested classes come last, whatever the declaration is itself.
      have nested : Tandem Model.EqUpToReports
          (do
            let bound := (← declaration owner).nested.size + context.tree.schemas.size
              + (← ledger).size
            addNestedVariants context owner (bound + 1) 0)
          (do
            let bound := (← declaration owner).nested.size + context.tree.schemas.size
              + (← ledger).size
            addNestedVariants context' owner (bound + 1) 0) :=
        tandem_declaration.bind fun _ => tandem_ledger.bind fun _ => tandem_addNestedVariants corresponds
      -- An interface resolves its branches, and a class adds variants for them.
      split
      · apply tandem_record.bind
        intro held
        exact (Tandem.forM fun branch _ => tandem_resolveBranch corresponds).bind fun _ => nested
      · exact (tandem_addVariants corresponds).bind fun _ => nested
    · exact .pure
  · exact .pure

theorem tandem_analyseClass :
    Tandem Model.EqUpToReports (analyseClass context owner) (analyseClass context' owner) := by
  unfold analyseClass
  refine tandem_declaration.bind fun held => .look fun model model' models => ?_
  rw [← Model.base?_eq corresponds.tree models]
  dsimp only
  -- The members are analysed whether there is a base or not.
  have members : Tandem Model.EqUpToReports
      (do
        updateRecord held.record fun record => { record with shape := some .object }
        let now ← get
        analyseObject context (analyseAny context) ⟨owner, none⟩ held.record
          ((model.base? context.tree owner).map fun base => (now.declaration base).record))
      (do
        updateRecord held.record fun record => { record with shape := some .object }
        let now ← get
        analyseObject context' (analyseAny context') ⟨owner, none⟩ held.record
          ((model.base? context.tree owner).map fun base => (now.declaration base).record)) := by
    refine tandem_updateRecord.bind fun _ => .look ?_
    rintro now _ ⟨reported, rfl⟩
    exact tandem_analyseObject corresponds fun _ _ _ => tandem_analyseAny corresponds
  -- A base is noted in both classes before the members are analysed.
  split
  · apply tandem_updateDeclaration.bind
    intro _
    apply tandem_updateDeclaration.bind
    intro _
    exact tandem_importDeclaration.bind fun _ => members
  · exact members

theorem tandem_analyseDeclaration :
    Tandem Model.EqUpToReports (analyseDeclaration context owner) (analyseDeclaration context' owner) := by
  unfold analyseDeclaration
  apply tandem_declaration.bind
  intro held
  -- The kind of the declaration tells what there is to analyse.
  split
  · exact tandem_updateRecord
  · exact tandem_updateRecord
  · exact tandem_analyseClass corresponds

theorem tandem_resolveMembers :
    Tandem Model.EqUpToReports (resolveMembers context owner) (resolveMembers context' owner) := by
  unfold resolveMembers
  refine .look fun model model' models => ?_
  rw [← Model.allBases_eq corresponds.tree models]
  obtain ⟨_, rfl⟩ := models
  -- All classes on the way are marked first, and then analysed one by one.
  refine (Tandem.forM fun id _ => tandem_updateDeclaration).bind fun _ => ?_
  exact .forM fun id _ => tandem_analyseDeclaration corresponds

/-- All declarations are resolved alike. -/
theorem tandem_resolve : Tandem Model.EqUpToReports (resolve context) (resolve context') := by
  unfold resolve
  refine .look fun model model' models => ?_
  rw [← Model.circularBase?_eq corresponds.tree models]
  obtain ⟨_, rfl⟩ := models
  have resolved : Tandem Model.EqUpToReports
      (do model.ids.forM (resolveMembers context); model.ids.forM (resolveVariants context))
      (do model.ids.forM (resolveMembers context'); model.ids.forM (resolveVariants context')) := by
    refine Tandem.bind (.forM fun id _ => tandem_resolveMembers corresponds) fun _ => ?_
    exact .forM fun id _ => tandem_resolveVariants corresponds
  -- A circle of bases is reported by the same fault, as it is the same circle.
  split
  · exact Tandem.throw.bind fun _ => resolved
  · exact resolved

/-- Documents get classes of the same names. -/
theorem tandem_className {root : RootSchema} :
    Tandem Model.EqUpToReports (className context root) (className context' root) := by
  unfold className
  rw [← corresponds.settings, ← corresponds.tree.title?_eq]
  dsimp only
  -- The settings, the location or the title give the name; as a last resort it is counted.
  split
  · exact .pure
  · exact tandem_countedName

theorem tandem_declareRoot {root : RootSchema} :
    Tandem Model.EqUpToReports (declareRoot context root) (declareRoot context' root) := by
  unfold declareRoot
  rw [← corresponds.classify_eq, ← corresponds.settings]
  refine (tandem_survey (Survey.tandem_begin corresponds.tree)).bind fun id => ?_
  apply tandem_ledger.bind
  intro ledger
  -- A class is declared for an object, an enum or a union, and anything else is reported.
  split
  · apply (tandem_className corresponds).bind
    intro name
    exact tandem_declare.bind fun _ => .pure
  · exact tandem_survey Survey.tandem_report

/-- All classes of documents are built alike. -/
theorem tandem_build {roots : List RootSchema} :
    Tandem Model.EqUpToReports (build context roots) (build context' roots) :=
  (Tandem.forM fun _ _ => tandem_declareRoot corresponds).bind fun _ => tandem_resolve corresponds

end

end Modelling

/-- Whether two trees may stand for each other. Their schemas are gathered in the same records, which
have the same shapes and get the same checks, and the same classes are built for them, or the same
fault is met; only what is reported on the way may differ. -/
structure SchemaTree.Interchanges (tree tree' : SchemaTree) : Prop where
  records : ∀ schemas : List SchemaId,
    Tandem Survey.SameLedger (schemas.mapM (Survey.begin tree)) (schemas.mapM (Survey.begin tree'))
  shapes : ∀ settings ledger id promoteEnums,
    Context.classify { tree, settings } ledger id promoteEnums =
      Context.classify { tree := tree', settings } ledger id promoteEnums
  checks : ∀ settings owner id shape,
    Tandem Model.EqUpToReports (Modelling.plan { tree, settings } owner id shape)
      (Modelling.plan { tree := tree', settings } owner id shape)
  classes : ∀ settings roots,
    Tandem Model.EqUpToReports (Modelling.build { tree, settings } roots)
      (Modelling.build { tree := tree', settings } roots)

/-- Trees that say the same may stand for each other. -/
theorem SchemaTree.Concurs.interchanges {tree tree' : SchemaTree} (concurs : tree.Concurs tree') :
    tree.Interchanges tree' := by
  have contexts (settings : Settings) :
      Context.Corresponds { tree, settings } { tree := tree', settings } := ⟨concurs, rfl⟩
  constructor
  · intro schemas
    exact .mapM fun schema => Survey.tandem_begin concurs
  · intro settings ledger id promoteEnums
    rw [(contexts settings).classify_eq]
  · intro settings owner id shape
    exact Modelling.tandem_plan (contexts settings)
  · intro settings roots
    exact Modelling.tandem_build (contexts settings)

/-- Documents that are read are read in the second dialect as well, into a tree of the same schemas
that may stand for the first one: wherever pairs are replaced, and wherever their flags stand among
the members. The flags that are replaced must not be read as schemas of their own, and the values that
schemas keep as they are must be left alone. -/
theorem upgraded_interchanges {sources sources' : List SourceDocument} {roots : List RootSchema}
    {tree : SchemaTree} (proper : ∀ source ∈ sources, source.content.isProper = true)
    (upgrades : List.Forall₂ SourceDocument.Upgrades sources sources')
    (shelters : (registerDocuments sources).2.Shelters (registerDocuments sources').2
      (ReadWith sources))
    (read : (readRoots sources).run {} = .ok roots tree) :
    ∃ tree', (readRoots sources').run {} = .ok roots tree' ∧
      tree.Concurs tree' ∧ tree.Interchanges tree' := by
  -- Two empty trees concur, and from there every step of the one reading is retraced by the other.
  have start : SchemaTree.Concurs {} {} :=
    ⟨rfl, fun _ => rfl, fun id => .boolean true⟩
  obtain ⟨tree', read', concurs⟩ :=
    retraces_readRoots proper upgrades shelters {} {} start roots tree read
  exact ⟨tree', read', concurs, concurs.interchanges⟩

/-- An object with two pairs: one has its flag in front, and the other stands beside a reference to the
first one. -/
def pairedSource : SourceDocument :=
  { uri := "a"
    content := .object [("type", .string "object"), ("properties", .object [
      ("n", .object [("exclusiveMinimum", .bool true), ("type", .string "integer"),
        ("default", .integer 7), ("minimum", .integer 5)]),
      ("m", .object [("$ref", .string "#/properties/n"), ("maximum", .integer 9),
        ("exclusiveMaximum", .bool true)])])] }

/-- Both pairs may be replaced. -/
theorem interchanges_pairedSource :
    ∃ roots tree tree', (readRoots [pairedSource]).run {} = .ok roots tree ∧
      (readRoots [pairedSource.upgrade fun _ => true]).run {} = .ok roots tree' ∧
      tree.Concurs tree' ∧ tree.Interchanges tree' := by
  -- The first document is read, as a computation shows.
  have succeeds : (finished? (readRoots [pairedSource]) {}).isSome := by decide +kernel
  obtain ⟨⟨roots, tree⟩, finished⟩ := Option.isSome_iff_exists.mp succeeds
  have read := run_of_finished? finished
  have upgrades : List.Forall₂ SourceDocument.Upgrades [pairedSource]
      [pairedSource.upgrade fun _ => true] := .cons (pairedSource.upgrades_upgrade _) .nil
  -- The places that are read are the root and its two properties.
  have shelters : (registerDocuments [pairedSource]).2.Shelters
      (registerDocuments [pairedSource.upgrade fun _ => true]).2 (ReadWith [pairedSource]) := by
    apply shelters_of_places upgrades [⟨"a", ""⟩, ⟨"a", "/properties/n"⟩, ⟨"a", "/properties/m"⟩]
    all_goals decide +kernel
  obtain ⟨tree', read', alike⟩ := upgraded_interchanges (by decide +kernel) upgrades shelters read
  exact ⟨roots, tree, tree', read, read', alike⟩

/-- A pair whose flag a property refers to. -/
def flagSource : SourceDocument :=
  { uri := "a"
    content := .object [("minimum", .integer 5), ("exclusiveMinimum", .bool true), ("properties",
      .object [("p", .object [("$ref", .string "#/exclusiveMinimum")])])] }

/-- Two equal constants, the first of which a property takes as its schema. -/
def constantSource : SourceDocument :=
  { uri := "a"
    content := .object [
      ("allOf", .array [.object [("const", pair)], .object [("const", pair)]]),
      ("properties", .object [("p", .object [("$ref", .string "#/allOf/0/const")])])] }
where
  /-- A pair, as a value or as a schema. -/
  pair : Json := .object [("minimum", .integer 5), ("exclusiveMinimum", .bool true)]

/-- Elsewhere the dialects may come apart. A flag that is read is a schema that admits everything, but
the number in its place is none; and of two equal constants one may be replaced and the other not. -/
theorem unsheltered_differ :
    (∃ roots tree fault tree', (readRoots [flagSource]).run {} = .ok roots tree ∧
      (readRoots [flagSource.upgrade fun _ => true]).run {} = .error fault tree') ∧
    ∃ roots tree roots' tree', (readRoots [constantSource]).run {} = .ok roots tree ∧
      (readRoots [constantSource.upgrade (· = ["allOf", "0", "const"])]).run {} = .ok roots' tree' ∧
      ¬ tree.Interchanges tree' := by
  constructor
  · -- In the first case the second reading fails.
    have succeeds : (finished? (readRoots [flagSource]) {}).isSome := by decide +kernel
    have fails : (finished? (readRoots [flagSource.upgrade fun _ => true]) {}).isNone := by
      decide +kernel
    obtain ⟨⟨roots, tree⟩, finished⟩ := Option.isSome_iff_exists.mp succeeds
    obtain ⟨fault, tree', failed⟩ := exists_fault_of_finished? (Option.isNone_iff_eq_none.mp fails)
    exact ⟨roots, tree, fault, tree', run_of_finished? finished, failed⟩
  · -- Both documents are read, but only the first one can be gathered in a record.
    have differs : (finished? (readRoots [constantSource]) {}).any fun read =>
        (finished? (readRoots [constantSource.upgrade (· = ["allOf", "0", "const"])]) {}).any fun read' =>
          (finished? ([⟨0⟩].mapM (Survey.begin read.2)) {}).isSome &&
            (finished? ([⟨0⟩].mapM (Survey.begin read'.2)) {}).isNone := by
      decide +kernel
    obtain ⟨⟨roots, tree⟩, finished, differs⟩ := (Option.any_eq_true _ _).mp differs
    obtain ⟨⟨roots', tree'⟩, finished', differs⟩ := (Option.any_eq_true _ _).mp differs
    obtain ⟨succeeds, fails⟩ := Bool.and_eq_true_iff.mp differs
    obtain ⟨⟨ids, last⟩, walked⟩ := Option.isSome_iff_exists.mp succeeds
    obtain ⟨fault, last', failed⟩ := exists_fault_of_finished? (Option.isNone_iff_eq_none.mp fails)
    refine ⟨roots, tree, roots', tree', run_of_finished? finished, run_of_finished? finished', ?_⟩
    -- Trees that may stand for each other would be gathered alike.
    intro alike
    have together := alike.records [⟨0⟩] {} {} rfl
    have walked : [⟨0⟩].mapM (Survey.begin tree) {} = .ok ids last := run_of_finished? walked
    have failed : [⟨0⟩].mapM (Survey.begin tree') {} = .error fault last' := failed
    rw [walked, failed] at together
    exact together

end SchemaClasses
