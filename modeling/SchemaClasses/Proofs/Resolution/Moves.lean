import SchemaClasses.Proofs.Resolution.Comparison
import SchemaClasses.Proofs.Resolution.Copies
import SchemaClasses.Proofs.Run

/-! A resolution is a sequence of moves, however it ends: single changes to a record, to a set of checks
or to a declaration. -/

namespace SchemaClasses

namespace Model

/-- The model in which a class is noted to extend its base, at both of them. -/
def based (model : Model) (id base : DeclarationId) : Model :=
  (model.updateDeclaration id fun declaration => { declaration with base := some base }).updateDeclaration
    base (·.addDerived id)

/-- The model in which a class is noted to implement another, at both of them. -/
def implemented (model : Model) (id interface : DeclarationId) : Model :=
  (model.updateDeclaration id (·.addInterface (.declaration interface))).updateDeclaration
    interface (·.addDerived id)

end Model

/-- A later state of a declaration that differs in the marks of what was resolved of it. -/
def Declaration.IsMarked (before after : Declaration) : Prop :=
  after = { before with isAnalysed := after.isAnalysed, hasVariants := after.hasVariants }

/-- A later state of a record that differs in what a resolution notes about it: its class and shape, what
it is to its base and to the class around it, and the properties of a variant. -/
def Record.NotedAs (before after : Record) : Prop :=
  after =
    { before with
      schema := after.schema
      nullable := after.nullable
      properties := after.properties
      oneOf := after.oneOf
      typeRef := after.typeRef
      shape := after.shape
      isRequired := after.isRequired
      baseProperty := after.baseProperty
      extended := after.extended
      overrides := after.overrides }

/-- What is reconciled with required names is noted. -/
theorem Record.notedAs_reconciled {record : Record} {required : List String} :
    record.NotedAs (record.reconciled required) := by
  unfold NotedAs Record.reconciled
  split
  · rfl
  · split <;> rfl

namespace Modelling

/-- A single change inside a declaration: something is noted about a record, a variant requires one name
more, a record is copied, checks are taken from a set or join it, a record is planned, a class is nested
or imported. -/
inductive Work (context : Context) : Model → Model → Prop where
  | note {model : Model} (id : RecordId) {change : Record → Record}
      (noted : ∀ record : Record, record.NotedAs (change record)) :
      Work context model (model.updateRecord id change)
  | require {model : Model} (id : RecordId) (name : String) :
      Work context model (model.updateRecord id (·.addRequired name))
  | copy {model : Model} (id : RecordId) :
      Work context model (model.withLedger (model.ledger.duplicate id).2)
  | thin {model : Model} (id : RecordId) (set : CheckSet) :
      Work context model (model.withLedger (model.ledger.updateChecks id (·.removeAll set)))
  | extend {model : Model} (id : RecordId) (set : CheckSet) :
      Work context model (model.withLedger (model.ledger.updateChecks id (·.extend set)))
  | plan {model : Model} (owner : DeclarationId) (id : RecordId) (shape : Shape) :
      Work context model (model.plan context owner id shape)
  | nest {model : Model} (owner : DeclarationId) (added : NestedClass) :
      Work context model (model.updateDeclaration owner fun declaration =>
        { declaration with nested := declaration.nested.push added })
  | importing {model : Model} (owner : DeclarationId) (name : String) :
      Work context model (model.updateDeclaration owner (·.addImport name))

/-- A single change of a resolution: one inside a declaration, a link between two declarations, or a mark
of what was resolved. -/
inductive Move (context : Context) : Model → Model → Prop where
  | work {before after : Model} (work : Work context before after) : Move context before after
  | based {model : Model} (id base : DeclarationId) : Move context model (model.based id base)
  | implemented {model : Model} (id interface : DeclarationId) :
      Move context model (model.implemented id interface)
  | mark {model : Model} (id : DeclarationId) {change : Declaration → Declaration}
      (marked : ∀ declaration : Declaration, declaration.IsMarked (change declaration)) :
      Move context model (model.updateDeclaration id change)

/-- Any number of moves. -/
abbrev Moves (context : Context) : Model → Model → Prop := Relation.ReflTransGen (Move context)

/-- Whether a fault is that a name has no free form. -/
def LacksName : Fault → Prop
  | .namesExhausted _ => True
  | _ => False

variable {first : Model} {context : Context} {α : Type}

/-- Reading a record changes nothing. -/
@[simp] theorem closes_record {id : RecordId} {start : Model} {done : Record → Model → Prop}
    {failed : Fault → Model → Prop} :
    Closes (record id) start done failed ↔ done (start.ledger.record id) start := Iff.rfl

/-- Reading a declaration changes nothing. -/
@[simp] theorem closes_declaration {id : DeclarationId} {start : Model}
    {done : Declaration → Model → Prop} {failed : Fault → Model → Prop} :
    Closes (declaration id) start done failed ↔ done (start.declaration id) start := Iff.rfl

/-- A run that works inside declarations however it ends, and that only the lack of a name stops. -/
abbrev Labours (context : Context) (first : Model) (step : Modelling α) : Prop :=
  Keeps (Relation.ReflTransGen (Work context) first) LacksName step

/-- A single change as a run. -/
theorem labours_modify {change : Model → Model} (work : ∀ model, Work context model (change model)) :
    Labours context first (modify change) := fun start works => works.tail (work start)

theorem labours_updateRecord {id : RecordId} {change : Record → Record}
    (noted : ∀ record : Record, record.NotedAs (change record)) :
    Labours context first (updateRecord id change) := labours_modify fun _ => .note id noted

theorem labours_addRequired {id : RecordId} {name : String} :
    Labours context first (updateRecord id (·.addRequired name)) := labours_modify fun _ => .require id name

theorem labours_addImport {id : DeclarationId} {name : String} :
    Labours context first (updateDeclaration id (·.addImport name)) :=
  labours_modify fun _ => .importing id name

theorem labours_record {id : RecordId} : Labours context first (record id) := fun _ works => works

theorem labours_ledger : Labours context first ledger := fun _ works => works

theorem labours_declaration {id : DeclarationId} : Labours context first (declaration id) :=
  fun _ works => works

theorem labours_plan {owner : DeclarationId} {id : RecordId} {shape : Shape} :
    Labours context first (plan context owner id shape) := labours_modify fun _ => .plan owner id shape

/-- A copy is made without a fault. -/
theorem labours_duplicate {id : RecordId} :
    Labours context first (survey (Survey.onLedger (·.duplicate id))) :=
  fun _ works => works.tail (.copy id)

theorem labours_allocateName {candidate : String} {taken : String → Bool} :
    Labours context first (allocateName candidate taken) := by
  intro start works
  unfold allocateName
  split
  · exact works
  · rename_i fault refused
    -- Allocation knows no other fault.
    have lacks : LacksName fault := by
      rw [(allocate_eq_error_iff.mp refused).1]
      trivial
    exact ⟨works, lacks⟩

theorem labours_settle {id : RecordId} {ref : ClassRef} : Labours context first (settle id ref) :=
  Keeps.bind (labours_updateRecord fun _ => rfl) fun _ => .pure

theorem labours_planNegation {owner : DeclarationId} {id : RecordId} :
    Labours context first (planNegation context owner id) := by
  refine labours_record.bind fun held => ?_
  split
  · refine labours_record.bind fun negation => ?_
    split
    · exact labours_ledger.bind fun _ => Keeps.bind (labours_updateRecord fun _ => rfl) fun _ => labours_plan
    · exact .pure
  · exact .pure

theorem labours_importDeclaration {owner other : DeclarationId} :
    Labours context first (importDeclaration owner other) := by
  refine labours_declaration.bind fun used => labours_declaration.bind fun held => ?_
  split
  · exact labours_addImport
  · exact .pure

theorem labours_pushNested {owner : DeclarationId} {candidate : String}
    {nested : String → NestedClass} : Labours context first (pushNested owner candidate nested) := by
  refine labours_declaration.bind fun declared => labours_allocateName.bind fun name => ?_
  have pushed : Labours context first (updateDeclaration owner fun declaration =>
      { declaration with nested := declaration.nested.push (nested name) }) :=
    labours_modify fun _ => .nest owner (nested name)
  exact pushed.bind fun _ => .pure

theorem labours_nestedClass {site : Site} {id : RecordId} {kind : ClassKind} {role : Role} :
    Labours context first (nestedClass context site id kind role) := by
  refine labours_record.bind fun held => labours_declaration.bind fun owner => ?_
  split
  · exact .pure
  · exact labours_pushNested.bind fun _ => .pure

theorem labours_linkTarget {owner : DeclarationId} {id : RecordId} :
    Labours context first (linkTarget context owner id) := by
  refine labours_record.bind fun held => labours_ledger.bind fun ledger => ?_
  dsimp only
  -- Only a record with a target and without a class is linked.
  split
  · split
    · refine Keeps.get.bind fun model => ?_
      -- A declaration for the target is imported.
      split
      · exact Keeps.bind (labours_updateRecord fun _ => rfl) fun _ => labours_importDeclaration
      · refine labours_declaration.bind fun held => ?_
        split
        · exact labours_updateRecord fun _ => rfl
        · exact .pure
    · exact .pure
  · exact .pure

theorem labours_inheritNestedClass {property baseProperty : RecordId} :
    Labours context first (inheritNestedClass property baseProperty) := by
  refine labours_record.bind fun held => ?_
  -- Only a property without a class of its own takes that of the base.
  split
  · refine labours_record.bind fun base => ?_
    split
    · refine labours_declaration.bind fun owner => ?_
      dsimp only
      -- The class has to have been made for the schema of the property.
      split
      · exact labours_updateRecord fun _ => rfl
      · exact .pure
    · exact .pure
  · exact .pure

theorem labours_compareWithBase {owner : DeclarationId} {property baseProperty : RecordId} :
    Labours context first (compareWithBase owner property baseProperty) := by
  refine labours_record.bind fun held => labours_record.bind fun base => ?_
  split
  · refine Keeps.get.bind fun model => ?_
    exact Keeps.bind (fun _ works => works.tail (.thin property _)) fun _ => labours_updateRecord fun _ => rfl
  · exact Keeps.bind (labours_updateRecord fun _ => rfl) fun _ => labours_updateRecord fun _ => rfl

theorem labours_reconcileRequired {id : RecordId} : Labours context first (reconcileRequired id) :=
  labours_record.bind fun _ => .forM fun _ _ => labours_updateRecord fun _ => Record.notedAs_reconciled

/-- A property is analysed inside its declaration: the nested class of the base, the analysis, and the
comparison with the base. -/
theorem labours_analyseProperty {analyse : Analysis} {site : Site} {base : Option RecordId}
    {property : RecordId} (inner : ∀ site id role, Labours context first (analyse site id role)) :
    Labours context first (analyseProperty analyse site base property) := by
  refine labours_record.bind fun held => labours_ledger.bind fun ledger => ?_
  dsimp only
  cases base.bind (ledger.property? · (held.name.getD "")) with
  | none => exact (inner _ _ _).bind fun _ => .pure
  | some baseProperty =>
    exact labours_inheritNestedClass.bind fun _ => (inner _ _ _).bind fun _ => labours_compareWithBase

/-- An object is analysed inside its declaration if its members are. -/
theorem labours_analyseObject {analyse : Analysis} {site : Site} {id : RecordId}
    {base : Option RecordId} (inner : ∀ site id role, Labours context first (analyse site id role)) :
    Labours context first (analyseObject context analyse site id base) := by
  rw [analyseObject_eq]
  refine labours_record.bind fun held =>
    (Keeps.forM fun property _ => labours_analyseProperty inner).bind fun _ => ?_
  refine labours_record.bind fun held => (Keeps.forM fun _ _ => inner _ _ _).bind fun _ => ?_
  -- What is left are the value of additional properties, the checks and the required names.
  have rest : Labours context first (do
      plan context site.owner id .object
      planNegation context site.owner id
      reconcileRequired id) :=
    labours_plan.bind fun _ => labours_planNegation.bind fun _ => labours_reconcileRequired
  refine labours_record.bind fun held => ?_
  split
  · exact (inner _ _ _).bind fun _ => rest
  · exact rest

theorem labours_develop {analyse : Analysis} {site : Site} {id : RecordId} {role : Role} {shape : Shape}
    (inner : ∀ site id role, Labours context first (analyse site id role)) :
    Labours context first (develop context analyse site id role shape) := by
  unfold develop
  split
  · -- An object: its nested class is analysed if it is new.
    refine labours_nestedClass.bind fun found => labours_settle.bind fun shape => ?_
    split
    · exact (labours_analyseObject inner).bind fun _ => .pure
    · exact .pure
  · exact labours_nestedClass.bind fun found => labours_settle
  · -- An array gets its shape before its items are looked at.
    refine Keeps.bind (labours_updateRecord fun _ => rfl) fun _ => labours_record.bind fun held => ?_
    split
    · exact (inner _ _ _).bind fun _ => .pure
    · exact .pure
  · -- A custom class may bring an import.
    split
    · exact labours_addImport.bind fun _ => .pure
    · exact .pure
  · exact .pure

/-- A record is analysed inside the declaration that owns it. -/
theorem labours_analyse {pending : List RecordId} {site : Site} {id : RecordId} {role : Role} :
    Labours context first (analyse context pending site id role) := by
  -- The records inside are analysed with fewer pending ones, so the induction is on their number.
  induction size : pending.length using Nat.strong_induction_on generalizing pending site id role with
  | _ size ih =>
    subst size
    rw [analyse]
    refine labours_record.bind fun held => ?_
    split
    · split
      · rename_i waiting
        have inner (site : Site) (id' : RecordId) (role : Role) :
            Labours context first (analyse context (pending.erase id) site id' role) :=
          ih _ (length_erase_lt waiting) rfl
        refine labours_linkTarget.bind fun _ => labours_ledger.bind fun ledger => ?_
        refine (labours_develop inner).bind fun shape => Keeps.bind (labours_updateRecord fun _ => rfl) fun _ => ?_
        exact labours_plan.bind fun _ => labours_planNegation
      · exact .pure
    · exact .pure

theorem labours_analyseAny {site : Site} {id : RecordId} {role : Role} :
    Labours context first (analyseAny context site id role) := labours_ledger.bind fun _ => labours_analyse

theorem labours_pushVariant {owner : DeclarationId} {scope : Option Nat} {record branch : RecordId}
    {implements : ClassRef} :
    Labours context first (pushVariant context owner scope record branch implements) :=
  labours_record.bind fun _ => labours_pushNested

theorem labours_copyForVariant {container : RecordId} {origin : Option SchemaId} :
    Labours context first (copyForVariant container origin) := by
  refine labours_duplicate.bind fun variant => labours_record.bind fun held => ?_
  refine (Keeps.mapM fun _ _ => labours_duplicate).bind fun properties => ?_
  exact Keeps.bind (labours_updateRecord fun _ => rfl) fun _ => .pure

theorem labours_joinProperty {site : Site} {variant property : RecordId} :
    Labours context first (joinProperty context site variant property) := by
  refine labours_record.bind fun held => labours_analyseAny.bind fun _ => labours_ledger.bind fun ledger => ?_
  split
  · rename_i existing found
    exact fun _ works => works.tail (.extend existing _)
  · exact labours_updateRecord fun _ => rfl

theorem labours_joinRequired {variant : RecordId} {already : List String} {name : String} :
    Labours context first (joinRequired variant already name) := by
  unfold joinRequired
  split
  · refine labours_ledger.bind fun ledger => ?_
    split
    · exact Keeps.bind (labours_updateRecord fun _ => rfl) fun _ => labours_addRequired
    · exact labours_addRequired
  · exact labours_addRequired

/-- A variant is made inside the declaration of its class. -/
theorem labours_addVariant {site : Site} {container branch : RecordId} :
    Labours context first (addVariant context site container branch) := by
  refine labours_record.bind fun held => labours_declaration.bind fun owner => ?_
  split
  · refine labours_copyForVariant.bind fun variant => ?_
    refine labours_pushVariant.bind fun index => labours_settle.bind fun _ => ?_
    -- The properties join first, then the names, and the plan comes last.
    refine labours_record.bind fun held => (Keeps.forM fun _ _ => labours_joinProperty).bind fun _ => ?_
    refine labours_record.bind fun held => labours_record.bind fun branch => ?_
    exact (Keeps.forM fun _ _ => labours_joinRequired).bind fun _ =>
      labours_plan.bind fun _ => labours_reconcileRequired
  · exact .pure

theorem labours_addVariants {site : Site} {container : RecordId} :
    Labours context first (addVariants context site container) :=
  labours_record.bind fun _ => .forM fun _ _ => labours_addVariant

theorem labours_addNestedVariants {owner : DeclarationId} {steps index : Nat} :
    Labours context first (addNestedVariants context owner steps index) := by
  induction steps generalizing index with
  | zero => exact .pure
  | succ steps ih =>
    -- Each nested class is passed over or gets its variants.
    refine labours_declaration.bind fun held => ?_
    split
    · exact .pure
    · split
      · exact labours_addVariants.bind fun _ => ih
      · exact ih

end Modelling

/-- What holds throughout the resolution of so many declarations: neither work inside a declaration nor a
link between a class and its base or one that it implements breaks it. -/
structure Unbroken (context : Context) (count : Nat) (holds : Model → Prop) : Prop where
  size : ∀ {model}, holds model → model.declarations.size = count
  work : ∀ {model model'}, holds model → Modelling.Work context model model' → holds model'
  based : ∀ {model id base}, holds model → id.index < count →
    model.Extends context.tree id base → holds (model.based id base)
  implemented : ∀ {model id interface}, holds model → id.index < count → interface.index < count →
    id ≠ interface → holds (model.implemented id interface)

/-- What is not even broken by marks of what was resolved. -/
structure Steadfast (context : Context) (count : Nat) (holds : Model → Prop) : Prop
    extends Unbroken context count holds where
  marked : ∀ {model id change}, holds model →
    (∀ declaration : Declaration, declaration.IsMarked (change declaration)) →
    holds (model.updateDeclaration id change)

namespace Unbroken

open Modelling

variable {context : Context} {count : Nat} {holds : Model → Prop} {id : DeclarationId}

/-- What no single change breaks is kept by many. -/
theorem works (unbroken : Unbroken context count holds) {before after : Model} (held : holds before)
    (works : Relation.ReflTransGen (Work context) before after) : holds after := by
  induction works with
  | refl => exact held
  | tail _ work ih => exact unbroken.work ih work

/-- A run inside declarations keeps what no work breaks. -/
theorem labours (unbroken : Unbroken context count holds) {α : Type} {step : Modelling α}
    (labours : ∀ first, Labours context first step) : Keeps holds LacksName step := by
  intro start held
  exact (labours start start .refl).imp (fun _ _ works => unbroken.works held works)
    fun _ _ failure => failure.imp_left (unbroken.works held)

/-- A class is opened: its base is noted on both sides, and imported. -/
theorem openClass (unbroken : Unbroken context count holds) (inside : id.index < count)
    {record : RecordId} : Keeps holds LacksName (openClass context id record) := by
  intro start held
  simp only [Modelling.openClass, closes_bind, closes_get]
  -- What comes behind the base is inside the declaration.
  have rest (base : Option DeclarationId) : Keeps holds LacksName (do
      updateRecord record fun record => { record with shape := some .object }
      let model ← get
      return base.map fun base => (model.declaration base).record) :=
    unbroken.labours fun first =>
      Keeps.bind (labours_updateRecord fun _ => rfl) fun _ => Keeps.get.bind fun _ => .pure
  cases extends' : start.base? context.tree id with
  | none => exact rest none start held
  -- The note on both sides is a step of its own, and the import follows.
  | some base =>
    have imported : Keeps holds LacksName (importDeclaration id base) :=
      unbroken.labours fun _ => labours_importDeclaration
    exact (imported.bind fun _ => rest (some base)) _ (unbroken.based held inside extends')

/-- A declaration is analysed. -/
theorem analyseDeclaration (unbroken : Unbroken context count holds) (inside : id.index < count) :
    Keeps holds LacksName (analyseDeclaration context id) := by
  refine (unbroken.labours fun _ => labours_declaration).bind fun declared => ?_
  cases declared.kind with
  | enumeration =>
    -- Neither an enumeration nor an interface asks for more than a shape.
    show Keeps holds LacksName (updateRecord _ _)
    exact unbroken.labours fun _ => labours_updateRecord fun _ => rfl
  | interface =>
    show Keeps holds LacksName (updateRecord _ _)
    exact unbroken.labours fun _ => labours_updateRecord fun _ => rfl
  | concrete =>
    show Keeps holds LacksName (analyseClass context id)
    rw [analyseClass_eq]
    refine (unbroken.labours fun _ => labours_declaration).bind fun held => ?_
    exact (unbroken.openClass inside).bind fun base =>
      unbroken.labours fun _ => labours_analyseObject fun _ _ _ => labours_analyseAny

/-- A branch of a union is resolved: a declared class implements the union, on both sides. -/
theorem resolveBranch (unbroken : Unbroken context count holds) (inside : id.index < count)
    {branch : RecordId} : Keeps holds LacksName (resolveBranch context id branch) := by
  intro start held
  simp only [Modelling.resolveBranch, closes_bind, closes_record, closes_get]
  cases stands : (start.ledger.record branch).schema.bind (start.declarationFor? context.tree) with
  -- The branch is declared elsewhere, and the two are related unless they are the same.
  | some implementor =>
    dsimp only
    split
    · rename_i different
      obtain ⟨schema, -, stands⟩ := Option.bind_eq_some_iff.mp stands
      have inside' : implementor.index < count := by
        rw [← unbroken.size held]
        exact Model.inside_of_declarationAlong? stands
      have imported : Keeps holds LacksName (importDeclaration implementor id) :=
        unbroken.labours fun _ => labours_importDeclaration
      exact imported _ (unbroken.implemented held inside' inside different)
    · exact held
  | none =>
    -- A class for the branch is nested in the union.
    refine unbroken.labours (fun first => labours_declaration.bind fun declared => ?_) start held
    refine labours_ledger.bind fun ledger => ?_
    split
    · exact labours_pushVariant.bind fun index => labours_settle.bind fun _ =>
        labours_analyseObject fun _ _ _ => labours_analyseAny
    · exact .pure

end Unbroken

namespace Steadfast

open Modelling

variable {context : Context} {count : Nat} {holds : Model → Prop} {id : DeclarationId}

/-- A declaration and its bases are analysed. -/
theorem resolveMembers (steadfast : Steadfast context count holds) (inside : id.index < count) :
    Keeps holds LacksName (resolveMembers context id) := by
  intro start held
  simp only [Modelling.resolveMembers, closes_bind, closes_get]
  generalize listed : (id :: start.allBases context.tree id).takeWhile
    (fun id => !(start.declaration id).isAnalysed) = fresh
  -- All classes on the way are declared.
  have declared : ∀ other ∈ fresh, other.index < count := by
    intro other member
    rw [← listed] at member
    rcases List.mem_cons.mp (List.takeWhile_subset _ member) with rfl | met
    · exact inside
    · obtain ⟨k, -, -, reached⟩ := Model.mem_bases.mp met
      rw [← steadfast.size held] at inside ⊢
      exact Model.inside_of_baseAfter inside reached
  have marked : Keeps holds LacksName (fresh.forM fun id =>
      updateDeclaration id fun declaration => { declaration with isAnalysed := true }) :=
    .forM fun _ _ _ kept => steadfast.marked kept fun _ => rfl
  -- The marks come first, and the analysis of each class keeps what holds.
  refine (marked start held).mono fun _ middle kept => ?_
  exact Keeps.forM (fun other member => steadfast.analyseDeclaration
    (declared other (List.mem_reverse.mp member))) middle kept

/-- The branches of a declaration and of the classes nested in it are resolved. -/
theorem resolveVariants (steadfast : Steadfast context count holds) (inside : id.index < count) :
    Keeps holds LacksName (resolveVariants context id) := by
  refine (steadfast.labours fun _ => labours_declaration).bind fun declared => ?_
  split
  · refine Keeps.bind (fun start held => steadfast.marked held fun _ => rfl) fun _ => ?_
    have nested : Keeps holds LacksName (do
        let bound := (← declaration id).nested.size + context.tree.schemas.size + (← ledger).size
        addNestedVariants context id (bound + 1) 0) :=
      steadfast.labours fun _ => labours_declaration.bind fun _ => labours_ledger.bind fun _ =>
        labours_addNestedVariants
    split
    · -- An interface resolves its branches, any other kind gets variants.
      split
      · refine (steadfast.labours fun _ => labours_record).bind fun held => ?_
        exact (Keeps.forM fun _ _ => steadfast.resolveBranch inside).bind fun _ => nested
      · exact (steadfast.labours fun _ => labours_addVariants).bind fun _ => nested
    · exact .pure
  · exact .pure

/-- Without a circle of bases all declarations are resolved: nothing but the lack of a name stops
that. -/
theorem resolveAll (steadfast : Steadfast context count holds) {ids : List DeclarationId}
    (inside : ∀ id ∈ ids, id.index < count) :
    Keeps holds LacksName (do
      ids.forM (Modelling.resolveMembers context)
      ids.forM (Modelling.resolveVariants context)) :=
  (Keeps.forM fun id member => steadfast.resolveMembers (inside id member)).bind fun _ =>
    .forM fun id member => steadfast.resolveVariants (inside id member)

end Steadfast

namespace Modelling

variable {context : Context} {model before after first : Model}

/-- Where bases run in a circle, nothing is resolved. -/
theorem resolve_of_circularBase? {id : DeclarationId}
    (found : model.circularBase? context.tree = some id) :
    resolve context model = .error (.circularBase (model.declaration id).qualifiedName) model := by
  rw [resolve, get_bind, found]
  rfl

/-- Without a circle, all members are resolved and then all branches. -/
theorem resolve_of_grounded (none : model.circularBase? context.tree = none) :
    resolve context model = (do
      model.ids.forM (resolveMembers context)
      model.ids.forM (resolveVariants context)) model := by
  rw [resolve, get_bind, none]

/-- No move declares a class or forgets one. -/
theorem Move.declarations_size (move : Move context before after) :
    after.declarations.size = before.declarations.size := by
  -- Each piece of work updates declarations in place or leaves them alone.
  cases move with
  | work work =>
    cases work with
    | plan owner id shape => exact Model.declarations_size_plan
    | nest owner added => exact Model.size_updateDeclaration
    | importing owner name => exact Model.size_updateDeclaration
    | _ => rfl
  | based id base => exact Model.size_updateDeclaration.trans Model.size_updateDeclaration
  | implemented id interface => exact Model.size_updateDeclaration.trans Model.size_updateDeclaration
  | mark id marked => exact Model.size_updateDeclaration

/-- A resolution makes nothing but moves. -/
theorem steadfast_moves : Steadfast context first.declarations.size (Moves context first) where
  size moves := by
    induction moves with
    | refl => rfl
    | tail _ move ih => exact move.declarations_size.trans ih
  work moves work := moves.tail (.work work)
  based moves _ _ := moves.tail (.based _ _)
  implemented moves _ _ _ := moves.tail (.implemented _ _)
  marked moves marked := moves.tail (.mark _ marked)

/-- Moves lead from the state in which a resolution begins to the one in which it ends, whether it succeeds
or fails. -/
theorem moves_resolve : Moves context first (lastState (resolve context) first) := by
  cases found : first.circularBase? context.tree with
  | some id =>
    rw [lastState, resolve_of_circularBase? found]
  | none =>
    have steadfast : Steadfast context first.declarations.size (Moves context first) := steadfast_moves
    have kept := steadfast.resolveAll (fun id member => Model.mem_ids.mp member) first .refl
    rw [lastState, resolve_of_grounded found]
    exact (kept.imp (fun _ _ moves => moves) fun _ _ failure => failure.1).lastState

end Modelling

end SchemaClasses
