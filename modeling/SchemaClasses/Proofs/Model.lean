import SchemaClasses.Generation
import SchemaClasses.Proofs.Identifier
import SchemaClasses.Proofs.Survey.References
import SchemaClasses.Proofs.Survey.Sound

/-! What each change of a model does, and what the declarations of the documents leave behind. -/

namespace SchemaClasses

/-- Declaration numbers are equal when their indices are. -/
theorem DeclarationId.ext {a b : DeclarationId} (same : a.index = b.index) : a = b := by
  cases a
  cases b
  exact congrArg DeclarationId.mk same

namespace Model

variable {model : Model} {id other : DeclarationId}

/-- A number past the end stands for an empty declaration. -/
theorem declaration_of_size_le (past : model.declarations.size ≤ id.index) :
    model.declaration id = default := by
  simp [declaration, Array.getElem?_eq_none past]

/-- A change of a record leaves the declarations alone. -/
@[simp] theorem declaration_updateRecord {record : RecordId} {change : Record → Record} :
    (model.updateRecord record change).declaration id = model.declaration id := rfl

@[simp] theorem declarations_updateRecord {record : RecordId} {change : Record → Record} :
    (model.updateRecord record change).declarations = model.declarations := rfl

@[simp] theorem ledger_updateRecord {record : RecordId} {change : Record → Record} :
    (model.updateRecord record change).ledger = model.ledger.update record change := rfl

/-- A change of a declaration leaves the records alone. -/
@[simp] theorem ledger_updateDeclaration {change : Declaration → Declaration} :
    (model.updateDeclaration id change).ledger = model.ledger := rfl

/-- A change of a declaration adds none. -/
@[simp] theorem size_updateDeclaration {change : Declaration → Declaration} :
    (model.updateDeclaration id change).declarations.size = model.declarations.size := by
  simp [updateDeclaration]

/-- A declaration after a change is the old one or the changed one. -/
theorem declaration_updateDeclaration {change : Declaration → Declaration} :
    (model.updateDeclaration id change).declaration other =
      if other = id ∧ id.index < model.declarations.size then change (model.declaration id)
      else model.declaration other := by
  by_cases same : other = id
  · subst same
    by_cases present : other.index < model.declarations.size
    · simp [declaration, updateDeclaration, Array.getElem_modify, present]
    · -- Behind the last declaration there is nothing to change.
      have past : model.declarations.size ≤ other.index := Nat.not_lt.mp present
      rw [declaration_of_size_le (by simpa using past), declaration_of_size_le past]
      simp [present]
  · have apart : id.index ≠ other.index := fun index => same (DeclarationId.ext index.symm)
    simp [declaration, updateDeclaration, Array.getElem?_modify, apart, same]

/-- Other declarations do not show a change. -/
theorem declaration_updateDeclaration_of_ne {change : Declaration → Declaration}
    (different : other ≠ id) :
    (model.updateDeclaration id change).declaration other = model.declaration other := by
  rw [declaration_updateDeclaration, if_neg fun same => different same.1]

/-- Every declaration is related to what becomes of it if the changed one is, and each to itself. -/
theorem rel_updateDeclaration {relation : Declaration → Declaration → Prop}
    {change : Declaration → Declaration} (refl : ∀ declaration, relation declaration declaration)
    (changed : relation (model.declaration id) (change (model.declaration id))) :
    relation (model.declaration other) ((model.updateDeclaration id change).declaration other) := by
  rw [declaration_updateDeclaration]
  -- The case split is that of the update: the changed declaration, or one that is left alone.
  split
  · rename_i same
    rw [same.1]
    exact changed
  · exact refl _

/-- What a change keeps of its declaration it keeps of all. -/
theorem field_updateDeclaration {α : Type} (field : Declaration → α)
    {change : Declaration → Declaration}
    (kept : field (change (model.declaration id)) = field (model.declaration id)) :
    field ((model.updateDeclaration id change).declaration other) = field (model.declaration other) :=
  @rel_updateDeclaration _ _ _ (fun before after => field after = field before) _ (fun _ => rfl) kept

/-- A declaration that joins comes behind all others. -/
theorem declaration_push {added : Declaration} :
    { model with declarations := model.declarations.push added }.declaration id =
      if id.index = model.declarations.size then added else model.declaration id := by
  -- A lookup behind the old declarations finds the one that joins.
  simp only [declaration, Array.getD_eq_getD_getElem?, Array.getElem?_push]
  split <;> rfl

end Model

namespace Modelling

variable {model : Model}

/-- A step of the survey changes what was surveyed. -/
@[simp] theorem ends_survey {α : Type} {step : Surveying α} {done : α → Model → Prop}
    {failed : Model → Prop} :
    Ends (survey step) model done failed ↔
      Ends step model.survey (fun result last => done result { model with survey := last })
        (fun last => failed { model with survey := last }) := by
  unfold Ends survey
  cases step model.survey <;> rfl

/-- Reading the ledger changes nothing. -/
@[simp] theorem ends_ledger {done : Ledger → Model → Prop} {failed : Model → Prop} :
    Ends ledger model done failed ↔ done model.ledger model := Iff.rfl

/-- Reading a record changes nothing. -/
@[simp] theorem ends_record {id : RecordId} {done : Record → Model → Prop} {failed : Model → Prop} :
    Ends (record id) model done failed ↔ done (model.ledger.record id) model := Iff.rfl

/-- Reading a declaration changes nothing. -/
@[simp] theorem ends_declaration {id : DeclarationId} {done : Declaration → Model → Prop}
    {failed : Model → Prop} :
    Ends (declaration id) model done failed ↔ done (model.declaration id) model := Iff.rfl

/-- A change of one record and of nothing else. -/
@[simp] theorem ends_updateRecord {id : RecordId} {change : Record → Record}
    {done : Unit → Model → Prop} {failed : Model → Prop} :
    Ends (updateRecord id change) model done failed ↔ done () (model.updateRecord id change) :=
  Iff.rfl

/-- A change of one declaration and of nothing else. -/
@[simp] theorem ends_updateDeclaration {id : DeclarationId} {change : Declaration → Declaration}
    {done : Unit → Model → Prop} {failed : Model → Prop} :
    Ends (updateDeclaration id change) model done failed ↔
      done () (model.updateDeclaration id change) := Iff.rfl

/-- A plan and nothing else. -/
@[simp] theorem ends_plan {context : Context} {owner : DeclarationId} {id : RecordId} {shape : Shape}
    {done : Unit → Model → Prop} {failed : Model → Prop} :
    Ends (plan context owner id shape) model done failed ↔
      done () (model.plan context owner id shape) := Iff.rfl

/-- A name is found without a change, and it is not taken, or there is none. -/
theorem ends_allocateName {candidate : String} {taken : String → Bool}
    {done : String → Model → Prop} {failed : Model → Prop}
    (found : ∀ name, taken name = false → done name model) (refused : failed model) :
    Ends (allocateName candidate taken) model done failed := by
  unfold allocateName
  -- A free form of the name is found, or all of them are taken.
  split
  · rename_i name allocated
    exact found name (free_of_allocate allocated)
  · exact refused

end Modelling

/-- Whether a declaration is as it was declared: nothing of it has been resolved. -/
structure Declaration.Raw (declaration : Declaration) : Prop where
  base : declaration.base = none
  derived : declaration.derived = []
  interfaces : declaration.interfaces = []
  nested : declaration.nested = #[]
  constants : declaration.constants = {}
  isAnalysed : declaration.isAnalysed = false
  hasVariants : declaration.hasVariants = false

/-- A model of which nothing has been resolved: sound records, and declarations that stand for
different roots. -/
structure Model.Declared (model : Model) : Prop where
  sound : model.ledger.Sound
  root : ∀ id : DeclarationId, id.index < model.declarations.size →
    (model.declaration id).record.index < model.ledger.size ∧
      model.ledger.IsRoot (model.declaration id).record
  apart : ∀ a b : DeclarationId, a.index < model.declarations.size →
    b.index < model.declarations.size →
    (model.declaration a).record = (model.declaration b).record → a = b
  raw : ∀ id : DeclarationId, (model.declaration id).Raw

namespace Model.Declared

variable {model : Model}

theorem empty : Declared {} where
  sound := .empty
  root _ present := absurd present (Nat.not_lt_zero _)
  apart _ _ present := absurd present (Nat.not_lt_zero _)
  raw _ := ⟨rfl, rfl, rfl, rfl, rfl, rfl, rfl⟩

/-- A root is surveyed behind the records that are there. -/
theorem begun (declared : model.Declared) {survey : Survey} {id : RecordId}
    (begun : Survey.Begun model.ledger survey.ledger id) : { model with survey }.Declared where
  sound := begun.sound
  root other present := by
    -- Roots stay roots when more records join behind them.
    obtain ⟨inside, root⟩ := declared.root other present
    exact ⟨Nat.lt_of_lt_of_le inside begun.undisturbed.size_le, begun.roots _ inside root⟩
  apart := declared.apart
  raw := declared.raw

/-- A declaration is made for a root that no other stands for. -/
theorem declare (declared : model.Declared) {added : Declaration} (raw : added.Raw)
    (inside : added.record.index < model.ledger.size) (root : model.ledger.IsRoot added.record)
    (fresh : ∀ id : DeclarationId, id.index < model.declarations.size →
      (model.declaration id).record ≠ added.record) :
    { model with declarations := model.declarations.push added }.Declared := by
  refine ⟨declared.sound, fun id present => ?_, fun a b presentA presentB same => ?_, fun id => ?_⟩
  · -- The record of the new declaration is a root, and so were those of all others.
    rw [declaration_push]
    split
    · exact ⟨inside, root⟩
    · exact declared.root id (by simp at present; omega)
  · -- Two numbers can share a record only if neither is that of the new declaration.
    simp only [Array.size_push] at presentA presentB
    rw [declaration_push, declaration_push] at same
    refine DeclarationId.ext ?_
    split at same
    · split at same
      · omega
      · exact absurd same.symm (fresh b (by omega))
    · split at same
      · exact absurd same (fresh a (by omega))
      · exact congrArg _ (declared.apart a b (by omega) (by omega) same)
  · rw [declaration_push]
    split
    · exact raw
    · exact declared.raw id

end Model.Declared

namespace Modelling

/-- A class is called without a change but of the number of names that were counted. -/
theorem ends_className {context : Context} {root : RootSchema} {model : Model}
    {done : String → Model → Prop} {failed : Model → Prop}
    (called : ∀ name counted, done name { model with counted }) :
    Ends (className context root) model done failed := by
  unfold className
  dsimp only
  -- Only a name that is counted moves the count.
  split
  · exact called _ model.counted
  · exact called _ (model.counted + 1)

/-- A class is declared behind all others, or its name has no free form. -/
theorem ends_declare {name uri : String} {package : Option String} {schema : SchemaId}
    {record : RecordId} {kind : ClassKind} {model : Model} {done : DeclarationId → Model → Prop}
    {failed : Model → Prop}
    (declared : ∀ name, done ⟨model.declarations.size⟩
      { model with
        declarations := model.declarations.push { name, package, uri, schema, record, kind } })
    (refused : failed model) :
    Ends (declare name package uri schema record kind) model done failed := by
  -- Allocating the name only reads the model, and the declaration is pushed under that name.
  simp only [declare, ends_bind, ends_get]
  refine ends_allocateName (fun name _ => ?_) refused
  simpa using declared name

/-- A document is surveyed, and declared if a class stands for it. -/
theorem declared_declareRoot {context : Context} {root : RootSchema} {model : Model}
    (declared : model.Declared) :
    Ends (declareRoot context root) model (fun _ last => last.Declared) (fun _ => True) := by
  simp only [declareRoot, ends_bind, ends_survey, ends_ledger]
  refine (Survey.begin_sound declared.sound).imp (fun id survey begun => ?_) fun _ _ => trivial
  have grown := declared.begun begun
  -- The root lies behind the records of all declarations that are there.
  have fresh (other : DeclarationId) (present : other.index < model.declarations.size) :
      (model.declaration other).record ≠ id := by
    have inside := (declared.root other present).1
    rw [begun.index]
    intro same
    rw [same] at inside
    exact Nat.lt_irrefl _ inside
  split
  · simp only [ends_bind, ends_pure]
    refine ends_className fun name counted => ends_declare (fun name => ?_) trivial
    -- The count of names plays no part in what is declared.
    have uncounted : { model with survey, counted }.Declared :=
      ⟨grown.sound, grown.root, grown.apart, grown.raw⟩
    exact uncounted.declare ⟨rfl, rfl, rfl, rfl, rfl, rfl, rfl⟩ begun.present begun.root fresh
  · simp only [ends_survey, Survey.ends_report]
    exact ⟨grown.sound, grown.root, grown.apart, grown.raw⟩

/-- The documents of a run are declared before anything is resolved. -/
theorem declared_roots {context : Context} {roots : List RootSchema} :
    Ends (roots.forM (declareRoot context)) {} (fun _ last => last.Declared) (fun _ => True) :=
  Ends.forM _ .empty fun _ _ _ declared => declared_declareRoot declared

/-- A document is surveyed into records that hold their links, whether it is declared or not. -/
theorem linked_declareRoot {context : Context} {root : RootSchema} {model : Model}
    (linked : model.ledger.Linked context.tree) :
    Ends (declareRoot context root) model (fun _ last => last.ledger.Linked context.tree)
      (fun _ => True) := by
  simp only [declareRoot, ends_bind, ends_survey, ends_ledger]
  refine (Survey.linked_begin linked).imp (fun id survey linked => ?_) fun _ _ => trivial
  -- What declares a class changes no record, and a schema without one is only reported.
  split
  · simp only [ends_bind, ends_pure]
    exact ends_className fun _ _ => ends_declare (fun _ => linked) trivial
  · simp only [ends_survey, Survey.ends_report]
    exact linked

/-- All records of the documents link to the targets of the references in their own schemas, and to nothing
else: no link comes from a branch. -/
theorem linked_roots {context : Context} {roots : List RootSchema} :
    Ends (roots.forM (declareRoot context)) {} (fun _ last => last.ledger.Linked context.tree)
      (fun _ => True) :=
  Ends.forM (fun last : Model => last.ledger.Linked context.tree) .empty
    fun _ _ _ linked => linked_declareRoot linked

end Modelling

end SchemaClasses
