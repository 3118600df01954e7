import SchemaClasses.Proofs.Resolution.Overrides
import SchemaClasses.Proofs.Survey.Combination

/-! The properties of a generated class are those merged into the record that it was made for; other
records share it by identity alone. -/

namespace SchemaClasses

namespace SchemaTree

/-- Whether a schema that describes the same value as a root names a property. -/
def Names (tree : SchemaTree) (root : SchemaId) (name : String) : Prop :=
  ∃ entries schema, tree.Writes root (.properties entries) ∧ (name, schema) ∈ entries

/-- Whether no schema that describes the same value as a root holds a negation. -/
def IsPositive (tree : SchemaTree) (root : SchemaId) : Prop :=
  ∀ schema, ¬ tree.Writes root (.negation schema)

variable {tree : SchemaTree} {schema next inner : SchemaId} {keyword : Keyword}

/-- A schema that is a reference and nothing else states the reference, and extensions at most. -/
theorem keywords_of_pureReference? (leads : tree.pureReference? schema = some next) :
    (∃ clause ∈ (tree.schema schema).clauses, ∃ text, clause.keyword = .reference text next) ∧
      ∀ clause ∈ (tree.schema schema).clauses, (∃ text, clause.keyword = .reference text next) ∨
        ∃ name value, clause.keyword = .extension name value := by
  unfold pureReference? Schema.pureReference? at leads
  dsimp only at leads
  split at leads
  · rename_i location text target stated
    cases leads
    have stands (clause : Clause) := congrArg (clause ∈ ·) stated
    simp only [List.mem_filter, List.mem_singleton, eq_iff_iff] at stands
    refine ⟨⟨_, ((stands _).mpr rfl).1, text, rfl⟩, fun clause member => ?_⟩
    -- All clauses but the extensions were filtered, and one reference was left.
    by_cases extends' : ∃ name value, clause.keyword = .extension name value
    · exact .inr extends'
    · have same := (stands clause).mp ⟨member, by
        split
        · rename_i name value held
          exact absurd ⟨name, value, held⟩ extends'
        · rfl⟩
      rw [same]
      exact .inl ⟨text, rfl⟩
  · cases leads

/-- All that is written about a value behind a pure reference is written where it leads to. -/
theorem writes_pureReference (leads : tree.pureReference? schema = some next)
    (noReference : ∀ text target, keyword ≠ .reference text target)
    (noExtension : ∀ name value, keyword ≠ .extension name value) :
    tree.Writes schema keyword ↔ tree.Writes next keyword := by
  obtain ⟨⟨link, stands, text, refers⟩, only⟩ := keywords_of_pureReference? leads
  constructor
  · -- Nothing is written in the schema itself, so the chain has to take its reference.
    rintro ⟨last, reached, clause, member, same⟩
    cases reached using Relation.ReflTransGen.head_induction_on with
    -- The clause stands in the schema itself, where only references and extensions do.
    | refl =>
      rcases only clause member with ⟨text, refers⟩ | ⟨name, value, extends'⟩
      · exact absurd (same.symm.trans refers) (noReference text next)
      · exact absurd (same.symm.trans extends') (noExtension name value)
    | head joined rest =>
      -- The first link of the chain is the one reference.
      obtain ⟨link, stands, leads⟩ := joined
      rcases only link stands with ⟨text, refers⟩ | ⟨name, value, extends'⟩
      · rw [refers] at leads
        cases List.mem_singleton.mp leads
        exact ⟨last, rest, clause, member, same⟩
      · rw [extends'] at leads
        cases leads
  · -- The reference is a link in front of any chain.
    rintro ⟨last, reached, written⟩
    have joined : tree.Joins schema next := by
      refine ⟨link, stands, ?_⟩
      rw [refers]
      exact List.mem_singleton_self next
    exact ⟨last, .head joined reached, written⟩

end SchemaTree

namespace Ledger

variable {ledger grown : Ledger} {id : RecordId}

/-- The names of the properties that were merged into a record. -/
def memberNames (ledger : Ledger) (id : RecordId) : List String :=
  (ledger.record id).properties.map fun property => (ledger.record property).name.getD ""

/-- The names merged into a record are those of the records inside it. -/
theorem memberNames_congr
    (properties : (grown.record id).properties = (ledger.record id).properties)
    (named : ∀ property ∈ (ledger.record id).properties,
      (grown.record property).name = (ledger.record property).name) :
    grown.memberNames id = ledger.memberNames id := by
  unfold memberNames
  rw [properties]
  refine List.map_congr_left fun property member => ?_
  rw [named property member]

end Ledger

namespace Model

/-- The kind of a generated class, and the record that it was made for. -/
def class? (model : Model) : ClassRef → Option (ClassKind × RecordId)
  | .declaration id =>
    model.declarations[id.index]?.map fun declaration => (declaration.kind, declaration.record)
  | .nested owner index =>
    (model.declaration owner).nested[index]?.map fun nested => (nested.kind, nested.record)

/-- How a record comes by a class that was made for some record: it refers to a schema that the class
is declared for, or both records stand for one schema, or they refer to one. -/
inductive Shares (context : Context) (model : Model) (id made : RecordId) : ClassRef → Prop where
  | declared {target : SchemaId} {declared : DeclarationId}
      (refers : (model.ledger.record id).target = some target)
      (stands : model.declarationFor? context.tree target = some declared) :
      Shares context model id made (.declaration declared)
  | origin {owner : DeclarationId} {index : Nat} {schema : SchemaId}
      (own : (model.ledger.record id).schema = some schema)
      (same : (model.ledger.record made).schema = some schema) :
      Shares context model id made (.nested owner index)
  | target {owner : DeclarationId} {index : Nat} {target : SchemaId}
      (refers : (model.ledger.record id).target = some target)
      (same : (model.ledger.record made).target = some target) :
      Shares context model id made (.nested owner index)

variable {context : Context} {model : Model} {id made : RecordId} {ref : ClassRef}

/-- The properties of a class bear the names merged into the record that it was made for. -/
theorem exists_property_bodyOf {language : Language} {kind : ClassKind} {name : String} :
    (∃ property ∈ (model.bodyOf language kind id).properties, property.name = name) ↔
      kind = .concrete ∧ name ∈ model.ledger.memberNames id := by
  cases kind with
  | concrete => simp [bodyOf, Ledger.memberNames, propertyOf]
  | enumeration => simp [bodyOf]
  | interface => simp [bodyOf]

/-- A class that suits a record was made for one that it shares the class with. -/
theorem Sane.shares (sane : model.Sane context) (suits : model.Suits context id ref) :
    ∃ kind made, model.class? ref = some (kind, made) ∧ model.Shares context id made ref := by
  -- A record suits a class by what it refers to or by its own schema, and the class was made by the same.
  cases suits with
  -- Three ways to suit a record give three reasons to share the class.
  | @declared target declared refers stands =>
    have inside := inside_of_declarationAlong? stands
    let found := model.declarations[declared.index]
    refine ⟨found.kind, found.record, ?_, .declared refers stands⟩
    rw [class?, Array.getElem?_eq_getElem inside]
    rfl
  | @origin owner index nested schema there own same =>
    have made := (sane.nested owner index nested there).2.origin
    refine ⟨nested.kind, nested.record, ?_, .origin own (made.symm.trans same)⟩
    rw [class?, there]
    rfl
  | @target owner index nested target there refers same =>
    refine ⟨nested.kind, nested.record, ?_, .target refers ?_⟩
    · rw [class?, there]
      rfl
    · -- A class with a target has it from the record that it was made for.
      rcases (sane.nested owner index nested there).2.target with none | made
      · rw [none] at same
        cases same
      · exact made.symm.trans same

/-- Whether the records of the declared classes have the properties that their schemas name, as far
as these hold no negation. -/
def Spelled (context : Context) (model : Model) : Prop :=
  ∀ id : DeclarationId, id.index < model.declarations.size →
    context.tree.IsPositive (model.declaration id).schema → ∀ name,
      name ∈ model.ledger.memberNames (model.declaration id).record ↔
        context.tree.Names (model.declaration id).schema name

/-- A schema behind pure references names the properties of the class declared for it. -/
theorem writes_declarationAlong? {steps : Nat} {schema : SchemaId} {declared : DeclarationId}
    {keyword : Keyword} (found : model.declarationAlong? context.tree steps schema = some declared)
    (noReference : ∀ text target, keyword ≠ .reference text target)
    (noExtension : ∀ name value, keyword ≠ .extension name value) :
    context.tree.Writes schema keyword ↔
      context.tree.Writes (model.declaration declared).schema keyword := by
  -- The declaration that is found was declared for the schema itself.
  have direct {schema : SchemaId} (found : model.declared? schema = some declared) :
      (model.declaration declared).schema = schema := by
    simpa using List.find?_some found
  -- Each step follows one pure reference, behind which the same is written.
  induction steps generalizing schema with
  | zero => rw [direct found]
  | succ steps ih =>
    rw [declarationAlong?] at found
    split at found
    · rename_i held
      cases found
      rw [direct held]
    · obtain ⟨next, leads, found⟩ := Option.bind_eq_some_iff.mp found
      rw [SchemaTree.writes_pureReference leads noReference noExtension]
      exact ih found

/-- What the target of a reference names is what the class declared for it names. -/
theorem Spelled.names (spelled : model.Spelled context) {target : SchemaId}
    {declared : DeclarationId} (stands : model.declarationFor? context.tree target = some declared)
    (positive : context.tree.IsPositive target) (name : String) :
    name ∈ model.ledger.memberNames (model.declaration declared).record ↔
      context.tree.Names target name := by
  have negations (schema : SchemaId) : context.tree.Writes target (.negation schema) ↔
      context.tree.Writes (model.declaration declared).schema (.negation schema) :=
    writes_declarationAlong? stands (by simp) (by simp)
  have properties (entries : List (String × SchemaId)) :
      context.tree.Writes target (.properties entries) ↔
        context.tree.Writes (model.declaration declared).schema (.properties entries) :=
    writes_declarationAlong? stands (by simp) (by simp)
  -- What the class names is spelled out by its own schema.
  rw [spelled declared (inside_of_declarationAlong? stands) fun schema written =>
    positive schema ((negations schema).mpr written)]
  unfold SchemaTree.Names
  simp only [properties]

end Model

namespace Modelling

open Model

variable {context : Context} {before after first model : Model} {id : RecordId}

/-- An analysis leaves the properties of declared classes as their schemas name them. -/
theorem Later.spelled (later : Later before after) (spelled : before.Spelled context) :
    after.Spelled context := by
  intro id inside positive name
  rw [later.declarations] at inside
  rw [(later.grows id).schema] at positive ⊢
  -- The record has its properties from the survey, and these their names.
  have same : after.ledger.memberNames (before.declaration id).record =
      before.ledger.memberNames (before.declaration id).record := by
    refine Ledger.memberNames_congr (later.settles _).properties_eq fun property _ => ?_
    rw [(later.settles property).record]
  rw [(later.grows id).record, same]
  exact spelled id inside positive name

/-- Turns leave the properties of declared classes as their schemas name them. -/
theorem Turns.spelled {told : List Comparison} (turns : Turns context first before after)
    (carried : Carried first.ledger.size told before) (spelled : before.Spelled context) :
    after.Spelled context := by
  induction turns with
  | refl => exact spelled
  | @tail middle last turns turn ih =>
    have carried := carried.turns turns
    obtain ⟨owner, floor, low, turn⟩ := turn
    intro id inside positive name
    rw [turn.size_le.2] at inside
    rw [(turn.grows id).schema] at positive ⊢
    -- The records of the declared classes lie before the bound, with all that is inside them.
    obtain ⟨below, properties⟩ := carried.owners id inside
    have same : last.ledger.memberNames (middle.declaration id).record =
        middle.ledger.memberNames (middle.declaration id).record := by
      have settles := turn.settles (Nat.lt_of_lt_of_le below carried.low)
        (Nat.lt_of_lt_of_le below low)
      refine Ledger.memberNames_congr settles.properties_eq fun property member => ?_
      -- A name is nothing that turns change.
      exact (turn.lasts (Nat.lt_of_lt_of_le (properties property member) carried.low)).name_eq
    rw [(turn.grows id).record, same]
    exact ih id inside positive name

end Modelling

/-- Whether every property merged into a record that has a generated class is one of the class. -/
def Model.KeepsMembers (model : Model) : Prop :=
  ∀ id ref kind made, model.typeOf id = .generated (model.classPath ref) →
    model.class? ref = some (kind, made) → ∀ language, ∀ name ∈ model.ledger.memberNames id,
      ∃ property ∈ (model.bodyOf language kind made).properties, property.name = name

/-- Two documents: an object, and one with a property that refers to it and adds a member beside the
reference. -/
def extendingSources : List SourceDocument :=
  [{ uri := "b"
     content := .object [("type", .string "object"), ("properties", .object [("q",
       .object [("type", .string "string")])])] },
   { uri := "a"
     content := .object [("type", .string "object"), ("properties", .object [("p",
       .object [("$ref", .string "b"), ("properties", .object [("extra",
         .object [("type", .string "integer")])])])])] }]

/-- A member added beside a reference to a declared class is lost: the property takes the class as it
was declared. -/
theorem not_keepsMembers_extendingSources :
    ∃ roots tree last, (readRoots extendingSources).run {} = .ok roots tree ∧
      (Modelling.build { tree } roots).run {} = .ok () last ∧ ¬ last.KeepsMembers := by
  -- The property is the last of four records, and the class was made for the first.
  have lost : (match (readRoots extendingSources).run {} with
      | .ok roots tree => match (Modelling.build { tree } roots).run {} with
        | .ok () last => decide
          (last.typeOf ⟨3⟩ = .generated (last.classPath (.declaration ⟨0⟩)) ∧
            last.class? (.declaration ⟨0⟩) = some (.concrete, ⟨0⟩) ∧
            "extra" ∈ last.ledger.memberNames ⟨3⟩ ∧ "extra" ∉ last.ledger.memberNames ⟨0⟩)
        | .error .. => false
      | .error .. => false) = true := by decide +kernel
  -- The run is evaluated once, and what it shows is read off case by case.
  cases read : (readRoots extendingSources).run {} with
  | error fault tree =>
    rw [read] at lost
    cases lost
  | ok roots tree =>
    rw [read] at lost
    cases built : (Modelling.build { tree } roots).run {} with
    | error fault last =>
      simp only [built] at lost
      cases lost
    | ok result last =>
      simp only [built] at lost
      obtain ⟨typed, found, merged, missing⟩ := of_decide_eq_true lost
      refine ⟨roots, tree, last, rfl, built, fun keeps => ?_⟩
      -- If members were kept, the added one would be a property of the class.
      have kept := keeps ⟨3⟩ (.declaration ⟨0⟩) .concrete ⟨0⟩ typed found .java "extra" merged
      exact missing (Model.exists_property_bodyOf.mp kept).2

end SchemaClasses
