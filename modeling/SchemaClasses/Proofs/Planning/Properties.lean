import SchemaClasses.Proofs.Catalogue.Closure
import SchemaClasses.Proofs.Negation.Meaning
import SchemaClasses.Proofs.Planning.Texts
import SchemaClasses.Proofs.Resolution.Required

/-! Properties on texts: what the type of an analysed property and its checks accept together, whichever of them
a keyword went into. -/

namespace SchemaClasses

/-- A record that states a type is there. -/
theorem Ledger.lt_size_of_types {ledger : Ledger} {id : RecordId} (typed : (ledger.record id).types ≠ []) :
    id.index < ledger.size := by
  by_contra absent
  rw [Ledger.record_of_size_le (Nat.le_of_not_lt absent)] at typed
  exact typed rfl

namespace Model

/-- The texts that a generated class has as constants. -/
def constantsOf (model : Model) (language : Language) : ClassRef → List String
  | .declaration id =>
    (model.bodyOf language (model.declaration id).kind (model.declaration id).record).enumConstants
  | .nested owner index =>
    match (model.declaration owner).nested[index]? with
    | some nested => (model.bodyOf language nested.kind nested.record).enumConstants
    | none => []

/-- Whether a text is a value of the type of a record: of plain text, or of a class as one of its constants. -/
def hasText (model : Model) (language : Language) (id : RecordId) (text : String) : Bool :=
  match (model.ledger.record id).shape with
  | some .string => true
  | some (.reference (.generated ref)) => (model.constantsOf language ref).contains text
  | _ => false

/-- Whether the type of a record and all of its checks accept a text. -/
def AcceptsText (model : Model) (language : Language) (isMatch : String → String → Prop)
    (owner : DeclarationId) (id : RecordId) (text : String) : Prop :=
  model.hasText language id text = true ∧ model.IsPassed owner id (textDemands isMatch text)

/-- The class that a record has already, or gets for what it refers to. -/
def linked? (model : Model) (context : Context) (owner : DeclarationId) (id : RecordId) : Option ClassRef :=
  match (model.ledger.record id).typeRef, (model.ledger.record id).target with
  | some (.generated ref), _ => some ref
  | none, some target =>
    match model.declarationFor? context.tree target with
    | some declared => some (.declaration declared)
    | none => ((model.declaration owner).findNested? none (some target)).map (.nested owner)
  | _, _ => none

/-- The class that is there for a record: the one that it is linked to, or one nested before for the enum that
it is. -/
def classFor? (model : Model) (context : Context) (owner : DeclarationId) (id : RecordId) :
    Option ClassRef :=
  match model.linked? context owner id with
  | some ref => some ref
  | none =>
    let held := model.ledger.record id
    if held.isIdentifierEnum then
      ((model.declaration owner).findNested? held.schema held.target).map (.nested owner)
    else none

/-- A record on texts that has not been analysed, without formats, negation and custom class. -/
structure IsTextProperty (model : Model) (context : Context) (owner : DeclarationId) (id : RecordId) :
    Prop where
  unshaped : (model.ledger.record id).shape = none
  types : (model.ledger.record id).types = [.string]
  formats : (model.ledger.record id).formats = []
  positive : (model.ledger.record id).negationOf = none
  unmirrored : (model.ledger.record id).negation = none
  custom : context.customClass? model.ledger id = none
  typed : ∀ custom, (model.ledger.record id).typeRef ≠ some (.custom custom)
  unplanned : model.Unplanned owner id

/-- A later model in which a record has a certain class and is the same otherwise. -/
structure Attaches (before after : Model) (id : RecordId) (ref : ClassRef) : Prop where
  record : after.ledger.record id =
    { before.ledger.record id with typeRef := some (.generated ref) }
  checks : after.ledger.checks id = before.ledger.checks id

/-- A record whose type is a class and that has no checks. -/
structure IsClassOnly (model : Model) (id : RecordId) (ref : ClassRef) : Prop where
  shape : (model.ledger.record id).shape = some (.reference (.generated ref))
  unchecked : (model.ledger.checks id).items = []

variable {model : Model} {context : Context} {owner : DeclarationId} {id : RecordId}

namespace IsTextProperty

theorem present (property : model.IsTextProperty context owner id) : id.index < model.ledger.size :=
  Ledger.lt_size_of_types (by rw [property.types]; exact List.cons_ne_nil _ _)

theorem isNegation (property : model.IsTextProperty context owner id) :
    (model.ledger.record id).isNegation = false := by
  rw [Record.isNegation, property.positive]
  rfl

/-- A property that is linked to nothing is a text or an enum. -/
theorem classify (property : model.IsTextProperty context owner id)
    (free : model.linked? context owner id = none) :
    context.classify model.ledger id true =
      if (model.ledger.record id).isIdentifierEnum then .identifierEnum else .string := by
  -- A class of its own would be generated, or custom.
  have untyped : (model.ledger.record id).typeRef = none := by
    cases held : (model.ledger.record id).typeRef with
    | none => rfl
    | some type =>
      cases type with
      | generated ref => simp [linked?, held] at free
      | custom custom => exact absurd held (property.typed custom)
  have types : model.ledger.effectiveTypes id = [.string] := by
    simp only [Ledger.effectiveTypes, property.positive, property.types]
  -- The property rules out a custom class for the record.
  have custom : model.ledger.customClass? context.tree context.settings.customClasses id = none :=
    property.custom
  simp only [Context.classify, Ledger.classify, custom, untyped, Ledger.inferShape, types, Record.stringShape,
    property.isNegation, property.formats, List.findSome?_nil, Bool.true_and, ite_self]

end IsTextProperty

/-- A record has the shape that it takes. -/
theorem shape_shapeAndPlan {shape : Shape} (present : id.index < model.ledger.size) :
    ((model.shapeAndPlan context owner id shape).ledger.record id).shape = some shape := by
  rw [shapeAndPlan, field_plan Record.shape fun _ _ _ => rfl, ledger_updateRecord,
    Ledger.record_update_self present]

/-- A record that takes a shape leaves the nested classes as they are. -/
theorem nested_shapeAndPlan {shape : Shape} :
    ((model.shapeAndPlan context owner id shape).declaration owner).nested =
      (model.declaration owner).nested := by
  rw [shapeAndPlan, declaration_plan]
  split <;> rfl

/-- A class needs no checks at the record that takes it. -/
theorem isClassOnly_shapeAndPlan {ref : ClassRef} (present : id.index < model.ledger.size)
    (empty : (model.ledger.checks id).items = []) :
    (model.shapeAndPlan context owner id (.reference (.generated ref))).IsClassOnly id ref where
  shape := shape_shapeAndPlan present
  unchecked := by
    -- Planning a reference to a generated class adds no check, and noting the shape none either.
    have kept : (model.shapeAndPlan context owner id (.reference (.generated ref))).ledger.checks id =
        (model.updateRecord id fun record =>
          { record with shape := some (.reference (.generated ref)) }).ledger.checks id := by
      rw [shapeAndPlan, checks_plan]
      split <;> rfl
    rw [kept, ledger_updateRecord, Ledger.checks_update rfl, empty]

/-- A record that is a class accepts the constants of that class. -/
theorem IsClassOnly.acceptsText_iff {ref : ClassRef} (only : model.IsClassOnly id ref) {language : Language}
    {isMatch : String → String → Prop} {text : String} :
    model.AcceptsText language isMatch owner id text ↔ text ∈ model.constantsOf language ref := by
  have none : (model.ledger.checks id).pooled (model.declaration owner).constants = [] := by
    rw [CheckSet.pooled, only.unchecked, List.map_nil]
  simp only [AcceptsText, hasText, only.shape, List.contains_iff_mem, IsPassed, CheckSet.IsPassed, none,
    List.not_mem_nil, false_implies, implies_true, and_true]

/-- A property of plain text accepts what its checks let through. -/
theorem IsTextProperty.acceptsText_string (property : model.IsTextProperty context owner id)
    {language : Language} {isMatch : String → String → Prop} {text : String} :
    (model.shapeAndPlan context owner id .string).AcceptsText language isMatch owner id text ↔
      (model.ledger.record id).ChecksText isMatch text := by
  have shape : ((model.shapeAndPlan context owner id .string).ledger.record id).shape = some .string :=
    shape_shapeAndPlan property.present
  rw [AcceptsText, hasText, shape, eq_self, true_and, shapeAndPlan]
  -- The shape is noted first, and the checks are planned from there.
  generalize next : (model.updateRecord id fun record => { record with shape := some .string }) = marked
  have own : marked.ledger.record id = { model.ledger.record id with shape := some .string } := by
    rw [← next]
    exact Ledger.record_update_self property.present
  have unplanned : marked.Unplanned owner id := by
    obtain ⟨empty, stocked, declared, built⟩ := property.unplanned
    refine ⟨?_, ?_, next ▸ declared, next ▸ built⟩
    · rw [← next, ledger_updateRecord, Ledger.checks_update rfl, empty]
    · rw [own, ← next]
      exact stocked
  -- A text without formats gains its checks for the length, the patterns and the values.
  have gains : (marked.draft owner id).Gains (marked.planned context owner id .string)
      (marked.ledger.record id).textChecks :=
    Plan.Gains.string _ (by rw [draft, own]; exact property.formats)
  have positive : (marked.ledger.record id).isNegation = false := by
    rw [own]
    exact property.isNegation
  rw [unplanned.isPassed_plan gains, Record.isPassed_textChecks positive, own]
  -- The shape is no part of what is checked.
  exact ⟨fun checks => ⟨checks.length, checks.patterns, checks.constant, checks.enumeration⟩,
    fun checks => ⟨checks.length, checks.patterns, checks.constant, checks.enumeration⟩⟩

/-- An enum that is nested for a record has the texts as constants that the record allows. -/
theorem mem_constantsOf_nested {language : Language} {index : Nat} {nested : NestedClass} {text : String}
    (there : (model.declaration owner).nested[index]? = some nested) (enum : nested.kind = .enumeration) :
    text ∈ model.constantsOf language (.nested owner index) ↔
      ∃ values, (model.ledger.record nested.record).enumeration = some values ∧ .string text ∈ values := by
  simp only [constantsOf, there, enum, bodyOf, List.mem_filterMap, Json.text?_eq_some]
  cases (model.ledger.record nested.record).enumeration <;> simp

/-- What becomes of a property on texts. A class that is there for it takes all over. Otherwise an enum whose
texts can all name constants becomes a class of its own, which takes all over too, and any other property is
plain text with checks. -/
structure AcceptedAs (before after : Model) (context : Context) (language : Language)
    (isMatch : String → String → Prop) (owner : DeclarationId) (id : RecordId) : Prop where
  found : ∀ ref, before.classFor? context owner id = some ref → after.IsClassOnly id ref
  promoted : before.classFor? context owner id = none →
    (before.ledger.record id).isIdentifierEnum = true →
      ∀ text, after.AcceptsText language isMatch owner id text ↔
        ∃ values, (before.ledger.record id).enumeration = some values ∧ .string text ∈ values
  checked : before.classFor? context owner id = none →
    (before.ledger.record id).isIdentifierEnum = false →
      ∀ text, after.AcceptsText language isMatch owner id text ↔
        (before.ledger.record id).ChecksText isMatch text

namespace AcceptedAs

variable {before after : Model} {language : Language} {isMatch : String → String → Prop} {ref : ClassRef}

theorem of_found (there : before.classFor? context owner id = some ref) (only : after.IsClassOnly id ref) :
    before.AcceptedAs after context language isMatch owner id := by
  -- A class was found, so the two other cases do not arise.
  refine ⟨fun other same => ?_, fun none => ?_, fun none => ?_⟩
  · rw [there] at same
    cases same
    exact only
  · rw [there] at none
    cases none
  · rw [there] at none
    cases none

theorem of_promoted (absent : before.classFor? context owner id = none)
    (enum : (before.ledger.record id).isIdentifierEnum = true)
    (accepts : ∀ text, after.AcceptsText language isMatch owner id text ↔
      ∃ values, (before.ledger.record id).enumeration = some values ∧ .string text ∈ values) :
    before.AcceptedAs after context language isMatch owner id := by
  -- No class was found, and the record is an enumeration: only the second case is left.
  refine ⟨fun ref same => ?_, fun _ _ => accepts, fun _ plain => ?_⟩
  · rw [absent] at same
    cases same
  · rw [enum] at plain
    cases plain

theorem of_checked (absent : before.classFor? context owner id = none)
    (plain : ¬(before.ledger.record id).isIdentifierEnum = true)
    (accepts : ∀ text, after.AcceptsText language isMatch owner id text ↔
      (before.ledger.record id).ChecksText isMatch text) :
    before.AcceptedAs after context language isMatch owner id := by
  refine ⟨fun ref same => ?_, fun _ enum => absurd enum plain, fun _ _ => accepts⟩
  rw [absent] at same
  cases same

/-- An enum is accepted where its values are, so whatever the record describes is among them. -/
theorem promoted_of_describes {record : Record} {text : String} (enum : record.isIdentifierEnum = true)
    (describes : record.DescribesText isMatch text) :
    ∃ values, record.enumeration = some values ∧ .string text ∈ values := by
  unfold Record.isIdentifierEnum at enum
  split at enum
  · rename_i texts read
    obtain ⟨values, stated, -⟩ := Record.exists_of_textEnumeration? read
    exact ⟨values, stated, describes.enumeration values stated⟩
  · cases enum

/-- Without a class that is there, nothing that the record describes is refused. -/
theorem of_describes (accepted : before.AcceptedAs after context language isMatch owner id)
    (absent : before.classFor? context owner id = none) {text : String}
    (describes : (before.ledger.record id).DescribesText isMatch text) :
    after.AcceptsText language isMatch owner id text := by
  cases enum : (before.ledger.record id).isIdentifierEnum with
  | true => exact (accepted.promoted absent enum text).mpr (promoted_of_describes enum describes)
  | false => exact (accepted.checked absent enum text).mpr describes.checks

/-- Nothing else is accepted if only texts are stated, and if an enum has no further restrictions that
matter. -/
theorem describes (accepted : before.AcceptedAs after context language isMatch owner id)
    (absent : before.classFor? context owner id = none)
    (textual : (before.ledger.record id).IsTextual)
    (free : (before.ledger.record id).isIdentifierEnum = true → ∀ values,
      (before.ledger.record id).enumeration = some values → ∀ text, .string text ∈ values →
        (before.ledger.record id).DescribesText isMatch text) {text : String}
    (accepts : after.AcceptsText language isMatch owner id text) :
    (before.ledger.record id).DescribesText isMatch text := by
  cases enum : (before.ledger.record id).isIdentifierEnum with
  | true =>
    -- A class looks at the values alone.
    obtain ⟨values, stated, member⟩ := (accepted.promoted absent enum text).mp accepts
    exact free enum values stated text member
  | false => exact ((accepted.checked absent enum text).mp accepts).describes textual

end AcceptedAs

end Model

namespace Modelling

variable {context : Context} {owner : DeclarationId} {id : RecordId} {before : Model}

/-- An import changes no record. -/
theorem ends_importDeclaration {other : DeclarationId} {done : Unit → Model → Prop} {failed : Model → Prop}
    (holds : ∀ last, last.ledger = before.ledger → done () last) :
    Ends (importDeclaration owner other) before done failed := by
  simp only [importDeclaration, ends_bind, ends_declaration]
  split
  · exact holds _ rfl
  · exact holds _ rfl

/-- A property is linked to the class that is there for it, and not changed otherwise. -/
theorem ends_linkTarget (property : before.IsTextProperty context owner id) :
    Ends (linkTarget context owner id) before
      (fun _ last => match before.linked? context owner id with
        | some ref => before.Attaches last id ref
        | none => last = before)
      (fun _ => False) := by
  -- Whichever class it is, it is only written into the record.
  have attaches (ref : ClassRef) (last : Model) (same : last.ledger = (before.updateRecord id fun record =>
      { record with typeRef := some (.generated ref) }).ledger) : before.Attaches last id ref :=
    ⟨by rw [same]; exact Ledger.record_update_self property.present,
      by rw [same]; exact Ledger.checks_update rfl⟩
  cases held : (before.ledger.record id).typeRef with
  | some type =>
    -- The record has a class already, which is no custom one.
    cases type with
    | generated ref =>
      have linked : before.linked? context owner id = some ref := by
        simp only [Model.linked?, held]
      simp only [linkTarget, ends_bind, ends_record, ends_ledger, property.custom, held, linked]
      exact ⟨by rw [← held], rfl⟩
    | custom custom => exact absurd held (property.typed custom)
  | none =>
    cases refers : (before.ledger.record id).target with
    | none =>
      have linked : before.linked? context owner id = none := by
        simp only [Model.linked?, held, refers]
      simp only [linkTarget, ends_bind, ends_record, ends_ledger, property.custom, held, refers, linked]
      rfl
    -- A target leads to a declared class, to a nested one, or to none.
    | some target =>
      cases found : before.declarationFor? context.tree target with
      | some declared =>
        have linked : before.linked? context owner id = some (.declaration declared) := by
          simp only [Model.linked?, held, refers, found]
        simp only [linkTarget, ends_bind, ends_record, ends_ledger, property.custom, held, refers, linked,
          Option.isNone_none, and_self, if_true, ends_get, found, ends_updateRecord]
        exact ends_importDeclaration fun last same => attaches _ last same
      | none =>
        -- A class that is nested for the target is only looked for inside the declaration.
        have linked : before.linked? context owner id =
            ((before.declaration owner).findNested? none (some target)).map (.nested owner) := by
          simp only [Model.linked?, held, refers, found]
        simp only [linkTarget, ends_bind, ends_record, ends_ledger, property.custom, held, refers, linked,
          Option.isNone_none, and_self, if_true, ends_get, found, ends_declaration]
        -- A class may be nested for the target.
        cases (before.declaration owner).findNested? none (some target) with
        | none => rfl
        | some index => exact attaches _ _ rfl

/-- An analysis ends with the shape and its checks if there is no negation. -/
theorem ends_shapeAndPlan {shape : Shape} {done : Unit → Model → Prop} {failed : Model → Prop}
    (present : id.index < before.ledger.size) (unmirrored : (before.ledger.record id).negation = none)
    (holds : done () (before.shapeAndPlan context owner id shape)) :
    Ends (do
      updateRecord id fun record => { record with shape := some shape }
      plan context owner id shape
      planNegation context owner id) before done failed := by
  -- Without a mirror there is nothing more to plan behind the record.
  have bare : ((before.shapeAndPlan context owner id shape).ledger.record id).negation = none := by
    rw [Model.record_shapeAndPlan present]
    exact unmirrored
  rw [ends_bind, ends_updateRecord, ends_bind, ends_plan, planNegation, ends_bind, ends_record]
  rw [Model.shapeAndPlan] at bare holds
  rw [bare]
  exact holds

section

variable {inner : Analysis} {site : Site} {role : Role}

theorem develop_reference {ref : ClassRef} : develop context inner site id role (.reference (.generated ref)) =
    pure (.reference (.generated ref)) := rfl

theorem develop_string : develop context inner site id role .string = pure .string := rfl

/-- An enum takes the class that is nested for it, or a new one. -/
theorem ends_develop_enum {done : Shape → Model → Prop} {failed : Model → Prop}
    (found : ∀ index, (before.declaration site.owner).findNested? (before.ledger.record id).schema
        (before.ledger.record id).target = some index →
      Ends (settle id (.nested site.owner index)) before done failed)
    (pushed : (before.declaration site.owner).findNested? (before.ledger.record id).schema
        (before.ledger.record id).target = none → failed before ∧
      ∀ nested : NestedClass, nested.record = id → nested.kind = .enumeration →
        Ends (settle id (.nested site.owner (before.declaration site.owner).nested.size))
          (before.updateDeclaration site.owner fun declaration =>
            { declaration with nested := declaration.nested.push nested }) done failed) :
    Ends (develop context inner site id role .identifierEnum) before done failed := by
  simp only [develop, nestedClass, ends_bind, ends_record, ends_declaration]
  split
  · -- The class that is found is used, and otherwise one joins under a free name.
    rename_i index there
    rw [ends_pure]
    exact found index there
  · rename_i absent
    obtain ⟨refused, pushed⟩ := pushed absent
    simp only [pushNested, ends_bind, ends_declaration]
    refine ends_allocateName (fun name _ => ?_) refused
    exact pushed _ rfl rfl

end

/-- A record that has got a class is classified by it. -/
theorem classify_of_attaches {after : Model} {ref : ClassRef} (attaches : before.Attaches after id ref)
    (custom : context.customClass? before.ledger id = none) (promote : Bool) :
    context.classify after.ledger id promote = .reference (.generated ref) := by
  have custom : after.ledger.customClass? context.tree context.settings.customClasses id = none := by
    rw [← custom]
    simp only [Context.customClass?, Ledger.customClass?, attaches.record]
    rfl
  simp only [Context.classify, Ledger.classify, custom, attaches.record]

variable {site : Site} {name : String} {language : Language} {isMatch : String → String → Prop}

/-- A property that is settled on a class is planned as that class. -/
theorem ends_plan_settled {start : Model} {ref : ClassRef} {done : Unit → Model → Prop}
    {failed : Model → Prop} (property : before.IsTextProperty context owner id)
    (same : start.ledger = before.ledger)
    (holds : ∀ settled : Model, settled.declarations = start.declarations →
      (settled.shapeAndPlan context owner id (.reference (.generated ref))).IsClassOnly id ref →
        ((settled.shapeAndPlan context owner id (.reference (.generated ref))).ledger.record id).enumeration =
          (before.ledger.record id).enumeration →
        done () (settled.shapeAndPlan context owner id (.reference (.generated ref)))) :
    Ends (do
      updateRecord id fun record => { record with shape := some (.reference (.generated ref)) }
      plan context owner id (.reference (.generated ref))
      planNegation context owner id)
      (start.updateRecord id fun record =>
        { record with typeRef := some (.generated ref), shape := some (.reference (.generated ref)) })
      done failed := by
  generalize next : (start.updateRecord id fun record =>
    { record with typeRef := some (.generated ref), shape := some (.reference (.generated ref)) }) = settled
  -- What is planned in the end is the record from before, with its class and its shape noted.
  have record : settled.ledger.record id =
      { before.ledger.record id with
        typeRef := some (.generated ref), shape := some (.reference (.generated ref)) } := by
    rw [← next, Model.ledger_updateRecord, same, Ledger.record_update_self property.present]
  have present : id.index < settled.ledger.size :=
    Ledger.lt_size_of_types (by rw [record, property.types]; exact List.cons_ne_nil _ _)
  have empty : (settled.ledger.checks id).items = [] := by
    rw [← next, Model.ledger_updateRecord, Ledger.checks_update rfl, same]
    exact property.unplanned.empty
  refine ends_shapeAndPlan present (by rw [record]; exact property.unmirrored)
    (holds settled (by rw [← next]; rfl) (Model.isClassOnly_shapeAndPlan present empty) ?_)
  rw [Model.record_shapeAndPlan present, record]

/-- A property that is an enum is settled on the class nested for it, or on a new one. -/
theorem ends_settled_enum {inner : Analysis} {role : Role}
    (property : before.IsTextProperty context site.owner id)
    (free : before.linked? context site.owner id = none)
    (enum : (before.ledger.record id).isIdentifierEnum = true) :
    Ends (do
        let shape ← develop context inner site id role .identifierEnum
        updateRecord id fun record => { record with shape := some shape }
        plan context site.owner id shape
        planNegation context site.owner id) before
      (fun _ after => before.AcceptedAs after context language isMatch site.owner id)
      (fun _ => before.classFor? context site.owner id = none ∧
        (before.ledger.record id).isIdentifierEnum = true) := by
  -- For a record without a link, the class is one that is nested for the enumeration.
  have there : before.classFor? context site.owner id =
      ((before.declaration site.owner).findNested? (before.ledger.record id).schema
        (before.ledger.record id).target).map (.nested site.owner) := by
    rw [Model.classFor?, free, if_pos enum]
  rw [ends_bind]
  refine ends_develop_enum (fun index found => ?_) fun absent => ⟨?_, fun nested own kind => ?_⟩
  · -- The class that is nested already takes over.
    rw [found] at there
    rw [ends_settle]
    exact ends_plan_settled property rfl fun settled _ only _ => .of_found there only
  · rw [absent] at there
    exact ⟨there, enum⟩
  · -- The new class has what the record allows.
    rw [absent] at there
    rw [ends_settle]
    refine ends_plan_settled property rfl fun settled declarations only kept =>
      .of_promoted there enum fun text => ?_
    -- The class that was pushed is found under its number, with the texts of the record as its
    -- constants.
    have pushed : ((settled.shapeAndPlan context site.owner id (.reference (.generated (.nested site.owner
        (before.declaration site.owner).nested.size)))).declaration site.owner).nested =
        (before.declaration site.owner).nested.push nested := by
      rw [Model.nested_shapeAndPlan, Model.declaration, declarations, ← Model.declaration,
        Model.declaration_updateDeclaration, if_pos ⟨rfl, property.unplanned.declared⟩]
    rw [only.acceptsText_iff,
      Model.mem_constantsOf_nested (pushed ▸ Array.getElem?_push_size) kind, own, kept]

/-- A property on texts is analysed without a fault, unless no name is left for the enum that it becomes. -/
theorem accepted_analyse {pending : List RecordId} (waiting : id ∈ pending)
    (property : before.IsTextProperty context site.owner id) :
    Ends (analyse context pending site id (.property name)) before
      (fun _ after => before.AcceptedAs after context language isMatch site.owner id)
      (fun _ => before.classFor? context site.owner id = none ∧
        (before.ledger.record id).isIdentifierEnum = true) := by
  rw [analyse, ends_bind, ends_record, property.unshaped, Option.isNone_none, if_pos rfl, dif_pos waiting,
    ends_bind]
  refine (ends_linkTarget property).imp (fun _ middle linked => ?_) fun _ failed => failed.elim
  rw [ends_bind, ends_ledger, Role.promotesEnums]
  cases known : before.linked? context site.owner id with
  | some ref =>
    -- The class decides the shape, which is developed no further.
    rw [known] at linked
    have there : before.classFor? context site.owner id = some ref := by rw [Model.classFor?, known]
    have present : id.index < middle.ledger.size :=
      Ledger.lt_size_of_types (by rw [linked.record, property.types]; exact List.cons_ne_nil _ _)
    rw [classify_of_attaches linked property.custom, develop_reference, ends_bind, ends_pure]
    exact ends_shapeAndPlan present (by rw [linked.record]; exact property.unmirrored)
      (.of_found there (Model.isClassOnly_shapeAndPlan present
        (by rw [linked.checks]; exact property.unplanned.empty)))
  | none =>
    rw [known] at linked
    subst linked
    rw [property.classify known]
    split
    · -- An enum may need a class first.
      rename_i enum
      exact ends_settled_enum property known enum
    · -- Plain text is developed no further.
      rename_i plain
      have none : middle.classFor? context site.owner id = none := by
        rw [Model.classFor?, known, if_neg plain]
      rw [develop_string, ends_bind, ends_pure]
      exact ends_shapeAndPlan property.present property.unmirrored
        (.of_checked none plain fun text => property.acceptsText_string)

/-- A property on texts is analysed, unless no name is left for the enum that it becomes. If no class is there
for it, its type and its checks accept all texts that the record describes. They accept no others if only texts
are stated and, for an enum, all of its values satisfy the other keywords as well. -/
theorem analyse_text_exact {pending : List RecordId} (waiting : id ∈ pending)
    (property : before.IsTextProperty context site.owner id) :
    Ends (analyse context pending site id (.property name)) before
      (fun _ after => before.AcceptedAs after context language isMatch site.owner id ∧
        (before.classFor? context site.owner id = none → ∀ text,
          ((before.ledger.record id).DescribesText isMatch text →
            after.AcceptsText language isMatch site.owner id text) ∧
          ((before.ledger.record id).IsTextual →
            ((before.ledger.record id).isIdentifierEnum = true → ∀ values,
              (before.ledger.record id).enumeration = some values → ∀ text, .string text ∈ values →
                (before.ledger.record id).DescribesText isMatch text) →
            (after.AcceptsText language isMatch site.owner id text ↔
              (before.ledger.record id).DescribesText isMatch text))))
      (fun _ => before.classFor? context site.owner id = none ∧
        (before.ledger.record id).isIdentifierEnum = true) := by
  -- No described text is ever left out; that no other is let in takes what is assumed of the record.
  refine (accepted_analyse waiting property).mono fun _ after accepted => ⟨accepted, fun absent text => ?_⟩
  exact ⟨accepted.of_describes absent, fun textual free =>
    ⟨accepted.describes absent textual free, accepted.of_describes absent⟩⟩

/-- A text of at least two characters that is `a-b` or `c`. -/
def dashedModel : Model :=
  { survey :=
      { ledger :=
          { records := #[
              { types := [.string]
                length := { least := some 2 }
                enumeration := some [.string "a-b", .string "c"] }]
            checkSets := #[{}] } }
    declarations := #[default] }

/-- Only `a-b` is accepted, which could name no constant. -/
theorem analyse_text_exact_dashed :
    ∃ after, (analyse {} [⟨0⟩] ⟨⟨0⟩, none⟩ ⟨0⟩ (.property "p")).run dashedModel = .ok () after ∧
      ∀ text, after.AcceptsText .kotlin (fun _ _ => False) ⟨0⟩ ⟨0⟩ text ↔ text = "a-b" := by
  have property : dashedModel.IsTextProperty {} ⟨0⟩ ⟨0⟩ :=
    ⟨rfl, rfl, rfl, rfl, rfl, rfl, nofun, ⟨rfl, by decide, by decide, .empty⟩⟩
  -- What depends on the record alone is computed.
  have plain : (dashedModel.ledger.record ⟨0⟩).isIdentifierEnum = false := by decide +kernel
  have textual : (dashedModel.ledger.record ⟨0⟩).IsTextual := by
    refine ⟨nofun, ?_⟩
    rintro values ⟨⟩
    exact ⟨by simp, by decide⟩
  -- The theorem is applied at the record, and what it leaves open is decided below.
  have ends : Ends (analyse {} [⟨0⟩] ⟨⟨0⟩, none⟩ ⟨0⟩ (.property "p")) dashedModel
      (fun _ after => dashedModel.AcceptedAs after {} .kotlin (fun _ _ => False) ⟨0⟩ ⟨0⟩ ∧ _) _ :=
    analyse_text_exact (List.mem_singleton.mpr rfl) property
  have absent : dashedModel.classFor? {} ⟨0⟩ ⟨0⟩ = none := by decide +kernel
  obtain ⟨⟨⟩, after, ran, -, exact'⟩ :=
    (ends.imp (fun _ _ done => done) fun _ failed => by simp [plain] at failed).exists_ok
  refine ⟨after, ran, fun text => ((exact' absent text).2 textual fun enum => ?_).trans ⟨?_, ?_⟩⟩
  · -- The enumeration has a text that is no identifier, so that it is not promoted.
    rw [plain] at enum
    cases enum
  · rintro ⟨length, -, -, enumeration⟩
    rcases List.mem_pair.mp (enumeration _ rfl) with same | same
    · exact Json.string.inj same
    · -- The other text is too short.
      cases same
      exact absurd (length.least 2 rfl) (by decide)
  · rintro rfl
    refine ⟨⟨?_, nofun⟩, nofun, nofun, ?_⟩
    · rintro least ⟨⟩
      decide
    · rintro values ⟨⟩
      simp

end Modelling

/-- A document with a property that is an enum whose second text is too long. -/
def longTextSources : List SourceDocument :=
  [{ uri := "a"
     content := .object [("type", .string "object"), ("properties", .object [("p",
       .object [("type", .string "string"), ("enum", .array [.string "RED", .string "GREEN"]),
         ("maxLength", .integer 3)])])] }]

/-- The class of an enum takes all of its texts, also those that are too long. -/
theorem accepts_not_describes_longTextSources :
    ∃ roots tree last, (readRoots longTextSources).run {} = .ok roots tree ∧
      (Modelling.build { tree } roots).run {} = .ok () last ∧
      ¬ ∀ owner id, (last.ledger.record id).name = some "p" → (last.ledger.record id).types = [.string] →
        (last.ledger.record id).formats = [] → (last.ledger.record id).negation = none →
        (last.ledger.record id).negationOf = none →
        ({ tree } : Context).customClass? last.ledger id = none →
          ∀ isMatch text, last.AcceptsText .kotlin isMatch owner id text ↔
            (last.ledger.record id).DescribesText isMatch text := by
  -- All that is used below is computed at once, for whichever record has the property.
  have differs : (built? longTextSources).any fun last => last.ledger.ids.any fun id =>
      let record := last.ledger.record id
      record.name == some "p" && record.types == [.string] && record.formats == [] && record.negation == none &&
        record.negationOf == none && record.length.greatest == some 3 && (last.ledger.checks id).items == [] &&
        last.hasText .kotlin id "GREEN" := by
    decide +kernel
  obtain ⟨last, built, differs⟩ := (Option.any_eq_true _ _).mp differs
  obtain ⟨roots, tree, read, ran⟩ := exists_run_of_built? built
  refine ⟨roots, tree, last, read, ran, fun exact' => ?_⟩
  simp only [List.any_eq_true, Bool.and_eq_true, beq_iff_eq] at differs
  obtain ⟨id, -, ⟨⟨⟨⟨⟨⟨named, types⟩, formats⟩, unmirrored⟩, positive⟩, greatest⟩, unchecked⟩, accepted⟩ :=
    differs
  -- No check is planned that would refuse a long text, so the constants of the class decide.
  have accepts : last.AcceptsText .kotlin (fun _ _ => True) ⟨0⟩ id "GREEN" :=
    ⟨accepted, by simp [Model.IsPassed, CheckSet.IsPassed, CheckSet.pooled, unchecked]⟩
  have describes := (exact' ⟨0⟩ id named types formats unmirrored positive rfl _ _).mp accepts
  exact absurd (describes.length.greatest 3 greatest) (by decide)

end SchemaClasses
