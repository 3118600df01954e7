import SchemaClasses.Proofs.Negation.Checks
import SchemaClasses.Proofs.Resolution.Members

/-! The checks that are planned for a schema on whole numbers, and the numbers that pass them. -/

namespace SchemaClasses

variable {ledger : Ledger} {context : Context} {id : RecordId} {root : SchemaId}
variable {record : Record} {schema : WholeSchema} {side typed : Bool}

/-- A record on whole numbers is classified as one if it has a type, and as untyped if it has none. -/
theorem Ledger.inferShape_whole (holds : record.Holds schema side)
    (same : ledger.record id = { record with shape := (ledger.record id).shape })
    (types : ledger.effectiveTypes id = if typed then [.integer] else []) (promoteEnums : Bool) :
    ledger.inferShape id promoteEnums = record.wholeShape typed := by
  unfold inferShape
  rw [types]
  cases typed with
  | true =>
    -- The shape of a number depends on what is stated, and not on a shape decided before.
    show (ledger.record id).integerShape = record.integerShape
    rw [same]
    rfl
  | false =>
    -- Without a type, only members or keywords on strings would tell a shape.
    have bare : (ledger.record id).properties = [] ∧ (ledger.record id).items = none ∧
        (ledger.record id).hasStringKeywords = false := by
      rw [same, holds]
      exact ⟨rfl, rfl, rfl⟩
    simp [bare, Record.wholeShape]

namespace Ledger.Reads

/-- No class stands for a record on whole numbers unless one is configured for its schema. -/
theorem classify (reads : ledger.Reads id root schema)
    (plain : context.settings.customClasses.lookup [context.tree.location root] [] [] = none)
    (promoteEnums : Bool) :
    context.classify ledger id promoteEnums =
      (ledger.record id).wholeShape (schema.isTyped false) := by
  -- A record that refers to nothing asks for a class by the location of its schema alone.
  have custom : ledger.customClass? context.tree context.settings.customClasses id = none := by
    have target : (ledger.record id).target = none := by rw [reads.holds]
    have formats : (ledger.record id).formats = [] := by rw [reads.holds]
    have extensions : (ledger.record id).extensions = [] := by rw [reads.holds]
    simp only [customClass?, reads.made, target, formats, extensions, Option.toList, List.append_nil,
      List.map_cons, List.map_nil, plain, ite_self]
  have untyped : (ledger.record id).typeRef = none := by rw [reads.holds]
  -- The record is no negation, so its types are those stated in it.
  have types : ledger.effectiveTypes id = if schema.isTyped false then [.integer] else [] := by
    rw [effectiveTypes]
    simp only [reads.positive]
    rw [reads.holds]
  have shape := inferShape_whole reads.holds rfl types promoteEnums
  simp only [Context.classify, Ledger.classify, custom, untyped, shape]

end Ledger.Reads

namespace Modelling

variable {model : Model} {site : Site} {role : Role} {owner : DeclarationId}

/-- A record that refers to nothing is linked to nothing. -/
theorem ends_linkTarget_of_none {done : Unit → Model → Prop} {failed : Model → Prop}
    (free : (model.ledger.record id).target = none) (stays : done () model) :
    Ends (linkTarget context owner id) model done failed := by
  simp only [linkTarget, ends_bind, ends_record, ends_ledger, free]
  split
  · exact stays
  · exact stays

/-- A record on whole numbers develops into nothing else. -/
theorem develop_whole {analyse : Analysis} :
    develop context analyse site id role (record.wholeShape typed) = pure (record.wholeShape typed) := by
  -- Neither a number nor an enumeration of numbers has parts that could be developed.
  unfold Record.wholeShape Record.integerShape
  split
  · split <;> rfl
  · rfl

variable {mirror : RecordId}

/-- The negation of a record is classified with the type of the record if it states none itself. -/
theorem classify_mirror (reads : model.ledger.Reads id root schema)
    (held : (model.ledger.record id).negation = some mirror) {shape : Shape} :
    context.classify (model.shapeAndPlan context owner id shape).ledger mirror false =
      (model.ledger.record mirror).wholeShape (schema.isTyped false || schema.isTyped true) := by
  obtain ⟨-, negative, -, holds⟩ := reads.mirrored mirror held
  generalize next : (model.shapeAndPlan context owner id shape).ledger = ledger
  have same : ledger.record mirror = model.ledger.record mirror :=
    next ▸ Model.record_shapeAndPlan_of_ne (reads.mirror_ne held)
  -- For negations, no classes are configured.
  have custom : ledger.customClass? context.tree context.settings.customClasses mirror = none := by
    simp only [Ledger.customClass?, same, Record.isNegation, negative, Option.isSome_some, Bool.or_true,
      reduceIte]
  have untyped : (ledger.record mirror).typeRef = none := by rw [same, holds]
  have types : ledger.effectiveTypes mirror =
      if schema.isTyped false || schema.isTyped true then [.integer] else [] := by
    have inner : (model.ledger.record mirror).types =
        if schema.isTyped true then [.integer] else [] := by rw [holds]
    have outer : (ledger.record id).types = if schema.isTyped false then [.integer] else [] := by
      rw [← next, Model.record_shapeAndPlan reads.present, reads.holds]
    -- A negation that states no type takes that of its record.
    simp only [Ledger.effectiveTypes, same, negative, inner, outer]
    cases schema.isTyped true <;> cases schema.isTyped false <;> rfl
  have shape := Ledger.inferShape_whole holds (by rw [same]) types false
  simp only [Context.classify, Ledger.classify, custom, untyped, shape]

/-- The checks of the record itself are passed by the numbers that the limits outside let pass. -/
theorem passes_first (reads : model.ledger.Reads id root schema) (context : Context)
    (owner : DeclarationId) (shaped : Record) :
    let after := model.shapeAndPlan context owner id (shaped.wholeShape (schema.isTyped false))
    (∀ n, (after.ledger.checks id).Passes n ↔
        (schema.isTyped false = true → schema.PassesSide n false)) ∧
      ∀ check ∈ (after.ledger.checks id).items, check.OnRange := by
  intro after
  -- A record that is no negation plans its checks unnegated.
  have positive : (model.ledger.record id).isNegation = false := by
    rw [Record.isNegation, reads.positive]
    rfl
  obtain ⟨passes, onRange⟩ := Model.passes_shapeAndPlan context owner reads.present reads.stocked
    reads.holds positive shaped (schema.isTyped false)
  -- There are no checks before.
  rw [reads.unchecked] at passes onRange
  exact ⟨fun n => (passes n).trans (and_iff_right fun _ member => absurd member List.not_mem_nil),
    fun check member => (onRange check member).resolve_left List.not_mem_nil⟩

/-- The checks of the negation join those of the record. -/
theorem passes_second (reads : model.ledger.Reads id root schema)
    (held : (model.ledger.record id).negation = some mirror) (context : Context)
    (owner : DeclarationId) (shape : Shape) (shaped : Record) (typed : Bool) :
    let after := model.shapeAndPlan context owner id shape
    let last := after.shapeAndPlan context owner mirror (shaped.wholeShape typed)
    (∀ n, (last.ledger.checks id).Passes n ↔
        (after.ledger.checks id).Passes n ∧ (typed = true → schema.PassesSide n true)) ∧
      ∀ check ∈ (last.ledger.checks id).items,
        check ∈ (after.ledger.checks id).items ∨ check.OnRange := by
  intro after last
  obtain ⟨present, negative, shared, holds⟩ := reads.mirrored mirror held
  -- Planning the record itself leaves its negation as the survey left it.
  have same : after.ledger.record mirror = model.ledger.record mirror :=
    Model.record_shapeAndPlan_of_ne (reads.mirror_ne held)
  have own : (after.ledger.record id).checks = (model.ledger.record id).checks := by
    rw [Model.record_shapeAndPlan reads.present]
  have present' : mirror.index < after.ledger.size := Model.size_shapeAndPlan.symm ▸ present
  have stocked : (after.ledger.record mirror).checks.index < after.ledger.checkSets.size := by
    rw [same, shared, Model.checkSets_size_shapeAndPlan]
    exact reads.stocked
  have negation : (after.ledger.record mirror).isNegation = true := by
    rw [same, Record.isNegation, negative]
    rfl
  have planned := Model.passes_shapeAndPlan context owner present' stocked (same ▸ holds) negation
    shaped typed
  -- The two records own the same checks, before and after.
  have before : after.ledger.checks mirror = after.ledger.checks id :=
    Model.checks_shapeAndPlan_of_shared reads.present shared
  have behind : last.ledger.checks id = last.ledger.checks mirror :=
    Model.checks_shapeAndPlan_of_shared present' (by rw [own, same, shared])
  rw [before] at planned
  rw [behind]
  exact planned

/-- Behind the record itself its negation is planned, and then all limits are. -/
theorem passes_planNegation (reads : model.ledger.Reads id root schema) (context : Context)
    (owner : DeclarationId) (shaped : Record) :
    Ends (planNegation context owner id)
      (model.shapeAndPlan context owner id (shaped.wholeShape (schema.isTyped false)))
      (fun _ last => (∀ n, (last.ledger.checks id).Passes n ↔ schema.Passes n) ∧
        ∀ check ∈ (last.ledger.checks id).items, check.OnRange)
      (fun _ => False) := by
  -- By now the limits of the record itself are planned.
  obtain ⟨passes, onRange⟩ := passes_first reads context owner shaped
  have kept : ((model.shapeAndPlan context owner id (shaped.wholeShape
      (schema.isTyped false))).ledger.record id).negation = (model.ledger.record id).negation := by
    rw [Model.record_shapeAndPlan reads.present]
  rw [planNegation, ends_bind, ends_record, kept]
  split
  · -- The negation is classified by itself and planned into the same checks.
    rename_i mirror held
    have unshaped : ((model.shapeAndPlan context owner id (shaped.wholeShape
        (schema.isTyped false))).ledger.record mirror).shape = none := by
      obtain ⟨-, -, -, holds⟩ := reads.mirrored mirror held
      rw [Model.record_shapeAndPlan_of_ne (reads.mirror_ne held), holds]
    rw [ends_bind, ends_record, unshaped, Option.isNone_none, if_pos rfl]
    simp only [ends_bind, ends_ledger, ends_updateRecord, ends_plan, classify_mirror reads held]
    obtain ⟨passes', onRange'⟩ := passes_second reads held context owner
      (shaped.wholeShape (schema.isTyped false)) (model.ledger.record mirror)
      (schema.isTyped false || schema.isTyped true)
    -- A number passes both sets of checks where it lies on both sides of the limits.
    refine ⟨fun n => ?_, fun check member => ?_⟩
    · refine (passes' n).trans ?_
      rw [passes, Bool.or_eq_true]
      exact ⟨fun both => ⟨both.1, both.2⟩, fun passes => ⟨passes.inside, passes.beyond⟩⟩
    · rcases onRange' check member with earlier | new
      · exact onRange check earlier
      · exact new
  · -- Without a negation, nothing is stated behind one.
    rename_i unset
    obtain ⟨-, unlimited⟩ := reads.bare (Option.eq_none_iff_forall_ne_some.mpr unset)
    -- Limits that are stated behind a negation would have made one.
    refine ⟨fun n => (passes n).trans ⟨fun inside => ⟨inside, fun _ stated => ?_⟩,
      fun passes => passes.inside⟩, onRange⟩
    exact absurd unlimited stated

/-- A record on whole numbers is analysed without a fault, and its checks are passed by the numbers that
the limits of both sides let pass. -/
theorem passes_analyseAny (reads : model.ledger.Reads id root schema)
    (plain : context.settings.customClasses.lookup [context.tree.location root] [] [] = none) :
    Ends (analyseAny context site id role) model
      (fun _ last => (∀ n, (last.ledger.checks id).Passes n ↔ schema.Passes n) ∧
        ∀ check ∈ (last.ledger.checks id).items, check.OnRange)
      (fun _ => False) := by
  have unshaped : (model.ledger.record id).shape = none := by rw [reads.holds]
  have free : (model.ledger.record id).target = none := by rw [reads.holds]
  -- Neither a target nor a class nor a record inside keeps the analysis from the plan.
  rw [analyseAny, ends_bind, ends_ledger, analyse, ends_bind, ends_record, unshaped,
    Option.isNone_none, if_pos rfl, dif_pos (mem_ids.mpr reads.present), ends_bind]
  refine ends_linkTarget_of_none free ?_
  simp only [ends_bind, ends_ledger, reads.classify plain, develop_whole, ends_pure, ends_updateRecord,
    ends_plan]
  exact passes_planNegation reads context site.owner _

/-- A schema merged into a fresh record, which is then analysed. -/
def analyseFresh (context : Context) (site : Site) (role : Role) (root : SchemaId) :
    Modelling RecordId := do
  let id ← survey (Survey.begin context.tree root)
  analyseAny context site id role
  return id

/-- The checks of a fresh record on whole numbers, and those of its negation among them. -/
theorem planned_analyseFresh (context : Context) (site : Site) (role : Role) (start : Model)
    (states : context.tree.whole? context.tree.ids root = some schema)
    (plain : context.settings.customClasses.lookup [context.tree.location root] [] [] = none) :
    Ends (analyseFresh context site role root) start
      (fun id last => (∀ n, (last.ledger.checks id).Passes n ↔ schema.Passes n) ∧
        ∀ check ∈ (last.ledger.checks id).items, check.OnRange)
      (fun _ => False) := by
  simp only [analyseFresh, ends_bind, ends_survey, ends_pure]
  -- The survey merges the schema into the record, and the analysis only reads it there.
  refine (Survey.reads_begin states start.survey).imp (fun id last reads => ?_) fun _ failed => failed
  have reads : { start with survey := last }.ledger.Reads id root schema := reads
  exact passes_analyseAny reads plain

/-- For every schema that is built from the type integer, limits, conjunctions and negations, the checks
that are planned for it and for its negations are on ranges of whole numbers. The numbers that pass them
are those that pass the limits of each side taken together. These are the valid ones where the type is
stated outside and there is one negation at most; and where no negation stands inside another one, every
valid number is among them. -/
theorem passes_iff_analyseFresh (context : Context) (site : Site) (role : Role) (start : Model)
    (states : context.tree.whole? context.tree.ids root = some schema)
    (plain : context.settings.customClasses.lookup [context.tree.location root] [] [] = none) :
    Ends (analyseFresh context site role root) start
      (fun id last =>
        (∀ check ∈ (last.ledger.checks id).items, check.OnRange) ∧
          (∀ n, (last.ledger.checks id).Passes n ↔ schema.Passes n) ∧
          (schema.IsPlain → ∀ n, (last.ledger.checks id).Passes n ↔ schema.Admits n) ∧
          (schema.depth ≤ 1 → (∀ limit ∈ schema.limits true, ¬ limit.IsExtreme) →
            ∀ n, schema.Admits n → (last.ledger.checks id).Passes n))
      (fun _ => False) := by
  -- That the checks decide by the merged limits is shown above; what is left is about the schema.
  refine (planned_analyseFresh context site role start states plain).imp (fun id last done => ?_)
    fun _ failed => failed
  obtain ⟨passes, onRange⟩ := done
  exact ⟨onRange, passes, fun plain n => (passes n).trans plain.passes_iff,
    fun shallow usual n admits => (passes n).mpr (admits.passes shallow usual)⟩

end Modelling

/-- The schema on whole numbers that a document of its own states, with the tree that it is read into. -/
def stated? (content : Json) : Option (SchemaTree × SchemaId × WholeSchema) :=
  match (readRoots [{ uri := "n", content }]).run {} with
  | .ok [root] tree =>
    (tree.whole? tree.ids root.schema).map fun schema => (tree, root.schema, schema)
  | _ => none

/-- What a document states is what its tree holds. -/
theorem whole?_of_stated? {content : Json} {tree : SchemaTree}
    (stated : stated? content = some (tree, root, schema)) : tree.whole? tree.ids root = some schema := by
  unfold stated? at stated
  split at stated
  · obtain ⟨whole, held, same⟩ := Option.map_eq_some_iff.mp stated
    cases same
    exact held
  · cases stated

/-- Whole numbers from three on, but neither five nor six. -/
def gapDocument : Json :=
  .object [("type", .string "integer"), ("minimum", .integer 3),
    ("not", .object [("minimum", .integer 5), ("exclusiveMaximum", .integer 7)])]

/-- The numbers that pass the checks that are planned for a range with a gap. -/
theorem passes_iff_gapDocument :
    ∃ tree root schema, stated? gapDocument = some (tree, root, schema) ∧
      ∃ id last, (Modelling.analyseFresh { tree } ⟨⟨0⟩, none⟩ .value root).run {} = .ok id last ∧
        ∀ n : Int64, (last.ledger.checks id).Passes n ↔ 3 ≤ n ∧ ¬ (5 ≤ n ∧ n < 7) := by
  -- What the document states is computed, and that is where the theorem applies.
  have found : (stated? gapDocument).any fun (_, _, schema) => decide
      (schema = .all [.integer, .limit ⟨.minimum, 3, false⟩, .negation (.all
        [.limit ⟨.minimum, 5, false⟩, .limit ⟨.maximum, 7, true⟩])]) := by
    decide +kernel
  obtain ⟨⟨tree, root, schema⟩, stated, same⟩ := (Option.any_eq_true _ _).mp found
  obtain rfl := of_decide_eq_true same
  obtain ⟨id, last, ran, -, -, admits, -⟩ :=
    (Modelling.passes_iff_analyseFresh { tree } ⟨⟨0⟩, none⟩ .value {} (whole?_of_stated? stated)
      rfl).exists_ok
  refine ⟨tree, root, _, stated, id, last, ran, fun n => (admits (by decide) n).trans ?_⟩
  simp [WholeSchema.all, WholeSchema.Admits, Limit.Admits]

/-- Two negations whose limits have no number in common. -/
def disjointNegations : Json :=
  .object [("type", .string "integer"),
    ("allOf", .array [.object [("not", .object [("minimum", .integer 5)])],
      .object [("not", .object [("maximum", .integer 3)])]])]

/-- Negations beside each other are checked as one, so a number may pass that neither of them admits. -/
theorem passes_not_admits_disjointNegations :
    ∃ tree root schema, stated? disjointNegations = some (tree, root, schema) ∧
      ∃ id last, (Modelling.analyseFresh { tree } ⟨⟨0⟩, none⟩ .value root).run {} = .ok id last ∧
        (last.ledger.checks id).Passes 5 ∧ ¬ schema.Admits 5 := by
  -- That the number passes the merged limits and is not valid is computed for the schema.
  have found : (stated? disjointNegations).any fun (_, _, schema) => decide
      (schema.Passes 5 ∧ ¬ schema.Admits 5) := by
    decide +kernel
  obtain ⟨⟨tree, root, schema⟩, stated, differs⟩ := (Option.any_eq_true _ _).mp found
  obtain ⟨passes, fails⟩ := of_decide_eq_true differs
  obtain ⟨id, last, ran, merged, -⟩ :=
    (Modelling.planned_analyseFresh { tree } ⟨⟨0⟩, none⟩ .value {} (whole?_of_stated? stated)
      rfl).exists_ok
  exact ⟨tree, root, schema, stated, id, last, ran, (merged 5).mpr passes, fails⟩

end SchemaClasses
