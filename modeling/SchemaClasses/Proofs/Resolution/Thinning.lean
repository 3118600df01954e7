import SchemaClasses.Proofs.Resolution.Comparison
import SchemaClasses.Proofs.Resolution.Sane
import SchemaClasses.Proofs.Resolution.Scopes

/-! A comparison with the base class removes checks from a property only where the property of the
base class makes the same check, and no later step of the analysis takes that check away. -/

namespace SchemaClasses

/-- Two checks of classes with constants of their own that test the same: they are of one kind and
sign, and compare with one value or with constants that hold the same. -/
inductive Check.Agrees (pool other : ConstantPool) : Check → Check → Prop where
  | plain {check : Check} (plain : ∀ name, check.operand ≠ some (.constant name)) :
      Agrees pool other check check
  | pooled {kind : CheckKind} {negated : Bool} {name name' : String} {constant constant' : Constant}
      (found : pool.get? name = some constant) (found' : other.get? name' = some constant')
      (same : constant.value = constant'.value) :
      Agrees pool other ⟨kind, some (.constant name), negated⟩ ⟨kind, some (.constant name'), negated⟩

namespace Check

variable {pool other grown grown' : ConstantPool} {check inherited : Check}

/-- Checks with the same pooled value test the same, as their constants are there. -/
theorem agrees_of_pooled (pooled : check.IsPooled pool) (pooled' : inherited.IsPooled other)
    (same : inherited.pooled other = check.pooled pool) : check.Agrees pool other inherited := by
  obtain ⟨kind, operand, negated⟩ := check
  obtain ⟨kind', operand', negated'⟩ := inherited
  -- A constant is never compared with a value that is no constant: only the former has a value.
  have held (name : String) (pool : ConstantPool) (found : (pool.get? name).isSome) :
      ∃ constant, pool.get? name = some constant := Option.isSome_iff_exists.mp found
  by_cases constant : ∃ name, operand = some (.constant name)
  · obtain ⟨name, rfl⟩ := constant
    obtain ⟨constant, found⟩ := held name pool (pooled name rfl)
    -- Both operands name constants, and the two constants have one value.
    by_cases constant' : ∃ name', operand' = some (.constant name')
    · obtain ⟨name', rfl⟩ := constant'
      obtain ⟨constant', found'⟩ := held name' other (pooled' name' rfl)
      simp only [Check.pooled, found, found', Option.map_some, Prod.mk.injEq, Option.some.injEq,
        true_and] at same
      obtain ⟨rfl, rfl, value⟩ := same
      exact .pooled found found' value.symm
    · -- Without a constant the pooled value is missing, while that of the other is there.
      have absent : (⟨kind', operand', negated'⟩ : Check).pooled other =
          (kind', negated', operand', none) := by
        unfold Check.pooled
        split
        · rename_i name' named
          exact absurd ⟨name', named⟩ constant'
        · rfl
      rw [absent] at same
      simp [Check.pooled, found] at same
  · have plain : ∀ name, operand ≠ some (.constant name) := fun name named => constant ⟨name, named⟩
    have value : (⟨kind, operand, negated⟩ : Check).pooled pool = (kind, negated, operand, none) := by
      unfold Check.pooled
      split
      · rename_i name named
        exact absurd named (plain name)
      · rfl
    -- In the same way a plain operand agrees with a plain one only.
    rw [value] at same
    by_cases constant' : ∃ name', operand' = some (.constant name')
    · obtain ⟨name', rfl⟩ := constant'
      obtain ⟨constant', found'⟩ := held name' other (pooled' name' rfl)
      simp [Check.pooled, found'] at same
    · have value' : (⟨kind', operand', negated'⟩ : Check).pooled other =
          (kind', negated', operand', none) := by
        unfold Check.pooled
        split
        · rename_i name' named
          exact absurd ⟨name', named⟩ constant'
        · rfl
      rw [value'] at same
      simp only [Prod.mk.injEq, and_true] at same
      obtain ⟨rfl, rfl, rfl⟩ := same
      exact .plain plain

/-- Checks go on testing the same while both classes collect constants. -/
theorem Agrees.of_grown (agrees : check.Agrees pool other inherited)
    (longer : pool.entries <+: grown.entries) (longer' : other.entries <+: grown'.entries) :
    check.Agrees grown grown' inherited := by
  cases agrees with
  | plain plain => exact .plain plain
  | pooled found found' same =>
    exact .pooled (ConstantPool.get?_of_grown longer found)
      (ConstantPool.get?_of_grown longer' found') same

/-- Checks that test the same have the same pooled value. -/
theorem Agrees.pooled_eq (agrees : check.Agrees pool other inherited) :
    inherited.pooled other = check.pooled pool := by
  cases agrees with
  | plain plain =>
    unfold Check.pooled
    split
    · -- A plain check is compared with no constant.
      rename_i name named
      exact absurd named (plain name)
    · rfl
  | pooled found found' same => simp [Check.pooled, found, found', same]

/-- Checks whose constants were there have always tested the same. -/
theorem Agrees.of_shrunk (agrees : check.Agrees grown grown' inherited)
    (pooled : check.IsPooled pool) (pooled' : inherited.IsPooled other)
    (longer : pool.entries <+: grown.entries) (longer' : other.entries <+: grown'.entries) :
    check.Agrees pool other inherited := by
  -- A name that was in use then stands for the constant that it stands for now.
  have earlier {pool grown : ConstantPool} {name : String} {constant : Constant}
      (longer : pool.entries <+: grown.entries) (there : (pool.get? name).isSome)
      (found : grown.get? name = some constant) : pool.get? name = some constant := by
    obtain ⟨first, held⟩ := Option.isSome_iff_exists.mp there
    -- The name stood for some constant then, and that one has stayed.
    rw [held, ← ConstantPool.get?_of_grown longer held, found]
  cases agrees with
  | plain plain => exact .plain plain
  | @pooled kind negated name name' constant constant' found found' same =>
    exact .pooled (earlier longer (pooled name rfl) found)
      (earlier longer' (pooled' name' rfl) found') same

end Check

/-- What a comparison leaves: of the checks planned until then some stay, in their order and before
all later ones, and for each of the others the property of the base class has a check that tests the
same. -/
def Comparison.Kept (comparison : Comparison) (model : Model) (id : RecordId) : Prop :=
  ∃ kept : List Check, kept.Sublist comparison.planned.items ∧
    kept <+: (model.ledger.checks id).items ∧
    ∀ check ∈ comparison.planned.items, check ∈ kept ∨
      ∃ inherited ∈ (model.ledger.checks comparison.baseProperty).items,
        check.Agrees (model.declaration comparison.owner).constants
          (model.declaration comparison.base).constants inherited

/-- What is left stays while checks and constants are only added. -/
theorem Comparison.Kept.of_grown {comparison : Comparison} {model later : Model}
    {id copy : RecordId} (kept : comparison.Kept model id)
    (own : (model.ledger.checks id).items <+: (later.ledger.checks copy).items)
    (inherited : (model.ledger.checks comparison.baseProperty).items ⊆
      (later.ledger.checks comparison.baseProperty).items)
    (constants : ∀ id, (model.declaration id).constants.entries <+:
      (later.declaration id).constants.entries) : comparison.Kept later copy := by
  obtain ⟨kept, ordered, first, all⟩ := kept
  -- What was agreed upon remains so, for checks and constants are only added.
  refine ⟨kept, ordered, first.trans own, fun check planned => (all check planned).imp_right ?_⟩
  rintro ⟨other, member, agrees⟩
  exact ⟨other, inherited member, agrees.of_grown (constants _) (constants _)⟩

/-- What a comparison takes away: the checks of the property are those that were planned until then,
except each for which the property of the base class has a check that tests the same. -/
structure Comparison.Exact (comparison : Comparison) (model : Model) : Prop where
  pooled : ∀ check ∈ comparison.planned.items,
    check.IsPooled (model.declaration comparison.owner).constants
  inherited : ∀ check ∈ (model.ledger.checks comparison.baseProperty).items,
    check.IsPooled (model.declaration comparison.base).constants
  mem_iff : ∀ check, check ∈ (model.ledger.checks comparison.property).items ↔
    check ∈ comparison.planned.items ∧
      ∀ inherited ∈ (model.ledger.checks comparison.baseProperty).items,
        ¬ check.Agrees (model.declaration comparison.owner).constants
          (model.declaration comparison.base).constants inherited

/-- What is left stays exact while both properties keep their checks. -/
theorem Comparison.Exact.of_same {comparison : Comparison} {model later : Model}
    (exact' : comparison.Exact model)
    (own : later.ledger.checks comparison.property = model.ledger.checks comparison.property)
    (inherited : later.ledger.checks comparison.baseProperty =
      model.ledger.checks comparison.baseProperty)
    (constants : ∀ id, (model.declaration id).constants.entries <+:
      (later.declaration id).constants.entries) : comparison.Exact later where
  pooled check planned := (exact'.pooled check planned).of_grown (constants _)
  inherited check member := by
    rw [inherited] at member
    exact (exact'.inherited check member).of_grown (constants _)
  mem_iff check := by
    -- The property has its planned checks, and only the agreement has to be compared.
    rw [own, inherited, exact'.mem_iff]
    refine and_congr_right fun planned => forall₂_congr fun other member => not_congr ?_
    -- Constants that join later neither break an agreement nor make one.
    constructor
    · exact fun agrees => agrees.of_grown (constants _) (constants _)
    · exact fun agrees => agrees.of_shrunk (exact'.pooled check planned)
        (exact'.inherited other member) (constants _) (constants _)

/-- The model after a comparison with a property of the same shape. -/
def Model.thinned (model : Model) (owner : DeclarationId) (property baseProperty : RecordId) :
    Model :=
  let declaration := model.declaration owner
  let base := model.declaration (declaration.base.getD owner)
  let inherited := (model.ledger.checks property).sharedWith declaration.constants
    (model.ledger.checks baseProperty) base.constants
  { model with
    survey :=
      { model.survey with
        ledger := model.survey.ledger.updateChecks property (·.removeAll inherited) } }.updateRecord
    property fun record => { record with baseProperty := some baseProperty }

/-- The model after a comparison with a property of another shape. -/
def Model.redeclared (model : Model) (property baseProperty : RecordId) : Model :=
  (model.updateRecord baseProperty fun record => { record with extended := true }).updateRecord
    property fun record => { record with overrides := true }

namespace Modelling

variable {context : Context} {model : Model} {owner : DeclarationId}
variable {property baseProperty id : RecordId}

/-- A comparison thins the property, or declares it anew. -/
theorem ends_comparing {done : List Comparison → Model → Prop} {failed : Model → Prop} :
    Ends (comparing owner property baseProperty) model done failed ↔
      if (model.ledger.record property).shape = (model.ledger.record baseProperty).shape then
        done [⟨owner, (model.declaration owner).base.getD owner, property, baseProperty,
          model.ledger.checks property⟩] (model.thinned owner property baseProperty)
      else done [] (model.redeclared property baseProperty) := by
  simp only [comparing, compareWithBase, ends_bind, ends_get, ends_record]
  -- Equal shapes lead to a comparison of checks, different ones to a new declaration.
  split
  · simp only [ends_bind, ends_get, ends_survey, ends_modify, ends_updateRecord, ends_pure]
    rfl
  · simp only [ends_bind, ends_updateRecord, ends_pure]
    rfl

/-- The records after a comparison. -/
theorem record_thinned :
    (model.thinned owner property baseProperty).ledger.record id =
      if id = property ∧ property.index < model.ledger.size then
        { model.ledger.record property with baseProperty := some baseProperty }
      else model.ledger.record id := by
  unfold Model.thinned
  rw [Model.ledger_updateRecord, Ledger.record_update]
  rfl

/-- A comparison settles nothing but which property is compared with which. -/
theorem later_thinned : Later model (model.thinned owner property baseProperty) where
  settles _ := Ledger.rel_update Record.Settles.refl ⟨rfl, rfl, fun _ held => held⟩
  size := Ledger.size_update
  declarations := rfl
  grows _ := .refl _

/-- A property declared anew is only marked. -/
theorem later_redeclared : Later model (model.redeclared property baseProperty) := by
  have marked : Later model (model.updateRecord baseProperty fun record =>
      { record with extended := true }) := later_updateRecord ⟨rfl, rfl, fun _ held => held⟩
  exact marked.trans (later_updateRecord ⟨rfl, rfl, fun _ held => held⟩)

/-- A comparison decides no class. -/
theorem sane_thinned (sane : model.Sane context) :
    (model.thinned owner property baseProperty).Sane context := by
  exact later_thinned.sane sane (fun _ => Ledger.field_update Record.typeRef rfl)
    (fun _ => Ledger.field_update Record.shape rfl) (fun _ => rfl) sane.links

/-- A property declared anew is not given a class by that. -/
theorem sane_redeclared (sane : model.Sane context) :
    (model.redeclared property baseProperty).Sane context := by
  -- Two records are marked, one after the other.
  have marked : (model.updateRecord baseProperty fun record =>
      { record with extended := true }).Sane context := by
    refine sane_updateRecord sane ?_ (sane.shaped baseProperty) (sane.suits baseProperty)
    exact later_updateRecord ⟨rfl, rfl, fun _ held => held⟩
  exact sane_updateRecord marked (later_updateRecord ⟨rfl, rfl, fun _ held => held⟩)
    (marked.shaped property) (marked.suits property)

/-- Only marks change where a property is declared anew. -/
theorem field_redeclared {α : Type} (field : Record → α)
    (extended : field { model.ledger.record baseProperty with extended := true } =
      field (model.ledger.record baseProperty))
    (overrides : field { (model.updateRecord baseProperty fun record =>
        { record with extended := true }).ledger.record property with overrides := true } =
      field ((model.updateRecord baseProperty fun record =>
        { record with extended := true }).ledger.record property)) :
    field ((model.redeclared property baseProperty).ledger.record id) =
      field (model.ledger.record id) := by
  unfold Model.redeclared
  -- Two records are marked, one after the other.
  rw [Model.ledger_updateRecord, Ledger.field_update field overrides, Model.ledger_updateRecord,
    Ledger.field_update field extended]

/-- A comparison decides no shape. -/
theorem shape_thinned :
    ((model.thinned owner property baseProperty).ledger.record id).shape =
      (model.ledger.record id).shape :=
  Ledger.field_update Record.shape rfl

/-- A property declared anew keeps its shape, like all others. -/
theorem shape_redeclared :
    ((model.redeclared property baseProperty).ledger.record id).shape =
      (model.ledger.record id).shape :=
  field_redeclared Record.shape rfl rfl

/-- A property declared anew keeps its checks. -/
theorem checks_redeclared :
    (model.redeclared property baseProperty).ledger.checks id = model.ledger.checks id := by
  unfold Model.redeclared
  rw [Model.ledger_updateRecord, Ledger.checks_update rfl, Model.ledger_updateRecord,
    Ledger.checks_update rfl]

/-- A property declared anew has no base property. -/
theorem baseProperty_redeclared :
    ((model.redeclared property baseProperty).ledger.record id).baseProperty =
      (model.ledger.record id).baseProperty :=
  field_redeclared Record.baseProperty rfl rfl

/-- A comparison leaves the checks of all other sets alone. -/
theorem checks_thinned_of_ne
    (apart : (model.ledger.record id).checks ≠ (model.ledger.record property).checks) :
    (model.thinned owner property baseProperty).ledger.checks id = model.ledger.checks id := by
  unfold Model.thinned
  rw [Model.ledger_updateRecord, Ledger.checks_update rfl]
  show (Ledger.updateChecks _ _ _).checks id = _
  rw [Ledger.checks_updateChecks, if_neg fun same => apart same.1]
  rfl

/-- A comparison leaves the checks that the base class does not make. -/
theorem checks_thinned_self :
    (model.thinned owner property baseProperty).ledger.checks property =
      (model.ledger.checks property).removeAll ((model.ledger.checks property).sharedWith
        (model.declaration owner).constants (model.ledger.checks baseProperty)
        (model.declaration ((model.declaration owner).base.getD owner)).constants) := by
  unfold Model.thinned
  rw [Model.ledger_updateRecord, Ledger.checks_update rfl]
  show (Ledger.updateChecks _ _ _).checks property = _
  rw [Ledger.checks_updateChecks]
  split
  · rfl
  · -- Without a set of its own the property has no checks that could be removed.
    rename_i absent
    have past : model.survey.ledger.checkSets.size ≤
        (model.survey.ledger.record property).checks.index := by simpa using absent
    have empty : model.ledger.checks property = {} := by
      show Ledger.checks _ property = _
      unfold Ledger.checks
      simp [Model.ledger, Array.getElem?_eq_none past]
    show model.ledger.checks property = _
    rw [empty]
    rfl

/-- A comparison takes checks away only. -/
theorem checks_thinned_subset :
    ((model.thinned owner property baseProperty).ledger.checks id).items ⊆
      (model.ledger.checks id).items := by
  by_cases same : (model.ledger.record id).checks = (model.ledger.record property).checks
  · -- A record with the same set of checks loses the same ones.
    have kept : ((model.thinned owner property baseProperty).ledger.record id).checks =
        ((model.thinned owner property baseProperty).ledger.record property).checks := by
      rw [(later_thinned.settles id).sameOrigin.checks,
        (later_thinned.settles property).sameOrigin.checks, same]
    have own : (model.thinned owner property baseProperty).ledger.checks id =
        (model.thinned owner property baseProperty).ledger.checks property := by
      unfold Ledger.checks
      rw [kept]
    have own' : model.ledger.checks id = model.ledger.checks property := by
      unfold Ledger.checks
      rw [same]
    rw [own, own', checks_thinned_self]
    exact List.filter_sublist.subset
  · rw [checks_thinned_of_ne same]
    exact List.Subset.refl _

/-- Right after a comparison each planned check is there, or the base class makes it. -/
theorem kept_thinned {base : DeclarationId} (based : (model.declaration owner).base = some base)
    (apart : (model.ledger.record baseProperty).checks ≠ (model.ledger.record property).checks)
    (pooled : ∀ check ∈ (model.ledger.checks property).items,
      check.IsPooled (model.declaration owner).constants)
    (pooled' : ∀ check ∈ (model.ledger.checks baseProperty).items,
      check.IsPooled (model.declaration base).constants) :
    Comparison.Kept ⟨owner, base, property, baseProperty, model.ledger.checks property⟩
      (model.thinned owner property baseProperty) property := by
  -- The checks that are left, in the order of before, are the witness.
  have left : (model.thinned owner property baseProperty).ledger.checks property = _ :=
    checks_thinned_self
  rw [based, Option.getD_some] at left
  generalize removed : (model.ledger.checks property).sharedWith
    (model.declaration owner).constants (model.ledger.checks baseProperty)
    (model.declaration base).constants = shared at left
  refine ⟨((model.ledger.checks property).removeAll shared).items, List.filter_sublist, ?_,
    fun check planned => ?_⟩
  · rw [left]
  · -- A check that was removed is one that the base class makes as well.
    by_cases member : check ∈ shared.items
    · right
      rw [← removed] at member
      simp only [CheckSet.sharedWith, List.mem_filter, List.any_eq_true, decide_eq_true_eq] at member
      obtain ⟨-, inherited, member, same⟩ := member
      refine ⟨inherited, ?_, ?_⟩
      · -- The checks of the base property are in another set, which was left alone.
        rw [checks_thinned_of_ne apart]
        exact member
      · exact Check.agrees_of_pooled (pooled check planned) (pooled' inherited member) same
    · -- What was not shared has been left.
      left
      exact List.mem_filter.mpr ⟨planned, by simpa [CheckSet.contains] using member⟩

/-- Right after a comparison exactly the checks are gone that the base class makes. -/
theorem exact_thinned {base : DeclarationId} (based : (model.declaration owner).base = some base)
    (apart : (model.ledger.record baseProperty).checks ≠ (model.ledger.record property).checks)
    (pooled : ∀ check ∈ (model.ledger.checks property).items,
      check.IsPooled (model.declaration owner).constants)
    (pooled' : ∀ check ∈ (model.ledger.checks baseProperty).items,
      check.IsPooled (model.declaration base).constants) :
    Comparison.Exact ⟨owner, base, property, baseProperty, model.ledger.checks property⟩
      (model.thinned owner property baseProperty) := by
  have left : (model.thinned owner property baseProperty).ledger.checks property = _ :=
    checks_thinned_self
  -- The set of the base property is another one.
  have same : (model.thinned owner property baseProperty).ledger.checks baseProperty = _ :=
    checks_thinned_of_ne apart
  rw [based, Option.getD_some] at left
  refine ⟨pooled, fun check member => ?_, fun check => ?_⟩
  · rw [same] at member
    exact pooled' check member
  · simp only [left, same, CheckSet.removeAll, CheckSet.contains, CheckSet.sharedWith,
      List.mem_filter, List.any_eq_true, decide_eq_true_eq, Bool.not_eq_true', decide_eq_false_iff_not]
    refine and_congr_right fun planned => ?_
    -- A check is gone where some check of the base class has its pooled value.
    constructor
    · rintro unshared inherited member agrees
      -- If it agreed with one of the base class, the check would be shared and gone.
      exact unshared ⟨planned, inherited, member, agrees.pooled_eq⟩
    · rintro lacking ⟨-, inherited, member, equal⟩
      exact lacking inherited member
        (Check.agrees_of_pooled (pooled check planned) (pooled' inherited member) equal)

end Modelling

end SchemaClasses
