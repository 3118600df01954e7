import SchemaClasses.Proofs.Plan
import SchemaClasses.Proofs.Resolution.Checks
import SchemaClasses.Resolution.Members

/-! What planned checks test: each part of a plan is told by the checks that it adds, with the constants that
they compare with in place of their names. -/

namespace SchemaClasses

/-- A check with the value of its constant: its kind, whether it is negated, and what it compares with. -/
abbrev PooledCheck := CheckKind × Bool × Option Operand × Option ConstantValue

/-- What the plain form of a check demands, by its kind and by what it compares with. -/
abbrev Demands := CheckKind → Option Operand → Option ConstantValue → Prop

/-- Whether a check is passed where its plain form demands something. -/
def PooledCheck.IsPassed (demands : Demands) : PooledCheck → Prop
  | (kind, true, operand, constant) => ¬demands kind operand constant
  | (kind, false, operand, constant) => demands kind operand constant

namespace Check

variable {pool : ConstantPool} {check : Check} {kind : CheckKind} {negated : Bool} {operand : Operand}
variable {constant : Option ConstantValue}

@[simp] theorem pooled_fst : (check.pooled pool).1 = check.kind := by
  unfold pooled
  split <;> rfl

/-- A check that names no constant is the same in every pool. -/
theorem pooled_plain (plain : ∀ name, operand ≠ .constant name) :
    Check.pooled pool ⟨kind, some operand, negated⟩ = (kind, negated, some operand, none) := by
  -- Only the name of a constant is replaced by what it stands for.
  cases operand with
  | constant name => exact absurd rfl (plain name)
  | _ => rfl

/-- A check whose operand is known is known. -/
theorem eq_of_pooled (same : check.pooled pool = (kind, negated, some operand, constant)) :
    check = ⟨kind, some operand, negated⟩ := by
  -- Where an operand is left, no constant was looked up, and all parts are told.
  unfold pooled at same
  split at same
  · cases same
  · cases check
    simp_all

end Check

@[simp] theorem PooledCheck.isPassed_plain {demands : Demands} {kind : CheckKind} {operand : Option Operand}
    {constant : Option ConstantValue} :
    PooledCheck.IsPassed demands (kind, false, operand, constant) ↔ demands kind operand constant :=
  Iff.rfl

namespace CheckSet

/-- The checks of a set with the values of their constants. -/
def pooled (set : CheckSet) (pool : ConstantPool) : List PooledCheck :=
  set.items.map fun check => check.pooled pool

/-- Whether all checks of a set are passed, with the constants looked up in a pool. -/
def IsPassed (set : CheckSet) (pool : ConstantPool) (demands : Demands) : Prop :=
  ∀ check ∈ set.pooled pool, check.IsPassed demands

end CheckSet

namespace Plan

/-- A later plan for the same record, with certain checks beside those that were there: they are found in
every pool that the constants grow into. -/
structure Gains (before after : Plan) (gained : List PooledCheck) : Prop where
  record : after.record = before.record
  constants : before.constants.entries <+: after.constants.entries
  nodup : before.checks.items.Nodup → after.checks.items.Nodup
  pooled : ∀ pool : ConstantPool, pool.Numbered → after.constants.entries <+: pool.entries →
    ∀ check, check ∈ after.checks.pooled pool ↔ check ∈ before.checks.pooled pool ∨ check ∈ gained

namespace Gains

variable {a b c plan : Plan} {kind : CheckKind} {gained gained' : List PooledCheck}

theorem refl (plan : Plan) : Gains plan plan [] :=
  ⟨rfl, List.prefix_rfl, id, by simp⟩

theorem trans (first : Gains a b gained) (second : Gains b c gained') :
    Gains a c (gained ++ gained') where
  record := second.record.trans first.record
  constants := first.constants.trans second.constants
  nodup := second.nodup ∘ first.nodup
  pooled pool numbered longer check := by
    -- A pool that holds the later constants holds the earlier ones too.
    rw [second.pooled pool numbered longer,
      first.pooled pool numbered (second.constants.trans longer), List.mem_append, or_assoc]

/-- A fold gains what its steps do. -/
theorem foldl {α : Type} (step : Plan → α → Plan) {key : α → PooledCheck} {items : List α}
    (gains : ∀ before item, before.record = plan.record → Gains before (step before item) [key item]) :
    Gains plan (items.foldl step plan) (items.map key) := by
  -- Steps keep the record of the plan, so each of them starts where the fold allows it.
  induction items generalizing plan with
  | nil => exact refl plan
  | cons item rest ih =>
    have first := gains plan item rfl
    exact first.trans (ih fun before item same => gains before item (same.trans first.record))

/-- A library type. -/
theorem use (type : LibraryType) : Gains plan (plan.use type) [] :=
  ⟨rfl, List.prefix_rfl, id, by simp [Plan.use]⟩

/-- A check that joins is gained in the form it has for the pool. -/
theorem pooled_add {set : CheckSet} {pool : ConstantPool} {check : Check} {other : PooledCheck} :
    other ∈ (set.add check).pooled pool ↔ other ∈ set.pooled pool ∨ other = check.pooled pool := by
  simp only [CheckSet.pooled, List.mem_map, CheckSet.mem_add, or_and_right, exists_or, exists_eq_left]
  exact or_congr_right eq_comm

/-- A check without a constant. -/
theorem check {operand : Operand} {negated : Bool} (side : plan.record.isNegation = negated)
    (plain : ∀ name, operand ≠ .constant name) :
    Gains plan (plan.check kind (some operand)) [(kind, negated, some operand, none)] where
  record := rfl
  constants := List.prefix_rfl
  nodup := CheckSet.nodup_add
  pooled pool _ _ other := by
    -- Its form is the same in every pool, and its side is that of the record.
    rw [List.mem_singleton, ← side, ← Check.pooled_plain plain]
    exact pooled_add

/-- A check against a constant. -/
theorem checkConstant {constantKind : ConstantKind} {value : ConstantValue} {negated : Bool}
    (side : plan.record.isNegation = negated) :
    Gains plan (plan.checkConstant kind constantKind value) [(kind, negated, none, some value)] where
  record := rfl
  constants := ConstantPool.prefix_add ..
  nodup := CheckSet.nodup_add
  pooled pool numbered longer other := by
    -- The name that the constant got leads back to its value.
    have same : Check.pooled pool ⟨kind, some (.constant (plan.constants.add constantKind value).1),
        plan.record.isNegation⟩ = (kind, negated, none, some value) := by
      have found := congrArg (Option.map Constant.value) (numbered.get?_add longer)
      rw [← side]
      exact congrArg (fun found => (kind, plan.record.isNegation, none, found)) found
    rw [List.mem_singleton, ← same]
    exact pooled_add

end Gains

end Plan

namespace Model

/-- Whether the checks of a record are passed, with the constants of its class. -/
def IsPassed (model : Model) (owner : DeclarationId) (id : RecordId) (demands : Demands) : Prop :=
  (model.ledger.checks id).IsPassed (model.declaration owner).constants demands

/-- A record that has a set for its checks and none in it yet, in a class whose constants were added one by
one. -/
structure Unplanned (model : Model) (owner : DeclarationId) (id : RecordId) : Prop where
  empty : (model.ledger.checks id).items = []
  stocked : (model.ledger.record id).checks.index < model.ledger.checkSets.size
  declared : owner.index < model.declarations.size
  built : (model.declaration owner).constants.Built

/-- The plan of a record before anything is planned. -/
def draft (model : Model) (owner : DeclarationId) (id : RecordId) : Plan :=
  { record := model.ledger.record id
    checks := model.ledger.checks id
    constants := (model.declaration owner).constants
    libraryTypes := (model.declaration owner).libraryTypes
    diagnostics := model.survey.diagnostics }

namespace Unplanned

variable {model : Model} {context : Context} {owner : DeclarationId} {id : RecordId} {shape : Shape}

/-- The checks that a record gets are those of its plan. -/
theorem checks_plan (unplanned : model.Unplanned owner id) :
    (model.plan context owner id shape).ledger.checks id =
      (model.planned context owner id shape).checks :=
  Model.checks_plan.trans (if_pos ⟨rfl, unplanned.stocked⟩)

/-- The constants that a class has afterwards are those of the plan. -/
theorem constants_plan (unplanned : model.Unplanned owner id) :
    ((model.plan context owner id shape).declaration owner).constants =
      (model.planned context owner id shape).constants := by
  rw [declaration_plan, if_pos ⟨rfl, unplanned.declared⟩]

theorem numbered_plan (unplanned : model.Unplanned owner id) :
    ((model.plan context owner id shape).declaration owner).constants.Numbered := by
  rw [unplanned.constants_plan]
  exact planned_grows.numbered unplanned.built.numbered

variable {gained : List PooledCheck}

/-- The checks that a record gets are those that its plan gains, each once. -/
theorem mem_checks_plan (unplanned : model.Unplanned owner id)
    (gains : (model.draft owner id).Gains (model.planned context owner id shape) gained) :
    let after := model.plan context owner id shape
    (after.ledger.checks id).items.Nodup ∧ ∀ check,
      check ∈ (after.ledger.checks id).pooled (after.declaration owner).constants ↔ check ∈ gained := by
  intro after
  have none : (model.draft owner id).checks.items = [] := unplanned.empty
  -- Nothing was planned before, whatever its constants would have been.
  have bare : (model.draft owner id).checks.pooled (after.declaration owner).constants = [] := by
    rw [CheckSet.pooled, none, List.map_nil]
  -- The set of checks after the plan is the one that the draft has gained.
  rw [show after.ledger.checks id = _ from unplanned.checks_plan]
  refine ⟨gains.nodup (none ▸ List.nodup_nil), fun check => ?_⟩
  rw [gains.pooled _ unplanned.numbered_plan (unplanned.constants_plan ▸ List.prefix_rfl), bare]
  simp

/-- The checks that a record gets are passed where those are that its plan gains. -/
theorem isPassed_plan {demands : Demands} (unplanned : model.Unplanned owner id)
    (gains : (model.draft owner id).Gains (model.planned context owner id shape) gained) :
    (model.plan context owner id shape).IsPassed owner id demands ↔
      ∀ check ∈ gained, check.IsPassed demands := by
  simp only [IsPassed, CheckSet.IsPassed, (unplanned.mem_checks_plan gains).2]

end Unplanned

end Model

end SchemaClasses
