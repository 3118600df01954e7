import SchemaClasses.Proofs.Negation.Merging
import SchemaClasses.Proofs.Resolution.Checks
import SchemaClasses.Resolution.Members

/-! What the planned checks on whole numbers mean: a record and its negation are each checked against the
range that their tightest bounds leave. -/

namespace SchemaClasses

/-- Whether a whole number lies within a bound by a whole number. -/
def Bound.Admits (bound : Bound) (side : Side) (n : Int) : Prop :=
  ∃ value, bound.value = .whole value ∧
    match side with
    | .minimum => if bound.exclusive then value < n else value ≤ n
    | .maximum => if bound.exclusive then n < value else n ≤ value

namespace Check

/-- Whether a number meets the plain form of a check: it lies in the range, or it is the constant. -/
def Meets (check : Check) (n : Int64) : Prop :=
  match check.kind, check.operand with
  | .rangeInt, some (.range least greatest) | .rangeLong, some (.range least greatest) =>
    (∀ bound, least = some bound → bound.Admits .minimum n.toInt) ∧
      ∀ bound, greatest = some bound → bound.Admits .maximum n.toInt
  | .constInt, some (.number value) | .constLong, some (.number value) => value = .whole n.toInt
  | _, _ => False

/-- Whether a number passes a check: it meets the plain form, or fails it if the check is negated. -/
def Passes (check : Check) (n : Int64) : Prop :=
  if check.negated then ¬ check.Meets n else check.Meets n

/-- Whether a check is on the range of whole numbers. -/
def OnRange (check : Check) : Prop :=
  check.kind ∈ [.rangeInt, .rangeLong, .constInt, .constLong]

end Check

/-- Whether a number passes all checks of a set. -/
def CheckSet.Passes (set : CheckSet) (n : Int64) : Prop := ∀ check ∈ set.items, check.Passes n

/-- One more check is one more to pass. -/
theorem CheckSet.passes_add {set : CheckSet} {check : Check} {n : Int64} :
    (set.add check).Passes n ↔ set.Passes n ∧ check.Passes n := by
  simp only [Passes, CheckSet.mem_add, or_imp, forall_and, forall_eq]

/-- Whether a whole number lies in a range that may be open on either side. -/
def InRange (range : Option Int × Option Int) (n : Int) : Prop :=
  (∀ least, range.1 = some least → least ≤ n) ∧ ∀ greatest, range.2 = some greatest → n ≤ greatest

namespace Record

variable {record : Record} {schema : WholeSchema} {side : Bool} {n : Int64}

/-- The range of a record is what all limits leave that it holds. -/
theorem Holds.inRange_iff (holds : record.Holds schema side) :
    InRange record.integerRange n.toInt ↔ ∀ limit ∈ schema.limits side, limit.Keeps n := by
  -- Each end of the range comes from the limits of one side.
  have least : (∀ least, record.integerRange.1 = some least → least ≤ n.toInt) ↔
      ∀ limit ∈ schema.limits side, limit.side = .minimum → limit.Keeps n := by
    rw [← Limit.closes_tightest, integerRange, holds]
    simp [Limit.Closes]
  have greatest : (∀ greatest, record.integerRange.2 = some greatest → n.toInt ≤ greatest) ↔
      ∀ limit ∈ schema.limits side, limit.side = .maximum → limit.Keeps n := by
    rw [← Limit.closes_tightest, integerRange, holds]
    simp [Limit.Closes]
  -- Every limit is on one of the two sides.
  rw [InRange, least, greatest]
  refine ⟨fun both limit member => ?_, fun all =>
    ⟨fun limit member _ => all limit member, fun limit member _ => all limit member⟩⟩
  cases same : limit.side with
  | minimum => exact both.1 limit member same
  | maximum => exact both.2 limit member same

/-- The range of a record is open on both sides if it holds no limit, and only then. -/
theorem Holds.integerRange_eq_none (holds : record.Holds schema side) :
    record.integerRange = (none, none) ↔ schema.limits side = [] := by
  -- The range is open where no bound is kept.
  have open' : record.integerRange = (none, none) ↔
      ∀ side', Limit.tightest side' (schema.limits side) = none := by
    rw [integerRange, holds]
    constructor
    · intro none side'
      cases side' <;> simp_all
    · intro none
      simp [none]
  -- Every limit is on some side, so no side may have any.
  simp only [open', Limit.tightest_eq_none, List.eq_nil_iff_forall_not_mem]
  exact ⟨fun none limit member => none limit.side limit member rfl,
    fun none side' limit member => absurd member (none limit)⟩

end Record

namespace Plan

variable {plan : Plan} {kinds : IntegerChecks} {n : Int64}

/-- Kinds of checks that are on the range of whole numbers. -/
structure IntegerChecks.Ranges (kinds : IntegerChecks) : Prop where
  range : kinds.range = .rangeInt ∨ kinds.range = .rangeLong
  constant : kinds.constant = .constInt ∨ kinds.constant = .constLong

theorem ranges_narrow : narrow.Ranges := ⟨.inl rfl, .inl rfl⟩

theorem ranges_wide : wide.Ranges := ⟨.inr rfl, .inr rfl⟩

/-- A check against a range is met by the numbers in it. -/
theorem meets_range (ranges : kinds.Ranges) {least greatest : Option Int} {negated : Bool} :
    Check.Meets ⟨kinds.range, some (inclusiveRange least greatest), negated⟩ n ↔
      InRange (least, greatest) n.toInt := by
  have meets : Check.Meets ⟨kinds.range, some (inclusiveRange least greatest), negated⟩ n ↔
      (∀ bound, (least.map fun n => Bound.inclusive (.whole n)) = some bound →
          bound.Admits .minimum n.toInt) ∧
        ∀ bound, (greatest.map fun n => Bound.inclusive (.whole n)) = some bound →
          bound.Admits .maximum n.toInt := by
    -- Both kinds compare with the same operand.
    rcases ranges.range with same | same <;> rw [same] <;> rfl
  -- What is left is to read the bounds off the two optional limits.
  rw [meets, InRange]
  simp [Bound.Admits, Bound.inclusive]

/-- A check against a constant is met by that number. -/
theorem meets_constant (ranges : kinds.Ranges) {value : Int} {negated : Bool} :
    Check.Meets ⟨kinds.constant, some (.number (.whole value)), negated⟩ n ↔
      InRange (some value, some value) n.toInt := by
  have meets : Check.Meets ⟨kinds.constant, some (.number (.whole value)), negated⟩ n ↔
      Quantity.whole value = .whole n.toInt := by
    -- Both kinds compare with the same number.
    rcases ranges.constant with same | same <;> rw [same] <;> rfl
  rw [meets, InRange, Quantity.whole.injEq]
  simp only [Option.some.injEq, forall_eq']
  -- The range of a single number holds just that one.
  omega

/-- The range of a record is checked once, if it is not open on both sides. -/
theorem integerRange_cases (ranges : kinds.Ranges) :
    plan.record.integerRange = (none, none) ∧ plan.integerRange kinds = plan ∨
      plan.record.integerRange ≠ (none, none) ∧ ∃ kind operand,
        plan.integerRange kinds = plan.check kind operand ∧
          Check.OnRange ⟨kind, operand, plan.record.isNegation⟩ ∧
            ∀ n, Check.Meets ⟨kind, operand, plan.record.isNegation⟩ n ↔
              InRange plan.record.integerRange n.toInt := by
  have onRange : kinds.range ∈ [CheckKind.rangeInt, .rangeLong, .constInt, .constLong] := by
    rcases ranges.range with same | same <;> simp [same]
  have onConstant : kinds.constant ∈ [CheckKind.rangeInt, .rangeLong, .constInt, .constLong] := by
    rcases ranges.constant with same | same <;> simp [same]
  unfold Plan.integerRange
  split
  · -- Without any limit, nothing is checked.
    rename_i isOpen
    exact .inl ⟨isOpen, rfl⟩
  · rename_i least greatest closed
    refine .inr ⟨by simp [closed], ?_⟩
    split
    · -- The range holds a single number.
      rename_i same
      subst same
      exact ⟨_, _, rfl, onConstant, fun n => closed ▸ meets_constant ranges⟩
    · exact ⟨_, _, rfl, onRange, fun n => closed ▸ meets_range ranges⟩
  · -- The range is open on one side.
    rename_i least greatest isOpen _ closed
    exact .inr ⟨fun none => isOpen (Prod.mk.inj (closed ▸ none)).1 (Prod.mk.inj (closed ▸ none)).2,
      _, _, rfl, onRange, fun n => closed ▸ meets_range ranges⟩

/-- A record that holds limits on one side of its negations and nothing else. -/
structure HoldsSide (plan : Plan) (schema : WholeSchema) (side : Bool) : Prop where
  holds : ∃ record : Record, record.Holds schema side ∧
    plan.record = { record with shape := plan.record.shape }
  negated : plan.record.isNegation = side

end Plan

/-- The shape of a record that states the type or does not. -/
def Record.wholeShape (record : Record) (typed : Bool) : Shape :=
  if typed then record.integerShape else .untyped

namespace Plan

variable {plan : Plan} {kinds : IntegerChecks} {schema : WholeSchema} {side typed : Bool} {n : Int64}

/-- Limits are checked by their range, and nothing else is. -/
theorem HoldsSide.integer_eq (held : plan.HoldsSide schema side) :
    plan.integer kinds = plan.integerRange kinds := by
  obtain ⟨⟨record, holds, same⟩, -⟩ := held
  -- Constants, divisors and enumerations are not stated.
  have constant : plan.record.numericConstant? = none := by rw [same, holds]; rfl
  have multiples : plan.record.multipleOf = [] := by rw [same, holds]
  have enumeration : (plan.integerRange kinds).record.numericEnumeration? = none := by
    have kept : (plan.integerRange kinds).record = plan.record := by
      unfold Plan.integerRange
      split
      · rfl
      · split <;> rfl
      · rfl
    rw [kept, same, holds]
    rfl
  simp only [Plan.integer, constant, multiples, List.foldl_nil, numberEnum, enumeration]

/-- The checks that are planned for limits are passed by the numbers that these let pass. -/
theorem HoldsSide.passes_integer (held : plan.HoldsSide schema side) (ranges : kinds.Ranges) :
    (∀ n, (plan.integer kinds).checks.Passes n ↔ plan.checks.Passes n ∧ schema.PassesSide n side) ∧
      ∀ check ∈ (plan.integer kinds).checks.items, check ∈ plan.checks.items ∨ check.OnRange := by
  have inRange (n : Int64) : InRange plan.record.integerRange n.toInt ↔
      ∀ limit ∈ schema.limits side, limit.Keeps n := by
    obtain ⟨⟨record, holds, same⟩, -⟩ := held
    rw [← holds.inRange_iff, same]
    rfl
  -- The shape that was decided does not matter for the range.
  have isOpen : plan.record.integerRange = (none, none) ↔ schema.limits side = [] := by
    obtain ⟨⟨record, holds, same⟩, -⟩ := held
    rw [← holds.integerRange_eq_none, same]
    rfl
  rw [held.integer_eq]
  rcases integerRange_cases ranges with ⟨unlimited, same⟩ | ⟨limited, kind, operand, same, on, meets⟩
  · -- There is no limit and no check.
    rw [same]
    have none := isOpen.mp unlimited
    refine ⟨fun n => ?_, fun check member => .inl member⟩
    cases side <;> simp [WholeSchema.PassesSide, none]
  · -- One check joins, which is met by what all limits keep, and negated on the other side.
    rw [same]
    have some := mt isOpen.mpr limited
    refine ⟨fun n => ?_, fun other member => ?_⟩
    · rw [check, CheckSet.passes_add, Check.Passes, meets, inRange, held.negated]
      -- On the first side the check is plain, on the second it is negated.
      cases side <;> simp [WholeSchema.PassesSide, some]
    · rcases CheckSet.mem_add.mp member with before | rfl
      · exact .inl before
      · exact .inr on

/-- A record that states no type has no checks. -/
theorem HoldsSide.passes_checksOf (held : plan.HoldsSide schema side) (context : Context)
    (ledger : Ledger) (id : RecordId) (record : Record) :
    (∀ n, (checksOf context ledger id (record.wholeShape typed) plan).checks.Passes n ↔
        plan.checks.Passes n ∧ (typed = true → schema.PassesSide n side)) ∧
      ∀ check ∈ (checksOf context ledger id (record.wholeShape typed) plan).checks.items,
        check ∈ plan.checks.items ∨ check.OnRange := by
  cases typed with
  | false => exact ⟨fun n => by simp [Record.wholeShape, checksOf], fun check member => .inl member⟩
  | true =>
    -- A typed record is checked by one of the two widths, which check the same.
    simp only [Record.wholeShape, reduceIte, Record.integerShape, forall_const]
    split
    · exact held.passes_integer ranges_narrow
    · exact held.passes_integer ranges_wide

end Plan

namespace Model

/-- A record that takes a shape, for which its checks are planned then. -/
def shapeAndPlan (model : Model) (context : Context) (owner : DeclarationId) (id : RecordId)
    (shape : Shape) : Model :=
  (model.updateRecord id fun record => { record with shape := some shape }).plan context owner id shape

variable {model : Model} {context : Context} {owner : DeclarationId} {id other : RecordId}
variable {schema : WholeSchema} {side : Bool} {shape : Shape}

/-- A record that takes a shape keeps what keywords state in it. -/
theorem record_shapeAndPlan (present : id.index < model.ledger.size) :
    let planned := (model.shapeAndPlan context owner id shape).ledger.record id
    planned =
      { model.ledger.record id with
        shape := planned.shape
        patternProperties := planned.patternProperties
        mapBacked := planned.mapBacked } := by
  -- The shape is set first, and the plan then writes the patterns and the map.
  intro planned
  have marked : (model.updateRecord id fun record => { record with shape := some shape }).ledger.record
      id = { model.ledger.record id with shape := some shape } := Ledger.record_update_self present
  have inside : id.index < (model.ledger.update id fun record =>
      { record with shape := some shape }).size := by
    -- The record is still there after its shape was set.
    rw [Ledger.size_update]
    exact present
  have own : planned = ((model.updateRecord id fun record =>
      { record with shape := some shape }).planned context owner id shape).record :=
    record_plan.trans (if_pos ⟨rfl, inside⟩)
  rw [own, planned_grows.record, marked]

/-- Other records stay as they are. -/
theorem record_shapeAndPlan_of_ne (apart : other ≠ id) :
    (model.shapeAndPlan context owner id shape).ledger.record other = model.ledger.record other := by
  rw [shapeAndPlan, record_plan_eq_update, Ledger.record_update_of_ne apart, ledger_updateRecord,
    Ledger.record_update_of_ne apart]

theorem size_shapeAndPlan :
    (model.shapeAndPlan context owner id shape).ledger.size = model.ledger.size := by
  rw [shapeAndPlan, size_plan, ledger_updateRecord, Ledger.size_update]

/-- No set of checks is added. -/
theorem checkSets_size_shapeAndPlan :
    (model.shapeAndPlan context owner id shape).ledger.checkSets.size =
      model.ledger.checkSets.size := by
  rw [shapeAndPlan, plan_eq, ledger_updateDeclaration]
  exact Array.size_modify

/-- Records that own the same set of checks have the same checks. -/
theorem checks_shapeAndPlan_of_shared (present : id.index < model.ledger.size)
    (shared : (model.ledger.record other).checks = (model.ledger.record id).checks) :
    (model.shapeAndPlan context owner id shape).ledger.checks other =
      (model.shapeAndPlan context owner id shape).ledger.checks id := by
  by_cases same : other = id
  · rw [same]
  · rw [Ledger.checks, Ledger.checks, record_shapeAndPlan_of_ne same, shared,
      record_shapeAndPlan present]

/-- What the checks of a record mean once its limits are planned. -/
theorem passes_shapeAndPlan (context : Context) (owner : DeclarationId)
    (present : id.index < model.ledger.size)
    (stocked : (model.ledger.record id).checks.index < model.ledger.checkSets.size)
    (holds : (model.ledger.record id).Holds schema side)
    (negated : (model.ledger.record id).isNegation = side) (shaped : Record) (typed : Bool) :
    let after := model.shapeAndPlan context owner id (shaped.wholeShape typed)
    (∀ n, (after.ledger.checks id).Passes n ↔
        (model.ledger.checks id).Passes n ∧ (typed = true → schema.PassesSide n side)) ∧
      ∀ check ∈ (after.ledger.checks id).items,
        check ∈ (model.ledger.checks id).items ∨ check.OnRange := by
  intro after
  generalize next : (model.updateRecord id fun record =>
    { record with shape := some (shaped.wholeShape typed) }) = marked
  -- Up to its shape, the record that is planned is the one whose limits are known.
  have own : marked.ledger.record id =
      { model.ledger.record id with shape := some (shaped.wholeShape typed) } := by
    rw [← next]
    exact Ledger.record_update_self present
  have unchanged : marked.ledger.checks id = model.ledger.checks id := by
    rw [← next]
    exact Ledger.checks_update rfl
  have stocked' : (marked.ledger.record id).checks.index < marked.ledger.checkSets.size := by
    rw [own, ← next]
    exact stocked
  have planned : after.ledger.checks id =
      (marked.planned context owner id (shaped.wholeShape typed)).checks := by
    rw [← next] at stocked' ⊢
    exact checks_plan.trans (if_pos ⟨rfl, stocked'⟩)
  rw [planned, ← unchanged]
  refine Plan.HoldsSide.passes_checksOf ⟨⟨model.ledger.record id, holds, by rw [own]⟩, ?_⟩ _ _ _ _
  rw [own]
  exact negated

end Model

end SchemaClasses
