import SchemaClasses.Proofs.Negation.Checks
import SchemaClasses.Proofs.Planning.Rounding
import SchemaClasses.Proofs.Planning.Testing

/-! The checks on whole numbers: together they let through what the bounds, the constant, the divisors and the
list of allowed values of a record let through. -/

namespace SchemaClasses

/-- Whether a whole number is a multiple of another number. -/
def Quantity.Divides (divisor : Quantity) (n : Int) : Prop := ∃ factor : Int, (n : ℚ) = factor * divisor.value

/-- Whether a whole number satisfies the bounds, the constant and the list of allowed values of a record. -/
structure Record.Describes (record : Record) (n : Int) : Prop where
  minimum : ∀ bound, record.minimum = some bound → bound.Allows .minimum n
  maximum : ∀ bound, record.maximum = some bound → bound.Allows .maximum n
  constant : ∀ value, record.constant = some value → value.number? = some (n : ℚ)
  enumeration : ∀ values, record.enumeration = some values →
    ∃ value ∈ values, value.number? = some (n : ℚ)

/-- What checks demand of a whole number. -/
def integerDemands (n : Int) : Demands
  | .rangeInt, some (.range least greatest), _ | .rangeLong, some (.range least greatest), _ =>
    (∀ bound, least = some bound → bound.Allows .minimum n) ∧
      ∀ bound, greatest = some bound → bound.Allows .maximum n
  | .constInt, some (.number value), _ | .constLong, some (.number value), _ => value.value = n
  | .multipleInt, some (.number divisor), _ | .multipleLong, some (.number divisor), _ => divisor.Divides n
  | .enumNumber, _, some (.numbers values) => ∃ value ∈ values, value.value = n
  | _, _, _ => False

/-- A number that a document can state. -/
def Json.IsNumber (value : Json) : Prop := value.isProper = true ∧ value.number?.isSome

/-- A number of a document is read. -/
theorem Json.IsNumber.isSome_ofJson? {value : Json} (number : value.IsNumber) :
    (Quantity.ofJson? value).isSome := by
  obtain ⟨-, number⟩ := number
  unfold Quantity.ofJson?
  cases value with
  | integer m => split <;> simp [Json.double?]
  | float x => simp [Json.signed?, Json.double?]
  | _ => cases number

namespace Record

variable {record : Record} {kinds : Plan.IntegerChecks} {n : Int64}

/-- The check on the range of a record. -/
def rangeChecks (record : Record) (kinds : Plan.IntegerChecks) : List PooledCheck :=
  match record.integerRange with
  | (none, none) => []
  | (some least, some greatest) =>
    if least = greatest then [(kinds.constant, record.isNegation, some (.number (.whole least)), none)]
    else [(kinds.range, record.isNegation, some (Plan.inclusiveRange least greatest), none)]
  | (least, greatest) =>
    [(kinds.range, record.isNegation, some (Plan.inclusiveRange least greatest), none)]

/-- All checks of a record on whole numbers. -/
def integerChecks (record : Record) (kinds : Plan.IntegerChecks) : List PooledCheck :=
  record.rangeChecks kinds
    ++ record.numericConstant?.toList.map
      (fun value => (kinds.constant, record.isNegation, some (.number value), none))
    ++ record.multipleOf.map
      (fun divisor => (kinds.multiple, record.isNegation, some (.number divisor), none))
    ++ record.numericEnumeration?.toList.map
      (fun numbers => (.enumNumber, record.isNegation, none, some (.numbers numbers)))

end Record

/-- The parts come one after the other: the range, the constant, which is one number at most, the divisors and
the enumeration. -/
theorem Plan.integer_eq {plan : Plan} (kinds : Plan.IntegerChecks) : plan.integer kinds =
    (plan.record.multipleOf.foldl
      (fun plan divisor => plan.check kinds.multiple (some (.number divisor)))
      (plan.record.numericConstant?.toList.foldl
        (fun plan value => plan.check kinds.constant (some (.number value)))
        (plan.integerRange kinds))).numberEnum := by
  unfold Plan.integer
  dsimp only
  cases plan.record.numericConstant? <;> rfl

namespace Plan.Gains

variable {plan : Plan}

/-- A range is checked as such or as a constant. -/
theorem integerRange (kinds : IntegerChecks) :
    Gains plan (plan.integerRange kinds) (plan.record.rangeChecks kinds) := by
  unfold Plan.integerRange Record.rangeChecks
  generalize plan.record.integerRange = range
  -- Without limits there is no check, and with both it depends on whether they are the same.
  obtain ⟨least | least, greatest | greatest⟩ := range
  · exact refl plan
  · exact check rfl fun _ => nofun
  · exact check rfl fun _ => nofun
  · dsimp only
    split
    · exact check rfl fun _ => nofun
    · exact check rfl fun _ => nofun

/-- The list of allowed numbers is checked as a whole. -/
theorem numberEnum {record : Record} (same : plan.record = record) :
    Gains plan plan.numberEnum (record.numericEnumeration?.toList.map
      fun numbers => (.enumNumber, record.isNegation, none, some (.numbers numbers))) := by
  subst same
  unfold Plan.numberEnum
  cases plan.record.numericEnumeration? with
  | none => exact refl plan
  | some numbers => exact checkConstant rfl

/-- The checks on whole numbers are those of the record. -/
theorem integer (kinds : IntegerChecks) :
    Gains plan (plan.integer kinds) (plan.record.integerChecks kinds) := by
  rw [integer_eq, Record.integerChecks]
  -- The parts are planned in this order: range, constant, divisors and enumeration.
  have range : Gains plan _ (plan.record.rangeChecks kinds) := integerRange kinds
  have constant : Gains (plan.integerRange kinds) _ (plan.record.numericConstant?.toList.map
      fun value => (kinds.constant, plan.record.isNegation, some (.number value), none)) :=
    foldl (fun plan value => plan.check kinds.constant (some (.number value)))
      fun before value same => check (by rw [same, range.record]) fun _ => nofun
  -- All parts read the record that the plan began with, which none of them changes.
  have both := range.trans constant
  have divisors : Gains _ _ (plan.record.multipleOf.map
      fun divisor => (kinds.multiple, plan.record.isNegation, some (.number divisor), none)) :=
    foldl (fun plan divisor => plan.check kinds.multiple (some (.number divisor)))
      fun before divisor same => check (by rw [same, both.record]) fun _ => nofun
  have all := both.trans divisors
  exact all.trans (numberEnum all.record)

end Plan.Gains

/-- Both widths check the same. -/
theorem Plan.IntegerChecks.demands_of_width {kinds : Plan.IntegerChecks}
    (width : kinds = Plan.narrow ∨ kinds = Plan.wide) (n : Int) (constant : Option ConstantValue) :
    (∀ least greatest, integerDemands n kinds.range (some (Plan.inclusiveRange least greatest)) constant ↔
        InRange (least, greatest) n) ∧
      (∀ value, integerDemands n kinds.constant (some (.number value)) constant ↔ value.value = n) ∧
        ∀ divisor, integerDemands n kinds.multiple (some (.number divisor)) constant ↔ divisor.Divides n := by
  -- A range demands the same of a number in both widths.
  have inside (least greatest : Option Int) :
      integerDemands n .rangeInt (some (Plan.inclusiveRange least greatest)) constant ↔
        InRange (least, greatest) n := by
    simp [Plan.inclusiveRange, integerDemands, InRange, Bound.inclusive, Bound.Allows, Quantity.value]
  rcases width with rfl | rfl
  · exact ⟨inside, fun _ => Iff.rfl, fun _ => Iff.rfl⟩
  · exact ⟨inside, fun _ => Iff.rfl, fun _ => Iff.rfl⟩

namespace Record

variable {record : Record} {kinds : Plan.IntegerChecks}

/-- A whole number passes the check on the range where it lies in the range. -/
theorem isPassed_rangeChecks {n : Int} (positive : record.isNegation = false)
    (width : kinds = Plan.narrow ∨ kinds = Plan.wide) :
    (∀ check ∈ record.rangeChecks kinds, check.IsPassed (integerDemands n)) ↔
      InRange record.integerRange n := by
  obtain ⟨ranges, constants, -⟩ := Plan.IntegerChecks.demands_of_width width n none
  unfold rangeChecks
  generalize record.integerRange = range
  rw [positive]
  -- No limit, one of the two, or both: these are the cases of the planned checks.
  obtain ⟨least | least, greatest | greatest⟩ := range
  · simp [InRange]
  · exact List.forall_mem_singleton.trans (ranges ..)
  · exact List.forall_mem_singleton.trans (ranges ..)
  · dsimp only
    split
    · -- A range of one number holds just that one.
      rename_i same
      subst same
      refine List.forall_mem_singleton.trans ((constants _).trans ?_)
      simp only [Quantity.value, InRange, Option.some.injEq, forall_eq', Int.cast_inj]
      omega
    · exact List.forall_mem_singleton.trans (ranges ..)

/-- A record whose bounds are inside the 64-bit range, whose constant is a number and whose allowed values,
of which there is one at least, are numbers. -/
structure StatesNumbers (record : Record) : Prop where
  minimum : ∀ bound, record.minimum = some bound → bound.value.IsInner
  maximum : ∀ bound, record.maximum = some bound → bound.value.IsInner
  constant : ∀ value, record.constant = some value → value.IsNumber
  enumeration : ∀ values, record.enumeration = some values →
    values ≠ [] ∧ ∀ value ∈ values, value.IsNumber

namespace StatesNumbers

variable {n : Int64}

/-- The range of a record holds the whole numbers within its bounds. -/
theorem inRange_iff (states : record.StatesNumbers) {n : Int} : InRange record.integerRange n ↔
    (∀ bound, record.minimum = some bound → bound.Allows .minimum n) ∧
      ∀ bound, record.maximum = some bound → bound.Allows .maximum n := by
  simp only [InRange, integerRange, Option.map_eq_some_iff, forall_exists_index, and_imp,
    forall_apply_eq_imp_iff₂]
  -- Rounded bounds inside the 64-bit range lose no whole number and let no other in.
  refine and_congr (forall₂_congr fun bound stated => ?_) (forall₂_congr fun bound stated => ?_)
  · exact Bound.leastInteger_le_iff (states.minimum bound stated)
  · exact Bound.le_greatestInteger_iff (states.maximum bound stated)

/-- The number of the constant is the constant. -/
theorem numericConstant?_iff (states : record.StatesNumbers) :
    (∀ number, record.numericConstant? = some number → number.value = n.toInt) ↔
      ∀ value, record.constant = some value → value.number? = some (n.toInt : ℚ) := by
  constructor
  · intro all value stated
    -- A number is always read, so that there is something to compare with.
    have number := states.constant value stated
    obtain ⟨read, found⟩ := Option.isSome_iff_exists.mp number.isSome_ofJson?
    have same := all read (Option.bind_eq_some_iff.mpr ⟨value, stated, found⟩)
    exact (Quantity.value_eq_iff number.1 found).mp same
  · intro all number read
    obtain ⟨value, stated, found⟩ := Option.bind_eq_some_iff.mp read
    -- A value that was read has the value of the number that was read.
    exact Quantity.value_eq_of_number? found (all value stated)

/-- The allowed numbers are the allowed values. -/
theorem numericEnumeration?_iff (states : record.StatesNumbers) :
    (∀ numbers, record.numericEnumeration? = some numbers → ∃ number ∈ numbers, number.value = n.toInt) ↔
      ∀ values, record.enumeration = some values →
        ∃ value ∈ values, value.number? = some (n.toInt : ℚ) := by
  constructor
  · intro all values stated
    -- All values are read, because each of them is a number.
    obtain ⟨filled, numbers⟩ := states.enumeration values stated
    obtain ⟨read, found⟩ := exists_mapM_eq_some fun value member => (numbers value member).isSome_ofJson?
    obtain ⟨number, member, same⟩ := all read (numericEnumeration?_of_ne_nil stated filled ▸ found)
    obtain ⟨value, member, found⟩ := exists_of_mem_mapM found member
    exact ⟨value, member, (Quantity.value_eq_iff (numbers value member).1 found).mp same⟩
  · intro all numbers read
    obtain ⟨values, stated, read⟩ := exists_of_numericEnumeration? read
    -- A value that a number is equal to was read as one of the numbers.
    obtain ⟨value, member, same⟩ := all values stated
    obtain ⟨number, member, found⟩ := exists_of_mapM_eq_some read member
    exact ⟨number, member, Quantity.value_eq_of_number? found same⟩

/-- A whole number passes the checks of a record where it satisfies what the record states. -/
theorem isPassed_integerChecks (states : record.StatesNumbers) (positive : record.isNegation = false)
    (width : kinds = Plan.narrow ∨ kinds = Plan.wide) :
    (∀ check ∈ record.integerChecks kinds, check.IsPassed (integerDemands n.toInt)) ↔
      record.Describes n.toInt ∧ ∀ divisor ∈ record.multipleOf, divisor.Divides n.toInt := by
  obtain ⟨-, constants, divisors⟩ := Plan.IntegerChecks.demands_of_width width n.toInt none
  have allowed : (∀ numbers, record.numericEnumeration? = some numbers →
      integerDemands n.toInt .enumNumber none (some (.numbers numbers))) ↔ _ :=
    states.numericEnumeration?_iff
  -- Each part of the checks is one part of what the record states.
  simp only [integerChecks, List.mem_append, or_imp, forall_and, List.forall_mem_map, Option.mem_toList,
    positive, PooledCheck.isPassed_plain, isPassed_rangeChecks positive width, constants, divisors,
    allowed, states.inRange_iff, states.numericConstant?_iff]
  constructor
  · rintro ⟨⟨⟨⟨minimum, maximum⟩, constant⟩, multiples⟩, enumeration⟩
    exact ⟨⟨minimum, maximum, constant, enumeration⟩, multiples⟩
  · rintro ⟨⟨minimum, maximum, constant, enumeration⟩, multiples⟩
    exact ⟨⟨⟨⟨minimum, maximum⟩, constant⟩, multiples⟩, enumeration⟩

/-- A single whole number within the bounds is inside the 64-bit range. -/
theorem natAbs_lt_of_integerRange (states : record.StatesNumbers) {value : Int}
    (single : record.integerRange = (some value, some value)) : value.natAbs < 9200000000000000000 := by
  obtain ⟨closed, closed'⟩ := Prod.mk.inj single
  obtain ⟨lower, stated, least⟩ := Option.map_eq_some_iff.mp closed
  obtain ⟨upper, stated', greatest⟩ := Option.map_eq_some_iff.mp closed'
  -- The limits of a readable record are well inside of the range.
  have inner := abs_lt.mp (states.minimum lower stated)
  have inner' := abs_lt.mp (states.maximum upper stated')
  -- No bound reaches the ends of the range, so neither does the number between the two.
  have above : ¬value ≤ -9200000000000000000 := by
    rw [← least, Bound.leastInteger_le_iff (states.minimum lower stated), Bound.Allows]
    push_cast
    split
    · exact not_lt.mpr inner.1.le
    · exact not_le.mpr inner.1
  have below : ¬9200000000000000000 ≤ value := by
    rw [← greatest, Bound.le_greatestInteger_iff (states.maximum upper stated'), Bound.Allows]
    push_cast
    split
    · exact not_lt.mpr inner'.2.le
    · exact not_le.mpr inner'.2
  omega

end StatesNumbers

end Record

/-- Whether a check is one against a constant of a certain value. -/
def Check.carries (check : Check) (value : Int) : Bool :=
  match check.kind, check.operand with
  | .constInt, some (.number held) | .constLong, some (.number held) => held.value = value
  | _, _ => false

namespace Record

variable {record : Record} {kinds : Plan.IntegerChecks}

/-- A single whole number that the bounds leave is checked as a constant. -/
theorem mem_integerChecks_of_single {value : Int} (positive : record.isNegation = false)
    (single : record.integerRange = (some value, some value)) :
    (kinds.constant, false, some (.number (.whole value)), none) ∈ record.integerChecks kinds := by
  simp [integerChecks, rangeChecks, single, positive]

/-- No other check carries that number. -/
theorem eq_of_carries {pool : ConstantPool} {check : Check} {value : Int} (states : record.StatesNumbers)
    (positive : record.isNegation = false) (width : kinds = Plan.narrow ∨ kinds = Plan.wide)
    (single : record.integerRange = (some value, some value))
    (member : check.pooled pool ∈ record.integerChecks kinds) (carries : check.carries value = true) :
    check = ⟨kinds.constant, some (.number (.whole value)), false⟩ := by
  simp only [integerChecks, rangeChecks, single, if_pos, positive, List.mem_append, List.mem_singleton,
    List.mem_map, Option.mem_toList] at member
  rcases member with ((range | constant) | divisor) | enumeration
  · exact Check.eq_of_pooled range
  · -- The constant of the record may be the same number.
    obtain ⟨number, read, same⟩ := constant
    obtain ⟨stated, -, found⟩ := Option.bind_eq_some_iff.mp read
    have same := Check.eq_of_pooled same.symm
    rw [same] at carries ⊢
    have held : number.value = value := by
      rcases width with rfl | rfl <;> simpa [Check.carries, Plan.narrow, Plan.wide] using carries
    rw [Quantity.eq_whole_of_value found held (states.natAbs_lt_of_integerRange single)]
  · -- The remaining checks carry no constant.
    obtain ⟨divisor, -, same⟩ := divisor
    rw [Check.eq_of_pooled same.symm] at carries
    rcases width with rfl | rfl <;> cases carries
  · obtain ⟨numbers, -, same⟩ := enumeration
    -- An enumeration carries numbers in a constant of the pool and not in the check.
    have kind : (check.pooled pool).1 = .enumNumber := by rw [← same]
    rw [Check.pooled_fst] at kind
    simp [Check.carries, kind] at carries

/-- The check against that constant, and it alone, carries the number. -/
theorem carries_eq_beq {pool : ConstantPool} {check : Check} {value : Int} (states : record.StatesNumbers)
    (positive : record.isNegation = false) (width : kinds = Plan.narrow ∨ kinds = Plan.wide)
    (single : record.integerRange = (some value, some value))
    (member : check.pooled pool ∈ record.integerChecks kinds) :
    check.carries value = (check == ⟨kinds.constant, some (.number (.whole value)), false⟩) := by
  rw [Bool.eq_iff_iff, beq_iff_eq]
  refine ⟨eq_of_carries states positive width single member, ?_⟩
  rintro rfl
  rcases width with rfl | rfl <;> simp [Check.carries, Plan.narrow, Plan.wide, Quantity.value]

/-- Where the bounds leave a single whole number, no range is checked. -/
theorem not_range_of_mem {check : PooledCheck} {value : Int}
    (width : kinds = Plan.narrow ∨ kinds = Plan.wide)
    (single : record.integerRange = (some value, some value)) (member : check ∈ record.integerChecks kinds) :
    check.1 ≠ .rangeInt ∧ check.1 ≠ .rangeLong := by
  simp only [integerChecks, rangeChecks, single, if_pos, List.mem_append, List.mem_singleton, List.mem_map]
    at member
  rcases member with ((rfl | ⟨_, _, rfl⟩) | ⟨_, _, rfl⟩) | ⟨_, _, rfl⟩ <;>
    rcases width with rfl | rfl <;> exact ⟨nofun, nofun⟩

end Record

namespace Model

variable {model : Model} {owner : DeclarationId} {id : RecordId} {shape : Shape}

/-- The checks of a whole number have the width of its shape. -/
theorem gains_planned_integer (context : Context) (whole : shape = .int32 ∨ shape = .int64) :
    ∃ kinds, (kinds = Plan.narrow ∨ kinds = Plan.wide) ∧
      (model.draft owner id).Gains (model.planned context owner id shape)
        ((model.ledger.record id).integerChecks kinds) := by
  rcases whole with rfl | rfl
  · exact ⟨Plan.narrow, .inl rfl, Plan.Gains.integer _⟩
  · exact ⟨Plan.wide, .inr rfl, Plan.Gains.integer _⟩

/-- A whole number passes the checks planned for a record where it satisfies the record. Bounds that leave a
single number are checked once, as a constant. -/
theorem plan_integer_exact (context : Context) {promote : Bool}
    (whole : model.ledger.inferShape id promote = .int32 ∨ model.ledger.inferShape id promote = .int64)
    (positive : (model.ledger.record id).isNegation = false)
    (states : (model.ledger.record id).StatesNumbers) (unplanned : model.Unplanned owner id) :
    let after := model.plan context owner id (model.ledger.inferShape id promote)
    (∀ n : Int64, after.IsPassed owner id (integerDemands n.toInt) ↔
        (model.ledger.record id).Describes n.toInt ∧
          ∀ divisor ∈ (model.ledger.record id).multipleOf, divisor.Divides n.toInt) ∧
      ∀ value, (model.ledger.record id).integerRange = (some value, some value) →
        (∀ check ∈ (after.ledger.checks id).items,
            check.kind ≠ .rangeInt ∧ check.kind ≠ .rangeLong) ∧
          ∃ kind, (after.ledger.checks id).items.filter (·.carries value) =
            [⟨kind, some (.number (.whole value)), false⟩] := by
  intro after
  -- What the plan gains is known check by check, so it is enough to read these off.
  obtain ⟨kinds, width, gains⟩ := gains_planned_integer context whole
  obtain ⟨once, planned⟩ := unplanned.mem_checks_plan gains
  refine ⟨fun n => ?_, fun value single => ⟨fun check member => ?_, kinds.constant, ?_⟩⟩
  · rw [unplanned.isPassed_plan gains]
    exact states.isPassed_integerChecks positive width
  · -- The constants that checks name do not change their kinds.
    have pooled := (planned _).mp (List.mem_map_of_mem member)
    rw [← Check.pooled_fst]
    exact Record.not_range_of_mem width single pooled
  · have member : ⟨kinds.constant, some (.number (.whole value)), false⟩ ∈ (after.ledger.checks id).items := by
      obtain ⟨check, member, same⟩ :=
        List.mem_map.mp ((planned _).mpr (Record.mem_integerChecks_of_single positive single))
      rw [← Check.eq_of_pooled same]
      exact member
    -- A check that carries the value is this one, and sets of checks hold nothing twice.
    have alone (check : Check) (member : check ∈ (after.ledger.checks id).items) :=
      Record.carries_eq_beq states positive width single ((planned _).mp (List.mem_map_of_mem member))
    rw [List.filter_congr alone, List.filter_beq, List.count_eq_one_of_mem once member, List.replicate_one]

/-- A whole number above `2`, up to `3.5` and divisible by `1.5`, which is `3` or `4.0` and above all `3`; its
class has a list of both numbers already. -/
def threeModel : Model :=
  { survey :=
      { ledger :=
          { records := #[
              { types := [.integer]
                minimum := some ⟨.whole 2, true⟩
                maximum := some ⟨.decimal ⟨false, 7, -1, .inl rfl⟩, false⟩
                multipleOf := [.decimal ⟨false, 3, -1, .inl rfl⟩]
                enumeration := some [.integer 3, .float ⟨false, 1, 2, .inl rfl⟩]
                constant := some (.integer 3) }]
            checkSets := #[{}] } }
    declarations := #[
      { (default : Declaration) with
        constants := (({} : ConstantPool).add .numberArray (.numbers [.whole 3, .whole 4])).2 }] }

/-- Only `3` passes, and only one check carries it. -/
theorem plan_integer_exact_three :
    let after := threeModel.plan {} ⟨0⟩ ⟨0⟩ (threeModel.ledger.inferShape ⟨0⟩ true)
    after.IsPassed ⟨0⟩ ⟨0⟩ (integerDemands (3 : Int64).toInt) ∧
      ¬after.IsPassed ⟨0⟩ ⟨0⟩ (integerDemands (4 : Int64).toInt) ∧
        ∃ kind, (after.ledger.checks ⟨0⟩).items.filter (·.carries 3) =
          [⟨kind, some (.number (.whole 3)), false⟩] := by
  -- Each field of the record is given as a literal, so that the conditions are computations.
  have states : (threeModel.ledger.record ⟨0⟩).StatesNumbers := by
    refine ⟨?_, ?_, ?_, ?_⟩
    · rintro bound ⟨⟩
      norm_num [Quantity.IsInner, Quantity.value]
    · rintro bound ⟨⟩
      norm_num [Quantity.IsInner, Quantity.value, Binary64.value, Binary64.magnitude]
    · rintro value ⟨⟩
      exact ⟨by decide, rfl⟩
    · rintro values ⟨⟩
      refine ⟨by simp, fun value member => ?_⟩
      rcases List.mem_pair.mp member with rfl | rfl <;> exact ⟨by decide, rfl⟩
  have unplanned : threeModel.Unplanned ⟨0⟩ ⟨0⟩ := ⟨rfl, by decide, by decide, .add .empty _ _⟩
  have three : (3 : Int64).toInt = 3 := by decide
  have four : (4 : Int64).toInt = 4 := by decide
  -- The number `3` is within both bounds, and it is the constant and one of the enumeration.
  have describes : (threeModel.ledger.record ⟨0⟩).Describes 3 := by
    refine ⟨?_, ?_, ?_, ?_⟩
    · rintro bound ⟨⟩
      norm_num [Bound.Allows, Quantity.value]
    · rintro bound ⟨⟩
      norm_num [Bound.Allows, Quantity.value, Binary64.value, Binary64.magnitude]
    · rintro value ⟨⟩
      rfl
    · rintro values ⟨⟩
      exact ⟨.integer 3, by simp, rfl⟩
  have divides : ∀ divisor ∈ (threeModel.ledger.record ⟨0⟩).multipleOf, divisor.Divides 3 := by
    intro divisor member
    rw [List.mem_singleton.mp member]
    exact ⟨2, by norm_num [Quantity.value, Binary64.value, Binary64.magnitude]⟩
  have whole : threeModel.ledger.inferShape ⟨0⟩ true = .int32 ∨
      threeModel.ledger.inferShape ⟨0⟩ true = .int64 := .inl (by decide +kernel)
  obtain ⟨passed, single⟩ := plan_integer_exact {} whole rfl states unplanned
  refine ⟨(passed 3).mpr (three ▸ ⟨describes, divides⟩), fun other => ?_, (single 3 (by decide +kernel)).2⟩
  -- The bound `3.5` lets no `4` through.
  have above := ((passed 4).mp other).1.maximum _ rfl
  rw [four] at above
  norm_num [Bound.Allows, Quantity.value, Binary64.value, Binary64.magnitude] at above

end Model

end SchemaClasses
