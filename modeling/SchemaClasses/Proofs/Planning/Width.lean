import SchemaClasses.Proofs.Catalogue.Closure
import SchemaClasses.Proofs.Planning.Integers

/-! The width of whole numbers: a record that is taken for one of 32 bits by what it states lets no wider
number through, whatever numbers it is compared with. -/

namespace SchemaClasses

/-- A whole number of 32 bits. -/
theorem fitsInt32_iff {n : Int} : fitsInt32 n = true ↔ -0x80000000 ≤ n ∧ n ≤ 0x7FFFFFFF := by
  rw [fitsInt32, Bool.and_eq_true, decide_eq_true_iff, decide_eq_true_iff]
  omega

namespace Record

variable {record : Record} {n : Int64} {least greatest : Int}

/-- The bounds leave 32 bits if their whole numbers do. -/
theorem Describes.of_integerRange {n : Int} (describes : record.Describes n)
    (range : record.integerRange = (some least, some greatest)) (fitsLeast : fitsInt32 least = true)
    (fitsGreatest : fitsInt32 greatest = true) : fitsInt32 n = true := by
  -- The range is closed on both sides, so both bounds are stated.
  obtain ⟨closed, closed'⟩ := Prod.mk.inj range
  obtain ⟨lower, statedLower, rfl⟩ := Option.map_eq_some_iff.mp closed
  obtain ⟨upper, statedUpper, rfl⟩ := Option.map_eq_some_iff.mp closed'
  -- Bounds with such whole numbers were not cut off at 64 bits.
  have above : lower.leastInteger ≤ n :=
    (Bound.leastInteger_le_iff (Bound.isInner_of_leastInteger fitsLeast)).mpr
      (describes.minimum lower statedLower)
  have below : n ≤ upper.greatestInteger :=
    (Bound.le_greatestInteger_iff (Bound.isInner_of_greatestInteger fitsGreatest)).mpr
      (describes.maximum upper statedUpper)
  rw [fitsInt32_iff] at fitsLeast fitsGreatest ⊢
  omega

/-- The constant leaves 32 bits if it has no more itself. -/
theorem Describes.of_numericConstant? (describes : record.Describes n.toInt)
    (fits : record.numericConstant?.any Quantity.fitsInt32 = true) : fitsInt32 n.toInt = true := by
  obtain ⟨number, read, fits⟩ := (Option.any_eq_true _ _).mp fits
  obtain ⟨value, stated, read⟩ := Option.bind_eq_some_iff.mp read
  -- The number is judged as it is read, and it is read exactly.
  have same : number.value = n.toInt :=
    Quantity.value_eq_of_number? read (describes.constant value stated)
  rw [← Quantity.fitsInt32_of_value same]
  exact fits

/-- The allowed values leave 32 bits if none of them has more. -/
theorem Describes.of_numericEnumeration? (describes : record.Describes n.toInt)
    {numbers : List Quantity} (read : record.numericEnumeration? = some numbers)
    (fits : numbers.all Quantity.fitsInt32 = true) : fitsInt32 n.toInt = true := by
  obtain ⟨values, stated, read⟩ := exists_of_numericEnumeration? read
  obtain ⟨value, member, same⟩ := describes.enumeration values stated
  -- The allowed value that the number equals was judged among all of them.
  obtain ⟨number, member, read⟩ := exists_of_mapM_eq_some read member
  rw [← Quantity.fitsInt32_of_value (Quantity.value_eq_of_number? read same)]
  exact List.all_eq_true.mp fits number member

/-- The reasons beside its range for which a number is taken for one of 32 bits. -/
inductive IsNarrowAside (record : Record) : Prop where
  | constant (fits : record.numericConstant?.any Quantity.fitsInt32 = true)
  | enumeration {numbers : List Quantity} (read : record.numericEnumeration? = some numbers)
      (fits : numbers.all Quantity.fitsInt32 = true)
  | format (tagged : "int32" ∈ record.formats)

/-- A number is taken for one of 32 bits for the ends of its range or for another reason. -/
theorem isInt32_iff : record.isInt32 = true ↔
    (∃ least greatest, record.integerRange = (some least, some greatest) ∧
      fitsInt32 least = true ∧ fitsInt32 greatest = true) ∨ record.IsNarrowAside := by
  constructor
  · intro narrow
    -- Each reason is one of the disjuncts that the definition lists.
    simp only [isInt32, Bool.or_eq_true, decide_eq_true_eq] at narrow
    rcases narrow with ((range | constant) | enumeration) | tagged
    · -- The range only counts where it is closed on both sides.
      split at range
      · rename_i least greatest closed
        obtain ⟨fits, fits'⟩ := Bool.and_eq_true_iff.mp range
        exact .inl ⟨least, greatest, closed, fits, fits'⟩
      · cases range
    · exact .inr (.constant constant)
    · split at enumeration
      · rename_i read
        exact .inr (.enumeration read enumeration)
      · cases enumeration
    · exact .inr (.format tagged)
  · rintro (⟨least, greatest, closed, fits, fits'⟩ | fits | ⟨read, fits⟩ | tagged)
    · simp [isInt32, closed, fits, fits']
    · simp [isInt32, fits]
    · simp [isInt32, read, fits]
    · simp [isInt32, tagged]

/-- A 64-bit number that satisfies a record has 32 bits if the record is taken for one of 32 bits, other than
by the format that says so. -/
theorem mem_int32_of_isInt32 (untagged : "int32" ∉ record.formats) (narrow : record.isInt32 = true)
    (n : Int64) (describes : record.Describes n.toInt) :
    -0x80000000 ≤ n.toInt ∧ n.toInt ≤ 0x7FFFFFFF := by
  rw [← fitsInt32_iff]
  -- Each of the three reasons is enough by itself.
  rcases isInt32_iff.mp narrow with ⟨_, _, closed, fitsLeast, fitsGreatest⟩ | constant | ⟨read, fits⟩ | tagged
  · exact describes.of_integerRange closed fitsLeast fitsGreatest
  · exact describes.of_numericConstant? constant
  · exact describes.of_numericEnumeration? read fits
  · exact absurd tagged untagged

/-- The smallest number of 32 bits lies above `-2147483648.5`. -/
theorem mem_int32_of_edges :
    let record : Record :=
      { minimum := some ⟨.decimal ⟨true, 4294967297, -1, .inl rfl⟩, true⟩
        maximum := some ⟨.whole 2147483648, true⟩ }
    record.isInt32 = true ∧ record.Describes (-2147483648 : Int64).toInt ∧
      -0x80000000 ≤ (-2147483648 : Int64).toInt := by
  intro record
  have narrow : record.isInt32 = true := by decide
  have edge : (-2147483648 : Int64).toInt = -2147483648 := by decide
  -- The record is given as a literal, so that each field is compared with the number by
  -- computation.
  have describes : record.Describes (-2147483648 : Int64).toInt := by
    rw [edge]
    refine ⟨?_, ?_, ?_, ?_⟩
    · rintro bound ⟨⟩
      norm_num [Bound.Allows, Quantity.value, Binary64.value, Binary64.magnitude]
    · rintro bound ⟨⟩
      norm_num [Bound.Allows, Quantity.value]
    · rintro value ⟨⟩
    · rintro values ⟨⟩
  exact ⟨narrow, describes, (mem_int32_of_isInt32 (by decide) narrow _ describes).1⟩

end Record

/-! The numbers that generated code compares 32-bit values with: they are those of the keywords, whatever made
the type narrow. -/

/-- A whole number of 32 bits, which can be written as a literal of the narrow type. -/
def Quantity.IsInt32 (q : Quantity) : Prop := ∃ n : Int, q.value = n ∧ -0x80000000 ≤ n ∧ n ≤ 0x7FFFFFFF

/-- A whole number is a literal of the narrow type if it fits that type. -/
theorem Quantity.isInt32_whole {n : Int} : (Quantity.whole n).IsInt32 ↔ SchemaClasses.fitsInt32 n = true := by
  rw [fitsInt32_iff]
  refine ⟨?_, fun inside => ⟨n, rfl, inside⟩⟩
  rintro ⟨m, same, inside⟩
  obtain rfl : n = m := by simpa [Quantity.value] using same
  exact inside

/-- The numbers in a check on 32-bit values, by its kind and operand. -/
def CheckKind.literals : CheckKind → Option Operand → List Quantity
  | rangeInt, some (.range least greatest) => (least.toList ++ greatest.toList).map Bound.value
  | constInt, some (.number value) | multipleInt, some (.number value) => [value]
  | _, _ => []

namespace Check

/-- The numbers in a check on 32-bit values. -/
def literals (check : Check) : List Quantity := check.kind.literals check.operand

/-- A constant in place of its name adds none of these numbers. -/
theorem literals_pooled {check : Check} {pool : ConstantPool} :
    (check.pooled pool).1.literals (check.pooled pool).2.2.1 = check.literals := by
  unfold pooled literals
  split
  · rename_i name operand
    rw [operand]
    cases check.kind <;> rfl
  · rfl

end Check

namespace Record

variable {record : Record} {number : Quantity}

/-- The whole numbers at the ends of the range of a record. -/
def ends (record : Record) : List Int :=
  record.integerRange.1.toList ++ record.integerRange.2.toList

/-- The numbers that a record states for checks on whole numbers. -/
def literals (record : Record) : List Quantity :=
  record.ends.map .whole ++ record.numericConstant?.toList ++ record.multipleOf

/-- The check on a range holds the ends of the range. -/
theorem exists_mem_rangeChecks : (∃ check ∈ record.rangeChecks Plan.narrow,
    number ∈ check.1.literals check.2.2.1) ↔ number ∈ record.ends.map .whole := by
  unfold rangeChecks ends
  generalize record.integerRange = range
  -- No end, one of the two, or both: these are the cases of the planned checks.
  obtain ⟨least | least, greatest | greatest⟩ := range
  · simp
  · simp [Plan.narrow, Plan.inclusiveRange, CheckKind.literals, Bound.inclusive]
  · simp [Plan.narrow, Plan.inclusiveRange, CheckKind.literals, Bound.inclusive]
  · dsimp only
    split
    · -- Equal ends are one number.
      rename_i same
      simp [Plan.narrow, CheckKind.literals, same]
    · simp [Plan.narrow, Plan.inclusiveRange, CheckKind.literals, Bound.inclusive]

/-- The checks of a record hold the numbers that it states. -/
theorem exists_mem_integerChecks : (∃ check ∈ record.integerChecks Plan.narrow,
    number ∈ check.1.literals check.2.2.1) ↔ number ∈ record.literals := by
  simp only [integerChecks, literals, List.mem_append, or_and_right, exists_or, exists_mem_rangeChecks]
  -- The list of allowed numbers is held in a constant, so that its check holds none of them.
  simp [Plan.narrow, CheckKind.literals]

/-- A check on the range holds nothing else than the ends of the range. -/
theorem exists_end_of_range {check : PooledCheck} (member : check ∈ record.integerChecks Plan.narrow)
    (range : check.1 = .rangeInt) (listed : number ∈ check.1.literals check.2.2.1) :
    ∃ n ∈ record.ends, number = .whole n := by
  simp only [integerChecks, List.mem_append, List.mem_map] at member
  -- The other checks are of other kinds.
  rcases member with ((ranged | ⟨_, _, rfl⟩) | ⟨_, _, rfl⟩) | ⟨_, _, rfl⟩
  · obtain ⟨n, inside, rfl⟩ := List.mem_map.mp (exists_mem_rangeChecks.mp ⟨check, ranged, listed⟩)
    exact ⟨n, inside, rfl⟩
  all_goals cases range

end Record

/-- A shape of 32 bits is only implied by a record that is taken for a number of 32 bits. -/
theorem Ledger.isInt32_of_inferShape {ledger : Ledger} {id : RecordId} {promote : Bool}
    (narrow : ledger.inferShape id promote = .int32) : (ledger.record id).isInt32 = true := by
  -- A text is promoted or taken for a library type, never for a number.
  have text : (ledger.record id).stringShape promote ≠ .int32 := by
    unfold Record.stringShape
    split
    · nofun
    · split <;> nofun
  unfold inferShape at narrow
  dsimp only at narrow
  split at narrow
  · -- The only type is that of whole numbers.
    unfold Record.integerShape at narrow
    split at narrow
    · assumption
    · cases narrow
  -- Only without types could another shape be inferred, and a text is the only one left there.
  case h_6 => exact absurd narrow text
  case h_7 =>
    split_ifs at narrow
    exact absurd narrow text
  all_goals cases narrow

namespace Model

variable {model : Model} {owner : DeclarationId} {id : RecordId}

/-- The checks on a 32-bit number hold the ends of the range, the constant and the divisors that are stated, as
they are stated, and are literals of the type where those are. If it was the range alone that made the type
narrow, it has two ends, and a check on the range holds nothing but literals. -/
theorem plan_int32_literals (context : Context) {promote : Bool}
    (narrow : model.ledger.inferShape id promote = .int32)
    (unplanned : model.Unplanned owner id) :
    let after := model.plan context owner id (model.ledger.inferShape id promote)
    let record := model.ledger.record id
    (∀ number, (∃ check ∈ (after.ledger.checks id).items, number ∈ check.literals) ↔
        number ∈ record.literals) ∧
      ((∀ check ∈ (after.ledger.checks id).items, ∀ number ∈ check.literals, number.IsInt32) ↔
        (∀ n ∈ record.ends, fitsInt32 n = true) ∧
          (∀ number, record.numericConstant? = some number → number.IsInt32) ∧
            ∀ divisor ∈ record.multipleOf, divisor.IsInt32) ∧
        (∀ check ∈ (after.ledger.checks id).items, check.kind = .rangeInt → ∀ number ∈ check.literals,
          ∃ n ∈ record.ends, number = .whole n) ∧
          (¬record.IsNarrowAside →
            (∃ least greatest, record.integerRange = (some least, some greatest) ∧
              fitsInt32 least = true ∧ fitsInt32 greatest = true) ∧
            ∀ check ∈ (after.ledger.checks id).items, check.kind = .rangeInt →
              ∀ number ∈ check.literals, number.IsInt32) := by
  intro after record
  -- The type is narrow, so the plan gains the checks on whole numbers with the narrow kinds.
  have gains : (model.draft owner id).Gains
      (model.planned context owner id (model.ledger.inferShape id promote))
      (record.integerChecks Plan.narrow) := by
    rw [narrow]
    exact Plan.Gains.integer Plan.narrow
  obtain ⟨-, planned⟩ := unplanned.mem_checks_plan gains
  -- Constants are looked up for enumerations alone, so the operands are those of the record's checks.
  have held (number : Quantity) : (∃ check ∈ (after.ledger.checks id).items, number ∈ check.literals) ↔
      number ∈ record.literals := by
    rw [← Record.exists_mem_integerChecks]
    simp only [← planned, CheckSet.pooled, List.mem_map, exists_exists_and_eq_and, Check.literals_pooled]
    rfl
  -- A check on a range is the one that was planned, and its numbers are the ends.
  have ends (check : Check) (member : check ∈ (after.ledger.checks id).items)
      (range : check.kind = .rangeInt) (number : Quantity) (listed : number ∈ check.literals) :
      ∃ n ∈ record.ends, number = .whole n := by
    rw [← Check.literals_pooled] at listed
    refine Record.exists_end_of_range ((planned _).mp (List.mem_map_of_mem member)) ?_ listed
    rw [Check.pooled_fst, range]
  refine ⟨held, ?_, ends, fun only => ?_⟩
  · -- All numbers are literals if those of the record are.
    have all : (∀ check ∈ (after.ledger.checks id).items, ∀ number ∈ check.literals, number.IsInt32) ↔
        ∀ number ∈ record.literals, number.IsInt32 := by
      simp only [← held, forall_exists_index, and_imp]
      exact ⟨fun each number check member => each check member number, fun each check member number =>
        each number check member⟩
    rw [all]
    simp only [Record.literals, List.mem_append, or_imp, forall_and, List.forall_mem_map,
      Quantity.isInt32_whole, Option.mem_toList, and_assoc]
  · -- Nothing else makes the type narrow, so it is the range, which is closed by two fitting ends.
    obtain ⟨least, greatest, closed, fits, fits'⟩ :=
      (Record.isInt32_iff.mp (Ledger.isInt32_of_inferShape narrow)).resolve_right only
    refine ⟨⟨least, greatest, closed, fits, fits'⟩, fun check member range number listed => ?_⟩
    obtain ⟨n, inside, rfl⟩ := ends check member range number listed
    rw [Quantity.isInt32_whole]
    simp only [Record.ends, record, closed, Option.toList_some, List.mem_append,
      List.mem_singleton] at inside
    -- A number of the check is one of the two ends.
    rcases inside with rfl | rfl
    · exact fits
    · exact fits'

/-- An even number above `0` and up to `10.5`. -/
def evenModel : Model :=
  { survey :=
      { ledger :=
          { records := #[
              { types := [.integer]
                minimum := some ⟨.whole 0, true⟩
                maximum := some ⟨.decimal ⟨false, 21, -1, .inl rfl⟩, false⟩
                multipleOf := [.whole 2] }]
            checkSets := #[{}] } }
    declarations := #[default] }

/-- The checks of such a number hold `1`, `10` and `2`, which are literals; `1` and `10` are the ends of its
range, for which alone it has 32 bits. -/
theorem plan_int32_literals_even :
    let after := evenModel.plan {} ⟨0⟩ ⟨0⟩ (evenModel.ledger.inferShape ⟨0⟩ true)
    (∀ check ∈ (after.ledger.checks ⟨0⟩).items, ∀ number ∈ check.literals, number.IsInt32) ∧
      (∃ check ∈ (after.ledger.checks ⟨0⟩).items, .whole 10 ∈ check.literals) ∧
        (evenModel.ledger.record ⟨0⟩).integerRange = (some 1, some 10) ∧
          ∀ check ∈ (after.ledger.checks ⟨0⟩).items, check.kind = .rangeInt →
            ∀ number ∈ check.literals, number.IsInt32 := by
  have narrow : evenModel.ledger.inferShape ⟨0⟩ true = .int32 := by decide +kernel
  have unplanned : evenModel.Unplanned ⟨0⟩ ⟨0⟩ := ⟨rfl, by decide, by decide, .empty⟩
  -- The record has no constant, no enumeration and no format that could make it narrow.
  have only : ¬(evenModel.ledger.record ⟨0⟩).IsNarrowAside := by
    rintro (fits | ⟨read, fits⟩ | tagged)
    · cases fits
    · cases read
    · cases tagged
  obtain ⟨held, fits, -, ranged⟩ := plan_int32_literals {} narrow unplanned
  refine ⟨fits.mpr ⟨by decide +kernel, nofun, ?_⟩, (held _).mpr (by decide +kernel), by decide +kernel,
    (ranged only).2⟩
  intro divisor member
  rw [List.mem_singleton.mp member, Quantity.isInt32_whole]
  rfl

end Model

/-- A document with a number that is `1` and, by a keyword that does not matter then, at most `5000000000`. -/
def wideBoundSources : List SourceDocument :=
  [{ uri := "a"
     content := .object [("type", .string "object"), ("properties", .object [("n",
       .object [("type", .string "integer"), ("enum", .array [.integer 1]),
         ("maximum", .integer 5000000000)])])] }]

/-- The list of allowed values makes the type narrow, and the bound is checked as it is. -/
theorem not_int32_wideBoundSources :
    ∃ roots tree last, (readRoots wideBoundSources).run {} = .ok roots tree ∧
      (Modelling.build { tree } roots).run {} = .ok () last ∧
      ¬ ∀ id, (last.ledger.record id).isNegation = false → (last.ledger.record id).shape = some .int32 →
        ∀ check ∈ (last.ledger.checks id).items, ∀ number ∈ check.literals, number.IsInt32 := by
  have differs : (built? wideBoundSources).any fun last => last.ledger.ids.any fun id =>
      !(last.ledger.record id).isNegation && (last.ledger.record id).shape == some .int32 &&
        (last.ledger.checks id).items.any fun check => check.literals.contains (.whole 5000000000) := by
    decide +kernel
  obtain ⟨last, built, differs⟩ := (Option.any_eq_true _ _).mp differs
  obtain ⟨roots, tree, read, ran⟩ := exists_run_of_built? built
  refine ⟨roots, tree, last, read, ran, fun literal => ?_⟩
  simp only [List.any_eq_true, Bool.and_eq_true, Bool.not_eq_true', beq_iff_eq,
    List.contains_iff_mem] at differs
  obtain ⟨id, -, ⟨positive, narrow⟩, check, member, listed⟩ := differs
  -- The number of the check does not fit, although the statement would have it so.
  have fits := Quantity.isInt32_whole.mp (literal id positive narrow check member _ listed)
  cases fits

end SchemaClasses
