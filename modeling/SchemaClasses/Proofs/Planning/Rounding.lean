import Mathlib.Data.Rat.Floor
import SchemaClasses.Proofs.Reading.Places
import SchemaClasses.Proofs.Tightening

/-! Numbers by their exact values: what rounding makes of doubles, what the numbers of a document are worth,
and which whole numbers lie within a bound. -/

namespace SchemaClasses

/-- A quotient rounded up is the ceiling of the quotient. -/
theorem ceil_div {num den : Nat} (positive : 0 < den) :
    ⌈(num / den : ℚ)⌉ = ((num + den - 1) / den : Nat) := by
  have scale : (0 : ℚ) < den := by exact_mod_cast positive
  -- The quotient is the one of a division with remainder, whose remainder is small.
  have parts := Nat.div_add_mod (num + den - 1) den
  have rest := Nat.mod_lt (num + den - 1) positive
  generalize (num + den - 1) / den = quotient at parts
  rw [Int.ceil_eq_iff, Int.cast_natCast, div_le_iff₀ scale, lt_div_iff₀ scale]
  constructor
  · have below : den * quotient < num + den := by omega
    have below : (den * quotient : ℚ) < num + den := by exact_mod_cast below
    linarith
  · have above : num ≤ quotient * den := by
      rw [Nat.mul_comm]
      omega
    exact_mod_cast above

namespace Binary64

variable {x : Binary64}

theorem ratio_snd_pos (x : Binary64) : 0 < x.ratio.2 := by
  unfold ratio
  split
  · exact Nat.one_pos
  · exact Nat.two_pow_pos _

/-- The magnitude is its numerator over its denominator. -/
theorem magnitude_eq_ratio (x : Binary64) : x.magnitude = x.ratio.1 / x.ratio.2 := by
  unfold magnitude ratio twoTo
  split
  · -- The exponent is one of a whole number of units, or one of fractions of a unit.
    rename_i whole
    obtain ⟨shift, same⟩ := Int.eq_ofNat_of_zero_le whole
    simp [same]
  · rename_i below
    obtain ⟨shift, same⟩ : ∃ shift : Nat, x.exponent = -shift :=
      ⟨(-x.exponent).toNat, by omega⟩
    simp [same, div_eq_mul_inv]

/-- A double is rounded down to the floor of its value. -/
theorem floor_eq (x : Binary64) : x.floor = ⌊x.value⌋ := by
  unfold floor value
  rw [magnitude_eq_ratio]
  dsimp only
  -- A negative number is rounded away from zero.
  split
  · rw [Int.floor_neg, ceil_div x.ratio_snd_pos]
  · rw [Rat.floor_natCast_div_natCast]
    rfl

/-- A double is rounded up to the ceiling of its value. -/
theorem ceil_eq (x : Binary64) : x.ceil = ⌈x.value⌉ := by
  unfold ceil value
  rw [magnitude_eq_ratio]
  dsimp only
  split
  · rw [Int.ceil_neg, Rat.floor_natCast_div_natCast]
    rfl
  · rw [ceil_div x.ratio_snd_pos]

/-- A double that is a whole number stays that number when its fractional part is dropped. -/
theorem trunc_of_value {n : Int} (whole : x.value = n) : x.trunc = n := by
  unfold trunc
  -- Rounding either way leaves it alone.
  split
  · rw [ceil_eq, whole, Int.ceil_intCast]
  · rw [floor_eq, whole, Int.floor_intCast]

/-- A double has no fractional part if its value is a whole number, and only then. -/
theorem isIntegral_iff : x.isIntegral = true ↔ ∃ n : Int, x.value = n := by
  unfold isIntegral
  rw [decide_eq_true_iff]
  constructor
  · rintro (none | whole)
    · exact ⟨0, by simp [value, magnitude, none]⟩
    · obtain ⟨shift, same⟩ := Int.eq_ofNat_of_zero_le whole
      -- A power of two that is no fraction is itself a whole factor.
      refine ⟨if x.negative then -(x.significand * 2 ^ shift : Nat) else (x.significand * 2 ^ shift : Nat), ?_⟩
      unfold value magnitude
      split <;> simp [same]
  · rintro ⟨n, same⟩
    by_contra fractional
    obtain ⟨nonzero, below⟩ := not_or.mp fractional
    have odd : x.significand % 2 = 1 := x.canonical.resolve_right fun none => nonzero none.1
    -- An odd number of halves, quarters and so on is no whole number.
    obtain ⟨shift, exponent⟩ : ∃ shift : Nat, x.exponent = -(shift + 1 : Nat) :=
      ⟨(-x.exponent - 1).toNat, by omega⟩
    -- The magnitudes of both sides are the same whole number.
    have magnitude : x.magnitude = (n.natAbs : ℚ) := by
      rw [← abs_value, same, Nat.cast_natAbs, Int.cast_abs]
    have significand : x.significand = n.natAbs * 2 ^ (shift + 1) := by
      unfold Binary64.magnitude at magnitude
      rw [exponent, zpow_neg, zpow_natCast, ← div_eq_mul_inv, div_eq_iff (by positivity)] at magnitude
      exact_mod_cast magnitude
    rw [significand, pow_succ, ← Nat.mul_assoc, Nat.mul_mod_left] at odd
    cases odd

end Binary64

/-- The exact value of a number in a document. -/
def Json.number? : Json → Option ℚ
  | integer n => some n
  | float x => some x.value
  | _ => none

/-- Whole numbers of 64 bits are left as they are. -/
theorem clampSigned_of_mem {n : Int} (lower : minSigned ≤ n) (upper : n ≤ maxSigned) :
    clampSigned n = n := by
  unfold clampSigned
  omega

/-- The range of 64-bit numbers. -/
theorem signed_toInt (n : Int64) : minSigned ≤ n.toInt ∧ n.toInt ≤ maxSigned := by
  have lower := n.le_toInt
  have upper := n.toInt_lt
  simp only [minSigned, maxSigned]
  omega

namespace Quantity

variable {q : Quantity} {value : Json} {x : Binary64}

/-- A double is taken for a whole number if its value is one of less than `9.2e18`. -/
theorem isSafelyWhole_iff :
    isSafelyWhole x = true ↔ ∃ n : Int, x.value = n ∧ n.natAbs < 9200000000000000000 := by
  unfold isSafelyWhole
  rw [Bool.and_eq_true, Binary64.isIntegral_iff, decide_eq_true_iff]
  constructor
  · -- Once the value is whole, dropping the fractional part gives back that number.
    rintro ⟨⟨n, whole⟩, small⟩
    rw [Binary64.trunc_of_value whole] at small
    exact ⟨n, whole, small⟩
  · rintro ⟨n, whole, small⟩
    rw [Binary64.trunc_of_value whole]
    exact ⟨⟨n, whole⟩, small⟩

/-- The number that a double is read as has its value. -/
theorem value_ofJson?_float (read : ofJson? (.float x) = some q) : q.value = x.value := by
  simp only [ofJson?, Json.signed?, Json.double?, Option.map_some, Option.some.injEq] at read
  subst read
  split
  · -- Nothing is cut off a double that is taken for a whole number.
    rename_i safe
    obtain ⟨n, whole, -⟩ := isSafelyWhole_iff.mp safe
    rw [Binary64.trunc_of_value whole, whole]
    rfl
  · rfl

/-- An integer literal of 64 bits is read as it is. -/
theorem ofJson?_integer {m : Int} (lower : minSigned ≤ m) (upper : m ≤ maxSigned) :
    ofJson? (.integer m) = some (whole m) := by
  have signed : -0x8000000000000000 ≤ m ∧ m < 0x8000000000000000 := by
    simp only [minSigned, maxSigned] at lower upper
    omega
  simp only [ofJson?, Json.signed?, if_pos signed]

/-- An integer literal beyond those is read as a double beyond them. -/
theorem value_ofJson?_unsigned {m : Int} (beyond : maxSigned < m) (proper : m < 0x10000000000000000)
    (read : ofJson? (.integer m) = some q) : (maxSigned : ℚ) < q.value := by
  have unsigned : ¬(-0x8000000000000000 ≤ m ∧ m < 0x8000000000000000) := by
    simp only [maxSigned] at beyond
    omega
  -- Rounding keeps the order, and the first number beyond is a double itself.
  have large : (maxSigned + 1 : ℚ) ≤ (Binary64.ofInt m).value := by
    have first : (Binary64.ofInt 0x8000000000000000).value = (maxSigned + 1 : ℚ) := by
      rw [Binary64.value_ofInt (by decide)]
      have exact' : Binary64.nearest 0x8000000000000000 = 0x8000000000000000 := by decide +kernel
      simp [exact', maxSigned]
      norm_num
    rw [← first]
    refine Binary64.value_ofInt_mono (by decide) ?_ ?_
    · simp only [maxSigned] at beyond
      omega
    · simp only [maxSigned] at beyond
      omega
  -- Such a literal is not signed, so it is read as the double that it is rounded to.
  simp only [ofJson?, Json.signed?, if_neg unsigned, Json.double?, Option.map_some,
    Option.some.injEq] at read
  subst read
  split
  · rename_i safe
    obtain ⟨n, whole, small⟩ := isSafelyWhole_iff.mp safe
    rw [whole] at large
    have : maxSigned + 1 ≤ n := by exact_mod_cast large
    simp only [maxSigned] at this
    omega
  · have : (maxSigned : ℚ) < maxSigned + 1 := lt_add_one _
    exact this.trans_le large

/-- A number that is read from a value equals a 64-bit number if the value does. -/
theorem value_eq_of_number? {n : Int64} (read : ofJson? value = some q)
    (same : value.number? = some (n.toInt : ℚ)) : q.value = n.toInt := by
  -- Only numbers equal a number at all, and both kinds are read without changing their value.
  cases value with
  | integer m =>
    obtain rfl : m = n.toInt := by
      simpa [Json.number?] using same
    rw [ofJson?_integer (signed_toInt n).1 (signed_toInt n).2] at read
    cases read
    rfl
  | float x => rw [value_ofJson?_float read, Option.some.inj same]
  | _ => cases same

/-- A number that is read from a value of a document equals the same 64-bit numbers as the value. -/
theorem value_eq_iff {n : Int64} (proper : value.isProper = true) (read : ofJson? value = some q) :
    q.value = n.toInt ↔ value.number? = some (n.toInt : ℚ) := by
  refine ⟨fun same => ?_, value_eq_of_number? read⟩
  cases value with
  | integer m =>
    simp only [Json.isProper, Bool.and_eq_true, decide_eq_true_eq] at proper
    -- A literal beyond the range is rounded, but not into the range.
    rcases Int.lt_or_le maxSigned m with beyond | upper
    · have above := value_ofJson?_unsigned beyond proper.2 read
      rw [same] at above
      exact absurd (signed_toInt n).2 (not_le.mpr (by exact_mod_cast above))
    · -- Within the range a literal is read as it is.
      rw [ofJson?_integer proper.1 upper] at read
      cases read
      exact congrArg some same
  | float x => rw [Json.number?, ← value_ofJson?_float read, same]
  | _ => simp [ofJson?, Json.signed?, Json.double?] at read

/-- A number that is read from a value, and is a whole number inside the 64-bit range, is read as such. -/
theorem eq_whole_of_value {n : Int} (read : ofJson? value = some q) (same : q.value = n)
    (inside : n.natAbs < 9200000000000000000) : q = whole n := by
  unfold ofJson? at read
  split at read
  · rename_i m signed
    cases read
    obtain rfl : m = n := by simpa [Quantity.value] using same
    rfl
  · obtain ⟨x, -, rfl⟩ := Option.map_eq_some_iff.mp read
    -- A double of that value is taken for the whole number.
    by_cases safe : isSafelyWhole x = true
    · rw [if_pos safe] at same ⊢
      obtain rfl : x.trunc = n := by simpa [Quantity.value] using same
      rfl
    · rw [if_neg safe] at same
      exact absurd (isSafelyWhole_iff.mpr ⟨n, same, inside⟩) safe

/-- A whole number fits 32 bits as a keyword's number if it does by itself. -/
theorem fitsInt32_of_value {n : Int} (whole : q.value = n) :
    q.fitsInt32 = SchemaClasses.fitsInt32 n := by
  -- A whole number is read as itself.
  cases q with
  | whole m =>
    obtain rfl : m = n := by simpa [Quantity.value] using whole
    rfl
  | decimal x =>
    -- The fractional part that is dropped first is none.
    have trunc : x.trunc = n := Binary64.trunc_of_value whole
    by_cases safe : isSafelyWhole x = true
    · simp only [fitsInt32, integral?, if_pos safe, trunc]
    · simp only [fitsInt32, integral?, if_neg safe, toBinary64, trunc]

/-- Whether the magnitude is below `9.2e18`, safely inside the signed 64-bit range. -/
def IsInner (q : Quantity) : Prop := |q.value| < 9200000000000000000

/-- The floor of a number inside the 64-bit range is inside as well. -/
theorem IsInner.floor_mem (inner : q.IsInner) :
    -9200000000000000000 ≤ ⌊q.value⌋ ∧ ⌊q.value⌋ < 9200000000000000000 := by
  obtain ⟨lower, upper⟩ := abs_lt.mp inner
  exact ⟨Int.le_floor.mpr (by exact_mod_cast lower.le), Int.floor_lt.mpr (by exact_mod_cast upper)⟩

/-- The ceiling of a number inside the 64-bit range is inside as well. -/
theorem IsInner.ceil_mem (inner : q.IsInner) :
    -9200000000000000000 < ⌈q.value⌉ ∧ ⌈q.value⌉ ≤ 9200000000000000000 := by
  obtain ⟨lower, upper⟩ := abs_lt.mp inner
  exact ⟨Int.lt_ceil.mpr (by exact_mod_cast lower), Int.ceil_le.mpr (by exact_mod_cast upper.le)⟩

/-- A number inside the 64-bit range is rounded down to its floor. -/
theorem IsInner.floor_eq (inner : q.IsInner) : q.floor = ⌊q.value⌋ := by
  have inside := inner.floor_mem
  cases q with
  | whole n => exact (Int.floor_intCast n).symm
  | decimal x =>
    -- The conversion to 64 bits has nothing to cut off.
    simp only [floor, clampSigned, minSigned, maxSigned, Binary64.floor_eq, Quantity.value] at inside ⊢
    omega

/-- A number inside the 64-bit range is rounded up to its ceiling. -/
theorem IsInner.ceil_eq (inner : q.IsInner) : q.ceil = ⌈q.value⌉ := by
  have inside := inner.ceil_mem
  cases q with
  | whole n => exact (Int.ceil_intCast n).symm
  | decimal x =>
    simp only [ceil, clampSigned, minSigned, maxSigned, Binary64.ceil_eq, Quantity.value] at inside ⊢
    omega

/-- A number that is rounded down to one inside the range is there itself. -/
theorem isInner_of_floor {q : Quantity} (lower : -9200000000000000000 < q.floor)
    (upper : q.floor < 9200000000000000000) : q.IsInner := by
  -- Nothing inside the range is the result of a saturated conversion.
  have exact' : q.floor = ⌊q.value⌋ := by
    cases q with
    | whole n => exact (Int.floor_intCast n).symm
    | decimal x =>
      simp only [floor, clampSigned, minSigned, maxSigned, Binary64.floor_eq] at lower upper ⊢
      simp only [Quantity.value]
      omega
  rw [exact'] at lower upper
  have above : (-9200000000000000000 : ℚ) < ⌊q.value⌋ := by exact_mod_cast lower
  exact abs_lt.mpr ⟨above.trans_le (Int.floor_le _), Int.floor_lt.mp upper⟩

/-- A number that is rounded up to one inside the range is there itself. -/
theorem isInner_of_ceil {q : Quantity} (lower : -9200000000000000000 < q.ceil)
    (upper : q.ceil < 9200000000000000000) : q.IsInner := by
  -- Nothing inside the range is the result of a saturated conversion.
  have exact' : q.ceil = ⌈q.value⌉ := by
    cases q with
    | whole n => exact (Int.ceil_intCast n).symm
    | decimal x =>
      simp only [ceil, clampSigned, minSigned, maxSigned, Binary64.ceil_eq] at lower upper ⊢
      simp only [Quantity.value]
      omega
  rw [exact'] at lower upper
  have below : (⌈q.value⌉ : ℚ) < 9200000000000000000 := by exact_mod_cast upper
  exact abs_lt.mpr ⟨Int.lt_ceil.mp (by exact_mod_cast lower), (Int.le_ceil _).trans_lt below⟩

end Quantity

namespace Bound

/-- Whether a number lies within a bound. -/
def Allows (bound : Bound) (side : Side) (number : ℚ) : Prop :=
  match side with
  | .minimum => if bound.exclusive then bound.value.value < number else bound.value.value ≤ number
  | .maximum => if bound.exclusive then number < bound.value.value else number ≤ bound.value.value

/-- The smallest whole number within a lower bound, of whatever size. -/
def least (bound : Bound) : Int :=
  if bound.exclusive then ⌊bound.value.value⌋ + 1 else ⌈bound.value.value⌉

/-- The largest whole number within an upper bound, of whatever size. -/
def greatest (bound : Bound) : Int :=
  if bound.exclusive then ⌈bound.value.value⌉ - 1 else ⌊bound.value.value⌋

variable {bound : Bound} {n : Int}

/-- The whole numbers within a lower bound are those from the smallest one on. -/
theorem least_le_iff : bound.least ≤ n ↔ bound.Allows .minimum n := by
  unfold least Allows
  split
  · rw [Int.add_one_le_iff]
    exact Int.floor_lt
  · exact Int.ceil_le

/-- The whole numbers within an upper bound are those up to the largest one. -/
theorem le_greatest_iff : n ≤ bound.greatest ↔ bound.Allows .maximum n := by
  unfold greatest Allows
  split
  · rw [Int.le_sub_one_iff]
    exact Int.lt_ceil
  · exact Int.le_floor

/-- Inside the 64-bit range, the smallest whole number of a lower bound is not cut off. -/
theorem leastInteger_eq (inner : bound.value.IsInner) : bound.leastInteger = bound.least := by
  unfold leastInteger least
  rw [inner.floor_eq, inner.ceil_eq]
  split
  · -- The next number after an excluded value does not leave 64 bits.
    obtain ⟨lower, upper⟩ := inner.floor_mem
    exact clampSigned_of_mem (by simp only [minSigned]; omega) (by simp only [maxSigned]; omega)
  · rfl

/-- Inside the 64-bit range, the largest whole number of an upper bound is not cut off. -/
theorem greatestInteger_eq (inner : bound.value.IsInner) : bound.greatestInteger = bound.greatest := by
  unfold greatestInteger greatest
  rw [inner.floor_eq, inner.ceil_eq]
  split
  · -- Nor does the one before it.
    obtain ⟨lower, upper⟩ := inner.ceil_mem
    exact clampSigned_of_mem (by simp only [minSigned]; omega) (by simp only [maxSigned]; omega)
  · rfl

/-- The whole numbers within a lower bound inside the 64-bit range. -/
theorem leastInteger_le_iff (inner : bound.value.IsInner) :
    bound.leastInteger ≤ n ↔ bound.Allows .minimum n := by
  rw [leastInteger_eq inner, least_le_iff]

/-- The whole numbers within an upper bound inside the 64-bit range. -/
theorem le_greatestInteger_iff (inner : bound.value.IsInner) :
    n ≤ bound.greatestInteger ↔ bound.Allows .maximum n := by
  rw [greatestInteger_eq inner, le_greatest_iff]

/-- A lower bound is inside the 64-bit range if its smallest whole number has 32 bits. -/
theorem isInner_of_leastInteger (fits : fitsInt32 bound.leastInteger = true) :
    bound.value.IsInner := by
  simp only [fitsInt32, Bool.and_eq_true, decide_eq_true_eq] at fits
  unfold leastInteger at fits
  split at fits
  · simp only [clampSigned, minSigned, maxSigned] at fits
    exact Quantity.isInner_of_floor (by omega) (by omega)
  · exact Quantity.isInner_of_ceil (by omega) (by omega)

/-- An upper bound is inside the 64-bit range if its largest whole number has 32 bits. -/
theorem isInner_of_greatestInteger (fits : fitsInt32 bound.greatestInteger = true) :
    bound.value.IsInner := by
  simp only [fitsInt32, Bool.and_eq_true, decide_eq_true_eq] at fits
  unfold greatestInteger at fits
  split at fits
  · simp only [clampSigned, minSigned, maxSigned] at fits
    exact Quantity.isInner_of_ceil (by omega) (by omega)
  · exact Quantity.isInner_of_floor (by omega) (by omega)

end Bound

end SchemaClasses
