import Mathlib.Algebra.Order.Field.Power
import Mathlib.Algebra.Order.Group.Nat
import Mathlib.Data.Nat.Log
import Mathlib.Data.Rat.Cast.Order
import Mathlib.Order.MinMax
import Mathlib.Tactic.Linarith
import Mathlib.Tactic.NormNum
import Mathlib.Tactic.Positivity
import Mathlib.Tactic.Ring
import SchemaClasses.Binary64

/-! The exact value of a double, its order, and the double nearest to a whole number of 64 bits:
rounding keeps the sign and the order of whole numbers and never passes a double. -/

namespace SchemaClasses

namespace Binary64

/-- Whether a significand and an exponent stand for at least one. -/
def ReachesOne (significand : Nat) (exponent : Int) : Prop :=
  0 < significand ∧ twoTo (-exponent).toNat ≤ significand

/-- A magnitude of at least one does not vanish when its fractional part is dropped. -/
theorem trunc_normalize {significand : Nat} {exponent : Int}
    (reaches : ReachesOne significand exponent) :
    (normalize true significand exponent).trunc < 0 := by
  -- Factors of two move over one by one, so the induction follows the significand.
  induction significand, exponent using normalize.induct with
  | case1 exponent => exact absurd reaches.1 (Nat.lt_irrefl 0)
  | case2 significand exponent nonzero odd =>
    rw [normalize, dif_neg nonzero, dif_pos odd]
    simp only [trunc, ceil, ratio, if_true]
    obtain ⟨positive, atLeast⟩ := reaches
    -- A quotient of at least one has a whole part, and its negative is below zero.
    have whole {num den : Nat} (positive : 0 < den) (atLeast : den ≤ num) :
        -((num / den : Nat) : Int) < 0 := by
      have := Nat.div_pos atLeast positive
      omega
    split
    · exact whole Nat.one_pos (Nat.mul_pos positive (Nat.two_pow_pos _))
    · exact whole (Nat.two_pow_pos _) atLeast
  | case3 significand exponent nonzero even ih =>
    rw [normalize, dif_neg nonzero, dif_neg even]
    -- Half the significand stands for the same magnitude with the exponent one higher.
    refine ih ?_
    obtain ⟨positive, atLeast⟩ := reaches
    refine ⟨by omega, ?_⟩
    -- Below exponent zero the divisor is halved as well; from there on the half is whole, as the
    -- number was even.
    by_cases below : exponent < 0
    · have double : (-exponent).toNat = (-(exponent + 1)).toNat + 1 := by omega
      rw [double, twoTo, Nat.pow_eq, Nat.pow_succ] at atLeast
      rw [twoTo, Nat.pow_eq]
      omega
    · have none : (-(exponent + 1)).toNat = 0 := by omega
      rw [none]
      show 1 ≤ significand / 2
      omega

/-- A rounded quotient lies between its whole part and the next number. -/
theorem roundHalfEven_mem (num den : Nat) :
    num / den ≤ roundHalfEven num den ∧ roundHalfEven num den ≤ num / den + 1 := by
  unfold roundHalfEven
  dsimp only
  split
  · omega
  · split <;> omega

/-- The last bit of a double near a whole number lies 52 bits below the first one at most. -/
theorem unitExponent_le {n : Nat} : unitExponent n 1 ≤ max ((Nat.log2 n : Int) - 52) (-1074) := by
  unfold unitExponent
  dsimp only
  have one : Nat.log2 1 = 0 := by decide
  rw [one]
  split <;> omega

/-- As many more bits as a power of two moves a number up. -/
theorem log2_mul_twoTo {n : Nat} (positive : 0 < n) (shift : Nat) :
    Nat.log2 (n * twoTo shift) = Nat.log2 n + shift := by
  -- A step doubles the number, which adds one to the logarithm to base two.
  rw [Nat.log2_eq_log_two, Nat.log2_eq_log_two]
  induction shift with
  | zero => simp [twoTo]
  | succ shift ih =>
    have more : n * twoTo (shift + 1) = n * twoTo shift * 2 := by
      simp only [twoTo, Nat.pow_eq, Nat.pow_succ, Nat.mul_assoc]
    have nonzero : n * twoTo shift ≠ 0 :=
      Nat.mul_ne_zero (by omega) (Nat.ne_of_gt (Nat.two_pow_pos _))
    rw [more, Nat.log_mul_base (by decide) nonzero, ih, Nat.add_assoc]

/-- A double near a quotient is the rounded number of its last bits. -/
theorem ofRatio?_eq {negative : Bool} {num den n d : Nat} {exponent : Int}
    (nonzero : ¬(num = 0 ∨ den = 0)) (unit : unitExponent num den = exponent)
    (cut : scaled num den exponent = (n, d)) :
    ofRatio? negative num den =
      if 1024 ≤ exponent + (Nat.log2 (roundHalfEven n d) : Int) then none
      else some (normalize negative (roundHalfEven n d) exponent) := by
  rw [ofRatio?, if_neg nonzero, unit]
  dsimp only
  rw [cut]

/-- The double nearest to the negative of a number of so many bits is negative. -/
theorem trunc_ofRatio? {n : Nat} (positive : 0 < n) (bits : Nat.log2 n < 64) :
    ∃ x, ofRatio? true n 1 = some x ∧ x.trunc < 0 := by
  have nonzero : ¬(n = 0 ∨ 1 = 0) := by omega
  obtain ⟨exponent, unit⟩ : ∃ exponent, unitExponent n 1 = exponent := ⟨_, rfl⟩
  have last := unit ▸ unitExponent_le (n := n)
  by_cases above : 0 ≤ exponent
  · -- Whole bits are cut off, and the first one is left.
    have cut : scaled n 1 exponent = (n, twoTo exponent.toNat) := by
      rw [scaled, if_pos above, Nat.one_mul]
    rw [ofRatio?_eq nonzero unit cut]
    have first : twoTo exponent.toNat ≤ n := by
      have short : exponent.toNat ≤ Nat.log2 n := by omega
      exact (Nat.pow_le_pow_right Nat.two_pos short).trans (Nat.log2_self_le (by omega))
    have rounded := roundHalfEven_mem n (twoTo exponent.toNat)
    have whole : 0 < n / twoTo exponent.toNat := Nat.div_pos first (Nat.two_pow_pos _)
    have less : n / twoTo exponent.toNat ≤ n := Nat.div_le_self _ _
    generalize roundHalfEven n (twoTo exponent.toNat) = significand at *
    -- Rounding up at most doubles the number, which costs one more bit.
    have size : Nat.log2 significand ≤ Nat.log2 n + 1 := by
      have atMost : significand ≤ n * twoTo 1 := by
        show significand ≤ n * 2
        omega
      rw [← log2_mul_twoTo positive, Nat.log2_eq_log_two, Nat.log2_eq_log_two]
      exact Nat.log_mono_right atMost
    have fits : ¬1024 ≤ exponent + (Nat.log2 significand : Int) := by omega
    have none : (-exponent).toNat = 0 := by omega
    rw [if_neg fits]
    refine ⟨_, rfl, trunc_normalize ⟨by omega, ?_⟩⟩
    rw [none]
    show 1 ≤ significand
    omega
  · -- No bit is cut off.
    have cut : scaled n 1 exponent = (n * twoTo (-exponent).toNat, 1) := by
      rw [scaled, if_neg above]
    have kept {m : Nat} : roundHalfEven m 1 = m := by simp [roundHalfEven, Nat.mod_one]
    have fits : ¬1024 ≤ exponent + ((Nat.log2 n + (-exponent).toNat : Nat) : Int) := by omega
    rw [ofRatio?_eq nonzero unit cut, kept, log2_mul_twoTo positive, if_neg fits]
    refine ⟨_, rfl, trunc_normalize ⟨Nat.mul_pos positive (Nat.two_pow_pos _), ?_⟩⟩
    exact Nat.le_mul_of_pos_left _ positive

/-- The double nearest to a negative whole number of 64 bits is negative. -/
theorem trunc_ofInt_neg {n : Int} (negative : n < 0) (bounded : -0x8000000000000000 ≤ n) :
    (ofInt n).trunc < 0 := by
  have bits : Nat.log2 n.natAbs < 64 := (Nat.log2_lt (by omega)).mpr (by omega)
  obtain ⟨x, found, below⟩ := trunc_ofRatio? (n := n.natAbs) (by omega) bits
  rw [ofInt, decide_eq_true negative, found]
  exact below

/-- The absolute value. -/
def magnitude (x : Binary64) : ℚ := x.significand * 2 ^ x.exponent

/-- The exact value. -/
def value (x : Binary64) : ℚ := if x.negative then -x.magnitude else x.magnitude

variable {x y : Binary64}

theorem magnitude_nonneg (x : Binary64) : 0 ≤ x.magnitude := by
  unfold magnitude
  positivity

theorem abs_value (x : Binary64) : |x.value| = x.magnitude := by
  unfold value
  split
  · rw [abs_neg, abs_of_nonneg x.magnitude_nonneg]
  · rw [abs_of_nonneg x.magnitude_nonneg]

/-- The value in units that are no larger than the last bit. -/
theorem value_eq_unitsOf {unit : Int} (small : unit ≤ x.exponent) :
    x.value = x.unitsOf unit * 2 ^ unit := by
  obtain ⟨shift, exponent⟩ := Int.eq_ofNat_of_zero_le (Int.sub_nonneg.mpr small)
  have whole : x.exponent = shift + unit := by omega
  have moved : x.magnitude = ((x.significand * twoTo shift : Nat) : ℚ) * 2 ^ unit := by
    unfold magnitude twoTo
    rw [whole, zpow_add₀ two_ne_zero, zpow_natCast]
    push_cast [Nat.pow_eq]
    ring
  have units : (x.exponent - unit).toNat = shift := by omega
  unfold value unitsOf
  rw [moved, units]
  split
  · push_cast
    ring
  · push_cast
    ring

/-- The order of doubles is that of their values. -/
theorem cmp_eq_gt : x.cmp y = .gt ↔ y.value < x.value := by
  have scale : (0 : ℚ) < 2 ^ min x.exponent y.exponent := by positivity
  rw [value_eq_unitsOf (min_le_left x.exponent y.exponent),
    value_eq_unitsOf (min_le_right x.exponent y.exponent), mul_lt_mul_iff_left₀ scale,
    Int.cast_lt]
  exact Int.compare_eq_gt

/-- The order of doubles is that of their values. -/
theorem cmp_eq_lt : x.cmp y = .lt ↔ x.value < y.value := by
  have scale : (0 : ℚ) < 2 ^ min x.exponent y.exponent := by positivity
  rw [value_eq_unitsOf (min_le_left x.exponent y.exponent),
    value_eq_unitsOf (min_le_right x.exponent y.exponent), mul_lt_mul_iff_left₀ scale,
    Int.cast_lt]
  exact Int.compare_eq_lt

/-- Doubles are equal in order if their values are equal. -/
theorem cmp_eq_eq : x.cmp y = .eq ↔ x.value = y.value := by
  have scale : (0 : ℚ) < 2 ^ min x.exponent y.exponent := by positivity
  rw [value_eq_unitsOf (min_le_left x.exponent y.exponent),
    value_eq_unitsOf (min_le_right x.exponent y.exponent), mul_left_inj' scale.ne', Int.cast_inj]
  exact compare_eq_iff_eq

/-- Factors of two that move into the exponent do not change the value. -/
theorem value_normalize (negative : Bool) (significand : Nat) (exponent : Int) :
    (normalize negative significand exponent).value =
      if negative then -(significand * 2 ^ exponent : ℚ) else significand * 2 ^ exponent := by
  induction significand, exponent using normalize.induct with
  | case1 exponent => simp [normalize, value, magnitude, zero]
  | case2 significand exponent nonzero odd =>
    rw [normalize, dif_neg nonzero, dif_pos odd]
    rfl
  | case3 significand exponent nonzero even ih =>
    rw [normalize, dif_neg nonzero, dif_neg even, ih]
    -- Two is taken out of the significand and put into the power, so the product stays the same.
    -- Half of an even number, in units twice as large.
    have half : ((significand / 2 : Nat) : ℚ) * 2 ^ (exponent + 1) = significand * 2 ^ exponent := by
      obtain ⟨k, rfl⟩ : ∃ k, significand = 2 * k := ⟨significand / 2, by omega⟩
      rw [Nat.mul_div_cancel_left k two_pos, zpow_add₀ two_ne_zero]
      push_cast
      ring
    rw [half]

/-- Rounding keeps the order. -/
theorem roundHalfEven_mono {a b : Nat} (den : Nat) (below : a ≤ b) :
    roundHalfEven a den ≤ roundHalfEven b den := by
  have lower := roundHalfEven_mem a den
  have upper := roundHalfEven_mem b den
  rcases Nat.lt_or_eq_of_le (Nat.div_le_div_right (c := den) below) with less | same
  · omega
  · -- With equal whole parts the remainders decide.
    have parts := Nat.div_add_mod a den
    have parts' := Nat.div_add_mod b den
    rw [same] at parts
    have rests : a % den ≤ b % den := by omega
    unfold roundHalfEven
    dsimp only
    rw [same]
    split_ifs <;> omega

/-- A quotient up to a whole number is rounded to no more than that. -/
theorem roundHalfEven_le {num den bound : Nat} (positive : 0 < den) (below : num ≤ bound * den) :
    roundHalfEven num den ≤ bound := by
  have whole : roundHalfEven (bound * den) den = bound := by
    simp [roundHalfEven, Nat.mul_div_cancel _ positive, positive]
  exact (roundHalfEven_mono den below).trans whole.le

/-- A quotient from a whole number on is rounded to no less than that. -/
theorem le_roundHalfEven {num den bound : Nat} (positive : 0 < den) (above : bound * den ≤ num) :
    bound ≤ roundHalfEven num den := by
  have whole : roundHalfEven (bound * den) den = bound := by
    simp [roundHalfEven, Nat.mul_div_cancel _ positive, positive]
  exact whole.ge.trans (roundHalfEven_mono den above)

/-- The unit of the last bit of a double near a whole number. -/
def lastUnit (n : Nat) : Nat := 2 ^ (Nat.log2 n - 52)

/-- A whole number rounded to 53 bits. -/
def nearest (n : Nat) : Nat := roundHalfEven n (lastUnit n) * lastUnit n

theorem lastUnit_pos (n : Nat) : 0 < lastUnit n := Nat.two_pow_pos _

/-- In last units, a rounded number is at most the power of two behind 53 bits. -/
theorem roundHalfEven_lastUnit_le (n : Nat) : roundHalfEven n (lastUnit n) ≤ 2 ^ 53 := by
  refine roundHalfEven_le (lastUnit_pos n) ?_
  calc n ≤ 2 ^ (Nat.log2 n + 1) := Nat.lt_log2_self.le
    _ ≤ 2 ^ (53 + (Nat.log2 n - 52)) := Nat.pow_le_pow_right two_pos (by omega)
    _ = 2 ^ 53 * lastUnit n := Nat.pow_add ..

/-- A whole number of at most 53 bits needs no rounding. -/
theorem nearest_of_log2_le {n : Nat} (short : Nat.log2 n ≤ 52) : nearest n = n := by
  have unit : lastUnit n = 1 := by rw [lastUnit, Nat.sub_eq_zero_of_le short, Nat.pow_zero]
  rw [nearest, unit, Nat.mul_one]
  simp [roundHalfEven, Nat.mod_one]

/-- A rounded number does not leave the powers of two around it. -/
theorem nearest_mem {n : Nat} (nonzero : n ≠ 0) :
    2 ^ Nat.log2 n ≤ nearest n ∧ nearest n ≤ 2 ^ (Nat.log2 n + 1) := by
  have first := Nat.log2_self_le nonzero
  have last : n < 2 ^ (Nat.log2 n + 1) := Nat.lt_log2_self
  rcases Nat.le_total (Nat.log2 n) 52 with short | long
  · rw [nearest_of_log2_le short]
    exact ⟨first, last.le⟩
  · -- Both powers are whole numbers of units.
    have units {k : Nat} (more : Nat.log2 n ≤ k) :
        2 ^ k = 2 ^ (k - (Nat.log2 n - 52)) * lastUnit n := by
      rw [lastUnit, ← Nat.pow_add]
      congr 1
      omega
    unfold nearest
    constructor
    · rw [units (Nat.le_refl _)] at first ⊢
      exact Nat.mul_le_mul_right _ (le_roundHalfEven (lastUnit_pos n) first)
    · rw [units (Nat.le_succ _)] at last ⊢
      exact Nat.mul_le_mul_right _ (roundHalfEven_le (lastUnit_pos n) last.le)

/-- Rounding to 53 bits keeps the order. -/
theorem nearest_mono {a b : Nat} (below : a ≤ b) : nearest a ≤ nearest b := by
  by_cases none : a = 0
  · subst none
    rw [nearest_of_log2_le (by decide)]
    exact Nat.zero_le _
  have some' : b ≠ 0 := by omega
  have bits : Nat.log2 a ≤ Nat.log2 b := by
    rw [Nat.log2_eq_log_two, Nat.log2_eq_log_two]
    exact Nat.log_mono_right below
  rcases Nat.lt_or_eq_of_le bits with fewer | same
  · -- A power of two lies between numbers of different lengths.
    calc nearest a ≤ 2 ^ (Nat.log2 a + 1) := (nearest_mem none).2
      _ ≤ 2 ^ Nat.log2 b := Nat.pow_le_pow_right two_pos fewer
      _ ≤ nearest b := (nearest_mem some').1
  · unfold nearest lastUnit
    rw [same]
    exact Nat.mul_le_mul_right _ (roundHalfEven_mono _ below)

/-- Whether the significand has at most 53 bits, as that of every double in a document has. -/
def IsShort (x : Binary64) : Prop := x.significand < 2 ^ 53

/-- A double that is large enough is a whole number of last units. -/
theorem exists_units {n : Nat} (short : x.IsShort) (reaches : (2 ^ Nat.log2 n : ℚ) ≤ x.magnitude)
    (long : 52 ≤ Nat.log2 n) : ∃ units : Nat, x.magnitude = (units * lastUnit n : Nat) := by
  -- A significand of 53 bits reaches the power of two only if its unit is large enough.
  -- Otherwise the significand would have to have more than 53 bits.
  have exponent : ((Nat.log2 n - 52 : Nat) : Int) ≤ x.exponent := by
    by_contra small
    have below : x.exponent ≤ (Nat.log2 n : Int) - 53 := by omega
    have bounded : x.magnitude < 2 ^ Nat.log2 n := by
      have fits : (x.significand : ℚ) < 2 ^ (53 : Nat) := by exact_mod_cast short
      calc x.magnitude < 2 ^ (53 : Nat) * 2 ^ x.exponent :=
            mul_lt_mul_of_pos_right fits (by positivity)
        _ ≤ 2 ^ (53 : Nat) * 2 ^ ((Nat.log2 n : Int) - 53) := by
            gcongr
            norm_num
        _ = 2 ^ Nat.log2 n := by
            rw [← zpow_natCast, ← zpow_natCast, ← zpow_add₀ two_ne_zero]
            congr 1
            push_cast
            ring
    exact absurd reaches (not_le.mpr bounded)
  obtain ⟨shift, equal⟩ := Int.eq_ofNat_of_zero_le (Int.sub_nonneg.mpr exponent)
  refine ⟨x.significand * 2 ^ shift, ?_⟩
  have whole : x.exponent = shift + (Nat.log2 n - 52 : Nat) := by omega
  unfold magnitude lastUnit
  rw [whole, zpow_add₀ two_ne_zero, zpow_natCast, zpow_natCast]
  push_cast
  ring

/-- A whole number up to a double is rounded to no more than that. -/
theorem nearest_le {n : Nat} (short : x.IsShort) (below : (n : ℚ) ≤ x.magnitude) :
    (nearest n : ℚ) ≤ x.magnitude := by
  rcases Nat.le_total (Nat.log2 n) 52 with few | long
  · rwa [nearest_of_log2_le few]
  · have nonzero : n ≠ 0 := by
      rintro rfl
      exact absurd long (by decide)
    -- A number that is long enough is at least its leading power of two.
    have first : (2 ^ Nat.log2 n : ℚ) ≤ n := by exact_mod_cast Nat.log2_self_le nonzero
    obtain ⟨units, same⟩ := exists_units short (first.trans below) long
    rw [same] at below ⊢
    have below : n ≤ units * lastUnit n := by exact_mod_cast below
    exact_mod_cast Nat.mul_le_mul_right _ (roundHalfEven_le (lastUnit_pos n) below)

/-- A whole number from a double on is rounded to no less than that. -/
theorem le_nearest {n : Nat} (short : x.IsShort) (above : x.magnitude ≤ n) :
    x.magnitude ≤ nearest n := by
  rcases Nat.le_total (Nat.log2 n) 52 with few | long
  · rwa [nearest_of_log2_le few]
  · have nonzero : n ≠ 0 := by
      rintro rfl
      exact absurd long (by decide)
    -- A double that reaches the power of two is a whole number of units, between which rounding
    -- cannot skip.
    rcases le_total (2 ^ Nat.log2 n : ℚ) x.magnitude with reaches | before
    · obtain ⟨units, same⟩ := exists_units short reaches long
      rw [same] at above ⊢
      have above : units * lastUnit n ≤ n := by exact_mod_cast above
      exact_mod_cast Nat.mul_le_mul_right _ (le_roundHalfEven (lastUnit_pos n) above)
    · -- A smaller double lies below the power of two, which the rounded number reaches.
      exact before.trans (by exact_mod_cast (nearest_mem nonzero).1)

/-- A whole number of more than 52 bits is counted in units of its last bit that is kept. -/
theorem scaled_of_long {n : Nat} (none : n ≠ 0) (long : 52 ≤ Nat.log2 n) :
    unitExponent n 1 = ((Nat.log2 n - 52 : Nat) : Int) ∧
      scaled n 1 ((Nat.log2 n - 52 : Nat) : Int) = (n, lastUnit n) := by
  have first := Nat.log2_self_le none
  have one : Nat.log2 1 = 0 := by decide
  have cut : scaled n 1 ((Nat.log2 n - 52 : Nat) : Int) = (n, lastUnit n) := by
    simp [scaled, lastUnit, twoTo]
  refine ⟨?_, cut⟩
  -- The estimate of the exponent is exact for whole numbers, so it is not corrected afterwards.
  have estimate : (Nat.log2 n : Int) - (Nat.log2 1 : Int) - 52 = ((Nat.log2 n - 52 : Nat) : Int) := by
    rw [one]
    omega
  have full : ¬n < lastUnit n * fullSignificand := by
    have width : fullSignificand = 2 ^ 52 := by decide
    have whole : lastUnit n * fullSignificand = 2 ^ Nat.log2 n := by
      rw [width, lastUnit, ← Nat.pow_add]
      congr 1
      omega
    omega
  unfold unitExponent
  simp only [estimate, cut, if_neg full]
  omega

/-- A whole number of at most 52 bits is counted in fractions of one, so that none of its bits is cut off. -/
theorem scaled_of_short {n : Nat} (none : n ≠ 0) (short : Nat.log2 n < 52) :
    unitExponent n 1 = (Nat.log2 n : Int) - 52 ∧
      scaled n 1 ((Nat.log2 n : Int) - 52) = (n * 2 ^ (52 - Nat.log2 n), 1) := by
  have first := Nat.log2_self_le none
  have one : Nat.log2 1 = 0 := by decide
  have below : ¬(0 : Int) ≤ (Nat.log2 n : Int) - 52 := by omega
  have shift : (-((Nat.log2 n : Int) - 52)).toNat = 52 - Nat.log2 n := by omega
  have cut : scaled n 1 ((Nat.log2 n : Int) - 52) = (n * 2 ^ (52 - Nat.log2 n), 1) := by
    rw [scaled, if_neg below, shift]
    rfl
  refine ⟨?_, cut⟩
  have estimate : (Nat.log2 n : Int) - (Nat.log2 1 : Int) - 52 = (Nat.log2 n : Int) - 52 := by
    rw [one]
    omega
  -- Shifted by what it lacks, the number fills the significand.
  have full : ¬n * 2 ^ (52 - Nat.log2 n) < 1 * fullSignificand := by
    have width : fullSignificand = 2 ^ Nat.log2 n * 2 ^ (52 - Nat.log2 n) := by
      have whole : fullSignificand = 2 ^ 52 := by decide
      rw [whole, ← Nat.pow_add]
      congr 1
      omega
    rw [width, Nat.one_mul, not_lt]
    exact Nat.mul_le_mul_right _ first
  unfold unitExponent
  simp only [estimate, cut, if_neg full]
  omega

/-- The double nearest to a whole number of 64 bits is the number rounded to 53 bits. -/
theorem ofRatio?_whole {negative : Bool} {n : Nat} (bits : Nat.log2 n < 64) :
    ∃ x, ofRatio? negative n 1 = some x ∧
      x.value = if negative then -(nearest n : ℚ) else nearest n := by
  by_cases none : n = 0
  · subst none
    refine ⟨zero negative, by simp [ofRatio?], ?_⟩
    have rounded : nearest 0 = 0 := nearest_of_log2_le (by decide)
    simp [value, magnitude, zero, rounded]
  have nonzero : ¬(n = 0 ∨ 1 = 0) := by omega
  by_cases long : 52 ≤ Nat.log2 n
  · obtain ⟨unit, cut⟩ := scaled_of_long none long
    rw [ofRatio?_eq nonzero unit cut]
    -- Rounding up may carry into one bit more, which is still far from the largest exponent.
    have size : Nat.log2 (roundHalfEven n (lastUnit n)) ≤ 63 := by
      have bound : Nat.log2 (roundHalfEven n (lastUnit n)) ≤ Nat.log2 (2 ^ 53) := by
        rw [Nat.log2_eq_log_two, Nat.log2_eq_log_two]
        exact Nat.log_mono_right (roundHalfEven_lastUnit_le n)
      rw [Nat.log2_two_pow] at bound
      omega
    have fits : ¬1024 ≤ ((Nat.log2 n - 52 : Nat) : Int) +
        (Nat.log2 (roundHalfEven n (lastUnit n)) : Int) := by omega
    rw [if_neg fits]
    refine ⟨_, rfl, ?_⟩
    rw [value_normalize, zpow_natCast]
    simp [nearest, lastUnit]
  · have short : Nat.log2 n < 52 := Nat.not_le.mp long
    obtain ⟨unit, cut⟩ := scaled_of_short none short
    have kept {m : Nat} : roundHalfEven m 1 = m := by simp [roundHalfEven, Nat.mod_one]
    have longer : Nat.log2 (n * 2 ^ (52 - Nat.log2 n)) = Nat.log2 n + (52 - Nat.log2 n) :=
      log2_mul_twoTo (by omega) _
    have fits : ¬1024 ≤ (Nat.log2 n : Int) - 52 + ((Nat.log2 n + (52 - Nat.log2 n) : Nat) : Int) := by
      omega
    rw [ofRatio?_eq nonzero unit cut, kept, longer, if_neg fits]
    refine ⟨_, rfl, ?_⟩
    rw [value_normalize, nearest_of_log2_le (by omega)]
    -- The shift is undone by the exponent.
    have back : ((n * 2 ^ (52 - Nat.log2 n) : Nat) : ℚ) * 2 ^ ((Nat.log2 n : Int) - 52) = n := by
      have sum : ((52 - Nat.log2 n : Nat) : Int) + ((Nat.log2 n : Int) - 52) = 0 := by omega
      push_cast
      rw [mul_assoc, ← zpow_natCast, ← zpow_add₀ two_ne_zero, sum, zpow_zero, mul_one]
    rw [back]

/-- The double nearest to a whole number of 64 bits, by its value. -/
theorem value_ofInt {n : Int} (bounded : n.natAbs < 2 ^ 64) :
    (ofInt n).value = if n < 0 then -(nearest n.natAbs : ℚ) else nearest n.natAbs := by
  have bits : Nat.log2 n.natAbs < 64 := by
    by_cases none : n.natAbs = 0
    · rw [none]
      decide
    · exact (Nat.log2_lt none).mpr bounded
  obtain ⟨x, found, value⟩ := @ofRatio?_whole (decide (n < 0)) _ bits
  rw [ofInt, found, Option.getD_some, value]
  simp

/-- An odd number is below a power of two if it is one of at most that many bits, shifted in one direction or
the other. -/
theorem lt_of_shifted {odd short bits : Nat} {i j : Int} (isOdd : odd % 2 = 1) (bounded : short ≤ 2 ^ bits)
    (some' : bits ≠ 0) (same : (odd : ℚ) * 2 ^ i = short * 2 ^ j) : odd < 2 ^ bits := by
  have even : 2 ^ bits % 2 = 0 := by
    obtain ⟨more, rfl⟩ := Nat.exists_eq_succ_of_ne_zero some'
    rw [Nat.pow_succ, Nat.mul_mod_left]
  rcases le_total j i with below | below
  · -- With more shifted in, the odd number is no larger than the other.
    obtain ⟨shift, exponent⟩ := Int.eq_ofNat_of_zero_le (Int.sub_nonneg.mpr below)
    have whole : i = shift + j := by omega
    rw [whole, zpow_add₀ two_ne_zero, ← mul_assoc, mul_left_inj' (by positivity), zpow_natCast] at same
    have same : odd * 2 ^ shift = short := by exact_mod_cast same
    have atMost : odd ≤ short := same ▸ Nat.le_mul_of_pos_right odd (Nat.two_pow_pos shift)
    omega
  · obtain ⟨shift, exponent⟩ := Int.eq_ofNat_of_zero_le (Int.sub_nonneg.mpr below)
    have whole : j = shift + i := by omega
    rw [whole, zpow_add₀ two_ne_zero, ← mul_assoc, mul_left_inj' (by positivity), zpow_natCast] at same
    have same : odd = short * 2 ^ shift := by exact_mod_cast same
    cases shift with
    | zero => omega
    | succ shift =>
      rw [Nat.pow_succ, ← Nat.mul_assoc] at same
      omega

/-- The double nearest to a whole number of 64 bits has a short significand. -/
theorem isShort_ofInt {n : Int} (bounded : n.natAbs < 2 ^ 64) : (ofInt n).IsShort := by
  rcases (ofInt n).canonical with isOdd | ⟨none, -⟩
  · refine lt_of_shifted isOdd (roundHalfEven_lastUnit_le n.natAbs) (by decide)
      (i := (ofInt n).exponent) (j := ((Nat.log2 n.natAbs - 52 : Nat) : Int)) ?_
    have size : (ofInt n).magnitude = nearest n.natAbs := by
      rw [← abs_value, value_ofInt bounded]
      split <;> simp
    rw [zpow_natCast]
    simpa [magnitude, nearest, lastUnit] using size
  · rw [IsShort, none]
    exact Nat.two_pow_pos 53

/-- The nearest doubles of whole numbers keep their order. -/
theorem value_ofInt_mono {a b : Int} (boundedA : a.natAbs < 2 ^ 64) (boundedB : b.natAbs < 2 ^ 64)
    (below : a ≤ b) : (ofInt a).value ≤ (ofInt b).value := by
  rw [value_ofInt boundedA, value_ofInt boundedB]
  have nonneg (n : Nat) : (0 : ℚ) ≤ nearest n := Nat.cast_nonneg _
  split
  · split
    · have more : b.natAbs ≤ a.natAbs := by omega
      have mono : (nearest b.natAbs : ℚ) ≤ nearest a.natAbs := by exact_mod_cast nearest_mono more
      linarith
    · linarith [nonneg a.natAbs, nonneg b.natAbs]
  · have positive : ¬b < 0 := by omega
    have more : a.natAbs ≤ b.natAbs := by omega
    rw [if_neg positive]
    exact_mod_cast nearest_mono more

/-- The double nearest to a whole number up to a double is no larger than that. -/
theorem value_ofInt_le {n : Int} (bounded : n.natAbs < 2 ^ 64) (short : x.IsShort)
    (below : (n : ℚ) ≤ x.value) : (ofInt n).value ≤ x.value := by
  have size := x.magnitude_nonneg
  have absolute : ((n.natAbs : Nat) : ℚ) = |(n : ℚ)| := by
    rw [← Int.cast_abs, Int.abs_eq_natAbs, Int.cast_natCast]
  rw [value_ofInt bounded]
  unfold value at below ⊢
  split
  · rename_i negative
    have sign : (n : ℚ) < 0 := by exact_mod_cast negative
    rw [abs_of_neg sign] at absolute
    split
    · rename_i isNegative
      rw [if_pos isNegative] at below
      have := le_nearest (x := x) (n := n.natAbs) short (by linarith)
      linarith
    · have : (0 : ℚ) ≤ nearest n.natAbs := Nat.cast_nonneg _
      linarith
  · rename_i positive
    have sign : (0 : ℚ) ≤ n := by exact_mod_cast not_lt.mp positive
    rw [abs_of_nonneg sign] at absolute
    split
    · -- A negative double is only that large if both are zero.
      rename_i isNegative
      rw [if_pos isNegative] at below
      have none : n = 0 := by
        have : (n : ℚ) = 0 := by linarith
        exact_mod_cast this
      have rounded : nearest 0 = 0 := nearest_of_log2_le (by decide)
      subst none
      simp only [Int.natAbs_zero, rounded, Nat.cast_zero]
      linarith
    · rename_i isPositive
      rw [if_neg isPositive] at below
      exact nearest_le short (by linarith)

/-- The double nearest to a whole number from a double on is no smaller than that. -/
theorem le_value_ofInt {n : Int} (bounded : n.natAbs < 2 ^ 64) (short : x.IsShort)
    (above : x.value ≤ n) : x.value ≤ (ofInt n).value := by
  have size := x.magnitude_nonneg
  have absolute : ((n.natAbs : Nat) : ℚ) = |(n : ℚ)| := by
    rw [← Int.cast_abs, Int.abs_eq_natAbs, Int.cast_natCast]
  rw [value_ofInt bounded]
  unfold value at above ⊢
  split
  · rename_i isNegative
    rw [if_pos isNegative] at above
    split
    · rename_i negative
      have sign : (n : ℚ) < 0 := by exact_mod_cast negative
      rw [abs_of_neg sign] at absolute
      -- Both are negative, so the larger one is that of smaller magnitude.
      have := nearest_le (x := x) (n := n.natAbs) short (by linarith)
      linarith
    · have : (0 : ℚ) ≤ nearest n.natAbs := Nat.cast_nonneg _
      linarith
  · rename_i isPositive
    rw [if_neg isPositive] at above
    -- A number from a positive double on is positive itself.
    have positive : ¬n < 0 := by
      have : (0 : ℚ) ≤ n := by linarith
      exact not_lt.mpr (by exact_mod_cast this)
    have sign : (0 : ℚ) ≤ n := by exact_mod_cast not_lt.mp positive
    rw [abs_of_nonneg sign] at absolute
    rw [if_neg positive]
    exact le_nearest short (by linarith)

end Binary64

end SchemaClasses
