import SchemaClasses.Proofs.Planning.Rounding

/-! Bounds at full width: the 64-bit numbers that a bound lets through, up to the ends of the range, where
its whole number is cut off; and the bound that is left of several. Numbers are compared by their values,
except for large whole numbers with doubles that they are rounded to, and what is left of several bounds is
as tight as all of them unless two of their numbers blur in this way. -/

namespace SchemaClasses

namespace Quantity

variable {q : Quantity} {json : Json} {n : Int}

/-- A whole number that is read has 64 bits. -/
theorem signed_of_ofJson? (read : ofJson? json = some (whole n)) : minSigned ≤ n ∧ n ≤ maxSigned := by
  unfold ofJson? at read
  split at read
  · rename_i m signed
    cases read
    cases json with
    | integer m =>
      -- An integer literal is read as it is, within the range of its sign.
      simp only [Json.signed?, Option.ite_none_right_eq_some, Option.some.injEq] at signed
      obtain ⟨inside, rfl⟩ := signed
      simp only [minSigned, maxSigned]
      omega
    | _ => cases signed
  · obtain ⟨x, -, same⟩ := Option.map_eq_some_iff.mp read
    split at same
    · -- A double that is taken for a whole number is well inside the range.
      rename_i safe
      cases same
      obtain ⟨-, small⟩ := Bool.and_eq_true_iff.mp safe
      simp only [decide_eq_true_eq] at small
      simp only [minSigned, maxSigned]
      omega
    · cases same

/-- A number that is read is rounded down to its floor, cut off at 64 bits. -/
theorem floor_eq_clampSigned (read : ofJson? json = some q) : q.floor = clampSigned ⌊q.value⌋ := by
  cases q with
  | whole n =>
    obtain ⟨lower, upper⟩ := signed_of_ofJson? read
    rw [floor, value, Int.floor_intCast, clampSigned_of_mem lower upper]
  | decimal x => rw [floor, value, Binary64.floor_eq]

/-- A number that is read is rounded up to its ceiling, cut off at 64 bits. -/
theorem ceil_eq_clampSigned (read : ofJson? json = some q) : q.ceil = clampSigned ⌈q.value⌉ := by
  cases q with
  | whole n =>
    obtain ⟨lower, upper⟩ := signed_of_ofJson? read
    rw [ceil, value, Int.ceil_intCast, clampSigned_of_mem lower upper]
  | decimal x => rw [ceil, value, Binary64.ceil_eq]

end Quantity

namespace Bound

variable {bound : Bound} {json : Json} {n : Int}

/-- Whether no 64-bit number lies within a bound. -/
def AdmitsNone (bound : Bound) (side : Side) : Prop := ∀ n : Int64, ¬bound.Allows side n.toInt

/-- No 64-bit number lies within a lower bound that starts behind them. -/
theorem admitsNone_minimum : bound.AdmitsNone .minimum ↔ maxSigned < bound.least := by
  simp only [AdmitsNone, ← least_le_iff, not_le]
  constructor
  · intro none
    exact none Int64.maxValue
  · intro beyond n
    exact (signed_toInt n).2.trans_lt beyond

/-- No 64-bit number lies within an upper bound that ends before them. -/
theorem admitsNone_maximum : bound.AdmitsNone .maximum ↔ bound.greatest < minSigned := by
  simp only [AdmitsNone, ← le_greatest_iff, not_le]
  constructor
  · intro none
    exact none Int64.minValue
  · intro beyond n
    exact beyond.trans_le (signed_toInt n).1

/-- The 64-bit numbers from the smallest whole number of a lower bound on, which is cut off at the ends of
the range, lie within the bound; only where none does, the last one passes all the same. -/
theorem leastInteger_le_toInt (read : Quantity.ofJson? json = some bound.value) (n : Int64)
    (edge : bound.exclusive = true → bound.value.value < minSigned → n.toInt ≠ minSigned) :
    bound.leastInteger ≤ n.toInt ↔
      bound.Allows .minimum n.toInt ∨ n.toInt = maxSigned ∧ bound.AdmitsNone .minimum := by
  obtain ⟨lower, upper⟩ := signed_toInt n
  rw [admitsNone_minimum, ← least_le_iff]
  -- With the clamped floor and ceiling in place, what is left are comparisons of integers.
  unfold leastInteger least
  rw [Quantity.floor_eq_clampSigned read, Quantity.ceil_eq_clampSigned read]
  rw [← Int.floor_lt] at edge
  generalize ⌊bound.value.value⌋ = floor at edge
  generalize ⌈bound.value.value⌉ = ceil
  simp only [clampSigned, minSigned, maxSigned] at lower upper edge ⊢
  split
  · rename_i exclusive
    have edge := edge exclusive
    omega
  · omega

/-- The 64-bit numbers up to the largest whole number of an upper bound, which is cut off at the ends of the
range, lie within the bound; only where none does, the first one passes all the same. -/
theorem toInt_le_greatestInteger (read : Quantity.ofJson? json = some bound.value) (n : Int64)
    (edge : bound.exclusive = true → maxSigned < bound.value.value → n.toInt ≠ maxSigned) :
    n.toInt ≤ bound.greatestInteger ↔
      bound.Allows .maximum n.toInt ∨ n.toInt = minSigned ∧ bound.AdmitsNone .maximum := by
  obtain ⟨lower, upper⟩ := signed_toInt n
  rw [admitsNone_maximum, ← le_greatest_iff]
  -- With the clamped floor and ceiling in place, what is left are comparisons of integers.
  unfold greatestInteger greatest
  rw [Quantity.floor_eq_clampSigned read, Quantity.ceil_eq_clampSigned read]
  rw [← Int.lt_ceil] at edge
  generalize ⌊bound.value.value⌋ = floor
  generalize ⌈bound.value.value⌉ = ceil at edge
  simp only [clampSigned, minSigned, maxSigned] at lower upper edge ⊢
  split
  · rename_i exclusive
    have edge := edge exclusive
    omega
  · omega

/-- The 64-bit numbers from the smallest or up to the largest whole number of a bound are those that lie within
the bound. Where none of them does, the whole number is the last or the first of the range, which passes all the
same. Nothing is said of the end of the range that an exclusive bound beyond that end does not reach. -/
theorem range_exact (read : Quantity.ofJson? json = some bound.value) (n : Int64) :
    (¬(bound.exclusive = true ∧ bound.value.value < minSigned ∧ n.toInt = minSigned) →
        (bound.leastInteger ≤ n.toInt ↔
          bound.Allows .minimum n.toInt ∨ n.toInt = maxSigned ∧ bound.AdmitsNone .minimum)) ∧
      (¬(bound.exclusive = true ∧ maxSigned < bound.value.value ∧ n.toInt = maxSigned) →
        (n.toInt ≤ bound.greatestInteger ↔
          bound.Allows .maximum n.toInt ∨ n.toInt = minSigned ∧ bound.AdmitsNone .maximum)) := by
  -- Each side is one of the two lemmas above, with its condition on the end of the range.
  constructor
  · intro reached
    exact leastInteger_le_toInt read n fun exclusive below last => reached ⟨exclusive, below, last⟩
  · intro reached
    exact toInt_le_greatestInteger read n fun exclusive above first => reached ⟨exclusive, above, first⟩

/-- No 64-bit number reaches `1.5 * 2^63`. As a minimum this lets the largest one through all the same, and as a
maximum it lets that through rightly. -/
theorem range_exact_beyond :
    let number : Binary64 := ⟨false, 3, 62, .inl rfl⟩
    let bound := inclusive (.decimal number)
    Quantity.ofJson? (.float number) = some bound.value ∧
      bound.leastInteger ≤ Int64.maxValue.toInt ∧ bound.AdmitsNone .minimum ∧
        Int64.maxValue.toInt ≤ bound.greatestInteger := by
  intro number bound
  -- The double is too large to be taken for a whole number.
  have read : Quantity.ofJson? (.float number) = some bound.value := by decide +kernel
  have largest : Int64.maxValue.toInt = 0x7FFFFFFFFFFFFFFF := by decide
  have value : bound.value.value = 3 * 2 ^ 62 := by
    norm_num [bound, number, inclusive, Quantity.value, Binary64.value, Binary64.magnitude]
  obtain ⟨minimum, maximum⟩ := range_exact read Int64.maxValue
  have minimum := minimum fun outside => Bool.noConfusion outside.1
  have maximum := maximum fun outside => Bool.noConfusion outside.1
  have passes : bound.leastInteger ≤ Int64.maxValue.toInt := by decide +kernel
  refine ⟨read, passes, ?_, maximum.mpr (.inl ?_)⟩
  · -- The largest number does not reach the bound, so that there is no other reason for it to pass.
    refine ((minimum.mp passes).resolve_left fun reaches => ?_).2
    have reaches : bound.value.value ≤ (Int64.maxValue.toInt : ℚ) := reaches
    rw [value, largest] at reaches
    norm_num at reaches
  · show (Int64.maxValue.toInt : ℚ) ≤ bound.value.value
    rw [value, largest]
    norm_num

/-- No 64-bit number is greater than the largest one, and that one passes the check for it. -/
theorem not_range_exact_largest :
    ¬∀ (json : Json) (bound : Bound), Quantity.ofJson? json = some bound.value → ∀ n : Int64,
      (bound.leastInteger ≤ n.toInt ↔ bound.Allows .minimum n.toInt) ∧
        (n.toInt ≤ bound.greatestInteger ↔ bound.Allows .maximum n.toInt) := by
  intro exact'
  have passes : (⟨.whole maxSigned, true⟩ : Bound).leastInteger ≤ Int64.maxValue.toInt := by decide
  have inside := (exact' (.integer maxSigned) ⟨.whole maxSigned, true⟩ rfl Int64.maxValue).1.mp passes
  exact absurd inside (lt_irrefl _)

end Bound

namespace Quantity

variable {a b q : Quantity} {json : Json}

/-- Whether a number is one that can be read from a document: a double is then no whole number that is safely
inside the 64-bit range. -/
structure IsRead (q : Quantity) : Prop where
  proper : q.IsProper
  apart : ∀ x, q = decimal x → isSafelyWhole x = false

/-- A number is one that can be read if it is read from an integer literal of 64 bits, with or without a sign, or
from a double. -/
theorem isRead_of_ofJson? (proper : json.isProper = true) (short : ∀ x, json = .float x → x.IsShort)
    (read : ofJson? json = some q) : q.IsRead := by
  cases q with
  | whole n => exact ⟨signed_of_ofJson? read, nofun⟩
  | decimal x =>
    -- A decimal is read as a double first, and stays one unless it is safely whole.
    obtain ⟨y, double, same⟩ : ∃ y, json.double? = some y ∧
        (if isSafelyWhole y then whole y.trunc else decimal y) = decimal x := by
      unfold ofJson? at read
      split at read
      · cases read
      · exact Option.map_eq_some_iff.mp read
    split at same
    · cases same
    · rename_i apart
      cases same
      refine ⟨?_, fun _ same => decimal.inj same ▸ Bool.eq_false_iff.mpr apart⟩
      cases json with
      -- An integer literal of more bits is rounded, and a rounded number fits into 53 bits.
      | integer m =>
        cases double
        simp only [Json.isProper, Bool.and_eq_true, decide_eq_true_eq] at proper
        exact Binary64.isShort_ofInt (by omega)
      | float y => exact short _ (congrArg _ (Option.some.inj double))
      | _ => cases double

/-- Whether two numbers are a whole number and a double that it is rounded to when the two are compared. -/
def Blurs : Quantity → Quantity → Prop
  | whole n, decimal x | decimal x, whole n => (Binary64.ofInt n).value = x.value
  | _, _ => False

theorem Blurs.symm (blurs : a.Blurs b) : b.Blurs a := by
  cases a <;> cases b <;> exact blurs

/-- A number exceeds another one if it is greater, unless the two blur. -/
theorem exceeds_iff_lt (readA : a.IsRead) (readB : b.IsRead) (clear : ¬a.Blurs b) :
    a.Exceeds b ↔ b.value < a.value := by
  refine ⟨fun exceeds => exceeds.value_lt readA.proper readB.proper, fun less => ?_⟩
  rw [exceeds_iff]
  cases a with
  | whole n =>
    cases b with
    | whole m => exact .inl ⟨n, m, rfl, rfl, Int.cast_lt.mp less⟩
    -- The double stops before the rounded number, as otherwise the two would blur.
    | decimal y =>
      -- Rounding does not pass the double, and it stops before it.
      refine .inr ⟨by simp, lt_of_le_of_ne ?_ fun same => clear same.symm⟩
      exact Binary64.le_value_ofInt (natAbs_lt readA.proper) readB.proper less.le
  | decimal x =>
    cases b with
    | whole m =>
      refine .inr ⟨by simp, lt_of_le_of_ne ?_ clear⟩
      exact Binary64.value_ofInt_le (natAbs_lt readB.proper) readA.proper less.le
    | decimal y => exact .inr ⟨by simp, less⟩

/-- A double that is read is not zero, which is a whole number. -/
theorem IsRead.significand_ne_zero {x : Binary64} (read : (decimal x).IsRead) : x.significand ≠ 0 := by
  intro none
  have whole : x.value = (0 : Int) := by simp [Binary64.value, Binary64.magnitude, none]
  have safe := isSafelyWhole_iff.mpr ⟨0, whole, by decide⟩
  exact absurd safe (by simp [read.apart x rfl])

/-- Numbers that have the same value are the same, unless they blur. -/
theorem eq_of_value_eq (readA : a.IsRead) (readB : b.IsRead) (clear : ¬a.Blurs b)
    (same : a.value = b.value) : a = b := by
  -- A whole number with the value of a double is rounded to that double, which would blur the two.
  have rounded {n : Int} {x : Binary64} (proper : (whole n).IsProper) (short : x.IsShort)
      (same : (n : ℚ) = x.value) : (Binary64.ofInt n).value = x.value :=
    le_antisymm (Binary64.value_ofInt_le (natAbs_lt proper) short same.le)
      (Binary64.le_value_ofInt (natAbs_lt proper) short same.ge)
  cases a with
  | whole n =>
    cases b with
    | whole m =>
      rw [Int.cast_inj.mp same]
    | decimal y => exact absurd (rounded readA.proper readB.proper same) clear
  | decimal x =>
    cases b with
    -- A double that a whole number blurs with is excluded.
    | whole m => exact absurd (rounded readB.proper readA.proper same.symm) clear
    | decimal y =>
      -- Doubles of one value are equal, and a double that is read is not the zero with a sign.
      have equal : x.equals y = true := beq_iff_eq.mpr (Binary64.cmp_eq_eq.mpr same)
      rcases Binary64.equals_iff.mp equal with rfl | ⟨none, -⟩
      · rfl
      · exact absurd none readA.significand_ne_zero

/-- Numbers that are read are compared by their values, and compare as equal only if they are the same, unless
they blur. -/
theorem cmp_exact (readA : a.IsRead) (readB : b.IsRead) (clear : ¬a.Blurs b) :
    a.cmp b = compare a.value b.value ∧ (a.cmp b = .eq ↔ a = b) := by
  have less := exceeds_iff_lt readB readA fun blurs => clear blurs.symm
  have greater := exceeds_iff_lt readA readB clear
  have same : a.cmp b = compare a.value b.value := by
    -- The order of the values is the one that is computed, case by case.
    cases order : a.cmp b with
    | lt => exact (compare_lt_iff_lt.mpr (less.mp (cmp_eq_lt.mp order))).symm
    | gt => exact (compare_gt_iff_gt.mpr (greater.mp order)).symm
    | eq =>
      -- Neither of the two exceeds the other.
      have atMost : ¬b.value < a.value := fun more => nomatch order.symm.trans (greater.mpr more)
      have atLeast : ¬a.value < b.value := fun more => nomatch order.symm.trans (cmp_eq_lt.mpr (less.mpr more))
      exact (compare_eq_iff_eq.mpr (le_antisymm (not_lt.mp atMost) (not_lt.mp atLeast))).symm
  refine ⟨same, ?_⟩
  rw [same, compare_eq_iff_eq]
  exact ⟨eq_of_value_eq readA readB clear, congrArg value⟩

/-- Numbers that blur compare as equal, although they are different. -/
theorem Blurs.cmp_eq (blurs : a.Blurs b) : a.cmp b = .eq ∧ a ≠ b := by
  -- Only a whole number and a double can blur, and these are compared as doubles.
  cases a with
  | whole n =>
    cases b with
    | whole m => exact blurs.elim
    | decimal y => exact ⟨Binary64.cmp_eq_eq.mpr blurs, nofun⟩
  | decimal x =>
    cases b with
    | whole m => exact ⟨Binary64.cmp_eq_eq.mpr (Eq.symm blurs), nofun⟩
    | decimal y => exact blurs.elim

/-- Two whole numbers that blur with one double compare as equal to it, and one of them is less than the other. -/
theorem cmp_not_transitive :
    let double : Quantity := decimal ⟨false, 17547607421875, 19, .inl rfl⟩
    (whole 9199999999999999999).cmp double = .eq ∧ double.cmp (whole 9200000000000000000) = .eq ∧
      (whole 9199999999999999999).cmp (whole 9200000000000000000) = .lt := by
  decide +kernel

/-- A whole number that lies more than half a unit before `9.2e18` is rounded to less than that. -/
theorem nearest_lt {n : Nat} (small : n < 9199999999999999488) :
    Binary64.nearest n < 9200000000000000000 := by
  have last : Binary64.nearest 9199999999999999487 = 9199999999999998976 := by decide +kernel
  have atMost := Binary64.nearest_mono (Nat.le_of_lt_succ small)
  omega

/-- Only large numbers blur: a double that a whole number is rounded to has no fractional part, so that it is
read as a whole number itself unless it is large. -/
theorem Blurs.large {n : Int} {x : Binary64} (blurs : (whole n).Blurs (decimal x))
    (readWhole : (whole n).IsRead) (readDecimal : (decimal x).IsRead) :
    9199999999999999488 ≤ n.natAbs ∧ (9200000000000000000 : ℚ) ≤ |x.value| := by
  have same : (Binary64.ofInt n).value = x.value := blurs
  have rounded : x.value = if n < 0 then -(Binary64.nearest n.natAbs : ℚ) else Binary64.nearest n.natAbs :=
    same.symm.trans (Binary64.value_ofInt (natAbs_lt readWhole.proper))
  -- If it were smaller, the double would have been read as a whole number.
  have large : 9200000000000000000 ≤ Binary64.nearest n.natAbs := by
    by_contra small
    refine absurd (isSafelyWhole_iff.mpr ?_) (Bool.eq_false_iff.mp (readDecimal.apart x rfl))
    refine ⟨if n < 0 then -(Binary64.nearest n.natAbs : Int) else Binary64.nearest n.natAbs, ?_, ?_⟩
    · rw [rounded]
      split <;> simp
    · split <;> omega
  refine ⟨?_, ?_⟩
  · -- Below that, the rounded number would be too small as well.
    by_contra small
    exact absurd large (not_le.mpr (nearest_lt (not_le.mp small)))
  · have absolute : |x.value| = Binary64.nearest n.natAbs := by
      rw [rounded]
      split <;> simp
    rw [absolute]
    exact_mod_cast large

end Quantity

namespace Bound

variable {side : Side} {held bound : Bound} {bounds : List Bound}

/-- The bound that is left of several when they are taken in one after the other. -/
def kept (side : Side) (bounds : List Bound) : Option Bound :=
  bounds.foldl (fun held incoming => some (tighter side held incoming)) none

theorem kept_append_singleton (side : Side) (bounds : List Bound) (last : Bound) :
    kept side (bounds ++ [last]) = some (tighter side (kept side bounds) last) := by
  simp [kept]

/-- Nothing is left only if nothing was taken in. -/
theorem eq_nil_of_kept (none' : kept side bounds = none) : bounds = [] := by
  rcases List.eq_nil_or_concat bounds with rfl | ⟨before, last, rfl⟩
  · rfl
  · rw [List.concat_eq_append, kept_append_singleton] at none'
    cases none'

/-- The bound that is left is one of those that were taken in, and none of them would take its place. -/
theorem kept_spec (read : ∀ bound ∈ bounds, bound.value.IsRead) (left : kept side bounds = some held) :
    held ∈ bounds ∧ ∀ bound ∈ bounds, bound.Spares side held := by
  -- Each bound is taken in behind the others, so the induction takes the last one off.
  induction bounds using List.reverseRecOn generalizing held with
  | nil => cases left
  | append_singleton bounds last ih =>
    rw [kept_append_singleton] at left
    obtain rfl := Option.some.inj left
    -- The last bound and all those before it were read.
    have readLast : last.value.IsRead := read last (by simp)
    have readBefore (bound : Bound) (member : bound ∈ bounds) : bound.value.IsRead :=
      read bound (by simp [member])
    have itself := spares_tighter side (kept side bounds) last
    cases before : kept side bounds with
    | none =>
      rw [before] at itself
      obtain rfl := eq_nil_of_kept before
      have first : tighter side none last = last := by cases side <;> rfl
      rw [first] at itself ⊢
      simp [itself]
    | some held =>
      rw [before] at itself
      obtain ⟨member, spares⟩ := ih readBefore before
      have readHeld := readBefore held member
      -- The bound that is left is tighter than the held one, so whatever spares that spares it too.
      have tight : Tightened side held (tighter side (some held) last) :=
        tightened_tighter readHeld.proper readLast.proper
      have properKept : (tighter side (some held) last).value.IsProper :=
        isProper_tighter (fun _ same => Option.some.inj same ▸ readHeld.proper) readLast.proper
      refine ⟨?_, fun bound member => ?_⟩
      · -- The bound that is left is the held one or the last.
        rcases tighter_mem side (some held) last with same | same
        · rw [← Option.some.inj same]
          exact List.mem_append_left _ member
        · rw [same]
          simp
      · rcases List.mem_append.mp member with earlier | latest
        · have proper := (readBefore bound earlier).proper
          exact (spares bound earlier).tightened tight proper readHeld.proper properKept
        · rwa [List.mem_singleton.mp latest]

/-- A number lies within a bound if it lies at its value or further in, and not at the value itself where the
bound is exclusive. -/
theorem allows_iff {number : ℚ} :
    bound.Allows side number ↔
      side.Inward bound.value.value number ∧ (bound.exclusive = true → bound.value.value ≠ number) := by
  unfold Allows Side.Inward
  cases side with
  | minimum => cases bound.exclusive <;> simp [lt_iff_le_and_ne]
  | maximum => cases bound.exclusive <;> simp [lt_iff_le_and_ne, ne_comm]

/-- A bound that does not beat the one that is held lies no further in, unless their numbers blur. -/
theorem inward_of_not_beats (read : bound.value.IsRead) (readHeld : held.value.IsRead)
    (clear : ¬bound.value.Blurs held.value) (beaten : ¬bound.Beats side held) :
    side.Inward bound.value.value held.value.value := by
  cases side with
  | minimum => exact not_lt.mp fun less => beaten ((Quantity.exceeds_iff_lt read readHeld clear).mpr less)
  | maximum =>
    have clear' : ¬held.value.Blurs bound.value := fun blurs => clear blurs.symm
    exact not_lt.mp fun less => beaten ((Quantity.exceeds_iff_lt readHeld read clear').mpr less)

/-- A bound that would not take the place of the one that is held lets through whatever that does, unless their
numbers blur. -/
theorem Spares.allows (spares : bound.Spares side held) (read : bound.value.IsRead) (readHeld : held.value.IsRead)
    (clear : ¬bound.value.Blurs held.value) {number : ℚ} (inside : held.Allows side number) :
    bound.Allows side number := by
  obtain ⟨inward, apart⟩ := allows_iff.mp inside
  -- The value of the bound is no further inside than that of the held one.
  have further := inward_of_not_beats read readHeld clear spares.not_beats
  refine allows_iff.mpr ⟨further.trans inward, fun exclusive reached => ?_⟩
  -- The number is the value of both bounds, and at that value an exclusive bound is the one that is held.
  have same : bound.value.value = held.value.value := further.antisymm (reached ▸ inward)
  have equal : bound = held :=
    spares.eq_of_exclusive (Quantity.eq_of_value_eq read readHeld clear same) exclusive
  exact apart (equal ▸ exclusive) (equal ▸ reached)

/-- A number lies within the bound that is left of several just if it lies within all of them, in whatever order
they were taken in, unless two of their numbers blur. -/
theorem kept_exact (read : ∀ bound ∈ bounds, bound.value.IsRead)
    (clear : ∀ a ∈ bounds, ∀ b ∈ bounds, ¬a.value.Blurs b.value) (number : ℚ) :
    (∀ held, kept side bounds = some held → held.Allows side number) ↔
      ∀ bound ∈ bounds, bound.Allows side number := by
  constructor
  · intro inside bound member
    -- Without a bound that is left there was none to begin with.
    cases left : kept side bounds with
    | none =>
      rw [eq_nil_of_kept left] at member
      cases member
    | some held =>
      obtain ⟨member', spares⟩ := kept_spec read left
      exact (spares bound member).allows (read bound member) (read held member')
        (clear bound member held member') (inside held left)
  · intro inside held left
    exact inside held (kept_spec read left).1

/-- The same number as a whole number and as a double, where the exclusive bound is left out. -/
theorem not_kept_exact_blurred :
    let including : Bound := ⟨.whole 9200000000000000000, false⟩
    let excluding : Bound := ⟨.decimal ⟨false, 17547607421875, 19, .inl rfl⟩, true⟩
    kept .minimum [including, excluding] = some including ∧
      including.Allows .minimum 9200000000000000000 ∧ ¬excluding.Allows .minimum 9200000000000000000 := by
  intro including excluding
  refine ⟨by decide +kernel, ?_, ?_⟩
  · norm_num [including, Allows, Quantity.value]
  · norm_num [excluding, Allows, Quantity.value, Binary64.value, Binary64.magnitude]

end Bound

end SchemaClasses
